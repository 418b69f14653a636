import JitLens.Proofs.Settings.Entries
import Mathlib.Data.List.Infix
/-!
# Texts on the command line

The value of an item for a text field is all that stands behind its first equal sign, and the field has
it when the items are applied.  The only text field that another item can write is the selected
compiler, and only by turning the runtime of one's own off.
-/

namespace JitLens

/-! ## Cutting at a character -/

namespace Text

theorem cutAt_char_eq_none {c : Char} {cs : List Char} (hc : c ∉ cs) : cutAt [c] cs = none := by
  rwa [cutAt_eq_none_iff, List.singleton_infix_iff]

theorem cutAt_char {c : Char} {before : List Char} (hc : c ∉ before) (behind : List Char) :
    cutAt [c] (before ++ c :: behind) = some (before, behind) := by
  have hfirst : ¬ [c] <:+: before ++ [c].dropLast := by
    simpa [List.singleton_infix_iff] using hc
  rw [← cutAt_append hfirst behind, List.append_assoc]
  rfl

end Text

namespace Table

variable {α : Type}

theorem put_of_notMem {table : Table α} {key : String} (hkey : key ∉ table.map Prod.fst)
    (value : α) : put table key value = table ++ [(key, value)] := by
  induction table with
  | nil => rfl
  | cons entry table ih =>
      obtain ⟨k, v⟩ := entry
      rw [List.map_cons, List.mem_cons, not_or] at hkey
      have hne : (k == key) = false := by simpa using Ne.symm hkey.1
      rw [put, putBy, hne, if_neg Bool.false_ne_true, List.cons_append]
      exact congrArg _ (ih hkey.2)

/-- Entries with different keys are kept as they are. -/
theorem ofList_of_nodup {entries : List (String × α)}
    (hnodup : (entries.map Prod.fst).Nodup) : ofList entries = entries := by
  induction entries using List.reverseRecOn with
  | nil => rfl
  | append_singleton entries entry ih =>
      rw [List.map_append, List.nodup_append] at hnodup
      obtain ⟨hentries, -, hapart⟩ := hnodup
      have hnew : entry.1 ∉ entries.map Prod.fst := fun hmem => hapart _ hmem _ (by simp) rfl
      have hput : ofList (entries ++ [entry]) = put (ofList entries) entry.1 entry.2 := by
        simp [ofList, putAll]
      rw [hput, ih hentries, put_of_notMem hnew]

end Table

namespace Change

/-- A text field is written by its own changes only, but for the selected compiler, which is the
default one without a runtime of one's own. -/
theorem eq_or_reset_of_mem_writes {c w : Change} (hw : w ∈ c.writes)
    (htext : w.field.isText = true) :
    w = c ∨ c = .flag .customRuntime false ∧ w = .optional .selectedJit (some defaultJit) := by
  have hcapture : ∀ mode, ∀ v ∈ captureWrites mode, v.field.isText = false := by
    intro mode
    cases mode <;> decide
  cases c with
  | capture mode =>
      rw [hcapture mode w hw] at htext
      cases htext
  | reload strategy => exact .inl (List.mem_singleton.1 hw)
  | text f v => exact .inl (List.mem_singleton.1 hw)
  | flag f b =>
      have hflags : ∀ v ∈ (Change.flag f b).writes, v.field.isText = true →
          Change.flag f b = .flag .customRuntime false ∧
            v = .optional .selectedJit (some defaultJit) := by
        cases f <;> cases b <;> decide
      exact .inr (hflags w hw htext)
  | optional f v =>
      cases f with
      | selectedJit =>
          cases v with
          | none => exact .inl (List.mem_singleton.1 hw)
          | some name =>
              have hbeside : ∀ v ∈ crossgenWrites, v.field.isText = false := by decide
              rw [writes, List.mem_append, List.mem_singleton] at hw
              rcases hw with hcarried | rfl
              · split at hcarried
                · rw [hbeside w hcarried] at htext
                  cases htext
                · cases hcarried
              · exact .inl rfl
      | _ => exact .inl (List.mem_singleton.1 hw)

theorem mem_writes_of_isText {c : Change} (htext : c.field.isText = true) : c ∈ c.writes := by
  cases c with
  | text f v => exact List.mem_singleton_self _
  | optional f v =>
      cases f with
      | selectedJit =>
          cases v with
          | none => exact List.mem_singleton_self _
          | some name => exact List.mem_append_right _ (List.mem_singleton_self _)
      | _ => exact List.mem_singleton_self _
  | _ => cases htext

end Change

namespace Settings

/-! ## Items -/

/-- An item gives a key a value: the key is what stands before the first equal sign, without the
blanks at either end, and the value is all that stands behind it. -/
def Gives (item key : String) (value : List Char) : Prop :=
  ∃ before, item.toList = before ++ '=' :: value ∧ '=' ∉ before ∧
    key = String.ofList (Text.trim before)

/-- An item without an equal sign, or with a blank key. -/
def Keyless (item : String) : Prop :=
  '=' ∉ item.toList ∨ ∃ value, Gives item "" value

/-- No two items give the same key a value. -/
def Distinct (items : List String) : Prop :=
  items.Pairwise fun i j => ∀ key v w, Gives i key v → ¬ Gives j key w

/-- The value of a text field: the text as it is, and nothing for a blank one. -/
def textOrNull (value : List Char) : Value :=
  if Text.allBlank value = true then .null else .text (String.ofList value)

/-- Items and the entries that they are parsed to, one by one. -/
abbrev ParsedTo (items : List String) (entries : List (String × Value)) : Prop :=
  List.Forall₂ (fun item entry => parseOverride item = .ok entry) items entries

/-- An item changes a field, as its own or along with it. -/
def Overwrites (item : String) (f : Field) : Prop :=
  ∃ c, StandsFor item c ∧ ∃ w ∈ c.writes, w.field = f

section

variable {item key : String} {value : List Char} {items : List String} {table : Table Value}
  {f : Field} {entry : String × Value} {entries : List (String × Value)} {s t : Settings}

theorem keyless_or_gives (item : String) :
    Keyless item ∨ ∃ key value, Gives item key value ∧ key ≠ "" := by
  by_cases hmem : '=' ∈ item.toList
  · obtain ⟨before, value, hitem, hbefore⟩ := List.eq_append_cons_of_mem hmem
    have hgives : Gives item (String.ofList (Text.trim before)) value := ⟨before, hitem, hbefore, rfl⟩
    by_cases hkey : String.ofList (Text.trim before) = ""
    · exact .inl (.inr ⟨value, hkey ▸ hgives⟩)
    · exact .inr ⟨_, value, hgives, hkey⟩
  · exact .inl (.inl hmem)

theorem parseOverride_of_keyless (hitem : Keyless item) :
    parseOverride item = .error (.noPair item) := by
  rcases hitem with hmem | ⟨value, before, hitem, hbefore, hkey⟩
  · rw [parseOverride, Text.cutAt_char_eq_none hmem]
  · rw [parseOverride, hitem, Text.cutAt_char hbefore]
    exact if_pos hkey.symm

theorem parseOverride_of_gives (hgives : Gives item key value) (hkey : key ≠ "") :
    parseOverride item = (overrideValue key value).map (key, ·) := by
  obtain ⟨before, hitem, hbefore, rfl⟩ := hgives
  rw [parseOverride, hitem, Text.cutAt_char hbefore]
  exact if_neg hkey

theorem overrideValue_of_isText (htext : f.isText = true) (value : List Char) :
    overrideValue f.name value = .ok (textOrNull value) := by
  unfold overrideValue textOrNull
  split
  · rfl
  · rw [Field.ofName?_name, Option.any_some, htext, if_pos rfl]

theorem Field.name_ne_empty (f : Field) : f.name ≠ "" := by
  intro hname
  have hfound := Field.ofName?_name f
  rw [hname] at hfound
  cases hfound

theorem parseOverride_text (htext : f.isText = true) (hgives : Gives item f.name value) :
    parseOverride item = .ok (f.name, textOrNull value) := by
  rw [parseOverride_of_gives hgives (Field.name_ne_empty f), overrideValue_of_isText htext]
  rfl

/-- The key that an accepted item is parsed to is the one that it gives a value. -/
theorem gives_of_parseOverride (hparse : parseOverride item = .ok entry) :
    ∃ value, Gives item entry.1 value := by
  rcases keyless_or_gives item with hkeyless | ⟨key, value, hgives, hkey⟩
  · rw [parseOverride_of_keyless hkeyless] at hparse
    cases hparse
  · rw [parseOverride_of_gives hgives hkey] at hparse
    cases hvalue : overrideValue key value with
    | error e =>
        rw [hvalue] at hparse
        cases hparse
    | ok v =>
        rw [hvalue] at hparse
        cases hparse
        exact ⟨value, hgives⟩

/-! ## Lists of items -/

theorem mapM_parseOverride_eq_ok (hparse : items.mapM parseOverride = .ok entries) :
    ParsedTo items entries := by
  induction items generalizing entries with
  | nil =>
      obtain rfl : [] = entries := Except.ok.inj hparse
      exact .nil
  | cons item items ih =>
      rw [List.mapM_cons] at hparse
      cases hfirst : parseOverride item with
      | error e =>
          rw [hfirst] at hparse
          cases hparse
      | ok entry =>
          cases hrest : items.mapM parseOverride with
          | error e =>
              rw [hfirst, hrest] at hparse
              cases hparse
          | ok rest =>
              rw [hfirst, hrest] at hparse
              cases hparse
              exact .cons hfirst (ih hrest)

theorem exists_item
    (hparse : ParsedTo items entries)
    (hmem : entry ∈ entries) : ∃ item ∈ items, parseOverride item = .ok entry := by
  induction hparse with
  | nil => cases hmem
  | @cons item entry' items entries hfirst _ ih =>
      rcases List.mem_cons.1 hmem with rfl | hmem
      · exact ⟨item, List.mem_cons_self, hfirst⟩
      · obtain ⟨i, hi, hparse⟩ := ih hmem
        exact ⟨i, List.mem_cons_of_mem item hi, hparse⟩

theorem exists_entries_split {before after : List String}
    (hparse : ParsedTo (before ++ item :: after) entries) :
    ∃ bs entry as, entries = bs ++ entry :: as ∧ parseOverride item = .ok entry ∧
      ParsedTo after as := by
  induction before generalizing entries with
  | nil =>
      obtain ⟨entry, as, hitem, hafter, rfl⟩ := List.forall₂_cons_left_iff.1 hparse
      exact ⟨[], entry, as, rfl, hitem, hafter⟩
  | cons i before ih =>
      obtain ⟨first, rest, -, hrest, rfl⟩ := List.forall₂_cons_left_iff.1 hparse
      obtain ⟨bs, entry, as, rfl, hitem, hafter⟩ := ih hrest
      exact ⟨first :: bs, entry, as, rfl, hitem, hafter⟩

/-- The first item that is not accepted decides, whatever comes behind it. -/
theorem mapM_parseOverride_error {before after : List String} {e : OverrideError}
    (hbefore : ∀ i ∈ before, ∃ entry, parseOverride i = .ok entry)
    (hitem : parseOverride item = .error e) :
    (before ++ item :: after).mapM parseOverride = .error e := by
  induction before with
  | nil =>
      rw [List.nil_append, List.mapM_cons, hitem]
      rfl
  | cons i before ih =>
      obtain ⟨entry, hfirst⟩ := hbefore i List.mem_cons_self
      rw [List.cons_append, List.mapM_cons, hfirst,
        ih fun j hj => hbefore j (List.mem_cons_of_mem i hj)]
      rfl

theorem nodup_of_distinct (hdistinct : Distinct items)
    (hparse : ParsedTo items entries) :
    (entries.map Prod.fst).Nodup := by
  induction hparse with
  | nil => exact List.nodup_nil
  | @cons item entry items entries hfirst hrest ih =>
      obtain ⟨hitem, hitems⟩ := List.pairwise_cons.1 hdistinct
      rw [List.map_cons, List.nodup_cons]
      refine ⟨fun hmem => ?_, ih hitems⟩
      obtain ⟨other, hother, hkey⟩ := List.mem_map.1 hmem
      obtain ⟨i, hi, hparse⟩ := exists_item hrest hother
      obtain ⟨v, hv⟩ := gives_of_parseOverride hfirst
      obtain ⟨w, hw⟩ := gives_of_parseOverride hparse
      exact hitem i hi entry.1 v w hv (hkey ▸ hw)

theorem gives_unique {other : String} {value' : List Char} (hgives : Gives item key value)
    (hgives' : Gives item other value') : key = other ∧ value = value' := by
  obtain ⟨before, hitem, hbefore, rfl⟩ := hgives
  obtain ⟨before', hitem', hbefore', rfl⟩ := hgives'
  have hcut := Text.cutAt_char hbefore value
  rw [← hitem, hitem', Text.cutAt_char hbefore', Option.some.injEq, Prod.mk.injEq] at hcut
  exact ⟨by rw [hcut.1], hcut.2.symm⟩

theorem distinct_of_nodup (hparse : ParsedTo items entries)
    (hnodup : (entries.map Prod.fst).Nodup) : Distinct items := by
  induction hparse with
  | nil => exact .nil
  | @cons item entry items entries hfirst hrest ih =>
      rw [List.map_cons, List.nodup_cons] at hnodup
      refine .cons ?_ (ih hnodup.2)
      intro i hi key v w hv hw
      obtain ⟨before, after, rfl⟩ := List.append_of_mem hi
      obtain ⟨bs, other, as, rfl, hother, -⟩ := exists_entries_split hrest
      obtain ⟨v', hv'⟩ := gives_of_parseOverride hfirst
      obtain ⟨w', hw'⟩ := gives_of_parseOverride hother
      have hkey : entry.1 = other.1 := (gives_unique hv' hv).1.trans (gives_unique hw hw').1
      exact hnodup.1 (hkey ▸ List.mem_map_of_mem (List.mem_append_right bs List.mem_cons_self))

/-- Items with different keys are parsed one by one. -/
theorem parseOverrides_eq_ok (hparse : parseOverrides items = .ok table)
    (hdistinct : Distinct items) :
    ParsedTo items table ∧ (table.map Prod.fst).Nodup := by
  unfold parseOverrides at hparse
  cases hentries : items.mapM parseOverride with
  | error e =>
      rw [hentries] at hparse
      cases hparse
  | ok entries =>
      rw [hentries] at hparse
      have hforall := mapM_parseOverride_eq_ok hentries
      have hnodup := nodup_of_distinct hdistinct hforall
      rw [← Except.ok.inj hparse, Table.ofList_of_nodup hnodup]
      exact ⟨hforall, hnodup⟩

/-! ## Applying items -/

theorem exists_check_of_checkAll {cs : List Change} (hcheck : checkAll entries = .ok cs)
    (hmem : entry ∈ entries) : ∃ c, Change.check entry.1 entry.2 = .ok c := by
  obtain ⟨before, after, rfl⟩ := List.append_of_mem hmem
  obtain ⟨bs, ds, -, hrest, -⟩ := checkAll_append hcheck
  rw [checkAll_cons] at hrest
  cases hc : Change.check entry.1 entry.2 with
  | error e =>
      rw [hc] at hrest
      cases hrest
  | ok c => exact ⟨c, rfl⟩

theorem check_text {c : Change} (hcheck : Change.check f.name (textOrNull value) = .ok c) :
    c.field = f ∧ c.value = textOrNull value := by
  rw [Change.check, Field.ofName?_name] at hcheck
  exact ⟨Field.field_of_check hcheck, (Field.takes_of_check hcheck).2⟩

theorem overwrites_of_writes (hparse : ParsedTo items entries)
    (hwrites : Writes entries f) : ∃ i ∈ items, Overwrites i f := by
  obtain ⟨name, v, c, hmem, hc, hw⟩ := hwrites
  obtain ⟨i, hi, hitem⟩ := exists_item hparse hmem
  exact ⟨i, hi, c, ⟨name, v, hitem, hc⟩, hw⟩

/-- A text field has the value that it was given last. -/
theorem lookup_of_gives {before after : List String}
    (hparse : ParsedTo (before ++ item :: after) table) (happly : s.applyAll table = .ok t)
    (htext : f.isText = true) (hgives : Gives item f.name value)
    (hlast : ∀ i ∈ after, ¬ Overwrites i f) : (t.lookup f).value = textOrNull value := by
  obtain ⟨bs, entry, as, rfl, hitem, hafter⟩ := exists_entries_split hparse
  rw [parseOverride_text htext hgives, Except.ok.injEq] at hitem
  subst hitem
  obtain ⟨cs, hcs, -⟩ := applyAll_eq_ok_iff.1 happly
  obtain ⟨c, hc⟩ := exists_check_of_checkAll hcs
    (List.mem_append_right bs (List.mem_cons_self (a := (f.name, textOrNull value))))
  obtain ⟨rfl, hvalue⟩ := check_text hc
  have hnot : ¬ Writes as c.field := by
    intro hwrites
    obtain ⟨i, hi, hover⟩ := overwrites_of_writes hafter hwrites
    exact hlast i hi hover
  rw [lookup_of_last hc (Change.mem_writes_of_isText htext) hnot happly, hvalue]

/-- The only text field that an item of another key writes is the selected compiler. -/
theorem reset_of_overwrites (htext : f.isText = true) {other : String}
    (hother : ∀ v, ¬ Gives other f.name v) (hover : Overwrites other f) :
    f = .optional .selectedJit ∧ StandsFor other (.flag .customRuntime false) := by
  obtain ⟨c, hstands, w, hw, rfl⟩ := hover
  rcases Change.eq_or_reset_of_mem_writes hw htext with rfl | ⟨rfl, rfl⟩
  · obtain ⟨name, v, hparse, hc⟩ := hstands
    obtain ⟨v', hgives⟩ := gives_of_parseOverride hparse
    exact absurd (Change.name_field hc ▸ hgives) (hother v')
  · exact ⟨rfl, hstands⟩

/-- A required text that is left blank is refused. -/
theorem applyAll_of_blank {g : RequiredText} (hparse : ParsedTo items table) (hitem : item ∈ items)
    (hgives : Gives item (Field.text g).name value) (hblank : Text.allBlank value = true)
    (s : Settings) : ∃ e, s.applyAll table = .error e := by
  cases happly : s.applyAll table with
  | error e => exact ⟨e, rfl⟩
  | ok t =>
      obtain ⟨before, after, rfl⟩ := List.append_of_mem hitem
      obtain ⟨bs, entry, as, rfl, hparsed, -⟩ := exists_entries_split hparse
      rw [parseOverride_text rfl hgives, Except.ok.injEq] at hparsed
      subst hparsed
      obtain ⟨cs, hcs, -⟩ := applyAll_eq_ok_iff.1 happly
      obtain ⟨c, hc⟩ := exists_check_of_checkAll hcs
        (List.mem_append_right bs (List.mem_cons_self (a := (_, textOrNull value))))
      rw [textOrNull, if_pos hblank, Change.check, Field.ofName?_name] at hc
      cases hc

end

/-- What items come to, where the values for text fields are taken as they are. -/
structure TakenVerbatim (items : List String) : Prop where
  /-- One item without a key is enough to refuse all. -/
  refused : (∃ item ∈ items, Keyless item) → ∃ e, parseOverrides items = .error e
  /-- It is named if no item before it is refused for its value. -/
  named : ∀ before item after, items = before ++ item :: after →
    (∀ i ∈ before, ∃ entry, parseOverride i = .ok entry) → Keyless item →
    parseOverrides items = .error (.noPair item)
  /-- The value for a text field is parsed to itself, or to nothing if it is blank. -/
  parsed : ∀ table, parseOverrides items = .ok table → Distinct items →
    ∀ item ∈ items, ∀ (f : Field) (value : List Char), f.isText = true → Gives item f.name value →
    Table.get? table f.name = some (textOrNull value)
  /-- The field has that value in the end unless an item behind it writes the field as well. -/
  applied : ∀ table, parseOverrides items = .ok table → Distinct items →
    ∀ s t : Settings, s.applyAll table = .ok t → ∀ before item after, items = before ++ item :: after →
    ∀ (f : Field) (value : List Char), f.isText = true → Gives item f.name value →
    (∀ i ∈ after, ¬ Overwrites i f) → (t.lookup f).value = textOrNull value
  /-- Such an item turns the runtime of one's own off, and the field is the selected compiler. -/
  overwritten : Distinct items → ∀ before item after, items = before ++ item :: after →
    ∀ (f : Field) (value : List Char), f.isText = true → Gives item f.name value →
    ∀ i ∈ after, Overwrites i f →
    f = .optional .selectedJit ∧ StandsFor i (.flag .customRuntime false)
  /-- A blank value for a text that is required refuses all items. -/
  blank : ∀ table, parseOverrides items = .ok table → Distinct items →
    ∀ item ∈ items, ∀ (g : RequiredText) (value : List Char), Gives item (Field.text g).name value →
    Text.allBlank value = true → ∀ s : Settings, ∃ e, s.applyAll table = .error e

theorem parseOverrides_of_keyless {before after : List String} {item : String}
    (hbefore : ∀ i ∈ before, ∃ entry, parseOverride i = .ok entry) (hitem : Keyless item) :
    parseOverrides (before ++ item :: after) = .error (.noPair item) := by
  rw [parseOverrides, mapM_parseOverride_error hbefore (parseOverride_of_keyless hitem)]
  rfl

/-- Whatever the items are, texts are taken from them as they are. -/
theorem overrides_takenVerbatim (items : List String) : TakenVerbatim items where
  refused := by
    rintro ⟨item, hitem, hkeyless⟩
    unfold parseOverrides
    cases hentries : items.mapM parseOverride with
    | error e => exact ⟨e, rfl⟩
    | ok entries =>
        obtain ⟨before, after, rfl⟩ := List.append_of_mem hitem
        obtain ⟨-, entry, -, -, hparse, -⟩ :=
          exists_entries_split (mapM_parseOverride_eq_ok hentries)
        rw [parseOverride_of_keyless hkeyless] at hparse
        cases hparse
  named before item after hitems hbefore hkeyless := by
    rw [hitems]
    exact parseOverrides_of_keyless hbefore hkeyless
  parsed table htable hdistinct item hitem f value htext hgives := by
    obtain ⟨hparse, hnodup⟩ := parseOverrides_eq_ok htable hdistinct
    obtain ⟨before, after, rfl⟩ := List.append_of_mem hitem
    obtain ⟨bs, entry, as, rfl, hentry, -⟩ := exists_entries_split hparse
    rw [parseOverride_text htext hgives, Except.ok.injEq] at hentry
    rw [Table.get?_eq_some_iff_mem hnodup, hentry]
    exact List.mem_append_right bs List.mem_cons_self
  applied table htable hdistinct s t happly before item after hitems f value htext hgives hlast := by
    obtain ⟨hparse, -⟩ := parseOverrides_eq_ok htable hdistinct
    rw [hitems] at hparse
    exact lookup_of_gives hparse happly htext hgives hlast
  overwritten hdistinct before item after hitems f value htext hgives i hi hover := by
    rw [hitems] at hdistinct
    have hbehind := (List.pairwise_cons.1 (List.pairwise_append.1 hdistinct).2.1).1 i hi
    exact reset_of_overwrites htext (fun v => hbehind _ _ _ hgives) hover
  blank table htable hdistinct item hitem g value hgives hblank s := by
    obtain ⟨hparse, -⟩ := parseOverrides_eq_ok htable hdistinct
    exact applyAll_of_blank hparse hitem hgives hblank s

/-- A version that looks like a number, variables with blanks and equal signs of their own, and an
architecture that is cleared. -/
theorem overrides_takenVerbatim_version :
    let items := [" current_version =1.10", "custom_env_vars= A=\"no\" ", "arch= "]
    let s : Settings := { arch := some "arm64" }
    ∃ table t, parseOverrides items = .ok table ∧ Distinct items ∧ s.applyAll table = .ok t ∧
      (t.lookup (.text .version)).value = .text "1.10" ∧
      (t.lookup (.optional .customVars)).value = .text " A=\"no\" " ∧
      (t.lookup (.optional .arch)).value = .null := by
  intro items s
  let table : Table Value :=
    [("current_version", .text "1.10"), ("custom_env_vars", .text " A=\"no\" "), ("arch", .null)]
  have htable : parseOverrides items = .ok table := by rfl
  have hparse : ParsedTo items table := .cons (by rfl) (.cons (by rfl) (.cons (by rfl) .nil))
  have hdistinct : Distinct items := distinct_of_nodup hparse (by decide)
  obtain ⟨t, happly⟩ : ∃ t, s.applyAll table = .ok t := ⟨_, by rfl⟩
  -- None of the three fields is the selected compiler, so no item behind theirs writes them.
  have hfield (before : List String) (item : String) (after : List String) (f : Field)
      (value : List Char) (hitems : items = before ++ item :: after) (htext : f.isText = true)
      (hgives : Gives item f.name value) (hf : f ≠ .optional .selectedJit) :
      (t.lookup f).value = textOrNull value := by
    have hverbatim := overrides_takenVerbatim items
    refine hverbatim.applied table htable hdistinct s t happly before item after hitems f value
      htext hgives fun i hi hover => hf ?_
    exact (hverbatim.overwritten hdistinct before item after hitems f value htext hgives i hi
      hover).1
  have hversion := hfield [] _ _ (.text .version) "1.10".toList rfl rfl
    ⟨" current_version ".toList, rfl, by decide, rfl⟩ (by decide)
  have hvars := hfield [_] _ _ (.optional .customVars) " A=\"no\" ".toList rfl rfl
    ⟨"custom_env_vars".toList, rfl, by decide, rfl⟩ (by decide)
  have harch := hfield [_, _] _ _ (.optional .arch) [' '] rfl rfl
    ⟨"arch".toList, rfl, by decide, rfl⟩ (by decide)
  exact ⟨table, t, htable, hdistinct, happly, hversion.trans (by rfl), hvars.trans (by rfl),
    harch.trans (by rfl)⟩

end Settings
end JitLens
