import JitLens.Proofs.Settings.Load
import JitLens.Proofs.Settings.Overrides
/-!
# Settings from the entries of a file

Every kind of field has its values, and the entries of a mapping are taken as settings exactly if each
field among their keys stands with a value of its kind.  Keys that are no fields are passed over with a
warning, and the first field with another value is refused.
-/

namespace JitLens

/-! ## Values of a field -/

namespace CaptureMode

theorem name_of_ofName? {s : String} {m : CaptureMode} (hm : ofName? s = some m) : m.name = s :=
  eq_of_beq (List.find?_some hm :)

end CaptureMode

namespace ReloadStrategy

theorem name_of_ofName? {s : String} {r : ReloadStrategy} (hr : ofName? s = some r) : r.name = s :=
  eq_of_beq (List.find?_some hr :)

end ReloadStrategy

namespace Field

/-- The values of each kind of field. -/
inductive Takes : Field → Value → Prop where
  | capture (m : CaptureMode) : Takes .capture (.text m.name)
  | reload (r : ReloadStrategy) : Takes .reload (.text r.name)
  | flag (f : Flag) (b : Bool) : Takes (.flag f) (.bool b)
  | text (f : RequiredText) (s : String) : Takes (.text f) (.text s)
  | cleared (f : OptionalText) : Takes (.optional f) .null
  | optional (f : OptionalText) (s : String) : Takes (.optional f) (.text s)

/-- Why a field does not take a value of another kind. -/
def refusal (f : Field) (value : Value) : ChangeError :=
  match f with
  | .capture => .notMode value
  | .reload => .notStrategy value
  | .flag _ => .notFlag f.name value
  | .text _ | .optional _ => .notText f.name value

theorem takes_of_check {f : Field} {value : Value} {c : Change} (hcheck : f.check value = .ok c) :
    f.Takes value ∧ c.value = value := by
  cases f with
  | capture =>
      cases value with
      | text s =>
          cases hm : CaptureMode.ofName? s with
          | none => simp [check, hm] at hcheck
          | some m =>
              obtain rfl := CaptureMode.name_of_ofName? hm
              simp only [check, hm, Except.ok.injEq] at hcheck
              exact ⟨.capture m, hcheck ▸ rfl⟩
      | _ => cases hcheck
  | reload =>
      cases value with
      | text s =>
          cases hr : ReloadStrategy.ofName? s with
          | none => simp [check, hr] at hcheck
          | some r =>
              obtain rfl := ReloadStrategy.name_of_ofName? hr
              simp only [check, hr, Except.ok.injEq] at hcheck
              exact ⟨.reload r, hcheck ▸ rfl⟩
      | _ => cases hcheck
  | flag f =>
      cases value <;> cases hcheck
      exact ⟨.flag f _, rfl⟩
  | text f =>
      cases value <;> cases hcheck
      exact ⟨.text f _, rfl⟩
  | optional f =>
      cases value <;> cases hcheck
      · exact ⟨.cleared f, rfl⟩
      · exact ⟨.optional f _, rfl⟩

theorem exists_check_of_takes {f : Field} {value : Value} (htakes : f.Takes value) :
    ∃ c, f.check value = .ok c := by
  cases htakes with
  | capture m => exact ⟨.capture m, by rw [check, CaptureMode.ofName?_name]⟩
  | reload r => exact ⟨.reload r, by rw [check, ReloadStrategy.ofName?_name]⟩
  | flag f b => exact ⟨_, rfl⟩
  | text f s => exact ⟨_, rfl⟩
  | cleared f => exact ⟨_, rfl⟩
  | optional f s => exact ⟨_, rfl⟩

theorem refusal_of_check {f : Field} {value : Value} {e : ChangeError}
    (hcheck : f.check value = .error e) : e = f.refusal value := by
  cases f with
  | capture =>
      cases value with
      | text s =>
          rw [check] at hcheck
          split at hcheck <;> cases hcheck
          rfl
      | _ => cases hcheck; rfl
  | reload =>
      cases value with
      | text s =>
          rw [check] at hcheck
          split at hcheck <;> cases hcheck
          rfl
      | _ => cases hcheck; rfl
  | flag f => cases value <;> cases hcheck <;> rfl
  | text f => cases value <;> cases hcheck <;> rfl
  | optional f => cases value <;> cases hcheck <;> rfl

/-- A field takes the values of its kind, which it keeps as they are, and refuses all others. -/
theorem check_cases (f : Field) (value : Value) :
    (∃ c, f.check value = .ok c ∧ c.field = f ∧ c.value = value ∧ f.Takes value) ∨
      f.check value = .error (f.refusal value) ∧ ¬ f.Takes value := by
  cases hcheck : f.check value with
  | ok c =>
      obtain ⟨htakes, hvalue⟩ := takes_of_check hcheck
      exact .inl ⟨c, rfl, field_of_check hcheck, hvalue, htakes⟩
  | error e =>
      refine .inr ⟨by rw [refusal_of_check hcheck], fun htakes => ?_⟩
      obtain ⟨c, hc⟩ := exists_check_of_takes htakes
      rw [hcheck] at hc
      cases hc

theorem nodup_names : (all.map name).Nodup := by
  decide +kernel

end Field

namespace Settings

theorem get?_toTable (s : Settings) (f : Field) :
    Table.get? s.toTable f.name = some (s.lookup f).value := by
  have hnames : s.toTable.map Prod.fst = Field.all.map Field.name := by
    rw [toTable, List.map_map]
    rfl
  rw [Table.get?_eq_some_iff_mem (hnames ▸ Field.nodup_names)]
  exact List.mem_map.2 ⟨f, f.mem_all, rfl⟩

/-! ## Keys -/

/-- A key that is the name of no field. -/
def Unknown (key : Value) : Prop :=
  ∀ f : Field, key ≠ .text f.name

/-- The field that a key names. -/
def fieldOf? : Value → Option Field
  | .text name => Field.ofName? name
  | _ => none

theorem fieldOf?_eq_some_iff {key : Value} {f : Field} :
    fieldOf? key = some f ↔ key = .text f.name := by
  constructor
  · intro hf
    cases key with
    | text name => rw [← Field.name_of_ofName? hf]
    | _ => cases hf
  · rintro rfl
    exact Field.ofName?_name f

theorem fieldOf?_eq_none_iff {key : Value} : fieldOf? key = none ↔ Unknown key := by
  rw [Option.eq_none_iff_forall_ne_some]
  exact forall_congr' fun f => not_congr fieldOf?_eq_some_iff

instance (key : Value) : Decidable (Unknown key) :=
  decidable_of_iff (fieldOf? key = none) fieldOf?_eq_none_iff

theorem unknown_or_field (key : Value) : Unknown key ∨ ∃ f : Field, key = .text f.name := by
  cases hf : fieldOf? key with
  | none => exact .inl (fieldOf?_eq_none_iff.1 hf)
  | some f => exact .inr ⟨f, fieldOf?_eq_some_iff.1 hf⟩

/-- The keys that are no fields, in their order. -/
def unknownKeys (entries : List (Value × Value)) : List Value :=
  (entries.map Prod.fst).filter fun key => decide (Unknown key)

/-- Every field among the keys stands with a value that it takes. -/
def AllTaken (entries : List (Value × Value)) : Prop :=
  ∀ f : Field, ∀ value, (.text f.name, value) ∈ entries → f.Takes value

section

variable {s t : Settings} {key value : Value} {entries rest : List (Value × Value)} {f : Field}

theorem unknownKeys_cons_of_unknown (hkey : Unknown key) :
    unknownKeys ((key, value) :: rest) = key :: unknownKeys rest := by
  simp [unknownKeys, hkey]

theorem unknownKeys_cons_of_field : unknownKeys ((.text f.name, value) :: rest) = unknownKeys rest := by
  have hkey : ¬ Unknown (.text f.name) := fun hunknown => hunknown f rfl
  simp [unknownKeys, hkey]

theorem allTaken_cons_of_unknown (hkey : Unknown key) :
    AllTaken ((key, value) :: rest) ↔ AllTaken rest := by
  constructor
  · exact fun htaken f v hv => htaken f v (List.mem_cons_of_mem _ hv)
  · intro htaken f v hv
    rcases List.mem_cons.1 hv with heq | hv
    · exact absurd (Prod.mk.inj heq).1.symm (hkey f)
    · exact htaken f v hv

theorem allTaken_cons_of_field :
    AllTaken ((.text f.name, value) :: rest) ↔ f.Takes value ∧ AllTaken rest := by
  constructor
  · exact fun htaken => ⟨htaken f value List.mem_cons_self,
      fun g v hv => htaken g v (List.mem_cons_of_mem _ hv)⟩
  · rintro ⟨htakes, htaken⟩ g v hv
    rcases List.mem_cons.1 hv with heq | hv
    · obtain ⟨hname, rfl⟩ := Prod.mk.inj heq
      obtain rfl := Field.name_inj.1 (Value.text.inj hname)
      exact htakes
    · exact htaken g v hv

/-! ## One entry -/

theorem setEntries_cons_of_unknown (hkey : Unknown key) :
    s.setEntries ((key, value) :: rest) =
      (key :: (s.setEntries rest).1, (s.setEntries rest).2) := by
  have hfield := fieldOf?_eq_none_iff.2 hkey
  cases key with
  | text name =>
      rw [fieldOf?] at hfield
      rw [setEntries]
      simp only [hfield]
  | _ => rfl

theorem setEntries_cons_of_check {c : Change} (hcheck : f.check value = .ok c) :
    s.setEntries ((.text f.name, value) :: rest) = (s.update c).setEntries rest := by
  rw [setEntries]
  simp only [Field.ofName?_name, hcheck]

theorem setEntries_cons_of_refused (hcheck : f.check value = .error (f.refusal value)) :
    s.setEntries ((.text f.name, value) :: rest) = ([], .error (f.refusal value)) := by
  rw [setEntries]
  simp only [Field.ofName?_name, hcheck]

/-! ## All entries -/

/-- Entries whose fields have values of their kinds are taken, with a warning for each other key. -/
theorem exists_setEntries_of_allTaken (htaken : AllTaken entries) (s : Settings) :
    ∃ t, s.setEntries entries = (unknownKeys entries, .ok t) := by
  induction entries generalizing s with
  | nil => exact ⟨s, rfl⟩
  | cons entry rest ih =>
      obtain ⟨key, value⟩ := entry
      rcases unknown_or_field key with hkey | ⟨f, rfl⟩
      · obtain ⟨t, ht⟩ := ih ((allTaken_cons_of_unknown hkey).1 htaken) s
        exact ⟨t, by rw [setEntries_cons_of_unknown hkey, ht, unknownKeys_cons_of_unknown hkey]⟩
      · obtain ⟨htakes, htaken⟩ := allTaken_cons_of_field.1 htaken
        obtain ⟨c, hcheck, -⟩ := (f.check_cases value).resolve_right fun h => h.2 htakes
        obtain ⟨t, ht⟩ := ih htaken (s.update c)
        exact ⟨t, by rw [setEntries_cons_of_check hcheck, ht, unknownKeys_cons_of_field]⟩

/-- The first field with a value of another kind is refused; the entries behind it are not looked
at. -/
theorem exists_refused_of_not_allTaken (htaken : ¬ AllTaken entries) :
    ∃ before, ∃ f : Field, ∃ value after,
      entries = before ++ (.text f.name, value) :: after ∧ AllTaken before ∧ ¬ f.Takes value ∧
        ∀ s : Settings, s.setEntries entries = (unknownKeys before, .error (f.refusal value)) := by
  induction entries with
  | nil => exact absurd (fun f v hv => absurd hv List.not_mem_nil) htaken
  | cons entry rest ih =>
      obtain ⟨key, value⟩ := entry
      rcases unknown_or_field key with hkey | ⟨f, rfl⟩
      · rw [allTaken_cons_of_unknown hkey] at htaken
        obtain ⟨before, g, v, after, rfl, hbefore, hrefused, hset⟩ := ih htaken
        refine ⟨(key, value) :: before, g, v, after, rfl,
          (allTaken_cons_of_unknown hkey).2 hbefore, hrefused, fun s => ?_⟩
        rw [setEntries_cons_of_unknown hkey, hset, unknownKeys_cons_of_unknown hkey]
      · rcases f.check_cases value with ⟨c, hcheck, -, -, htakes⟩ | ⟨hcheck, hrefused⟩
        · rw [allTaken_cons_of_field, not_and] at htaken
          obtain ⟨before, g, v, after, rfl, hbefore, hrefused, hset⟩ := ih (htaken htakes)
          refine ⟨(.text f.name, value) :: before, g, v, after, rfl,
            allTaken_cons_of_field.2 ⟨htakes, hbefore⟩, hrefused, fun s => ?_⟩
          rw [setEntries_cons_of_check hcheck, hset, unknownKeys_cons_of_field]
        · exact ⟨[], f, value, rest, rfl, fun g v hv => absurd hv List.not_mem_nil, hrefused,
            fun s => setEntries_cons_of_refused hcheck⟩

theorem allTaken_of_setEntries (hset : (s.setEntries entries).2 = .ok t) : AllTaken entries := by
  by_contra htaken
  obtain ⟨before, f, value, after, -, -, -, hrefused⟩ := exists_refused_of_not_allTaken htaken
  rw [hrefused] at hset
  cases hset

/-- A field that is not among the keys keeps its value. -/
theorem lookup_setEntries_of_notMem (hset : (s.setEntries entries).2 = .ok t)
    (hf : ∀ value, (.text f.name, value) ∉ entries) : t.lookup f = s.lookup f := by
  induction entries generalizing s with
  | nil =>
      obtain rfl : s = t := Except.ok.inj hset
      rfl
  | cons entry rest ih =>
      obtain ⟨key, value⟩ := entry
      have hrest : ∀ v, (.text f.name, v) ∉ rest := fun v hv => hf v (List.mem_cons_of_mem _ hv)
      rcases unknown_or_field key with hkey | ⟨g, rfl⟩
      · rw [setEntries_cons_of_unknown hkey] at hset
        exact ih hset hrest
      · rcases g.check_cases value with ⟨c, hcheck, hfield, -, -⟩ | ⟨hcheck, -⟩
        · have hne : c.field ≠ f := by
            rintro rfl
            exact hf value (hfield ▸ List.mem_cons_self)
          rw [setEntries_cons_of_check hcheck] at hset
          rw [ih hset hrest, lookup_update_of_ne hne]
        · rw [setEntries_cons_of_refused hcheck] at hset
          cases hset

/-- A field that is among the keys once gets the value that it stands with. -/
theorem lookup_setEntries_of_mem
    (hkeys : entries.Pairwise fun a b => Value.sameKey a.1 b.1 = false)
    (hset : (s.setEntries entries).2 = .ok t) (hmem : (.text f.name, value) ∈ entries) :
    (t.lookup f).value = value := by
  induction entries generalizing s with
  | nil => cases hmem
  | cons entry rest ih =>
      obtain ⟨key, v⟩ := entry
      obtain ⟨hfirst, hrest⟩ := List.pairwise_cons.1 hkeys
      rcases unknown_or_field key with hkey | ⟨g, rfl⟩
      · rw [setEntries_cons_of_unknown hkey] at hset
        rcases List.mem_cons.1 hmem with heq | hmem
        · exact absurd (Prod.mk.inj heq).1.symm (hkey f)
        · exact ih hrest hset hmem
      · rcases g.check_cases v with ⟨c, hcheck, hfield, hvalue, -⟩ | ⟨hcheck, -⟩
        · rw [setEntries_cons_of_check hcheck] at hset
          rcases List.mem_cons.1 hmem with heq | hmem
          · obtain ⟨hname, rfl⟩ := Prod.mk.inj heq
            obtain rfl := Field.name_inj.1 (Value.text.inj hname)
            have hgone : ∀ v', (.text f.name, v') ∉ rest := by
              intro v' hv'
              have hsame := hfirst _ hv'
              simp [Value.sameKey] at hsame
            rw [lookup_setEntries_of_notMem hset hgone, ← hvalue, ← hfield, lookup_update_self]
          · exact ih hrest hset hmem
        · rw [setEntries_cons_of_refused hcheck] at hset
          cases hset

/-- Keys that are no fields have no part in the result. -/
theorem setEntries_filter_known (s : Settings) (entries : List (Value × Value)) :
    s.setEntries (entries.filter fun e => !decide (Unknown e.1)) =
      ([], (s.setEntries entries).2) := by
  induction entries generalizing s with
  | nil => rfl
  | cons entry rest ih =>
      obtain ⟨key, value⟩ := entry
      rcases unknown_or_field key with hkey | ⟨f, rfl⟩
      · rw [List.filter_cons_of_neg (by simp [hkey]), ih, setEntries_cons_of_unknown hkey]
      · have hkey : ¬ Unknown (.text f.name) := fun hunknown => hunknown f rfl
        rw [List.filter_cons_of_pos (by simp [hkey])]
        rcases f.check_cases value with ⟨c, hcheck, -⟩ | ⟨hcheck, -⟩
        · rw [setEntries_cons_of_check hcheck, setEntries_cons_of_check hcheck, ih]
        · rw [setEntries_cons_of_refused hcheck, setEntries_cons_of_refused hcheck]

/-- Entries of fields are checked like changes, and then written one after the other. -/
theorem setEntries_fields {changes : List (String × Value)}
    (hfields : ∀ e ∈ changes, ∃ f : Field, e.1 = f.name) (s : Settings) :
    s.setEntries (changes.map fun (name, value) => (.text name, value)) =
      ([], (checkAll changes).map fun cs => cs.foldl update s) := by
  induction changes generalizing s with
  | nil => rfl
  | cons entry changes ih =>
      obtain ⟨name, value⟩ := entry
      obtain ⟨f, rfl⟩ := hfields _ List.mem_cons_self
      have hrest := ih fun e he => hfields e (List.mem_cons_of_mem _ he)
      have hname : Change.check f.name value = f.check value := by
        rw [Change.check, Field.ofName?_name]
      rw [List.map_cons, checkAll_cons, hname]
      rcases f.check_cases value with ⟨c, hcheck, -⟩ | ⟨hcheck, -⟩
      · rw [setEntries_cons_of_check hcheck, hrest, hcheck]
        cases checkAll changes <;> rfl
      · rw [setEntries_cons_of_refused hcheck, hcheck]
        rfl

end

/-- A file with the entries leaves a warning for each of the keys given, and says where it cannot be
used. -/
theorem run_ofContent_of_entries {path : Files.Path} {content : Text.Bytes}
    {entries : List (Value × Value)} (hentries : readEntries path content = .ok entries) (b : Bench) :
    (ofContent path content).run.run b =
      ((ofEntries entries).2.mapError fun e => .settings (.invalid path.text e.message),
        warned b ((ofEntries entries).1.map .unknownSetting)) := by
  unfold ofContent
  rw [hentries, Action.run_bind_ok (Action.run_ofExcept_ok id entries b)]
  dsimp only
  rw [Action.run_bind_ok (run_warnings _ b)]
  cases (ofEntries entries).2 <;> rfl

/-- What entries with different keys come to as settings. -/
structure TakenExactly (entries : List (Value × Value)) : Prop where
  /-- They are taken if every field among the keys takes its value, and else not. -/
  taken : (∃ s, (ofEntries entries).2 = .ok s) ↔ AllTaken entries
  /-- The fields among the keys have their values in the settings as data. -/
  given : ∀ s, (ofEntries entries).2 = .ok s → ∀ (f : Field) (value : Value),
    (.text f.name, value) ∈ entries → Table.get? s.toTable f.name = some value
  /-- The other fields have their defaults. -/
  defaults : ∀ s, (ofEntries entries).2 = .ok s → ∀ f : Field,
    (∀ value, (.text f.name, value) ∉ entries) →
    Table.get? s.toTable f.name = Table.get? ({} : Settings).toTable f.name
  /-- Each key that is no field gives one warning, in their order. -/
  unknown : ∀ s, (ofEntries entries).2 = .ok s → (ofEntries entries).1 = unknownKeys entries
  /-- In a file each of them is recorded as a warning, and nothing else is. -/
  recorded : ∀ path content, readEntries path content = .ok entries → ∀ b : Bench,
    ((ofContent path content).run.run b).2 =
      warned b ((ofEntries entries).1.map .unknownSetting)
  /-- Without the keys that are no fields the result is the same. -/
  ignored : (ofEntries (entries.filter fun e => !decide (Unknown e.1))).2 = (ofEntries entries).2
  /-- The first field with a value that it does not take is refused, behind the warnings for the
  keys before it. -/
  refused : ∀ e, (ofEntries entries).2 = .error e → ∃ before, ∃ f : Field, ∃ value after,
    entries = before ++ (.text f.name, value) :: after ∧ AllTaken before ∧ ¬ f.Takes value ∧
      (ofEntries entries).1 = unknownKeys before ∧ e = f.refusal value
  /-- As changes of any settings, fields are taken and refused for the same reasons. -/
  changes : ∀ changes : List (String × Value), (∀ e ∈ changes, ∃ f : Field, e.1 = f.name) →
    entries = changes.map (fun (name, value) => (.text name, value)) → ∀ s : Settings,
      ((∃ t, s.applyAll changes = .ok t) ↔ ∃ t, (ofEntries entries).2 = .ok t) ∧
        ∀ e, s.applyAll changes = .error e ↔ (ofEntries entries).2 = .error e

/-- The entries of a mapping are taken as settings exactly if their values are of the kinds of their
fields. -/
theorem ofEntries_takenExactly {entries : List (Value × Value)}
    (hkeys : entries.Pairwise fun a b => Value.sameKey a.1 b.1 = false) :
    TakenExactly entries where
  taken := by
    constructor
    · rintro ⟨s, hs⟩
      exact allTaken_of_setEntries hs
    · intro htaken
      obtain ⟨t, ht⟩ := exists_setEntries_of_allTaken htaken {}
      exact ⟨t, by rw [ofEntries, ht]⟩
  given s hs f value hmem := by
    rw [get?_toTable, lookup_setEntries_of_mem hkeys hs hmem]
  defaults s hs f hf := by
    rw [get?_toTable, get?_toTable, lookup_setEntries_of_notMem hs hf]
  unknown s hs := by
    obtain ⟨t, ht⟩ := exists_setEntries_of_allTaken (allTaken_of_setEntries hs) {}
    rw [ofEntries, ht]
  recorded path content hentries b := by
    rw [run_ofContent_of_entries hentries]
  ignored := by
    rw [ofEntries, setEntries_filter_known]
    rfl
  refused e he := by
    have htaken : ¬ AllTaken entries := by
      intro htaken
      obtain ⟨t, ht⟩ := exists_setEntries_of_allTaken htaken {}
      rw [ofEntries, ht] at he
      cases he
    obtain ⟨before, f, value, after, hentries, hbefore, hrefused, hset⟩ :=
      exists_refused_of_not_allTaken htaken
    rw [ofEntries, hset] at he ⊢
    exact ⟨before, f, value, after, hentries, hbefore, hrefused, rfl, (Except.error.inj he).symm⟩
  changes changes hfields hentries s := by
    rw [hentries, ofEntries, setEntries_fields hfields, applyAll_eq]
    cases checkAll changes with
    | ok cs => simp [Except.map]
    | error e' => simp [Except.map]

/-- Fields of three kinds, among them keys that are no fields. -/
theorem ofEntries_takenExactly_mixed :
    let entries : List (Value × Value) := [
      (.text "fg_phase", .null), (.int 3, .bool true), (.text "capture_mode", .text "jit_dump"),
      (.text "colour", .list []), (.text "use_pgo", .bool true)]
    (entries.Pairwise fun a b => Value.sameKey a.1 b.1 = false) ∧
      ∃ s, (ofEntries entries).2 = .ok s ∧
        Table.get? s.toTable "capture_mode" = some (.text "jit_dump") ∧
        Table.get? s.toTable "dotnet_cli" = some (.text "dotnet") ∧
        (ofEntries entries).1 = [.int 3, .text "colour"] := by
  intro entries
  have hkeys : entries.Pairwise fun a b => Value.sameKey a.1 b.1 = false := by decide
  have hexact := ofEntries_takenExactly hkeys
  have hint : Unknown (.int 3) := by decide
  have hcolour : Unknown (.text "colour") := by decide
  have htaken : AllTaken entries := by
    refine (allTaken_cons_of_field (f := .optional .flowGraphPhase)).2 ⟨.cleared _, ?_⟩
    refine (allTaken_cons_of_unknown hint).2 ?_
    refine (allTaken_cons_of_field (f := .capture)).2 ⟨.capture .jitDump, ?_⟩
    refine (allTaken_cons_of_unknown hcolour).2 ?_
    refine (allTaken_cons_of_field (f := .flag .pgo)).2 ⟨.flag .pgo true, ?_⟩
    exact fun f value hmem => nomatch hmem
  obtain ⟨s, hs⟩ := hexact.taken.2 htaken
  refine ⟨hkeys, s, hs, hexact.given s hs .capture _ (by simp [entries, Field.name]), ?_, ?_⟩
  · rw [show "dotnet_cli" = (Field.text .dotnet).name from rfl,
      hexact.defaults s hs (.text .dotnet) (by simp [entries, Field.name])]
    rfl
  · rw [hexact.unknown s hs]
    rfl

end Settings
end JitLens
