import JitLens.Proofs.Settings.Writes
import JitLens.Settings.Overrides
import Mathlib.Data.List.Induction
/-!
# Overrides in the order given

The items of a command line are applied all at once: a field that comes in more than once is changed
once, in the place of its first item and to the value of its last one.  That is what the items do one
at a time if the fields that come in more than once stand alone, and it need not be otherwise.
-/

namespace JitLens

/-! ## Names of fields -/

theorem Field.name_of_ofName? {name : String} {f : Field} (hf : ofName? name = some f) :
    f.name = name := by
  have hname := List.find?_some hf
  exact eq_of_beq hname

theorem Field.field_of_check {f : Field} {value : Value} {c : Change}
    (hcheck : f.check value = .ok c) : c.field = f := by
  cases f with
  | capture =>
      cases value with
      | text s =>
          rw [Field.check] at hcheck
          split at hcheck <;> cases hcheck
          rfl
      | _ => cases hcheck
  | reload =>
      cases value with
      | text s =>
          rw [Field.check] at hcheck
          split at hcheck <;> cases hcheck
          rfl
      | _ => cases hcheck
  | flag f => cases value <;> cases hcheck; rfl
  | text f => cases value <;> cases hcheck; rfl
  | optional f => cases value <;> cases hcheck <;> rfl

theorem Change.name_field {name : String} {value : Value} {c : Change}
    (hcheck : Change.check name value = .ok c) : c.field.name = name := by
  unfold Change.check at hcheck
  cases hf : Field.ofName? name with
  | none => simp [hf] at hcheck
  | some f =>
      rw [hf] at hcheck
      rw [Field.field_of_check hcheck]
      exact Field.name_of_ofName? hf

theorem Field.name_inj {f g : Field} : f.name = g.name ↔ f = g := by
  constructor
  · intro hname
    have hfound := ofName?_name f
    rw [hname, ofName?_name g, Option.some.injEq] at hfound
    exact hfound.symm
  · exact congrArg Field.name

/-- Fields that no change of another field writes, and whose changes write no other field. -/
def Field.standsAlone : Field → Bool
  | .capture | .reload => false
  | .flag f => f == .showComments || f == .noRestore
  | .text _ => true
  | .optional f => f != .selectedJit

/-- A change writes its own field only, or none of the fields that stand alone. -/
theorem Change.writes_cases (c : Change) :
    c.writes = [c] ∨
      c.field.standsAlone = false ∧ ∀ w ∈ c.writes, w.field.standsAlone = false := by
  cases c with
  | capture mode => exact .inr ⟨rfl, by cases mode <;> decide⟩
  | reload strategy => exact .inl rfl
  | flag f b => cases f <;> cases b <;> first | exact .inl rfl | exact .inr (by decide)
  | text f s => exact .inl rfl
  | optional f s =>
      cases f with
      | selectedJit =>
          cases s with
          | none => exact .inl rfl
          | some name =>
              right
              refine ⟨rfl, fun w hw => ?_⟩
              have hbeside : ∀ v ∈ Change.crossgenWrites, v.field.standsAlone = false := by decide
              rw [writes, List.mem_append, List.mem_singleton] at hw
              rcases hw with hcarried | rfl
              · split at hcarried
                · exact hbeside w hcarried
                · exact absurd hcarried List.not_mem_nil
              · rfl
      | _ => exact .inl rfl

/-- A field that stands alone is written by its own changes only. -/
theorem Change.lastWrite?_writes {f : Field} (hf : f.standsAlone = true) (c : Change) :
    Settings.lastWrite? c.writes f = Settings.lastWrite? [c] f := by
  rcases c.writes_cases with hown | ⟨hfield, hwrites⟩
  · rw [hown]
  · have hne : ∀ w : Change, w.field.standsAlone = false → w.field ≠ f := by
      rintro w hw rfl
      rw [hw] at hf
      cases hf
    rw [Settings.lastWrite?_eq_none_iff.2 fun w hw => hne w (hwrites w hw), eq_comm,
      Settings.lastWrite?_eq_none_iff]
    intro w hw
    rw [List.mem_singleton.1 hw]
    exact hne c hfield

namespace Settings

/-- Changes with one more; that of the same field is replaced, in its place. -/
def putChange (c : Change) : List Change → List Change
  | [] => [c]
  | d :: ds => if d.field = c.field then c :: ds else d :: putChange c ds

/-- The last change of each field, in the place of the first one. -/
def lastOfEach (cs : List Change) : List Change :=
  cs.foldl (fun ds c => putChange c ds) []

/-- More than one of some changes is of a field. -/
def Repeated (cs : List Change) (f : Field) : Prop :=
  1 < (cs.map Change.field).count f

instance (cs : List Change) (f : Field) : Decidable (Repeated cs f) :=
  inferInstanceAs (Decidable (_ < _))

/-- The change that an item of a command line stands for. -/
def StandsFor (item : String) (c : Change) : Prop :=
  ∃ name value, parseOverride item = .ok (name, value) ∧ Change.check name value = .ok c

/-- Items are applied all at once. -/
def AtOnce (s : Settings) (items : List String) (t : Settings) : Prop :=
  ∃ changes, parseOverrides items = .ok changes ∧ s.applyAll changes = .ok t

/-- Items are applied one at a time, each to what those before it have left. -/
inductive InTurn : Settings → List String → Settings → Prop
  | nil (s : Settings) : InTurn s [] s
  | cons {s t u : Settings} {item : String} {items : List String} (hfirst : AtOnce s [item] t)
      (hrest : InTurn t items u) : InTurn s (item :: items) u

section

variable {s t u : Settings} {items : List String} {cs ds : List Change} {c w : Change} {f : Field}

/-! ## One change for each field -/

theorem mem_of_mem_putChange (hw : w ∈ putChange c ds) : w = c ∨ w ∈ ds := by
  induction ds with
  | nil => exact .inl (List.mem_singleton.1 hw)
  | cons d ds ih =>
      rw [putChange] at hw
      split at hw
      · rcases List.mem_cons.1 hw with rfl | hw
        · exact .inl rfl
        · exact .inr (List.mem_cons_of_mem d hw)
      · rcases List.mem_cons.1 hw with rfl | hw
        · exact .inr List.mem_cons_self
        · exact (ih hw).imp_right (List.mem_cons_of_mem d)

theorem putChange_of_notMem (hc : c.field ∉ ds.map Change.field) : putChange c ds = ds ++ [c] := by
  induction ds with
  | nil => rfl
  | cons d ds ih =>
      rw [List.map_cons, List.mem_cons, not_or] at hc
      rw [putChange, if_neg (Ne.symm hc.1), ih hc.2, List.cons_append]

theorem field_putChange (hc : c.field ∈ ds.map Change.field) :
    (putChange c ds).map Change.field = ds.map Change.field := by
  induction ds with
  | nil => cases hc
  | cons d ds ih =>
      rw [putChange]
      by_cases hfield : d.field = c.field
      · rw [if_pos hfield, List.map_cons, List.map_cons, hfield]
      · have hrest : c.field ∈ ds.map Change.field := by
          rw [List.map_cons, List.mem_cons] at hc
          exact hc.resolve_left (Ne.symm hfield)
        rw [if_neg hfield, List.map_cons, List.map_cons, ih hrest]

theorem nodup_putChange (hnodup : (ds.map Change.field).Nodup) (c : Change) :
    ((putChange c ds).map Change.field).Nodup := by
  by_cases hc : c.field ∈ ds.map Change.field
  · rw [field_putChange hc]
    exact hnodup
  · rw [putChange_of_notMem hc, List.map_append, List.nodup_append]
    refine ⟨hnodup, List.nodup_singleton _, ?_⟩
    intro f hf g hg heq
    rw [List.mem_singleton.1 hg] at heq
    exact hc (heq ▸ hf)

/-- Of changes of different fields, one more is the last one of its field and of no other. -/
theorem lastWrite?_putChange (hnodup : (ds.map Change.field).Nodup) (c : Change) (f : Field) :
    lastWrite? (putChange c ds) f = lastWrite? (ds ++ [c]) f := by
  induction ds with
  | nil => rfl
  | cons d ds ih =>
      obtain ⟨hd, hds⟩ := List.nodup_cons.1 hnodup
      have hcons (v : Change) (vs : List Change) :
          lastWrite? (v :: vs) f = (lastWrite? vs f).or (lastWrite? [v] f) :=
        lastWrite?_append [v] vs f
      rw [putChange]
      split
      · next hfield =>
        rw [hcons, lastWrite?_append, hcons d]
        by_cases hf : c.field = f
        · have hnone : lastWrite? ds f = none := by
            rw [lastWrite?_eq_none_iff]
            intro w hw heq
            exact hd (List.mem_map.2 ⟨w, hw, heq.trans (hf.symm.trans hfield.symm)⟩)
          have hlast : lastWrite? [c] f = some c := by simp [lastWrite?, hf]
          rw [hnone, hlast]
          rfl
        · have hd : d.field ≠ f := hfield ▸ hf
          simp [lastWrite?, hf, hd]
      · rw [List.cons_append, hcons, ih hds, hcons d (ds ++ [c])]

theorem filter_putChange (p : Field → Bool) (c : Change) (ds : List Change) :
    (putChange c ds).filter (fun d => p d.field) =
      if p c.field = true then putChange c (ds.filter fun d => p d.field)
      else ds.filter fun d => p d.field := by
  induction ds with
  | nil => cases hp : p c.field <;> simp [putChange, hp]
  | cons d ds ih =>
      rw [putChange]
      by_cases hfield : d.field = c.field
      · rw [if_pos hfield]
        cases hp : p c.field <;> simp [putChange, hp, hfield]
      · rw [if_neg hfield, List.filter_cons, ih, List.filter_cons]
        cases hp : p c.field <;> cases hq : p d.field <;> simp [putChange, hfield]

theorem lastOfEach_concat (cs : List Change) (c : Change) :
    lastOfEach (cs ++ [c]) = putChange c (lastOfEach cs) := by
  rw [lastOfEach, List.foldl_append]
  rfl

theorem nodup_lastOfEach (cs : List Change) : ((lastOfEach cs).map Change.field).Nodup := by
  induction cs using List.reverseRecOn with
  | nil => exact List.nodup_nil
  | append_singleton cs c ih =>
      rw [lastOfEach_concat]
      exact nodup_putChange ih c

theorem mem_of_mem_lastOfEach (hw : w ∈ lastOfEach cs) : w ∈ cs := by
  induction cs using List.reverseRecOn with
  | nil => exact hw
  | append_singleton cs c ih =>
      rw [lastOfEach_concat] at hw
      rcases mem_of_mem_putChange hw with rfl | hw
      · simp
      · exact List.mem_append_left _ (ih hw)

theorem lastWrite?_lastOfEach (cs : List Change) (f : Field) :
    lastWrite? (lastOfEach cs) f = lastWrite? cs f := by
  induction cs using List.reverseRecOn with
  | nil => rfl
  | append_singleton cs c ih =>
      rw [lastOfEach_concat, lastWrite?_putChange (nodup_lastOfEach cs), lastWrite?_append, ih,
        lastWrite?_append]

theorem filter_lastOfEach (p : Field → Bool) (cs : List Change) :
    (lastOfEach cs).filter (fun d => p d.field) = lastOfEach (cs.filter fun d => p d.field) := by
  induction cs using List.reverseRecOn with
  | nil => rfl
  | append_singleton cs c ih =>
      rw [lastOfEach_concat, filter_putChange, ih, List.filter_append]
      cases hp : p c.field with
      | true => simp [hp, lastOfEach_concat]
      | false => simp [hp]

theorem lastOfEach_of_nodup (hnodup : (cs.map Change.field).Nodup) : lastOfEach cs = cs := by
  induction cs using List.reverseRecOn with
  | nil => rfl
  | append_singleton cs c ih =>
      rw [List.map_append, List.nodup_append] at hnodup
      obtain ⟨hcs, -, hapart⟩ := hnodup
      have hnew : c.field ∉ cs.map Change.field :=
        fun hmem => hapart c.field hmem c.field (List.mem_singleton.2 rfl) rfl
      rw [lastOfEach_concat, ih hcs, putChange_of_notMem hnew]

/-! ## What both orders write -/

theorem lastWrite?_flatMap_alone (hf : f.standsAlone = true) (cs : List Change) :
    lastWrite? (cs.flatMap Change.writes) f = lastWrite? cs f := by
  induction cs with
  | nil => rfl
  | cons c cs ih =>
      rw [List.flatMap_cons, lastWrite?_append, ih, Change.lastWrite?_writes hf, ← lastWrite?_append]
      rfl

/-- Changes that do not write a field can be left out. -/
theorem lastWrite?_filter {p : Change → Bool}
    (hleft : ∀ c ∈ cs, p c = false → ∀ w ∈ c.writes, w.field ≠ f) :
    lastWrite? ((cs.filter p).flatMap Change.writes) f =
      lastWrite? (cs.flatMap Change.writes) f := by
  induction cs with
  | nil => rfl
  | cons c cs ih =>
      have hrest := ih fun d hd => hleft d (List.mem_cons_of_mem c hd)
      cases hp : p c with
      | true =>
          rw [List.filter_cons_of_pos hp, List.flatMap_cons, List.flatMap_cons, lastWrite?_append,
            lastWrite?_append, hrest]
      | false =>
          have hnone : lastWrite? c.writes f = none :=
            lastWrite?_eq_none_iff.2 (hleft c List.mem_cons_self hp)
          rw [List.filter_cons_of_neg (by simp [hp]), hrest, List.flatMap_cons, lastWrite?_append,
            hnone, Option.or_none]

/-- A field that no repeated change writes is written in the order given. -/
theorem lastWrite?_of_once (honce : ∀ c ∈ cs, Repeated cs c.field → ∀ w ∈ c.writes, w.field ≠ f) :
    lastWrite? ((lastOfEach cs).flatMap Change.writes) f =
      lastWrite? (cs.flatMap Change.writes) f := by
  let once (g : Field) : Bool := !decide (Repeated cs g)
  have hrepeated : ∀ g, once g = false → Repeated cs g := fun g hg => by simpa [once] using hg
  have hnodup : ((cs.filter fun c => once c.field).map Change.field).Nodup := by
    rw [List.nodup_iff_count_le_one]
    intro g
    by_cases hg : Repeated cs g
    · have hnot : g ∉ (cs.filter fun c => once c.field).map Change.field := by
        rintro hmem
        obtain ⟨c, hc, rfl⟩ := List.mem_map.1 hmem
        have hp := (List.mem_filter.1 hc).2
        simp [once, hg] at hp
      rw [List.count_eq_zero_of_not_mem hnot]
      exact Nat.zero_le 1
    · have hsub := (List.filter_sublist (p := fun c : Change => once c.field) (l := cs)).map
        Change.field
      exact Nat.le_trans (hsub.count_le g) (Nat.le_of_not_lt hg)
  calc lastWrite? ((lastOfEach cs).flatMap Change.writes) f
      = lastWrite? (((lastOfEach cs).filter fun c => once c.field).flatMap Change.writes) f :=
        (lastWrite?_filter fun c hc hp =>
          honce c (mem_of_mem_lastOfEach hc) (hrepeated _ hp)).symm
    _ = lastWrite? ((cs.filter fun c => once c.field).flatMap Change.writes) f := by
        rw [filter_lastOfEach, lastOfEach_of_nodup hnodup]
    _ = lastWrite? (cs.flatMap Change.writes) f :=
        lastWrite?_filter fun c hc hp => honce c hc (hrepeated _ hp)

theorem lastWrite?_of_alone (hf : f.standsAlone = true) (cs : List Change) :
    lastWrite? ((lastOfEach cs).flatMap Change.writes) f =
      lastWrite? (cs.flatMap Change.writes) f := by
  rw [lastWrite?_flatMap_alone hf, lastWrite?_lastOfEach, lastWrite?_flatMap_alone hf]

theorem lastWrite?_of_repeated_alone
    (halone : ∀ c ∈ cs, Repeated cs c.field → c.field.standsAlone = true) (f : Field) :
    lastWrite? ((lastOfEach cs).flatMap Change.writes) f =
      lastWrite? (cs.flatMap Change.writes) f := by
  by_cases hf : f.standsAlone = true
  · exact lastWrite?_of_alone hf cs
  · apply lastWrite?_of_once
    rintro c hc hrepeated w hw rfl
    have hfield := halone c hc hrepeated
    rcases c.writes_cases with hown | ⟨hcarries, -⟩
    · rw [hown, List.mem_singleton] at hw
      exact hf (hw ▸ hfield)
    · rw [hcarries] at hfield
      cases hfield

theorem lookup_foldl_apply (s : Settings) (cs : List Change) (f : Field) :
    (cs.foldl apply s).lookup f =
      (lastWrite? (cs.flatMap Change.writes) f).getD (s.lookup f) := by
  rw [foldl_apply_eq, lookup_foldl_update]

/-! ## Items of a command line -/

theorem checkAll_put {table : Table Value} {name : String} {value : Value}
    (htable : checkAll table = .ok ds) (hc : Change.check name value = .ok c) :
    checkAll (table.put name value) = .ok (putChange c ds) := by
  induction table generalizing ds with
  | nil =>
      obtain rfl : [] = ds := Except.ok.inj htable
      rw [Table.put, putBy, checkAll_cons, hc]
      rfl
  | cons entry table ih =>
      obtain ⟨k, v⟩ := entry
      rw [checkAll_cons] at htable
      cases hd : Change.check k v with
      | error e => simp [hd] at htable
      | ok d =>
          cases hrest : checkAll table with
          | error e => simp [hd, hrest, Except.map] at htable
          | ok rest =>
              simp only [hd, hrest, Except.map, Except.ok.injEq] at htable
              subst htable
              have hfields : d.field = c.field ↔ k = name := by
                rw [← Field.name_inj, Change.name_field hd, Change.name_field hc]
              rw [Table.put, putBy, putChange]
              by_cases hk : k = name
              · rw [if_pos (hfields.2 hk), if_pos (beq_iff_eq.2 hk), hk, checkAll_cons, hc, hrest]
                rfl
              · have hput : checkAll (putBy (· == ·) name value table) = .ok (putChange c rest) :=
                  ih hrest
                rw [if_neg (mt hfields.1 hk), if_neg (by simpa using hk), checkAll_cons, hd, hput]
                rfl

theorem checkAll_ofList {entries : List (String × Value)} (hcheck : checkAll entries = .ok cs) :
    checkAll (Table.ofList entries) = .ok (lastOfEach cs) := by
  induction entries using List.reverseRecOn generalizing cs with
  | nil =>
      obtain rfl : [] = cs := Except.ok.inj hcheck
      rfl
  | append_singleton entries entry ih =>
      obtain ⟨name, value⟩ := entry
      obtain ⟨bs, ds, hbs, hds, rfl⟩ := checkAll_append hcheck
      rw [checkAll_cons] at hds
      cases hc : Change.check name value with
      | error e => simp [hc] at hds
      | ok c =>
          simp only [hc, checkAll, List.mapM_nil, pure, Except.pure, Except.map,
            Except.ok.injEq] at hds
          subst hds
          have hput : Table.ofList (entries ++ [(name, value)]) =
              (Table.ofList entries).put name value := by
            simp [Table.ofList, Table.putAll]
          rw [hput, lastOfEach_concat]
          exact checkAll_put (ih hbs) hc

theorem exists_entries (hitems : List.Forall₂ StandsFor items cs) :
    ∃ entries, items.mapM parseOverride = .ok entries ∧ checkAll entries = .ok cs := by
  induction hitems with
  | nil => exact ⟨[], rfl, rfl⟩
  | @cons item c items cs hitem _ ih =>
      obtain ⟨entries, hparse, hcheck⟩ := ih
      obtain ⟨name, value, hname, hc⟩ := hitem
      refine ⟨(name, value) :: entries, ?_, ?_⟩
      · rw [List.mapM_cons, hname, hparse]
        rfl
      · rw [checkAll_cons, hc, hcheck]
        rfl

theorem atOnce_iff (hitems : List.Forall₂ StandsFor items cs) :
    AtOnce s items t ↔ t = (lastOfEach cs).foldl apply s := by
  obtain ⟨entries, hparse, hcheck⟩ := exists_entries hitems
  have hchanges : parseOverrides items = .ok (Table.ofList entries) := by
    rw [parseOverrides, hparse]
    rfl
  have happly : s.applyAll (Table.ofList entries) = .ok ((lastOfEach cs).foldl apply s) := by
    rw [applyAll_eq, checkAll_ofList hcheck, foldl_apply_eq]
    rfl
  constructor
  · rintro ⟨changes, hsame, ht⟩
    rw [hchanges, Except.ok.injEq] at hsame
    rw [← hsame, happly, Except.ok.injEq] at ht
    exact ht.symm
  · rintro rfl
    exact ⟨_, hchanges, happly⟩

theorem inTurn_iff (hitems : List.Forall₂ StandsFor items cs) :
    InTurn s items t ↔ t = cs.foldl apply s := by
  induction hitems generalizing s with
  | nil =>
      constructor
      · rintro ⟨⟩
        rfl
      · rintro rfl
        exact .nil _
  | @cons item c items cs hitem _ ih =>
      have hfirst (r : Settings) : AtOnce s [item] r ↔ r = s.apply c :=
        atOnce_iff (.cons hitem .nil)
      constructor
      · intro hturn
        cases hturn with
        | cons hitem hrest =>
            rw [(hfirst _).1 hitem] at hrest
            exact ih.1 hrest
      · intro ht
        exact .cons ((hfirst _).2 rfl) (ih.2 ht)

theorem exists_standsFor (haccepted : ∀ item ∈ items, ∃ c, StandsFor item c) :
    ∃ cs, List.Forall₂ StandsFor items cs := by
  induction items with
  | nil => exact ⟨[], .nil⟩
  | cons item items ih =>
      obtain ⟨c, hc⟩ := haccepted item List.mem_cons_self
      obtain ⟨cs, hcs⟩ := ih fun i hi => haccepted i (List.mem_cons_of_mem item hi)
      exact ⟨c :: cs, .cons hc hcs⟩

theorem StandsFor.eq {item : String} {d : Change} (hc : StandsFor item c)
    (hd : StandsFor item d) : c = d := by
  obtain ⟨name, value, hparse, hcheck⟩ := hc
  obtain ⟨name', value', hparse', hcheck'⟩ := hd
  rw [hparse, Except.ok.injEq, Prod.mk.injEq] at hparse'
  obtain ⟨rfl, rfl⟩ := hparse'
  exact Except.ok.inj (hcheck.symm.trans hcheck')

end

/-- How items that stand for changes are applied at once and one at a time, and where both come to
the same. -/
structure InOrder (s : Settings) (items : List String) (cs : List Change) : Prop where
  /-- At once, each field is changed where its first item stands and to what its last one says. -/
  atOnce : ∀ t, AtOnce s items t ↔ t = (lastOfEach cs).foldl apply s
  inTurn : ∀ t, InTurn s items t ↔ t = cs.foldl apply s
  /-- A field that stands alone, or that no item for a repeated field writes, comes out the same. -/
  field : ∀ f : Field,
    (f.standsAlone = true ∨ ∀ c ∈ cs, Repeated cs c.field → ∀ w ∈ c.writes, w.field ≠ f) →
    ((lastOfEach cs).foldl apply s).lookup f = (cs.foldl apply s).lookup f
  /-- All do if no field is repeated but those that stand alone. -/
  same : (∀ c ∈ cs, Repeated cs c.field → c.field.standsAlone = true) →
    (lastOfEach cs).foldl apply s = cs.foldl apply s
  /-- Otherwise it depends on what is written last to each field. -/
  same_iff : (lastOfEach cs).foldl apply s = cs.foldl apply s ↔
    ∀ f, (lastWrite? ((lastOfEach cs).flatMap Change.writes) f).getD (s.lookup f) =
      (lastWrite? (cs.flatMap Change.writes) f).getD (s.lookup f)

/-- Items that are each accepted are accepted at once and one at a time, whatever the settings are,
and come to the same if only fields that stand alone are repeated. -/
theorem overrides_inOrder {items : List String}
    (haccepted : ∀ item ∈ items, ∃ c, StandsFor item c) :
    ∃ cs, List.Forall₂ StandsFor items cs ∧ ∀ s : Settings, InOrder s items cs := by
  obtain ⟨cs, hitems⟩ := exists_standsFor haccepted
  refine ⟨cs, hitems, fun s => ?_⟩
  refine ⟨fun t => atOnce_iff hitems, fun t => inTurn_iff hitems, ?_, ?_, ?_⟩
  · intro f hf
    rw [lookup_foldl_apply, lookup_foldl_apply]
    rcases hf with halone | honce
    · rw [lastWrite?_of_alone halone]
    · rw [lastWrite?_of_once honce]
  · intro halone
    apply eq_of_lookup
    intro f
    rw [lookup_foldl_apply, lookup_foldl_apply, lastWrite?_of_repeated_alone halone]
  · constructor
    · intro hsame f
      rw [← lookup_foldl_apply, ← lookup_foldl_apply, hsame]
    · intro hfields
      apply eq_of_lookup
      intro f
      rw [lookup_foldl_apply, lookup_foldl_apply, hfields f]

/-- The ahead-of-time compiler is given and then another one: at once the first item is forgotten,
and in turn it has turned runs of the project off. -/
theorem overrides_inOrder_compilers :
    let s : Settings := { runApp := true }
    let items := ["selected_custom_jit=" ++ crossgenJit, "selected_custom_jit=" ++ defaultJit]
    (∀ item ∈ items, ∃ c, StandsFor item c) ∧
      InOrder s items [.optional .selectedJit (some crossgenJit),
        .optional .selectedJit (some defaultJit)] ∧
      AtOnce s items { runApp := true, selectedJit := some defaultJit } ∧
      InTurn s items { runApp := false, selectedJit := some defaultJit } := by
  intro s items
  have hfirst : StandsFor ("selected_custom_jit=" ++ crossgenJit)
      (.optional .selectedJit (some crossgenJit)) := ⟨_, _, by rfl, by rfl⟩
  have hsecond : StandsFor ("selected_custom_jit=" ++ defaultJit)
      (.optional .selectedJit (some defaultJit)) := ⟨_, _, by rfl, by rfl⟩
  have haccepted : ∀ item ∈ items, ∃ c, StandsFor item c := by
    intro item hitem
    rcases List.mem_pair.1 hitem with rfl | rfl
    · exact ⟨_, hfirst⟩
    · exact ⟨_, hsecond⟩
  obtain ⟨cs, hitems, horder⟩ := overrides_inOrder haccepted
  have hunique : Relator.RightUnique StandsFor := fun _ _ _ => StandsFor.eq
  obtain rfl := hunique.forall₂ hitems (.cons hfirst (.cons hsecond .nil))
  exact ⟨haccepted, horder s, ((horder s).atOnce _).2 (by rfl), ((horder s).inTurn _).2 (by rfl)⟩

end Settings
end JitLens
