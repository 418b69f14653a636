import JitLens.Proofs.Settings.Document
import Mathlib.Data.List.Nodup
/-!
# What changes write

A change writes its own field and the fields that it carries along, and what it writes there does
not depend on what was there before.  So of several changes that write a field the last one wins,
and all other fields stay as they were.
-/

namespace JitLens

namespace Change

/-- What setting a capture mode writes: all but a dump turn flow graphs off. -/
def captureWrites (mode : CaptureMode) : List Change :=
  if mode = .jitDump then [.capture mode] else [.capture mode, .flag .flowGraph false]

/-- What selecting the ahead-of-time compiler writes beside the selection. -/
def crossgenWrites : List Change :=
  [.flag .runApp false, .flag .tieredJit false, .flag .pgo false] ++ captureWrites .disasm

/-- All that a change writes, each as a change of one field. -/
def writes : Change → List Change
  | .capture mode => captureWrites mode
  | .flag .flowGraph true => .flag .flowGraph true :: captureWrites .jitDump
  | .flag .pgo true => [.flag .pgo true, .flag .tieredJit true]
  | .flag .customRuntime false =>
    .flag .customRuntime false :: captureWrites .disasm ++
      [.reload .build, .optional .selectedJit (some defaultJit)]
  | .optional .selectedJit (some name) =>
    (if isCrossgen name then crossgenWrites else []) ++ [.optional .selectedJit (some name)]
  | c => [c]

/-- No field is written twice by one change. -/
theorem nodup_writes (c : Change) : (c.writes.map field).Nodup := by
  cases c with
  | capture mode => cases mode <;> decide
  | reload strategy => exact List.nodup_singleton _
  | flag f b => cases f <;> cases b <;> decide
  | text f s => exact List.nodup_singleton _
  | optional f s =>
      cases f with
      | selectedJit =>
          cases s with
          | none => exact List.nodup_singleton _
          | some name =>
              cases hname : isCrossgen name with
              | false => simp [writes, hname]
              | true =>
                  have hfields : (optional .selectedJit (some name)).writes.map field =
                      [.flag .runApp, .flag .tieredJit, .flag .pgo, .capture, .flag .flowGraph,
                        .optional .selectedJit] := by
                    rw [writes, hname]
                    rfl
                  rw [hfields]
                  decide
      | _ => exact List.nodup_singleton _

end Change

namespace Settings

/-! ## Single fields -/

theorem lookup_update_of_ne {s : Settings} {c : Change} {f : Field} (hf : c.field ≠ f) :
    (s.update c).lookup f = s.lookup f := by
  -- Each of the other fields is a projection that the change does not reach.
  rcases c with _ | _ | ⟨g, _⟩ | ⟨g, _⟩ | ⟨g, _⟩ <;> rcases f with _ | _ | f | f | f <;>
    (try cases g) <;> (try cases f) <;> first | rfl | exact absurd rfl hf

/-- Settings are told apart by their fields. -/
theorem eq_of_lookup {s t : Settings} (hfields : ∀ f, s.lookup f = t.lookup f) : s = t := by
  have hs := foldl_update_lookup s {}
  simp only [hfields] at hs
  rw [foldl_update_lookup] at hs
  exact hs.symm

/-! ## Lists of writes -/

/-- The last of some writes to a field. -/
def lastWrite? (ws : List Change) (f : Field) : Option Change :=
  ws.reverse.find? fun w => w.field == f

theorem lastWrite?_eq_none_iff {ws : List Change} {f : Field} :
    lastWrite? ws f = none ↔ ∀ w ∈ ws, w.field ≠ f := by
  simp [lastWrite?]

theorem field_of_lastWrite? {ws : List Change} {f : Field} {w : Change}
    (hlast : lastWrite? ws f = some w) : w ∈ ws ∧ w.field = f := by
  have hfield := List.find?_some hlast
  have hmem := List.mem_of_find?_eq_some hlast
  exact ⟨List.mem_reverse.1 hmem, by simpa using hfield⟩

theorem lastWrite?_append (ws vs : List Change) (f : Field) :
    lastWrite? (ws ++ vs) f = (lastWrite? vs f).or (lastWrite? ws f) := by
  simp [lastWrite?, List.find?_append]

/-- Of writes to different fields each one is the last one to its field. -/
theorem lastWrite?_of_mem {ws : List Change} {w : Change} (hnodup : (ws.map Change.field).Nodup)
    (hw : w ∈ ws) : lastWrite? ws w.field = some w := by
  cases hlast : lastWrite? ws w.field with
  | none => exact absurd rfl (lastWrite?_eq_none_iff.1 hlast w hw)
  | some v =>
      obtain ⟨hv, hfield⟩ := field_of_lastWrite? hlast
      rw [List.inj_on_of_nodup_map hnodup hv hw hfield]

/-- After some writes a field has the value of the last one to it, or the one that it had. -/
theorem lookup_foldl_update (s : Settings) (ws : List Change) (f : Field) :
    (ws.foldl update s).lookup f = (lastWrite? ws f).getD (s.lookup f) := by
  induction ws generalizing s with
  | nil => rfl
  | cons w ws ih =>
      have hcons : lastWrite? (w :: ws) f = (lastWrite? ws f).or (lastWrite? [w] f) :=
        lastWrite?_append [w] ws f
      rw [List.foldl_cons, ih, hcons]
      cases lastWrite? ws f with
      | some v => rfl
      | none =>
          by_cases hf : w.field = f
          · subst hf
            simp [lastWrite?, lookup_update_self]
          · simp [lastWrite?, hf, lookup_update_of_ne hf]

/-! ## Changes as writes -/

theorem withCapture_eq (s : Settings) (mode : CaptureMode) :
    s.withCapture mode = (Change.captureWrites mode).foldl update s := by
  -- Flow graphs that are off stay off, whether or not they are written.
  cases hgraph : s.flowGraph with
  | true => cases mode <;> simp [withCapture, Change.captureWrites, update, hgraph]
  | false =>
      cases mode <;> simp [withCapture, Change.captureWrites, update, hgraph]

theorem apply_eq (s : Settings) (c : Change) : s.apply c = c.writes.foldl update s := by
  cases c with
  | capture mode => exact s.withCapture_eq mode
  | reload strategy => rfl
  | flag f b =>
      cases f with
      | flowGraph => cases b <;> rfl
      | customRuntime =>
          cases b with
          | true => rfl
          | false =>
              rw [Settings.apply, withCapture_eq]
              rfl
      | _ => cases b <;> rfl
  | text f t => cases f <;> rfl
  | optional f t =>
      cases f with
      | selectedJit =>
          cases t with
          | none => rfl
          | some name =>
              unfold Settings.apply Change.writes
              dsimp only
              split
              · rw [forCrossgen, withCapture_eq]
                rfl
              · rfl
      | _ => rfl

theorem foldl_apply_eq (s : Settings) (cs : List Change) :
    cs.foldl apply s = (cs.flatMap Change.writes).foldl update s := by
  induction cs generalizing s with
  | nil => rfl
  | cons c cs ih => rw [List.foldl_cons, ih, apply_eq, List.flatMap_cons, List.foldl_append]

/-! ## Maps of changes -/

/-- The changes that entries stand for, if all of them are accepted. -/
def checkAll (changes : List (String × Value)) : Except ChangeError (List Change) :=
  changes.mapM fun (name, value) => Change.check name value

theorem checkAll_cons (name : String) (value : Value) (changes : List (String × Value)) :
    checkAll ((name, value) :: changes) =
      match Change.check name value with
      | .ok c => (checkAll changes).map (c :: ·)
      | .error e => .error e := by
  rw [checkAll, List.mapM_cons]
  dsimp only
  cases Change.check name value with
  | error e => rfl
  | ok c =>
      change (checkAll changes >>= fun cs => pure (c :: cs)) = _
      cases checkAll changes <;> rfl

/-- Changes are checked without a look at the settings, and then written one after the other. -/
theorem applyAll_eq (s : Settings) (changes : List (String × Value)) :
    s.applyAll changes =
      (checkAll changes).map fun cs => (cs.flatMap Change.writes).foldl update s := by
  induction changes generalizing s with
  | nil => rfl
  | cons entry changes ih =>
      obtain ⟨name, value⟩ := entry
      rw [applyAll, checkAll_cons]
      cases Change.check name value with
      | error e => rfl
      | ok c =>
          dsimp only
          rw [ih, apply_eq]
          cases checkAll changes with
          | error e => rfl
          | ok cs => simp [Except.map]

theorem applyAll_eq_ok_iff {s t : Settings} {changes : List (String × Value)} :
    s.applyAll changes = .ok t ↔
      ∃ cs, checkAll changes = .ok cs ∧ (cs.flatMap Change.writes).foldl update s = t := by
  rw [applyAll_eq]
  cases checkAll changes <;> simp [Except.map]

theorem mem_of_checkAll {changes : List (String × Value)} {cs : List Change}
    (hcheck : checkAll changes = .ok cs) {c : Change} :
    c ∈ cs ↔ ∃ name value, (name, value) ∈ changes ∧ Change.check name value = .ok c := by
  induction changes generalizing cs with
  | nil =>
      obtain rfl : [] = cs := Except.ok.inj hcheck
      simp
  | cons entry changes ih =>
      obtain ⟨name, value⟩ := entry
      rw [checkAll_cons] at hcheck
      cases hfirst : Change.check name value with
      | error e => simp [hfirst] at hcheck
      | ok d =>
          cases hrest : checkAll changes with
          | error e => simp [hfirst, hrest, Except.map] at hcheck
          | ok ds =>
              simp only [hfirst, hrest, Except.map, Except.ok.injEq] at hcheck
              subst hcheck
              rw [List.mem_cons, ih hrest]
              constructor
              · rintro (rfl | ⟨n, v, hmem, hc⟩)
                · exact ⟨name, value, List.mem_cons_self, hfirst⟩
                · exact ⟨n, v, List.mem_cons_of_mem _ hmem, hc⟩
              · rintro ⟨n, v, hmem, hc⟩
                rcases List.mem_cons.1 hmem with heq | hmem
                · obtain ⟨rfl, rfl⟩ := Prod.mk.inj heq
                  rw [hfirst, Except.ok.injEq] at hc
                  exact .inl hc.symm
                · exact .inr ⟨n, v, hmem, hc⟩

theorem checkAll_append {before after : List (String × Value)} {cs : List Change}
    (hcheck : checkAll (before ++ after) = .ok cs) :
    ∃ bs as, checkAll before = .ok bs ∧ checkAll after = .ok as ∧ cs = bs ++ as := by
  rw [checkAll, List.mapM_append] at hcheck
  change (checkAll before >>= fun bs => checkAll after >>= fun as => pure (bs ++ as)) = _ at hcheck
  cases hbefore : checkAll before with
  | error e => simp [hbefore, bind, Except.bind] at hcheck
  | ok bs =>
      cases hafter : checkAll after with
      | error e => simp [hbefore, hafter, bind, Except.bind] at hcheck
      | ok as =>
          simp only [hbefore, hafter, bind, Except.bind, pure, Except.pure, Except.ok.injEq]
            at hcheck
          exact ⟨bs, as, rfl, rfl, hcheck.symm⟩

/-- Some change of a map writes a field, as its own or as one that it carries along. -/
def Writes (changes : List (String × Value)) (f : Field) : Prop :=
  ∃ name value c, (name, value) ∈ changes ∧ Change.check name value = .ok c ∧
    ∃ w ∈ c.writes, w.field = f

theorem lastWrite?_of_checkAll {changes : List (String × Value)} {cs : List Change} {f : Field}
    (hcheck : checkAll changes = .ok cs) :
    lastWrite? (cs.flatMap Change.writes) f = none ↔ ¬ Writes changes f := by
  rw [lastWrite?_eq_none_iff]
  constructor
  · rintro hnone ⟨name, value, c, hmem, hc, w, hw, hfield⟩
    have hcs : c ∈ cs := (mem_of_checkAll hcheck).2 ⟨name, value, hmem, hc⟩
    exact hnone w (List.mem_flatMap.2 ⟨c, hcs, hw⟩) hfield
  · intro hwrites w hw hfield
    obtain ⟨c, hcs, hw⟩ := List.mem_flatMap.1 hw
    obtain ⟨name, value, hmem, hc⟩ := (mem_of_checkAll hcheck).1 hcs
    exact hwrites ⟨name, value, c, hmem, hc, w, hw, hfield⟩

/-- What a map of changes makes of settings. -/
structure LastWriterWins (changes : List (String × Value)) : Prop where
  /-- Whether the changes are turned down, and why, does not depend on the settings. -/
  refused : ∀ (s t : Settings) (e : ChangeError),
    s.applyAll changes = .error e → t.applyAll changes = .error e
  /-- A field has what the last of the changes that write it writes to it. -/
  last : ∀ before name value after c w, changes = before ++ (name, value) :: after →
    Change.check name value = .ok c → w ∈ c.writes → ¬ Writes after w.field →
    ∀ s s' : Settings, s.applyAll changes = .ok s' → s'.lookup w.field = w
  /-- A field that is written does not depend on the settings before. -/
  written : ∀ f, Writes changes f → ∀ s s' t t' : Settings,
    s.applyAll changes = .ok s' → t.applyAll changes = .ok t' → s'.lookup f = t'.lookup f
  /-- A field that is not written keeps its value. -/
  kept : ∀ f, ¬ Writes changes f → ∀ s s' : Settings,
    s.applyAll changes = .ok s' → s'.lookup f = s.lookup f
  /-- The same changes once more make no difference. -/
  again : ∀ s s' : Settings, s.applyAll changes = .ok s' → s'.applyAll changes = .ok s'
  /-- Changes of other fields can come before or behind. -/
  commutes : ∀ more, (∀ f, Writes changes f → ¬ Writes more f) → ∀ s s' s'' : Settings,
    s.applyAll changes = .ok s' → s'.applyAll more = .ok s'' →
    ∃ t, s.applyAll more = .ok t ∧ t.applyAll changes = .ok s''

theorem lookup_of_last {before after : List (String × Value)} {name : String} {value : Value}
    {c w : Change} {s s' : Settings} (hc : Change.check name value = .ok c) (hw : w ∈ c.writes)
    (hafter : ¬ Writes after w.field)
    (happly : s.applyAll (before ++ (name, value) :: after) = .ok s') : s'.lookup w.field = w := by
  obtain ⟨cs, hcheck, rfl⟩ := applyAll_eq_ok_iff.1 happly
  obtain ⟨bs, ds, -, hrest, rfl⟩ := checkAll_append hcheck
  rw [checkAll_cons, hc] at hrest
  cases hds : checkAll after with
  | error e => simp [hds, Except.map] at hrest
  | ok as =>
      simp only [hds, Except.map, Except.ok.injEq] at hrest
      subst hrest
      have hnone := (lastWrite?_of_checkAll hds).2 hafter
      have hlast := lastWrite?_of_mem c.nodup_writes hw
      rw [lookup_foldl_update, List.flatMap_append, List.flatMap_cons, lastWrite?_append,
        lastWrite?_append, hnone, hlast]
      rfl

theorem applyAll_again {s s' : Settings} {changes : List (String × Value)}
    (happly : s.applyAll changes = .ok s') : s'.applyAll changes = .ok s' := by
  obtain ⟨cs, hcheck, rfl⟩ := applyAll_eq_ok_iff.1 happly
  refine applyAll_eq_ok_iff.2 ⟨cs, hcheck, eq_of_lookup fun f => ?_⟩
  rw [lookup_foldl_update, lookup_foldl_update]
  cases lastWrite? (cs.flatMap Change.writes) f <;> rfl

theorem applyAll_comm {s s' s'' : Settings} {changes more : List (String × Value)}
    (hapart : ∀ f, Writes changes f → ¬ Writes more f) (hfirst : s.applyAll changes = .ok s')
    (hsecond : s'.applyAll more = .ok s'') :
    ∃ t, s.applyAll more = .ok t ∧ t.applyAll changes = .ok s'' := by
  obtain ⟨cs, hcs, rfl⟩ := applyAll_eq_ok_iff.1 hfirst
  obtain ⟨ds, hds, rfl⟩ := applyAll_eq_ok_iff.1 hsecond
  refine ⟨_, applyAll_eq_ok_iff.2 ⟨ds, hds, rfl⟩, applyAll_eq_ok_iff.2 ⟨cs, hcs, ?_⟩⟩
  apply eq_of_lookup
  intro f
  simp only [lookup_foldl_update]
  by_cases hf : Writes changes f
  · rw [(lastWrite?_of_checkAll hds).2 (hapart f hf)]
    rfl
  · rw [(lastWrite?_of_checkAll hcs).2 hf]
    rfl

theorem applyAll_refused {changes : List (String × Value)} {s : Settings} (t : Settings)
    {e : ChangeError} (hrefused : s.applyAll changes = .error e) :
    t.applyAll changes = .error e := by
  rw [applyAll_eq] at hrefused ⊢
  cases hcheck : checkAll changes with
  | error e' =>
      rw [hcheck] at hrefused
      rw [Except.error.inj hrefused]
      rfl
  | ok cs => simp [hcheck, Except.map] at hrefused

theorem lookup_applyAll_of_writes {changes : List (String × Value)} {f : Field}
    (hf : Writes changes f) {s s' t t' : Settings} (hs : s.applyAll changes = .ok s')
    (ht : t.applyAll changes = .ok t') : s'.lookup f = t'.lookup f := by
  obtain ⟨cs, hcheck, rfl⟩ := applyAll_eq_ok_iff.1 hs
  obtain ⟨ds, hsame, rfl⟩ := applyAll_eq_ok_iff.1 ht
  obtain rfl : cs = ds := Except.ok.inj (hcheck.symm.trans hsame)
  rw [lookup_foldl_update, lookup_foldl_update]
  cases hlast : lastWrite? (cs.flatMap Change.writes) f with
  | none => exact absurd hf ((lastWrite?_of_checkAll hcheck).1 hlast)
  | some w => rfl

theorem lookup_applyAll_of_not_writes {changes : List (String × Value)} {f : Field}
    (hf : ¬ Writes changes f) {s s' : Settings} (happly : s.applyAll changes = .ok s') :
    s'.lookup f = s.lookup f := by
  obtain ⟨cs, hcheck, rfl⟩ := applyAll_eq_ok_iff.1 happly
  rw [lookup_foldl_update, (lastWrite?_of_checkAll hcheck).2 hf]
  rfl

/-- Of the changes that write a field the last one wins, whatever the settings were before. -/
theorem lastWriterWins (changes : List (String × Value)) : LastWriterWins changes where
  refused _ t _ hrefused := applyAll_refused t hrefused
  last before name value after c w hchanges hc hw hafter s s' happly := by
    subst hchanges
    exact lookup_of_last hc hw hafter happly
  written _ hf _ _ _ _ hs ht := lookup_applyAll_of_writes hf hs ht
  kept _ hf _ _ happly := lookup_applyAll_of_not_writes hf happly
  again _ _ := applyAll_again
  commutes _ hapart _ _ _ := applyAll_comm hapart

end Settings
end JitLens
