import JitLens.Proofs.Settings.FlowGraph
import JitLens.Proofs.Settings.Writes
/-!
# Flags beside the ahead-of-time compiler

Choosing the ahead-of-time compiler turns off the four flags that it knows nothing of.  Nothing keeps
them off from then on: a later change can turn one on again, and then a rule for runs is broken.  As
long as none does, they stay off and none of these rules is broken.
-/

namespace JitLens

open Files

/-- The flag that a rule keeps apart from the ahead-of-time compiler. -/
def RunRule.crossgenFlag? : RunRule → Option Flag
  | .crossgenNoProfile => some .pgo
  | .crossgenNoRun => some .runApp
  | .crossgenNoTiers => some .tieredJit
  | .crossgenNoGraph => some .flowGraph
  | _ => none

namespace Settings

/-- The settings after maps of changes, all of which are accepted. -/
def applyMaps (s : Settings) (maps : List (List (String × Value))) : Except ChangeError Settings :=
  maps.foldlM applyAll s

/-- The flags that choosing the ahead-of-time compiler turns off. -/
def crossgenFlags : List Flag := [.pgo, .tieredJit, .runApp, .flowGraph]

/-- The last of some changes that writes a flag turns it on. -/
def TurnsOn (cs : List Change) (g : Flag) : Prop :=
  lastWrite? (cs.flatMap Change.writes) (.flag g) = some (.flag g true)

/-- Changes of which one chooses a compiler, and those behind it leave the choice as it is. -/
structure LastChoice (cs : List Change) (jit : String) (after : List Change) : Prop where
  split : ∃ before, cs = before ++ .optional .selectedJit (some jit) :: after
  kept : lastWrite? (after.flatMap Change.writes) (.optional .selectedJit) = none

section

variable {s t : Settings} {cs after : List Change} {jit : String} {g : Flag}

/-! ## Maps one after the other -/

theorem applyAll_append (s : Settings) (changes more : List (String × Value)) :
    s.applyAll (changes ++ more) = s.applyAll changes >>= fun t => t.applyAll more := by
  induction changes generalizing s with
  | nil => rfl
  | cons entry changes ih =>
      obtain ⟨name, value⟩ := entry
      rw [List.cons_append, applyAll, applyAll]
      cases Change.check name value with
      | error e => rfl
      | ok c => exact ih (s.apply c)

theorem applyMaps_eq (s : Settings) (maps : List (List (String × Value))) :
    s.applyMaps maps = s.applyAll maps.flatten := by
  induction maps generalizing s with
  | nil => rfl
  | cons changes maps ih =>
      rw [applyMaps, List.foldlM_cons, List.flatten_cons, applyAll_append]
      congr 1
      funext t
      exact ih t

/-! ## The last writer -/

theorem exists_last_writer {f : Field} {w : Change}
    (hlast : lastWrite? (cs.flatMap Change.writes) f = some w) :
    ∃ before c after, cs = before ++ c :: after ∧ w ∈ c.writes ∧ w.field = f ∧
      lastWrite? (after.flatMap Change.writes) f = none := by
  induction cs with
  | nil => cases hlast
  | cons c cs ih =>
      rw [List.flatMap_cons, lastWrite?_append] at hlast
      cases hrest : lastWrite? (cs.flatMap Change.writes) f with
      | some v =>
          rw [hrest] at hlast
          obtain ⟨before, d, after, hcs, hd⟩ := ih (hrest.trans hlast)
          exact ⟨c :: before, d, after, by rw [hcs, List.cons_append], hd⟩
      | none =>
          rw [hrest] at hlast
          obtain ⟨hw, hfield⟩ := field_of_lastWrite? hlast
          exact ⟨[], c, cs, rfl, hw, hfield, hrest⟩

/-- A compiler other than the default one is chosen by name only. -/
theorem eq_choice_of_mem_writes {c : Change} (hne : jit ≠ defaultJit)
    (hw : .optional .selectedJit (some jit) ∈ c.writes) :
    c = .optional .selectedJit (some jit) := by
  cases c with
  | capture mode => cases mode <;> simp [Change.writes, Change.captureWrites] at hw
  | reload strategy => simp [Change.writes] at hw
  | text f v => simp [Change.writes] at hw
  | flag f b =>
      have hreset : jit = defaultJit := by
        cases f <;> cases b <;> simp_all [Change.writes, Change.captureWrites]
      exact absurd hreset hne
  | optional f v =>
      cases f with
      | selectedJit =>
          cases v with
          | none => simp [Change.writes] at hw
          | some name =>
              have hbeside : Change.optional .selectedJit (some jit) ∉ Change.crossgenWrites := by
                simp [Change.crossgenWrites, Change.captureWrites]
              rw [Change.writes, List.mem_append, List.mem_singleton] at hw
              rcases hw with hcarried | hown
              · split at hcarried
                · exact absurd hcarried hbeside
                · exact absurd hcarried List.not_mem_nil
              · exact hown.symm
      | _ => simp [Change.writes] at hw

/-- A compiler that is selected and not the default one was the last to be chosen. -/
theorem exists_lastChoice (hne : jit ≠ defaultJit)
    (hselected : ((cs.flatMap Change.writes).foldl update {}).selectedJit = some jit) :
    ∃ after, LastChoice cs jit after := by
  have hlookup : ((cs.flatMap Change.writes).foldl update {}).lookup (.optional .selectedJit) =
      .optional .selectedJit (some jit) := by
    rw [lookup, hselected]
  rw [lookup_foldl_update] at hlookup
  cases hlast : lastWrite? (cs.flatMap Change.writes) (.optional .selectedJit) with
  | none =>
      rw [hlast] at hlookup
      cases hlookup
  | some w =>
      rw [hlast, Option.getD_some] at hlookup
      subst hlookup
      obtain ⟨before, c, after, hcs, hw, -, hkept⟩ := exists_last_writer hlast
      rw [eq_choice_of_mem_writes hne hw] at hcs
      exact ⟨after, ⟨before, hcs⟩, hkept⟩

/-! ## Flags -/

theorem ne_defaultJit_of_isCrossgen (hcrossgen : isCrossgen jit = true) : jit ≠ defaultJit := by
  rintro rfl
  exact absurd hcrossgen (by decide)

/-- The choice of the ahead-of-time compiler turns its flags off. -/
theorem lastWrite?_choice (hcrossgen : isCrossgen jit = true) (hg : g ∈ crossgenFlags) :
    lastWrite? (Change.optional .selectedJit (some jit)).writes (.flag g) = some (.flag g false) := by
  have hmem : Change.flag g false ∈ (Change.optional .selectedJit (some jit)).writes := by
    rw [Change.writes, hcrossgen, if_pos rfl, List.mem_append]
    left
    simp only [crossgenFlags, List.mem_cons, List.not_mem_nil, or_false] at hg
    rcases hg with rfl | rfl | rfl | rfl <;> decide
  exact lastWrite?_of_mem (Change.nodup_writes _) hmem

/-- From the choice of the ahead-of-time compiler on, its flags are what later changes make of
them. -/
theorem lookup_of_lastChoice (hchoice : LastChoice cs jit after) (hcrossgen : isCrossgen jit = true)
    (hg : g ∈ crossgenFlags) (s : Settings) :
    ((cs.flatMap Change.writes).foldl update s).lookup (.flag g) =
      (lastWrite? (after.flatMap Change.writes) (.flag g)).getD (.flag g false) := by
  obtain ⟨before, rfl⟩ := hchoice.split
  rw [lookup_foldl_update, List.flatMap_append, List.flatMap_cons, lastWrite?_append,
    lastWrite?_append, lastWrite?_choice hcrossgen hg]
  cases lastWrite? (after.flatMap Change.writes) (.flag g) <;> rfl

theorem lookup_eq_true_iff (hchoice : LastChoice cs jit after) (hcrossgen : isCrossgen jit = true)
    (hg : g ∈ crossgenFlags) :
    ((cs.flatMap Change.writes).foldl update s).lookup (.flag g) = .flag g true ↔
      TurnsOn after g := by
  rw [lookup_of_lastChoice hchoice hcrossgen hg, TurnsOn]
  cases lastWrite? (after.flatMap Change.writes) (.flag g) with
  | none => simp
  | some w => simp

/-- A flag is turned on by name, but for tiers, which profiles carry along. -/
theorem eq_of_mem_writes {c : Change} (hw : .flag g true ∈ c.writes) :
    c = .flag g true ∨ g = .tieredJit ∧ c = .flag .pgo true := by
  cases c with
  | capture mode => cases mode <;> simp [Change.writes, Change.captureWrites] at hw
  | reload strategy => simp [Change.writes] at hw
  | text f v => simp [Change.writes] at hw
  | flag f b =>
      cases f <;> cases b <;>
        simp_all [Change.writes, Change.captureWrites, eq_comm (a := g)]
  | optional f v =>
      cases f with
      | selectedJit =>
          cases v with
          | none => simp [Change.writes] at hw
          | some name =>
              have hbeside : Change.flag g true ∉ Change.crossgenWrites := by
                simp [Change.crossgenWrites, Change.captureWrites]
              rw [Change.writes, List.mem_append, List.mem_singleton] at hw
              rcases hw with hcarried | hown
              · split at hcarried
                · exact absurd hcarried hbeside
                · exact absurd hcarried List.not_mem_nil
              · cases hown
      | _ => simp [Change.writes] at hw

theorem mem_of_turnsOn (hon : TurnsOn after g) :
    .flag g true ∈ after ∨ g = .tieredJit ∧ .flag .pgo true ∈ after := by
  obtain ⟨before, c, rest, rfl, hw, -, -⟩ := exists_last_writer hon
  rcases eq_of_mem_writes hw with rfl | ⟨rfl, rfl⟩
  · simp
  · simp

theorem mem_crossgenFlags {r : RunRule} (hr : r.crossgenFlag? = some g) : g ∈ crossgenFlags := by
  cases r <;> cases hr <;> decide

/-- The rules about the ahead-of-time compiler are broken by the flags that are on. -/
theorem isBroken_iff {r : RunRule} (hr : r.crossgenFlag? = some g)
    (hcrossgen : s.crossgenSelected = true) (framework graphProgram : Bool) :
    r.isBroken s framework graphProgram = true ↔ s.lookup (.flag g) = .flag g true := by
  cases r <;> cases hr <;> simp [RunRule.isBroken, hcrossgen, lookup]

end

/-! ## Settings that are reached by changes -/

/-- The flags beside the ahead-of-time compiler, and the rules about them, after the changes that
came behind its choice. -/
structure SinceChoice (s : Settings) (after : List Change) : Prop where
  /-- A flag is on just if the last of these changes that writes it turns it on. -/
  on_iff : ∀ g ∈ crossgenFlags, s.lookup (.flag g) = .flag g true ↔ TurnsOn after g
  named : ∀ g, TurnsOn after g →
    .flag g true ∈ after ∨ g = .tieredJit ∧ .flag .pgo true ∈ after
  /-- Then, and only then, the rule about it is broken. -/
  broken_iff : ∀ (r : RunRule) g, r.crossgenFlag? = some g → ∀ framework graphProgram,
    r.isBroken s framework graphProgram = true ↔ TurnsOn after g
  /-- If no change turns a flag on, all are off, and no such rule is reported. -/
  plain : (∀ g ∈ crossgenFlags, .flag g true ∉ after) →
    s.pgo = false ∧ s.tieredJit = false ∧ s.runApp = false ∧ s.flowGraph = false ∧
      ∀ (files : Tree) (here : Location) (framework : String) (r : RunRule),
        s.brokenRule? files here framework = .ok (some r) →
        r.message ∉ ["PGO has no effect on R2R'd code (yet).",
          "Run mode is not supported for crossgen", "TieredJIT has no effect on R2R'd code.",
          "Flowgraphs are not tested with crossgen2 yet"]

theorem sinceChoice_of_lastChoice {s t : Settings} {cs after : List Change} {jit : String}
    (hchoice : LastChoice cs jit after) (hjit : isCrossgen jit = true)
    (hs : (cs.flatMap Change.writes).foldl update t = s) (hcrossgen : s.crossgenSelected = true) :
    SinceChoice s after := by
  have hon : ∀ g ∈ crossgenFlags, s.lookup (.flag g) = .flag g true ↔ TurnsOn after g := by
    intro g hg
    rw [← hs]
    exact lookup_eq_true_iff hchoice hjit hg
  have hbroken : ∀ (r : RunRule) g, r.crossgenFlag? = some g → ∀ framework graphProgram,
      r.isBroken s framework graphProgram = true ↔ TurnsOn after g := by
    intro r g hr framework graphProgram
    rw [isBroken_iff hr hcrossgen, hon g (mem_crossgenFlags hr)]
  refine ⟨hon, fun _ => mem_of_turnsOn, hbroken, ?_⟩
  intro hnone
  have hoff : ∀ g ∈ crossgenFlags, ¬ TurnsOn after g := by
    intro g hg hturns
    rcases mem_of_turnsOn hturns with hmem | ⟨-, hmem⟩
    · exact hnone g hg hmem
    · exact hnone .pgo (by decide) hmem
  have hlookup : ∀ g ∈ crossgenFlags, s.lookup (.flag g) ≠ .flag g true :=
    fun g hg heq => hoff g hg ((hon g hg).1 heq)
  have hquiet : ∀ (r : RunRule) g framework graphProgram, r.crossgenFlag? = some g →
      r.isBroken s framework graphProgram ≠ true :=
    fun r g _ _ hr heq => hoff g (mem_crossgenFlags hr) ((hbroken r g hr _ _).1 heq)
  refine ⟨?_, ?_, ?_, ?_, ?_⟩
  · simpa [lookup] using hlookup .pgo (by decide)
  · simpa [lookup] using hlookup .tieredJit (by decide)
  · simpa [lookup] using hlookup .runApp (by decide)
  · simpa [lookup] using hlookup .flowGraph (by decide)
  · intro files here framework r hrule hmessage
    obtain ⟨supported, hisBroken⟩ := exists_isBroken hrule
    simp only [List.mem_cons, List.not_mem_nil, or_false] at hmessage
    rcases hmessage with hprofile | hrun | htiers | hgraph
    · obtain rfl : r = .crossgenNoProfile := eq_of_message hprofile
      exact hquiet _ _ _ _ rfl hisBroken
    · obtain rfl : r = .crossgenNoRun := eq_of_message hrun
      exact hquiet _ _ _ _ rfl hisBroken
    · obtain rfl : r = .crossgenNoTiers := eq_of_message htiers
      exact hquiet _ _ _ _ rfl hisBroken
    · obtain rfl : r = .crossgenNoGraph := eq_of_message hgraph
      exact hquiet _ _ _ _ rfl hisBroken

/-- Where the ahead-of-time compiler is selected after maps of changes, its flags are what the
changes behind its choice have made of them. -/
theorem sinceChoice_of_applyMaps {maps : List (List (String × Value))} {s : Settings}
    (hmaps : ({} : Settings).applyMaps maps = .ok s) (hcrossgen : s.crossgenSelected = true) :
    ∃ cs jit after, checkAll maps.flatten = .ok cs ∧ LastChoice cs jit after ∧
      isCrossgen jit = true ∧ s.selectedJit = some jit ∧ SinceChoice s after := by
  rw [applyMaps_eq] at hmaps
  obtain ⟨cs, hcheck, hs⟩ := applyAll_eq_ok_iff.1 hmaps
  cases hselected : s.selectedJit with
  | none =>
      rw [crossgenSelected, hselected] at hcrossgen
      cases hcrossgen
  | some jit =>
      have hjit : isCrossgen jit = true := by
        rw [crossgenSelected, hselected] at hcrossgen
        exact hcrossgen
      obtain ⟨after, hchoice⟩ : ∃ after, LastChoice cs jit after := by
        apply exists_lastChoice (ne_defaultJit_of_isCrossgen hjit)
        rw [hs, hselected]
      exact ⟨cs, jit, after, hcheck, hchoice, hjit, rfl,
        sinceChoice_of_lastChoice hchoice hjit hs hcrossgen⟩

/-- The ahead-of-time compiler is chosen over a flow graph and profiles, and then tiers are turned
on and off again. -/
theorem sinceChoice_of_applyMaps_tiers :
    let maps : List (List (String × Value)) := [
      [("fg_enable", .bool true), ("use_pgo", .bool true)],
      [("selected_custom_jit", .text crossgenJit), ("use_tiered_jit", .bool true)],
      [("use_tiered_jit", .bool false)]]
    let s : Settings := { selectedJit := some crossgenJit }
    ({} : Settings).applyMaps maps = .ok s ∧ s.crossgenSelected = true ∧
      ∃ after, LastChoice [.flag .flowGraph true, .flag .pgo true,
          .optional .selectedJit (some crossgenJit), .flag .tieredJit true,
          .flag .tieredJit false] crossgenJit after ∧ SinceChoice s after := by
  intro maps s
  have hmaps : ({} : Settings).applyMaps maps = .ok s := by rfl
  have hcrossgen : s.crossgenSelected = true := by decide
  obtain ⟨cs, jit, after, hcheck, hchoice, -, hjit, hsince⟩ :=
    sinceChoice_of_applyMaps hmaps hcrossgen
  have hcs : checkAll maps.flatten = .ok [.flag .flowGraph true, .flag .pgo true,
      .optional .selectedJit (some crossgenJit), .flag .tieredJit true,
      .flag .tieredJit false] := by rfl
  rw [hcs, Except.ok.injEq] at hcheck
  subst hcheck
  obtain rfl : crossgenJit = jit := Option.some.inj hjit
  exact ⟨hmaps, hcrossgen, after, hchoice, hsince⟩

/-- Profiles are turned on behind the choice of the ahead-of-time compiler, and the rule about them
is what is reported. -/
theorem profile_behind_crossgen :
    let s : Settings := { selectedJit := some crossgenJit, pgo := true, tieredJit := true }
    ({} : Settings).applyMaps
        [[("selected_custom_jit", .text crossgenJit)], [("use_pgo", .bool true)]] = .ok s ∧
      s.crossgenSelected = true ∧ s.pgo = true ∧ s.tieredJit = true ∧
      s.brokenRule? ⟨[]⟩ [] "net8.0" = .ok (some .crossgenNoProfile) ∧
      RunRule.crossgenNoProfile.message = "PGO has no effect on R2R'd code (yet)." := by
  refine ⟨by rfl, by decide, rfl, rfl, by rfl, rfl⟩

end Settings
end JitLens
