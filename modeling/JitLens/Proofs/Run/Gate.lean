import JitLens.Proofs.Run.Calls
/-!
# The gate of a run

Before the first call of a run its symbol, its settings, the builds that it relies on and its
project are checked, one after the other.  The first check that does not pass ends the run, and
nothing was done by then.
-/

namespace JitLens

open Files JitLens.Action

/-! ## Checks -/

/-- The checks before the first call, in their order. -/
inductive Check where
  | symbol
  | runtime
  | compiler
  | rules
  | project
  | pack
  deriving DecidableEq, Repr

/-- What a check comes to: nothing, a message for the user, or a fault of what it relies on. -/
inductive Verdict where
  | passed
  | refused (message : String)
  | fault (f : Fault)

namespace Verdict

/-- Whether a run goes on. -/
def isPassed : Verdict → Bool
  | passed => true
  | _ => false

/-- The verdict on something that a run relies on. -/
def ofPath (complaint : String) : Option Path → Verdict
  | some _ => passed
  | none => refused complaint

/-- The verdict on settings whose first broken rule was looked for. -/
def ofRule : Except Text.DigitsError (Option RunRule) → Verdict
  | .ok none => passed
  | .ok (some rule) => refused rule.message
  | .error e => fault (.digits e)

/-- The verdict on a library pack that was looked for. -/
def ofPack : Except PatternError Compiler.Found → Verdict
  | .ok found => ofPath found.missing found.path?
  | .error e => fault (.pattern e)

theorem isPassed_iff {v : Verdict} : v.isPassed = true ↔ v = passed := by
  cases v with
  | passed => simp [isPassed]
  | refused message => simp [isPassed]
  | fault f => simp [isPassed]

/-- The output of a run that ends. -/
def shown : Verdict → String
  | passed => ""
  | refused message => message
  | fault f => f.trace

end Verdict

namespace Check

/-- The checks in their order. -/
def all : List Check := [symbol, runtime, compiler, rules, project, pack]

/-- The checks of the gate; that of the symbol comes before it. -/
def ofGate : List Check := [runtime, compiler, rules, project, pack]

/-- What a check comes to for an order, on a host and with the files that are there. -/
def verdict (host : Host) (t : Tree) (here : Location) (o : Order) : Check → Verdict
  | symbol =>
    if o.symbol.isGeneric then .refused "Generic methods are not supported yet." else .passed
  | runtime =>
    if o.settings.customRuntime then .passed
    else .refused "Only custom locally-built runtimes are supported at the moment :("
  | compiler =>
    let arch := o.settings.targetArch host
    .ofPath (Compiler.noCompiler o.settings arch host.os)
      (Compiler.jitFolder? t here o.settings.runtimeRoot arch host.os)
  | rules => .ofRule (o.settings.brokenRule? t here (Framework.normalize o.framework))
  | project =>
    if Text.blankString o.project then .refused "Unable to find project directory path"
    else .passed
  | pack =>
    if o.settings.reload = .build then .ofPack (Compiler.findPack t here host o.settings none)
    else .passed

/-- The first of some checks that does not pass. -/
def firstOf (host : Host) (t : Tree) (here : Location) (o : Order) (cs : List Check) :
    Option Check :=
  cs.find? fun c => !(c.verdict host t here o).isPassed

/-- The first check that does not pass. -/
def stop? (host : Host) (t : Tree) (here : Location) (o : Order) : Option Check :=
  firstOf host t here o all

section

variable {host : Host} {t : Tree} {here : Location} {o : Order} {c : Check} {cs : List Check}

theorem firstOf_cons_passed (hverdict : c.verdict host t here o = .passed) :
    firstOf host t here o (c :: cs) = firstOf host t here o cs :=
  List.find?_cons_of_neg (by rw [hverdict]; decide)

theorem firstOf_cons_stopped (hverdict : (c.verdict host t here o).isPassed = false) :
    firstOf host t here o (c :: cs) = some c :=
  List.find?_cons_of_pos (by rw [hverdict]; rfl)

theorem mem_all (c : Check) : c ∈ all := by
  cases c <;> decide

theorem mem_ofGate (hc : c ≠ symbol) : c ∈ ofGate := by
  cases c with
  | symbol => exact absurd rfl hc
  | runtime | compiler | rules | project | pack => decide

theorem verdict_of_firstOf {d : Check} (hfirst : firstOf host t here o cs = none) (hd : d ∈ cs) :
    d.verdict host t here o = .passed := by
  have hpassed := List.find?_eq_none.1 hfirst d hd
  rw [Bool.not_eq_true, Bool.not_eq_false'] at hpassed
  exact Verdict.isPassed_iff.1 hpassed

theorem stop?_eq_none_iff :
    stop? host t here o = none ↔ ∀ c : Check, c.verdict host t here o = .passed := by
  unfold stop? firstOf
  rw [List.find?_eq_none]
  constructor
  · intro hall c
    exact verdict_of_firstOf (List.find?_eq_none.2 hall) (mem_all c)
  · intro hall c _
    rw [hall c]
    decide

end

end Check

/-- What a step shows for a failure. -/
def Failure.shown : Failure → String
  | .step _ message => message
  | f => f.trace

theorem Build.run_shownFailure (warning : Failure → Warning) (f : Failure) (b : Bench) :
    ∃ ws, (Build.shownFailure warning f).run b = (f.shown, { b with warnings := ws }) := by
  cases f with
  | step kind message => exact ⟨b.warnings, rfl⟩
  | settings e => exact ⟨_, rfl⟩
  | fault f => exact ⟨_, rfl⟩

/-! ## The gate -/

namespace Build

/-- The gate from the library pack on. -/
def passPack (host : Host) (j : Job) (b : Bench) (compiler : Path) : Action Gate := do
  if j.settings.reload = .build then
    let pack ← Action.ofExcept (fun e => .fault (.pattern e))
      (Compiler.findPack b.files b.here host j.settings none)
    let _ ← Action.ofExcept id pack.require
  return ⟨compiler⟩

/-- The gate from the project on. -/
def passProject (host : Host) (j : Job) (b : Bench) (compiler : Path) : Action Gate := do
  if Text.blankString j.project then
    Action.stop .configuration "Unable to find project directory path"
  passPack host j b compiler

/-- The gate from the rules on. -/
def passRules (host : Host) (j : Job) (b : Bench) (compiler : Path) : Action Gate := do
  let broken ← Action.ofExcept (fun e => .fault (.digits e))
    (j.settings.brokenRule? b.files b.here j.framework)
  if let some rule := broken then
    Action.stop .configuration rule.message
  passProject host j b compiler

/-- The gate from the compiler on. -/
def passCompiler (host : Host) (j : Job) (b : Bench) : Action Gate := do
  let compiler ← Action.ofExcept id
    (Compiler.findCompiler b.files b.here host j.settings none).require
  Action.checkCancelled
  passRules host j b compiler

theorem gate_eq (host : Host) (j : Job) :
    gate host j = (do
      let b ← get
      if !j.settings.customRuntime then
        Action.stop .configuration
          "Only custom locally-built runtimes are supported at the moment :("
      passCompiler host j b) := rfl

end Build

theorem ne_of_append {s t : String} (hs : s ≠ "") : s ++ t ≠ "" :=
  fun h => hs (String.append_eq_empty_iff.1 h).1

theorem Compiler.noCompiler_ne (s : Settings) (arch os : String) :
    Compiler.noCompiler s arch os ≠ "" := by
  unfold Compiler.noCompiler
  iterate 10 apply ne_of_append
  decide

section

variable {t : Tree} {here : Location} {host : Host} {s : Settings}

theorem Compiler.require_findCompiler_none
    (hfolder : jitFolder? t here s.runtimeRoot (s.targetArch host) host.os = none) :
    (findCompiler t here host s none).require =
      .error (.step .runtimeNotFound (noCompiler s (s.targetArch host) host.os)) := by
  have hfound : findCompiler t here host s none =
      { error := some (noCompiler s (s.targetArch host) host.os) } := by
    simp only [findCompiler, archOr, hfolder]
  have hmessage := noCompiler_ne s (s.targetArch host) host.os
  rw [hfound]
  generalize noCompiler s (s.targetArch host) host.os = message at *
  simp [Found.require, Found.path?, Found.missing, hmessage]

theorem Compiler.require_findCompiler_some {p : Path}
    (hfolder : jitFolder? t here s.runtimeRoot (s.targetArch host) host.os = some p) :
    (findCompiler t here host s none).require = .ok p := by
  have hfound : findCompiler t here host s none = { path := some p } := by
    simp only [findCompiler, archOr, hfolder]
  rw [hfound]
  rfl

end

section

variable {host : Host} {o : Order} {b : Bench}

/-- An action does what the first of some checks says that does not pass, and nothing else. -/
structure Obeys (host : Host) (o : Order) (b : Bench) (cs : List Check)
    (x : Action Build.Gate) : Prop where
  passes : Check.firstOf host b.files b.here o cs = none → ∃ g, x.run.run b = (.ok g, b)
  stops : ∀ c, Check.firstOf host b.files b.here o cs = some c → ∃ f, x.run.run b = (.error f, b) ∧
    f.shown = (c.verdict host b.files b.here o).shown

theorem Obeys.passed {c : Check} {cs : List Check} {x y : Action Build.Gate}
    (hverdict : c.verdict host b.files b.here o = .passed) (hrun : x.run.run b = y.run.run b)
    (hy : Obeys host o b cs y) : Obeys host o b (c :: cs) x where
  passes hfirst := by
    rw [Check.firstOf_cons_passed hverdict] at hfirst
    rw [hrun]
    exact hy.passes hfirst
  stops d hfirst := by
    rw [Check.firstOf_cons_passed hverdict] at hfirst
    rw [hrun]
    exact hy.stops d hfirst

theorem Obeys.stopped {c : Check} {cs : List Check} {x : Action Build.Gate} {f : Failure}
    (hverdict : (c.verdict host b.files b.here o).isPassed = false)
    (hrun : x.run.run b = (.error f, b))
    (hshown : f.shown = (c.verdict host b.files b.here o).shown) : Obeys host o b (c :: cs) x where
  passes hfirst := by
    rw [Check.firstOf_cons_stopped hverdict] at hfirst
    cases hfirst
  stops d hfirst := by
    rw [Check.firstOf_cons_stopped hverdict] at hfirst
    cases hfirst
    exact ⟨f, hrun, hshown⟩

theorem Obeys.refused {c : Check} {cs : List Check} {x : Action Build.Gate} {kind : StepKind}
    {message : String} (hverdict : c.verdict host b.files b.here o = .refused message)
    (hrun : x.run.run b = (.error (.step kind message), b)) : Obeys host o b (c :: cs) x :=
  .stopped (by rw [hverdict]; rfl) hrun (by rw [hverdict]; rfl)

theorem Obeys.faulted {c : Check} {cs : List Check} {x : Action Build.Gate} {f : Fault}
    (hverdict : c.verdict host b.files b.here o = .fault f)
    (hrun : x.run.run b = (.error (.fault f), b)) : Obeys host o b (c :: cs) x :=
  .stopped (by rw [hverdict]; rfl) hrun (by rw [hverdict]; rfl)

theorem obeys_nil {x : Action Build.Gate} {g : Build.Gate} (hrun : x.run.run b = (.ok g, b)) :
    Obeys host o b [] x where
  passes _ := ⟨g, hrun⟩
  stops _ hfirst := nomatch hfirst

theorem obeys_passPack (compiler : Path) :
    Obeys host o b [.pack] (Build.passPack host o.job b compiler) := by
  have hpackJob : Compiler.findPack b.files b.here host o.job.settings none =
      Compiler.findPack b.files b.here host o.settings none := rfl
  unfold Build.passPack
  by_cases hbuild : o.settings.reload = .build
  · have hjob : o.job.settings.reload = .build := hbuild
    have hverdict : Check.pack.verdict host b.files b.here o =
        .ofPack (Compiler.findPack b.files b.here host o.settings none) := by
      rw [Check.verdict, if_pos hbuild]
    rw [if_pos hjob, hpackJob]
    cases hpack : Compiler.findPack b.files b.here host o.settings none with
    | error e =>
        rw [hpack] at hverdict
        exact Obeys.faulted hverdict (run_bind_error (run_ofExcept_error _ _ _))
    | ok found =>
        rw [hpack, Verdict.ofPack] at hverdict
        cases hpath : found.path? with
        | none =>
            have hrequire : found.require = .error (.step .runtimeNotFound found.missing) := by
              rw [Compiler.Found.require, hpath]
            rw [hpath] at hverdict
            apply Obeys.refused hverdict
            rw [run_bind_ok (run_ofExcept_ok _ _ _), hrequire]
            exact run_bind_error (run_ofExcept_error _ _ _)
        | some p =>
            have hrequire : found.require = .ok p := by
              rw [Compiler.Found.require, hpath]
            rw [hpath] at hverdict
            refine Obeys.passed hverdict ?_ (obeys_nil (run_pure (Build.Gate.mk compiler) b))
            rw [run_bind_ok (run_ofExcept_ok _ _ _), hrequire]
            exact run_bind_ok (run_ofExcept_ok _ _ _)
  · have hjob : ¬ o.job.settings.reload = .build := hbuild
    have hverdict : Check.pack.verdict host b.files b.here o = .passed := by
      rw [Check.verdict, if_neg hbuild]
    rw [if_neg hjob]
    exact Obeys.passed hverdict rfl (obeys_nil (run_pure (Build.Gate.mk compiler) b))

theorem obeys_passProject (compiler : Path) :
    Obeys host o b [.project, .pack] (Build.passProject host o.job b compiler) := by
  unfold Build.passProject
  by_cases hblank : Text.blankString o.project = true
  · have hjob : Text.blankString o.job.project = true := hblank
    have hverdict : Check.project.verdict host b.files b.here o =
        .refused "Unable to find project directory path" := by
      rw [Check.verdict, if_pos hblank]
    rw [if_pos hjob]
    exact Obeys.refused hverdict (run_bind_error (run_stop _ _ _))
  · have hjob : ¬ Text.blankString o.job.project = true := hblank
    have hverdict : Check.project.verdict host b.files b.here o = .passed := by
      rw [Check.verdict, if_neg hblank]
    rw [if_neg hjob]
    exact Obeys.passed hverdict rfl (obeys_passPack compiler)

theorem obeys_passRules (compiler : Path) :
    Obeys host o b [.rules, .project, .pack] (Build.passRules host o.job b compiler) := by
  have hjob : o.job.settings.brokenRule? b.files b.here o.job.framework =
      o.settings.brokenRule? b.files b.here (Framework.normalize o.framework) := rfl
  have hverdict : Check.rules.verdict host b.files b.here o =
      .ofRule (o.settings.brokenRule? b.files b.here (Framework.normalize o.framework)) := by
    rw [Check.verdict]
  unfold Build.passRules
  rw [hjob]
  cases hrule : o.settings.brokenRule? b.files b.here (Framework.normalize o.framework) with
  | error e =>
      rw [hrule] at hverdict
      exact Obeys.faulted hverdict (run_bind_error (run_ofExcept_error _ _ _))
  | ok broken =>
      rw [hrule] at hverdict
      cases broken with
      | some rule =>
          apply Obeys.refused hverdict
          rw [run_bind_ok (run_ofExcept_ok _ _ _)]
          exact run_bind_error (run_stop _ _ _)
      | none =>
          refine Obeys.passed hverdict ?_ (obeys_passProject compiler)
          rw [run_bind_ok (run_ofExcept_ok _ _ _)]

theorem obeys_passCompiler (hcancel : b.Uncancelled) :
    Obeys host o b [.compiler, .rules, .project, .pack] (Build.passCompiler host o.job b) := by
  have hjob : Compiler.findCompiler b.files b.here host o.job.settings none =
      Compiler.findCompiler b.files b.here host o.settings none := rfl
  have hverdict : Check.compiler.verdict host b.files b.here o =
      .ofPath (Compiler.noCompiler o.settings (o.settings.targetArch host) host.os)
        (Compiler.jitFolder? b.files b.here o.settings.runtimeRoot (o.settings.targetArch host)
          host.os) := by
    rw [Check.verdict]
  unfold Build.passCompiler
  rw [hjob]
  cases hfolder : Compiler.jitFolder? b.files b.here o.settings.runtimeRoot
      (o.settings.targetArch host) host.os with
  | none =>
      rw [hfolder] at hverdict
      rw [Compiler.require_findCompiler_none hfolder]
      exact Obeys.refused hverdict (run_bind_error (run_ofExcept_error _ _ _))
  | some compiler =>
      rw [hfolder] at hverdict
      rw [Compiler.require_findCompiler_some hfolder]
      refine Obeys.passed hverdict ?_ (obeys_passRules compiler)
      rw [run_bind_ok (run_ofExcept_ok _ _ _), run_bind_ok (run_checkCancelled hcancel)]

/-- The gate does what its checks say, in their order. -/
theorem obeys_gate (hcancel : b.Uncancelled) :
    Obeys host o b Check.ofGate (Build.gate host o.job) := by
  unfold Check.ofGate
  have hjob : o.job.settings = o.settings := rfl
  rw [Build.gate_eq, hjob]
  cases hruntime : o.settings.customRuntime with
  | true =>
      have hverdict : Check.runtime.verdict host b.files b.here o = .passed := by
        simp only [Check.verdict, hruntime, if_true]
      refine Obeys.passed hverdict ?_ (obeys_passCompiler hcancel)
      exact run_bind_ok (run_get b)
  | false =>
      have hverdict : Check.runtime.verdict host b.files b.here o =
          .refused "Only custom locally-built runtimes are supported at the moment :(" := by
        simp only [Check.verdict, hruntime, Bool.false_eq_true, if_false]
      apply Obeys.refused hverdict
      rw [run_bind_ok (run_get b)]
      exact run_bind_error (run_stop _ _ _)

end

end JitLens
