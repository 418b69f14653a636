import JitLens.Proofs.Compiler.Unchanged
import JitLens.Proofs.Run.Kinds
import JitLens.Proofs.Run.Variables
/-!
# What the two steps look for

The gate looks for the compiler of the local build, and for the library pack unless the project is
published.  The second step looks for them again, in up to three places.  What the gate has found
is still there then, unless the checkout has changed; but the ahead-of-time compiler asks for a
pack that nobody has looked for if the project was published.
-/

namespace JitLens

open Files JitLens.Action

section

variable {tools : Tools} {host : Host} {prettifier : Option Prettifier} {j : Job}
  {b b₁ b' : Bench} {f : Failure}

/-! ## The gate -/

namespace Build

/-- What the gate has found and made sure of. -/
structure Surveyed (host : Host) (j : Job) (b : Bench) : Prop where
  compiler : ∃ jit, Compiler.Located host j.settings b jit
  rules : ∃ supported, ∀ rule : RunRule, rule.isBroken j.settings supported
    (j.settings.hasGraphProgram b.files b.here) = false
  pack : j.settings.reload = .build → ∃ pack path,
    Compiler.findPack b.files b.here host j.settings none = .ok pack ∧ pack.path? = some path

theorem passPack_eq_ok {compiler : Path} {g : Gate}
    (hpass : (passPack host j b compiler).run.run b = (.ok g, b'))
    (hbuild : j.settings.reload = .build) : ∃ pack path,
      Compiler.findPack b.files b.here host j.settings none = .ok pack ∧
        pack.path? = some path := by
  rw [passPack, if_pos hbuild] at hpass
  cases hpack : Compiler.findPack b.files b.here host j.settings none with
  | error e =>
      rw [hpack] at hpass
      cases hpass
  | ok pack =>
      rw [hpack, run_bind_ok (run_ofExcept_ok _ _ _), Compiler.Found.require] at hpass
      cases hpath : pack.path? with
      | none =>
          rw [hpath] at hpass
          cases hpass
      | some path => exact ⟨pack, path, rfl, hpath⟩

theorem passRules_eq_ok {compiler : Path} {g : Gate}
    (hpass : (passRules host j b compiler).run.run b = (.ok g, b')) :
    j.settings.brokenRule? b.files b.here j.framework = .ok none ∧
      (passPack host j b compiler).run.run b = (.ok g, b') := by
  unfold passRules passProject at hpass
  cases hbroken : j.settings.brokenRule? b.files b.here j.framework with
  | error e =>
      rw [hbroken] at hpass
      cases hpass
  | ok broken =>
      rw [hbroken, run_bind_ok (run_ofExcept_ok _ _ _)] at hpass
      cases broken with
      | some rule => cases hpass
      | none =>
          refine ⟨rfl, ?_⟩
          cases hblank : Text.blankString j.project with
          | true =>
              rw [hblank] at hpass
              cases hpass
          | false =>
              rw [hblank] at hpass
              exact hpass

theorem passCompiler_eq_ok {g : Gate} (hgate : (gate host j).run.run b = (.ok g, b')) :
    b.Uncancelled ∧ ∃ compiler,
      (Compiler.findCompiler b.files b.here host j.settings none).require = .ok compiler ∧
        (passRules host j b compiler).run.run b = (.ok g, b') := by
  rw [gate_eq, run_bind_ok (run_get b)] at hgate
  have hcompiler : (passCompiler host j b).run.run b = (.ok g, b') := by
    cases hcustom : j.settings.customRuntime with
    | true =>
        rw [hcustom] at hgate
        exact hgate
    | false =>
        rw [hcustom] at hgate
        cases hgate
  unfold passCompiler at hcompiler
  obtain ⟨jit, b₁, hfound, hchecking⟩ := exists_of_run_bind_ok hcompiler
  rw [run_ofExcept_id, Prod.mk.injEq] at hfound
  obtain ⟨hrequire, rfl⟩ := hfound
  obtain ⟨_, b₂, hcheck, hrules⟩ := exists_of_run_bind_ok hchecking
  obtain ⟨rfl, huncancelled⟩ := checkCancelled_eq_ok hcheck
  exact ⟨huncancelled, jit, hrequire, hrules⟩

theorem surveyed_of_gate {g : Gate} (hgate : (gate host j).run.run b = (.ok g, b')) :
    Surveyed host j b := by
  obtain ⟨-, jit, hrequire, hrules⟩ := passCompiler_eq_ok hgate
  obtain ⟨hnone, hpack⟩ := passRules_eq_ok hrules
  exact {
    compiler := ⟨jit, Compiler.located_of_require hrequire⟩
    rules := Settings.isBroken_eq_false hnone
    pack := passPack_eq_ok hpack }

theorem surveyed_of_attempt (hattempt : (attempt tools host j).run.run b = (.ok (), b')) :
    Surveyed host j b := by
  rw [attempt_eq] at hattempt
  obtain ⟨g, b₁, hgate, -⟩ := exists_of_run_bind_ok hattempt
  exact surveyed_of_gate hgate

/-- A project that is built has passed the gate. -/
theorem surveyed_of_built (hbuilt : ((Build.run tools host j).run b).1 = none) :
    Surveyed host j b := by
  rcases hattempt : (attempt tools host j).run.run b with ⟨e | ⟨⟩, b₁⟩
  · obtain ⟨ws, hrun⟩ := run_error hattempt
    rw [hrun] at hbuilt
    cases hbuilt
  · exact surveyed_of_attempt hattempt

theorem Surveyed.not_lacksPack {m : String} (hsurveyed : Surveyed host j b)
    (hbuild : j.settings.reload = .build) : ¬ Compiler.LacksPack host j.settings b m := by
  obtain ⟨pack, path, hpack, hpath⟩ := hsurveyed.pack hbuild
  exact Compiler.not_lacksPack hpack hpath

/-- No flow graph is drawn of what the ahead-of-time compiler makes. -/
theorem Surveyed.flowGraph (hsurveyed : Surveyed host j b)
    (hcrossgen : j.settings.crossgenSelected = true) : j.settings.flowGraph = false := by
  obtain ⟨supported, hrules⟩ := hsurveyed.rules
  have hrule := hrules .crossgenNoGraph
  rw [RunRule.isBroken, hcrossgen, Bool.true_and] at hrule
  exact hrule

end Build

/-! ## The call that is instrumented -/

namespace Execution

variable {vars : Compiler.Variables} {m : String}

/-- What the call that is instrumented needs and is not found: the library pack, or the compiler
without which there is none either, for the ahead-of-time compiler, and the compiler for the host
of the local runtime. -/
inductive Unfound (host : Host) (j : Job) (b : Bench) : String → Prop where
  | crossgen {m : String} (hcrossgen : j.settings.crossgenSelected = true)
      (hlacks : Compiler.LacksPack host j.settings b m) : Unfound host j b m
  | corerun {m : String} (hcrossgen : j.settings.crossgenSelected = false)
      (hbuild : j.settings.reload = .build)
      (hlacks : Compiler.LacksCompiler host j.settings b m) : Unfound host j b m

theorem errorOr_some (general : String) (hm : m ≠ "") : errorOr general (some m) = m :=
  if_neg hm

theorem run_invocation_of_not_crossgen (hcrossgen : j.settings.crossgenSelected = false) :
    ∃ statuses, (invocation host j vars).run.run b =
      (runCall host j vars).run.run { b with statuses := statuses } := by
  refine ⟨b.statuses ++ ["Executing " ++ Loader.program ++ "..."], ?_⟩
  unfold invocation
  rw [hcrossgen, if_neg Bool.false_ne_true]
  exact run_bind_ok rfl

theorem run_runCall_of_lacksCompiler (hbuild : j.settings.reload = .build)
    (hlacks : Compiler.LacksCompiler host j.settings b m) :
    (runCall host j vars).run.run b = (.error (.step .runtimeNotFound m), b) := by
  obtain ⟨hfolder, rfl⟩ := Compiler.lacksCompiler_iff.1 hlacks
  have hrequire := Compiler.require_findCompiler_none hfolder
  have hpublish : ¬ j.settings.reload = .publish := by
    rw [hbuild]
    decide
  rw [runCall, run_bind_ok (run_get b)]
  dsimp only
  rw [if_neg hpublish, hrequire]
  rfl

theorem unfound_of_runCall (hcall : (runCall host j vars).run.run b = (.error f, b')) :
    ∃ m, f = .step .runtimeNotFound m ∧ j.settings.reload = .build ∧
      Compiler.LacksCompiler host j.settings b m := by
  have hreload : j.settings.reload = .build := by
    cases hreload : j.settings.reload with
    | build => rfl
    | publish =>
        rw [runCall, run_bind_ok (run_get b)] at hcall
        dsimp only at hcall
        rw [if_pos hreload] at hcall
        cases hcall
  rcases Compiler.lacksCompiler_or_located host j.settings b with ⟨m, hlacks⟩ | ⟨jit, hjit⟩
  · rw [run_runCall_of_lacksCompiler hreload hlacks] at hcall
    cases hcall
    exact ⟨m, rfl, hreload, hlacks⟩
  · have hrequire := Compiler.require_findCompiler_some hjit
    have hpublish : ¬ j.settings.reload = .publish := by
      rw [hreload]
      decide
    rw [runCall, run_bind_ok (run_get b)] at hcall
    dsimp only at hcall
    rw [if_neg hpublish, hrequire] at hcall
    cases hcall

/-- What is not found ends the second step before the call. -/
theorem exists_run_invocation (hunfound : Unfound host j b m) (vars : Compiler.Variables) :
    ∃ b', (invocation host j vars).run.run b = (.error (.step .runtimeNotFound m), b') := by
  cases hunfound with
  | crossgen hcrossgen hlacks =>
      have hcall := Compiler.Crossgen.call_of_lacksPack j.target.assembly j.target.folder vars hlacks
      have hmessage := errorOr_some "crossgen2 was not found" hlacks.ne
      refine ⟨b, ?_⟩
      unfold invocation
      rw [hcrossgen, if_pos rfl]
      apply run_bind_error
      rw [crossgenCall, run_bind_ok (run_get b)]
      dsimp only
      rw [hcall, run_bind_ok (run_ofExcept_ok _ _ _)]
      dsimp only
      rw [hmessage]
      rfl
  | corerun hcrossgen hbuild hlacks =>
      obtain ⟨statuses, hrun⟩ := run_invocation_of_not_crossgen hcrossgen
      refine ⟨{ b with statuses := statuses }, hrun.trans ?_⟩
      exact run_runCall_of_lacksCompiler hbuild hlacks

/-- Nothing else does, but for faults. -/
theorem unfound_of_invocation (hinvocation : (invocation host j vars).run.run b = (.error f, b')) :
    (∃ m, f = .step .runtimeNotFound m ∧ Unfound host j b m) ∨ ∃ e, f = .fault e := by
  cases hcrossgen : j.settings.crossgenSelected with
  | true =>
      unfold invocation at hinvocation
      rw [hcrossgen, if_pos rfl, crossgenCall, bind_assoc, run_bind_ok (run_get b)] at hinvocation
      dsimp only at hinvocation
      cases hcall : Compiler.Crossgen.call b.files b.here host j.settings j.target.assembly
          j.target.folder vars with
      | error e =>
          rw [hcall] at hinvocation
          cases hinvocation
          exact .inr ⟨e, rfl⟩
      | ok r =>
          rw [hcall] at hinvocation
          cases r with
          | ok call => cases hinvocation
          | error reason =>
              have hending := Compiler.Crossgen.call_ending host j.settings b j.target.assembly
                j.target.folder vars
              rw [hcall] at hending
              cases hending with
              | @missing m hlacks =>
                  have hmessage := errorOr_some "crossgen2 was not found" hlacks.ne
                  cases hinvocation
                  rw [hmessage]
                  exact .inl ⟨m, rfl, .crossgen hcrossgen hlacks⟩
  | false =>
      obtain ⟨statuses, hrun⟩ := run_invocation_of_not_crossgen hcrossgen
      rw [hrun] at hinvocation
      obtain ⟨m, rfl, hbuild, hlacks⟩ := unfound_of_runCall hinvocation
      exact .inl ⟨m, rfl, .corerun hcrossgen hbuild hlacks⟩

/-! ## The second step -/

/-- The benches on which the second step looks for the local build. -/
inductive Looks (tools : Tools) (host : Host) (j : Job) (b : Bench) : Bench → Prop where
  | vars {b₁ : Bench} (hload : (load tools j).run.run b = (.ok (), b₁)) :
    Looks tools host j b b₁
  | call {b₁ b₂ : Bench} {vars : Compiler.Variables}
      (hload : (load tools j).run.run b = (.ok (), b₁))
      (hvars : (Execution.vars host j).run.run b₁ = (.ok vars, b₂)) : Looks tools host j b b₂

/-- The ways in which the second step does not find what it looks for, with the kind of the
failure and its message. -/
inductive Misses (tools : Tools) (host : Host) (j : Job) (b : Bench) : StepKind → String → Prop where
  | vars {b₁ : Bench} {m : String} (hload : (load tools j).run.run b = (.ok (), b₁))
      (hbuild : j.settings.reload = .build) (hlacks : Compiler.LacksPack host j.settings b₁ m) :
    Misses tools host j b .configuration m
  | call {b₁ b₂ : Bench} {vars : Compiler.Variables} {m : String}
      (hload : (load tools j).run.run b = (.ok (), b₁))
      (hvars : (Execution.vars host j).run.run b₁ = (.ok vars, b₂))
      (hunfound : Unfound host j b₂ m) : Misses tools host j b .runtimeNotFound m

theorem refusedMessage_of_lacksPack (hbuild : j.settings.reload = .build)
    (hlacks : Compiler.LacksPack host j.settings b m) :
    refusedMessage j.settings { error := some m } = m := by
  have hrefusal : Compiler.Variables.refusal j.settings { error := some m } = some m :=
    if_pos ⟨hbuild, rfl⟩
  rw [refusedMessage, hrefusal]
  exact errorOr_some _ hlacks.ne

theorem run_vars_of_lacksPack (hbuild : j.settings.reload = .build)
    (hlacks : Compiler.LacksPack host j.settings b m) :
    (Execution.vars host j).run.run b = (.error (.step .configuration m), b) := by
  have hpack : Compiler.Variables.packOn host j.settings b = .ok { error := some m } := by
    rw [Compiler.Variables.packOn_build hbuild]
    exact hlacks
  have hrefused : Compiler.Variables.Refused j.settings j.target.method { error := some m } :=
    .inl ⟨hbuild, rfl⟩
  rw [run_vars_of_refused hpack hrefused, refusedMessage_of_lacksPack hbuild hlacks]

theorem Misses.exists_attempt {kind : StepKind} (hmisses : Misses tools host j b kind m)
    (prettifier : Option Prettifier) :
    ∃ b', (attempt tools host prettifier j).run.run b = (.error (.step kind m), b') := by
  rw [attempt_eq, prepare]
  cases hmisses with
  | @vars b₁ _ hload hbuild hlacks =>
      have hvars := run_vars_of_lacksPack hbuild hlacks
      refine ⟨b₁, ?_⟩
      apply run_bind_error
      rw [run_bind_ok hload]
      exact run_bind_error hvars
  | @call b₁ b₂ vars _ hload hvars hunfound =>
      obtain ⟨b', hinvocation⟩ := exists_run_invocation hunfound vars
      refine ⟨b', ?_⟩
      apply run_bind_error
      rw [run_bind_ok hload, run_bind_ok hvars]
      exact run_bind_error hinvocation

/-- The failures of the second step where nothing is missing: flow graphs that are turned down, what
the other parts of the step foresee, faults, and what comes out of tools. -/
inductive FailsElsewhere (tools : Tools) (j : Job) : Failure → Prop where
  | graph (hgraph : j.settings.flowGraph = true) (hstar : j.target.method = "*") :
    FailsElsewhere tools j
      (.step .configuration "Flowgraph for classes (all methods) is not supported yet.")
  | raised {f : Failure} (hraised : Raised tools [.loaderBuild, .cancelled, .artifact] f) :
    FailsElsewhere tools j f

theorem misses_of_attempt
    (hattempt : (attempt tools host prettifier j).run.run b = (.error f, b')) :
    (∃ kind m, f = .step kind m ∧ Misses tools host j b kind m) ∨
      FailsElsewhere tools j f := by
  cases failing_of_attempt hattempt with
  | loader hraised => exact .inr (.raised (hraised.mono (by decide)))
  | call hraised => exact .inr (.raised (hraised.mono (by decide)))
  | @vars b₁ b₂ hload hvars =>
      have hending := vars_ending host j b₁
      rw [hvars] at hending
      cases hending with
      | unmatched _ => exact .inr (.raised (.fault _))
      | unwritable _ _ _ _ => exact .inr (.raised (.fault _))
      | @refused pack hpack hrefused =>
          by_cases hmissing : j.settings.reload = .build ∧ pack.path? = none
          · obtain ⟨hbuild, hnone⟩ := hmissing
            rw [Compiler.Variables.packOn_build hbuild] at hpack
            obtain ⟨m, rfl, hlacks⟩ := Compiler.exists_lacksPack hpack hnone
            rw [refusedMessage_of_lacksPack hbuild hlacks]
            exact .inl ⟨_, m, rfl, .vars hload hbuild hlacks⟩
          · obtain ⟨hgraph, hstar⟩ := hrefused.resolve_left hmissing
            have hmessage : refusedMessage j.settings pack =
                "Flowgraph for classes (all methods) is not supported yet." := by
              rw [refusedMessage, Compiler.Variables.refusal, if_neg hmissing]
              exact errorOr_some _ (by decide)
            rw [hmessage]
            exact .inr (.graph hgraph hstar)
  | lookup hload hvars hinvocation =>
      rcases unfound_of_invocation hinvocation with ⟨m, rfl, hunfound⟩ | ⟨e, rfl⟩
      · exact .inl ⟨_, m, rfl, .call hload hvars hunfound⟩
      · exact .inr (.raised (.fault e))

/-! ## What the gate covers -/

theorem needsLoader_of_crossgen (hcrossgen : j.settings.crossgenSelected = true) :
    needsLoader j.settings = false := by
  rw [needsLoader, hcrossgen, Bool.not_true, Bool.and_false]

theorem run_load_of_not_needed (tools : Tools) (b : Bench)
    (hneeds : needsLoader j.settings = false) : (load tools j).run.run b = (.ok (), b) := by
  rw [load, hneeds, if_neg Bool.false_ne_true]
  rfl

/-- Where neither a loader is needed nor a flow graph is drawn, the second step looks around before
it has done anything. -/
theorem Looks.eq (hneeds : needsLoader j.settings = false) (hgraph : j.settings.flowGraph = false)
    (hlooks : Looks tools host j b b') : b' = b := by
  have hrun := run_load_of_not_needed tools b hneeds
  cases hlooks with
  | vars hload =>
      rw [hrun] at hload
      cases hload
      rfl
  | call hload hvars =>
      rw [hrun] at hload
      cases hload
      have hending := vars_ending host j b
      rw [hvars] at hending
      cases hending with
      | plain _ _ _ => rfl
      | drawing _ _ hdrawn _ =>
          rw [hgraph] at hdrawn
          cases hdrawn

theorem exists_run_vars (host : Host) (b : Bench) (hpublish : j.settings.reload = .publish)
    (hgraph : j.settings.flowGraph = false) :
    ∃ vars, (Execution.vars host j).run.run b = (.ok vars, b) := by
  have hpack : Compiler.Variables.packOn host j.settings b = .ok {} := if_pos hpublish
  have hrefused : ¬ Compiler.Variables.Refused j.settings j.target.method {} := by
    rintro (⟨hbuild, -⟩ | ⟨hdrawn, -⟩)
    · rw [hpublish] at hbuild
      cases hbuild
    · rw [hgraph] at hdrawn
      cases hdrawn
  refine ⟨_, run_vars_of_prepare hpack (Compiler.Variables.run_prepare_plain hrefused hgraph)⟩

/-- What the second step, from one bench, makes of what the gate has found on another one. -/
structure Covered (tools : Tools) (host : Host) (prettifier : Option Prettifier) (j : Job)
    (b b₁ : Bench) : Prop where
  /-- What is not found is shown. -/
  ends : ∀ kind m, Misses tools host j b₁ kind m →
    ((run tools host prettifier j).run b₁).1 = { failed := true, output := m }
  origin : ∀ f b', (attempt tools host prettifier j).run.run b₁ = (.error f, b') →
    (∃ kind m, f = .step kind m ∧ Misses tools host j b₁ kind m) ∨ FailsElsewhere tools j f
  /-- Unless the checkout has changed, just one thing can be missing that the gate has not looked
  for: the library pack of a published project, which the ahead-of-time compiler asks for. -/
  misses_iff : (∀ b', Looks tools host j b₁ b' → Compiler.Unchanged host j.settings b b') →
    ∀ kind m, Misses tools host j b₁ kind m ↔
      j.settings.reload = .publish ∧ j.settings.crossgenSelected = true ∧
        kind = .runtimeNotFound ∧ m = Compiler.noPack (j.settings.targetArch host) host.os ∧
        Compiler.LacksPack host j.settings b m

theorem Misses.of_surveyed {kind : StepKind} (hsurveyed : Build.Surveyed host j b)
    (hsame : ∀ b', Looks tools host j b₁ b' → Compiler.Unchanged host j.settings b b')
    (hmisses : Misses tools host j b₁ kind m) :
    j.settings.reload = .publish ∧ j.settings.crossgenSelected = true ∧
      kind = .runtimeNotFound ∧ m = Compiler.noPack (j.settings.targetArch host) host.os ∧
      Compiler.LacksPack host j.settings b m := by
  obtain ⟨jit, hjit⟩ := hsurveyed.compiler
  cases hmisses with
  | vars hload hbuild hlacks =>
      have hlacked := (hsame _ (.vars hload)).lacksPack_iff.1 hlacks
      exact absurd hlacked (hsurveyed.not_lacksPack hbuild)
  | call hload hvars hunfound =>
      have hunchanged := hsame _ (.call hload hvars)
      cases hunfound with
      | corerun _ _ hlacks =>
          have hlacked := hunchanged.lacksCompiler_iff.1 hlacks
          exact absurd hjit hlacked.not_located
      | crossgen hcrossgen hlacks =>
          have hlacked := hunchanged.lacksPack_iff.1 hlacks
          cases hreload : j.settings.reload with
          | build => exact absurd hlacked (hsurveyed.not_lacksPack hreload)
          | publish => exact ⟨rfl, hcrossgen, rfl, hlacked.eq_noPack hjit, hlacked⟩

theorem misses_of_publish (hsurveyed : Build.Surveyed host j b)
    (hsame : ∀ b', Looks tools host j b₁ b' → Compiler.Unchanged host j.settings b b')
    (hpublish : j.settings.reload = .publish) (hcrossgen : j.settings.crossgenSelected = true)
    (hlacks : Compiler.LacksPack host j.settings b m) :
    Misses tools host j b₁ .runtimeNotFound m := by
  have hload := run_load_of_not_needed tools b₁ (needsLoader_of_crossgen hcrossgen)
  -- A rule of the gate has ruled out flow graphs, which alone could change the files by now.
  have hgraph := hsurveyed.flowGraph hcrossgen
  obtain ⟨vars, hvars⟩ := exists_run_vars host b₁ hpublish hgraph
  have hunchanged := hsame b₁ (.call hload hvars)
  exact .call hload hvars (.crossgen hcrossgen (hunchanged.lacksPack_iff.2 hlacks))

/-- Whatever the gate has let through, the second step finds what it looks for, but for one case. -/
theorem covered_of_built {built : Tools} (hbuilt : ((Build.run built host j).run b).1 = none)
    (tools : Tools) (prettifier : Option Prettifier) (b₁ : Bench) :
    Covered tools host prettifier j b b₁ where
  ends kind m hmisses := by
    obtain ⟨b', hattempt⟩ := hmisses.exists_attempt prettifier
    obtain ⟨ws, hrun⟩ := run_error hattempt
    rw [hrun]
    rfl
  origin _ _ hattempt := misses_of_attempt hattempt
  misses_iff hsame kind m := by
    have hsurveyed := Build.surveyed_of_built hbuilt
    constructor
    · exact fun hmisses => hmisses.of_surveyed hsurveyed hsame
    · rintro ⟨hpublish, hcrossgen, rfl, -, hlacks⟩
      exact misses_of_publish hsurveyed hsame hpublish hcrossgen hlacks

/-- A checkout with a compiler and without a library pack, and a project that was published. -/
def unpackedBench : Bench where
  files := ⟨[
    ("rt", .dir [("artifacts", .dir [("bin", .dir [
      ("coreclr", .dir [("linux.x64.Checked", .dir [])])])])]),
    ("App", .dir [("out", .dir [])]), ("tmp", .dir [])]⟩
  here := []
  temporary := ⟨.root, ["tmp"]⟩

def unpackedJob : Job where
  symbol := { qualifiedClass := "App.Program", className := "Program", method := some "Main" }
  settings := {
    runtimeRoot := "rt", arch := some "x64", reload := .publish, selectedJit := some crossgenJit }
  project := "App/App.csproj"
  framework := "net8.0"
  output := "out"

/-- The project is published, and then the library pack is asked for. -/
theorem covered_of_built_unpacked :
    let tools : Tools := fun _ _ t => { files := t, outcome := .ok {} }
    let built := (Build.run tools {} unpackedJob).run unpackedBench
    built.1 = none ∧ ((run tools {} none unpackedJob).run built.2).1 =
      { failed := true, output := Compiler.noPack "x64" "linux" } := by
  intro tools built
  have hbuilt : built.1 = none := by decide +kernel
  have hcovered := covered_of_built hbuilt tools none built.2
  have hfiles : built.2.files = unpackedBench.files := rfl
  have hhere : built.2.here = unpackedBench.here := rfl
  have hsame : ∀ b', Looks tools {} unpackedJob built.2 b' →
      Compiler.Unchanged {} unpackedJob.settings unpackedBench b' := by
    intro b' hlooks
    obtain rfl := hlooks.eq rfl rfl
    refine ⟨hhere, fun q _ => ?_⟩
    rw [hfiles]
    exact ⟨rfl, rfl, rfl⟩
  have hlacks : Compiler.LacksPack {} unpackedJob.settings unpackedBench
      (Compiler.noPack "x64" "linux") := by
    unfold Compiler.LacksPack
    decide +kernel
  exact ⟨hbuilt, hcovered.ends _ _
    ((hcovered.misses_iff hsame .runtimeNotFound _).2 ⟨rfl, rfl, rfl, rfl, hlacks⟩)⟩

end Execution
end
end JitLens
