import JitLens.Proofs.Compiler.Search
import JitLens.Proofs.Run.Endings
import JitLens.Proofs.Run.Variables
/-!
# The instrumented call

The call that a run is made for: the program that it starts, which comes from the local build of
the runtime unless the project was published, and the variables that tell this program what to
print.  No other call has these variables.
-/

namespace JitLens

open Files JitLens.Action

section

variable {host : Host} {s : Settings} {j : Job} {b b' : Bench} {vars : Compiler.Variables}

/-! ## The program -/

namespace Execution

/-- The program that is instrumented: the ahead-of-time compiler if it is selected, or else the
host of the local runtime, or the build program if the project was published. -/
inductive Starts (host : Host) (s : Settings) (b : Bench) : String → Prop where
  | crossgen {jit : Path} (hcrossgen : s.crossgenSelected = true)
      (hjit : Compiler.Located host s b jit) :
    Starts host s b (Compiler.crossgenProgram jit host.os).text
  | corerun {jit : Path} (hcrossgen : s.crossgenSelected = false) (hreload : s.reload = .build)
      (hjit : Compiler.Located host s b jit) :
    Starts host s b (Compiler.corerunProgram jit host.os).text
  | dotnet (hcrossgen : s.crossgenSelected = false) (hreload : s.reload = .publish) :
    Starts host s b s.dotnet

/-- The variables that the instrumented program is started with; those that make the
ahead-of-time compiler faster go over the variables of the run. -/
def givenVars (s : Settings) (vars : Compiler.Variables) : Compiler.Variables :=
  if s.crossgenSelected then Table.putAll vars Compiler.Crossgen.hostVariables else vars

/-- A call that starts the instrumented program with the variables of a run. -/
structure Carries (host : Host) (s : Settings) (b : Bench) (vars : Compiler.Variables)
    (i : Invocation) : Prop where
  program : Starts host s b i.executable
  vars : i.vars = some (givenVars s vars)

/-- A call of the ahead-of-time compiler is made in the directory with the compiled project. -/
theorem exists_of_crossgenCall {call : Invocation}
    (hcall : (crossgenCall host j vars).run.run b = (.ok call, b')) :
    ∃ made, Compiler.Crossgen.call b.files b.here host j.settings j.target.assembly
        j.target.folder vars = .ok (.ok made) ∧ b' = b ∧ call = {
      executable := made.program.text
      args := made.args
      vars := some made.vars
      directory := some j.target.folder.text } := by
  unfold crossgenCall at hcall
  rw [run_bind_ok (run_get b)] at hcall
  dsimp only at hcall
  cases hcrossgen : Compiler.Crossgen.call b.files b.here host j.settings j.target.assembly
      j.target.folder vars with
  | error e =>
      rw [hcrossgen, run_bind_error (run_ofExcept_error _ _ _)] at hcall
      cases hcall
  | ok r =>
      rw [hcrossgen, run_bind_ok (run_ofExcept_ok _ _ _)] at hcall
      cases r with
      | error reason => cases hcall
      | ok made =>
          dsimp only at hcall
          rw [run_pure, Prod.mk.injEq, Except.ok.injEq] at hcall
          exact ⟨made, rfl, hcall.2.symm, hcall.1.symm⟩

theorem crossgenCall_eq_ok {call : Invocation}
    (hcall : (crossgenCall host j vars).run.run b = (.ok call, b')) :
    ∃ jit, Compiler.Located host j.settings b jit ∧
      call.executable = (Compiler.crossgenProgram jit host.os).text ∧
      call.vars = some (Table.putAll vars Compiler.Crossgen.hostVariables) ∧ b' = b := by
  obtain ⟨made, hmade, rfl, rfl⟩ := exists_of_crossgenCall hcall
  have hending := Compiler.Crossgen.call_ending host j.settings b' j.target.assembly
    j.target.folder vars
  rw [hmade] at hending
  cases hending with
  | made hjit hprogram hvars =>
      exact ⟨_, hjit, congrArg Path.text hprogram, congrArg some hvars, rfl⟩

theorem runCall_eq_ok {call : Invocation} (hcrossgen : j.settings.crossgenSelected = false)
    (hcall : (runCall host j vars).run.run b = (.ok call, b')) :
    Starts host j.settings b call.executable ∧ call.vars = some vars ∧ b' = b := by
  unfold runCall at hcall
  rw [run_bind_ok (run_get b)] at hcall
  dsimp only at hcall
  by_cases hreload : j.settings.reload = .publish
  · rw [if_pos hreload, run_bind_ok (run_pure _ _), run_pure, Prod.mk.injEq,
      Except.ok.injEq] at hcall
    obtain ⟨rfl, rfl⟩ := hcall
    exact ⟨.dotnet hcrossgen hreload, rfl, rfl⟩
  · have hbuild : j.settings.reload = .build := by
      cases hstrategy : j.settings.reload with
      | build => rfl
      | publish => exact absurd hstrategy hreload
    rw [if_neg hreload] at hcall
    cases hrequire : (Compiler.findCompiler b.files b.here host j.settings none).require with
    | error f =>
        rw [hrequire] at hcall
        cases hcall
    | ok jit =>
        rw [hrequire, run_bind_ok (run_ofExcept_ok _ _ _), run_bind_ok (run_pure _ _), run_pure,
          Prod.mk.injEq, Except.ok.injEq] at hcall
        obtain ⟨rfl, rfl⟩ := hcall
        have hstarts : Starts host j.settings b (Compiler.corerunProgram jit host.os).text :=
          .corerun hcrossgen hbuild (Compiler.located_of_require hrequire)
        dsimp only
        exact ⟨hstarts, rfl, rfl⟩

/-- The call that is made is one that starts the right program with all variables of the run. -/
theorem invocation_eq_ok {call : Invocation}
    (hcall : (invocation host j vars).run.run b = (.ok call, b')) :
    Carries host j.settings b' vars call := by
  unfold invocation at hcall
  cases hcrossgen : j.settings.crossgenSelected with
  | true =>
      rw [hcrossgen, if_pos rfl] at hcall
      obtain ⟨made, b₁, hmade, hreport⟩ := exists_of_run_bind_ok hcall
      obtain ⟨jit, hjit, hprogram, hvars, rfl⟩ := crossgenCall_eq_ok hmade
      cases hreport
      refine ⟨?_, ?_⟩
      · rw [hprogram]
        exact .crossgen hcrossgen hjit
      · rw [hvars, givenVars, if_pos hcrossgen]
  | false =>
      rw [hcrossgen, if_neg Bool.false_ne_true] at hcall
      obtain ⟨_, b₁, _, hmade⟩ := exists_of_run_bind_ok hcall
      obtain ⟨hstarts, hvars, rfl⟩ := runCall_eq_ok hcrossgen hmade
      refine ⟨hstarts, ?_⟩
      rw [hvars, givenVars, hcrossgen, if_neg Bool.false_ne_true]

/-! ## The variables -/

/-- The variables of a run, with a library pack, and with a file just if there is a flow graph. -/
def Derived (j : Job) (vars : Compiler.Variables) : Prop :=
  ∃ pack file, vars = Compiler.Variables.all j.settings j.target.filter pack file ∧
    file.isSome = j.settings.flowGraph

theorem vars_eq_ok (hvars : (Execution.vars host j).run.run b = (.ok vars, b')) :
    Derived j vars := by
  have hending := vars_ending host j b
  rw [hvars] at hending
  cases hending with
  | @plain pack _ _ hgraph => exact ⟨pack, none, rfl, hgraph.symm⟩
  | @drawing pack _ _ _ hgraph _ => exact ⟨pack, some (b.nextFile ""), rfl, hgraph.symm⟩

def quickLoops : String := "DOTNET_TC_QuickJitForLoops"

/-- Without the ahead-of-time compiler just the user can set the variable that makes builds
faster. -/
theorem userSets_quickLoops {value : String} (hcrossgen : j.settings.crossgenSelected = false)
    (hderived : Derived j vars)
    (hvalue : Table.get? (givenVars j.settings vars) quickLoops = some value) :
    Compiler.Variables.UserSets j.settings.customVars quickLoops value := by
  obtain ⟨pack, file, rfl, -⟩ := hderived
  rw [givenVars, hcrossgen, if_neg Bool.false_ne_true, Compiler.Variables.get?_all] at hvalue
  refine Compiler.Variables.userSets_of_hasValue ?_ (by decide) hvalue
  unfold Compiler.Variables.settingsNames
  cases j.settings.capture <;> decide

theorem prepare_eq_ok {tools : Tools} {call : Invocation}
    (hprepare : (prepare tools host j).run.run b = (.ok (vars, call), b')) :
    Derived j vars ∧ Carries host j.settings b' vars call := by
  unfold prepare at hprepare
  obtain ⟨_, b₁, _, hloaded⟩ := exists_of_run_bind_ok hprepare
  obtain ⟨vars', b₂, hvars, hcalling⟩ := exists_of_run_bind_ok hloaded
  obtain ⟨call', b₃, hcall, hlast⟩ := exists_of_run_bind_ok hcalling
  cases hlast
  exact ⟨vars_eq_ok hvars, invocation_eq_ok hcall⟩

end Execution
end
end JitLens
