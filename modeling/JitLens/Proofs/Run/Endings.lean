import JitLens.Proofs.Run.FirstCall
/-!
# Endings of a run

A run is refused, or one of its two steps fails, or both get through.  What a step shows for its
failure is the output of the run.  A step that gets through has passed all that could have
stopped it, the last request to cancel included.
-/

namespace JitLens

open Files JitLens.Action

section

variable {tools : Tools} {host : Host} {o : Order} {j : Job} {b b' : Bench}

/-! ## Building -/

namespace Build

theorem bench_passPack (host : Host) (j : Job) (b : Bench) (compiler : Path) :
    ((passPack host j b compiler).run.run b).2 = b := by
  unfold passPack
  split
  · cases Compiler.findPack b.files b.here host j.settings none with
    | error e => rfl
    | ok pack =>
        rw [run_bind_ok (run_ofExcept_ok _ _ _)]
        cases pack.require with
        | error f => rfl
        | ok path => rfl
  · rfl

theorem bench_passRules (host : Host) (j : Job) (b : Bench) (compiler : Path) :
    ((passRules host j b compiler).run.run b).2 = b := by
  unfold passRules passProject
  cases j.settings.brokenRule? b.files b.here j.framework with
  | error e => rfl
  | ok broken =>
      rw [run_bind_ok (run_ofExcept_ok _ _ _)]
      cases broken with
      | some rule => rfl
      | none =>
          cases Text.blankString j.project with
          | true => rfl
          | false => exact bench_passPack host j b compiler

/-- The gate does nothing but look. -/
theorem bench_gate (host : Host) (j : Job) (b : Bench) : ((gate host j).run.run b).2 = b := by
  rw [gate_eq, run_bind_ok (run_get b)]
  cases j.settings.customRuntime with
  | false => rfl
  | true =>
      change ((passCompiler host j b).run.run b).2 = b
      unfold passCompiler
      cases (Compiler.findCompiler b.files b.here host j.settings none).require with
      | error f => rfl
      | ok compiler =>
          rw [run_bind_ok (run_ofExcept_ok _ _ _)]
          rcases b.cancelled_or_uncancelled with hcancelled | huncancelled
          · obtain ⟨m, hstop⟩ := run_checkCancelled_of_cancelled hcancelled
            rw [run_bind_error hstop]
          · rw [run_bind_ok (run_checkCancelled huncancelled)]
            exact bench_passRules host j b compiler

theorem gate_of_cancelled (host : Host) (j : Job) (hcancelled : b.Cancelled) :
    ∃ f, (gate host j).run.run b = (.error f, b) := by
  obtain ⟨m, hstop⟩ := run_checkCancelled_of_cancelled hcancelled
  rw [gate_eq, run_bind_ok (run_get b)]
  cases hruntime : j.settings.customRuntime with
  | false => exact ⟨_, run_bind_error (run_stop _ _ _)⟩
  | true =>
      unfold passCompiler
      cases hfound : (Compiler.findCompiler b.files b.here host j.settings none).require with
      | error f => exact ⟨f, run_bind_error (run_ofExcept_error _ _ _)⟩
      | ok compiler =>
          refine ⟨.step .cancelled m, ?_⟩
          exact (run_bind_ok (run_ofExcept_ok _ _ _)).trans (run_bind_error hstop)

/-- The gate fails or lets through what passes all of its checks, and does nothing else. -/
theorem gate_cases (host : Host) (o : Order) (b : Bench) :
    (∃ f, (gate host o.job).run.run b = (.error f, b)) ∨
      b.Uncancelled ∧ (∀ c : Check, c ≠ .symbol → c.verdict host b.files b.here o = .passed) ∧
        ∃ g, (gate host o.job).run.run b = (.ok g, b) := by
  rcases b.cancelled_or_uncancelled with hcancelled | huncancelled
  · exact .inl (gate_of_cancelled host o.job hcancelled)
  · have hobeys : Obeys host o b Check.ofGate (gate host o.job) := obeys_gate huncancelled
    cases hfirst : Check.firstOf host b.files b.here o Check.ofGate with
    | some c =>
        obtain ⟨f, hgate, -⟩ := hobeys.stops c hfirst
        exact .inl ⟨f, hgate⟩
    | none =>
        refine .inr ⟨huncancelled, ?_, hobeys.passes hfirst⟩
        intro c hc
        exact Check.verdict_of_firstOf hfirst (Check.mem_ofGate hc)

theorem gate_eq_ok {g : Gate} (hgate : (gate host o.job).run.run b = (.ok g, b')) :
    b' = b ∧ b.Uncancelled ∧
      ∀ c : Check, c ≠ .symbol → c.verdict host b.files b.here o = .passed := by
  rcases gate_cases host o b with ⟨f, hstop⟩ | ⟨huncancelled, hchecks, g', hpass⟩
  · rw [hstop] at hgate
    cases hgate
  · rw [hpass] at hgate
    cases hgate
    exact ⟨rfl, huncancelled, hchecks⟩

/-- The bench of a run whose gate is passed and that has said what it does next. -/
def announced (host : Host) (j : Job) (b : Bench) : Bench :=
  { b with statuses := b.statuses ++ [status host j] }

theorem uncancelled_announced (host : Host) (j : Job) (huncancelled : b.Uncancelled) :
    (announced host j b).Uncancelled :=
  huncancelled

theorem run_attempt_of_gate {g : Gate} (hgate : (gate host j).run.run b = (.ok g, b)) :
    (attempt tools host j).run.run b =
      (do
        let result ← Action.call tools (invocation host j)
        finish host j g.compiler result).run.run (announced host j b) := by
  have hreport : (Action.report (status host j)).run.run b = (.ok (), announced host j b) := rfl
  rw [attempt_eq, run_bind_ok hgate, run_bind_ok hreport]

theorem finish_eq_ok {compiler : Path} {result : ToolResult}
    (hfinish : (finish host j compiler result).run.run b = (.ok (), b')) :
    b.Uncancelled ∧ complaint? result = none ∧ b'.Uncancelled := by
  unfold finish at hfinish
  obtain ⟨_, b₁, hcheck, hrest⟩ := exists_of_run_bind_ok hfinish
  obtain ⟨rfl, huncancelled⟩ := checkCancelled_eq_ok hcheck
  cases hcomplaint : complaint? result with
  | some complaint =>
      rw [hcomplaint] at hrest
      cases hrest
  | none =>
      refine ⟨huncancelled, rfl, ?_⟩
      rw [hcomplaint] at hrest
      dsimp only at hrest
      -- Both ways to the end of the step lead through a check for a request to cancel.
      split at hrest
      · obtain ⟨_, b₂, _, hlast⟩ := exists_of_run_bind_ok hrest
        obtain ⟨rfl, hb₂⟩ := checkCancelled_eq_ok hlast
        exact hb₂
      · obtain ⟨rfl, hb₁⟩ := checkCancelled_eq_ok hrest
        exact hb₁

theorem stays_attempt {R : Bench → Bench → Prop} (hR : AlongCalls tools R) (host : Host)
    (o : Order) : Stays R (attempt tools host o.job) b := by
  have hgate : Stays R (gate host o.job) b := by
    unfold Stays
    rw [bench_gate]
    exact hR.files b b.files
  rw [attempt_eq]
  apply Stays.bind hR.toQuiet hgate
  intro g b₁ _
  apply Stays.bind hR.toQuiet (Stays.report hR.toQuiet _)
  intro _ b₂ _
  apply Stays.bind hR.toQuiet (Stays.call hR _)
  intro result b₃ _
  exact stays_finish hR.toOffRecord g.compiler result

/-- What a first step that gets through has passed. -/
structure Passed (tools : Tools) (host : Host) (o : Order) (b b' : Bench) : Prop where
  uncancelled : b.Uncancelled
  checks : ∀ c : Check, c ≠ .symbol → c.verdict host b.files b.here o = .passed
  result : ∃ result, (tools b.calls (invocation host o.job) b.files).outcome = .ok result ∧
    complaint? result = none
  still : b'.Uncancelled

theorem attempt_eq_ok (hattempt : (attempt tools host o.job).run.run b = (.ok (), b')) :
    Passed tools host o b b' := by
  rw [attempt_eq] at hattempt
  obtain ⟨g, b₁, hgate, -⟩ := exists_of_run_bind_ok hattempt
  obtain ⟨rfl, huncancelled, hchecks⟩ := gate_eq_ok hgate
  rw [← attempt_eq, run_attempt_of_gate hgate] at hattempt
  obtain ⟨result, b₂, hcall, hfinish⟩ := exists_of_run_bind_ok hattempt
  obtain ⟨houtcome, -⟩ := call_eq_ok hcall
  obtain ⟨-, hcomplaint, hstill⟩ := finish_eq_ok hfinish
  exact ⟨huncancelled, hchecks, ⟨result, houtcome, hcomplaint⟩, hstill⟩

end Build

/-! ## Executing -/

namespace FlowGraph

/-- What is accepted as a picture: whatever stands at its path, but for an empty file. -/
def Stands (b : Bench) (picture : Path) : Prop :=
  b.files.holds b.here picture = true ∧ b.files.isEmptyFile b.here picture = false

theorem render_eq_ok {name program : String} {picture : Path}
    (hrender : (render tools name program).run.run b = (.ok (.ok picture), b')) :
    b'.Uncancelled ∧ Stands b' picture := by
  unfold render at hrender
  rw [run_bind_ok (run_get b)] at hrender
  split at hrender
  · cases hrender
  split at hrender
  · cases hrender
  obtain ⟨_, b₁, _, hkept⟩ := exists_of_run_bind_ok hrender
  obtain ⟨_, b₂, _, hchecked⟩ := exists_of_run_bind_ok hkept
  obtain ⟨file, b₃, _, hmade⟩ := exists_of_run_bind_ok hchecked
  obtain ⟨result, b₄, _, hdrawn⟩ := exists_of_run_bind_ok hmade
  obtain ⟨_, b₅, hcheck, hlast⟩ := exists_of_run_bind_ok hdrawn
  obtain ⟨rfl, huncancelled⟩ := checkCancelled_eq_ok hcheck
  rw [run_bind_ok (run_get b₅)] at hlast
  split at hlast
  · obtain ⟨_, b₆, _, hfailed⟩ := exists_of_run_bind_ok hlast
    cases hfailed
  · next hstands =>
    cases hlast
    simp only [Bool.or_eq_true, Bool.not_eq_true', not_or, Bool.not_eq_false, Bool.not_eq_true]
      at hstands
    exact ⟨huncancelled, hstands⟩

end FlowGraph

namespace Execution

variable {prettifier : Option Prettifier}

theorem drawn_eq_ok {s : Settings} {vars : Compiler.Variables} {picture : Option String}
    (huncancelled : b.Uncancelled) (hdrawn : (drawn tools s vars).run.run b = (.ok picture, b')) :
    b'.Uncancelled ∧ picture.isSome = wantsPicture s ∧
      ∀ p, picture = some p → ∃ path, p = path.text ∧ FlowGraph.Stands b' path := by
  unfold drawn at hdrawn
  cases hwants : wantsPicture s with
  | false =>
      rw [hwants, if_neg Bool.false_ne_true] at hdrawn
      cases hdrawn
      exact ⟨huncancelled, rfl, nofun⟩
  | true =>
      rw [hwants, if_pos rfl] at hdrawn
      obtain ⟨r, b₁, hrender, hdrawn⟩ := exists_of_run_bind_ok hdrawn
      cases r with
      | error complaint => cases hdrawn
      | ok path =>
          cases hdrawn
          obtain ⟨hstill, hstands⟩ := FlowGraph.render_eq_ok hrender
          refine ⟨hstill, rfl, ?_⟩
          rintro p ⟨⟩
          exact ⟨path, rfl, hstands⟩

/-- What a second step that gets through has passed, and what it leaves. -/
structure Passed (tools : Tools) (host : Host) (prettifier : Option Prettifier) (j : Job)
    (b b' : Bench) (e : Execution) : Prop where
  notFailed : e.failed = false
  /-- The call that is instrumented was made and has returned. -/
  made : ∃ vars call ready result, (prepare tools host j).run.run b = (.ok (vars, call), ready) ∧
    (tools ready.calls call ready.files).outcome = .ok result ∧
    ready.calls ++ [call] <+: b'.calls ∧ e.output = shown j.settings prettifier result
  picture : e.picture.isSome = wantsPicture j.settings
  stands : ∀ p, e.picture = some p → ∃ path, p = path.text ∧ FlowGraph.Stands b' path
  still : b'.Uncancelled

theorem attempt_eq_ok {e : Execution}
    (hattempt : (attempt tools host prettifier j).run.run b = (.ok e, b')) :
    Passed tools host prettifier j b b' e := by
  rw [attempt_eq] at hattempt
  obtain ⟨⟨vars, call⟩, ready, hprepare, hcalling⟩ := exists_of_run_bind_ok hattempt
  obtain ⟨result, b₁, hcall, hfinish⟩ := exists_of_run_bind_ok hcalling
  obtain ⟨houtcome, rfl⟩ := call_eq_ok hcall
  have hgrow : ready.calls ++ [call] <+: b'.calls := by
    have hstays := stays_finish (alongCalls_callsGrow tools) prettifier j vars result
      (b := called tools call ready)
    unfold Stays at hstays
    rw [hfinish] at hstays
    exact hstays
  unfold finish at hfinish
  obtain ⟨_, b₂, hcheck, hdrawing⟩ := exists_of_run_bind_ok hfinish
  obtain ⟨rfl, huncancelled⟩ := checkCancelled_eq_ok hcheck
  obtain ⟨picture, b₃, hdrawn, hlast⟩ := exists_of_run_bind_ok hdrawing
  cases hlast
  obtain ⟨hstill, hsome, hstands⟩ := drawn_eq_ok huncancelled hdrawn
  exact {
    notFailed := rfl
    made := ⟨vars, call, ready, result, hprepare, houtcome, hgrow, rfl⟩
    picture := hsome
    stands := hstands
    still := hstill }

theorem run_ok {e : Execution}
    (hattempt : (attempt tools host prettifier j).run.run b = (.ok e, b')) :
    (Execution.run tools host prettifier j).run b = (e, b') := by
  unfold Execution.run
  rw [run_steps hattempt]
  rfl

theorem run_error {f : Failure}
    (hattempt : (attempt tools host prettifier j).run.run b = (.error f, b')) :
    ∃ ws, (Execution.run tools host prettifier j).run b =
      ({ failed := true, output := f.shown }, { b' with warnings := ws }) := by
  obtain ⟨ws, hshown⟩ := Build.run_shownFailure .executionFailed f b'
  refine ⟨ws, ?_⟩
  unfold Execution.run
  rw [run_steps hattempt]
  dsimp only
  rw [run_steps hshown]
  rfl

end Execution

/-! ## Runs -/

def Outcome.executed (clock : Clock) (o : Order) (e : Execution) : Outcome where
  success := !e.failed
  output := e.output
  picture := e.picture
  phases := Order.phases o.settings e.output
  elapsed := clock.elapsed

namespace Order

variable {prettifier : Option Prettifier} {clock : Clock}

/-- The ways in which a run ends, with an outcome and a bench. -/
inductive Ending (tools : Tools) (host : Host) (prettifier : Option Prettifier) (clock : Clock)
    (o : Order) (b : Bench) : Outcome × Bench → Prop where
  | refused (hgeneric : o.symbol.isGeneric = true) :
    Ending tools host prettifier clock o b
      (.ended clock "Generic methods are not supported yet.", b)
  | unbuilt {f : Failure} {b' : Bench} {ws : List Warning}
      (hgeneric : o.symbol.isGeneric = false)
      (hattempt : (Build.attempt tools host o.job).run.run b = (.error f, b')) :
    Ending tools host prettifier clock o b (.ended clock f.shown, { b' with warnings := ws })
  | unexecuted {f : Failure} {b₁ b' : Bench} {ws : List Warning}
      (hgeneric : o.symbol.isGeneric = false)
      (hbuild : (Build.attempt tools host o.job).run.run b = (.ok (), b₁))
      (hattempt : (Execution.attempt tools host prettifier o.job).run.run b₁ = (.error f, b')) :
    Ending tools host prettifier clock o b
      (.executed clock o { failed := true, output := f.shown }, { b' with warnings := ws })
  | done {e : Execution} {b₁ b' : Bench}
      (hgeneric : o.symbol.isGeneric = false)
      (hbuild : (Build.attempt tools host o.job).run.run b = (.ok (), b₁))
      (hattempt : (Execution.attempt tools host prettifier o.job).run.run b₁ = (.ok e, b')) :
    Ending tools host prettifier clock o b (.executed clock o e, b')

theorem run_of_executed {e : Execution} {b₁ : Bench} (hgeneric : o.symbol.isGeneric = false)
    (hbuild : (Build.run tools host o.job).run b = (none, b₁))
    (hexecution : (Execution.run tools host prettifier o.job).run b₁ = (e, b')) :
    (run tools host prettifier clock o).run b = (.executed clock o e, b') := by
  have hsteps : (steps tools host prettifier o).run b =
      ({ success := !e.failed, output := e.output, picture := e.picture,
         phases := phases o.settings e.output }, b') := by
    unfold steps
    rw [hgeneric, if_neg Bool.false_ne_true, run_steps hbuild]
    dsimp only
    rw [run_steps hexecution]
    rfl
  unfold run
  rw [run_steps hsteps]
  rfl

theorem run_ending (tools : Tools) (host : Host) (prettifier : Option Prettifier) (clock : Clock)
    (o : Order) (b : Bench) :
    Ending tools host prettifier clock o b ((run tools host prettifier clock o).run b) := by
  cases hgeneric : o.symbol.isGeneric with
  | true =>
      rw [run_generic hgeneric]
      exact .refused hgeneric
  | false =>
      rcases hbuild : (Build.attempt tools host o.job).run.run b with ⟨f | ⟨⟩, b₁⟩
      · obtain ⟨ws, hrun⟩ := Build.run_error hbuild
        rw [run_of_build_failed hgeneric hrun]
        exact .unbuilt hgeneric hbuild
      · have hbuilt := Build.run_ok hbuild
        rcases hattempt : (Execution.attempt tools host prettifier o.job).run.run b₁ with
          ⟨f | e, b'⟩
        · obtain ⟨ws, hrun⟩ := Execution.run_error hattempt
          rw [run_of_executed hgeneric hbuilt hrun]
          exact .unexecuted hgeneric hbuild hattempt
        · rw [run_of_executed hgeneric hbuilt (Execution.run_ok hattempt)]
          exact .done hgeneric hbuild hattempt

/-- What holds along both steps of a run holds along the run. -/
theorem related_run_of {R : Bench → Bench → Prop} (hR : Quiet R)
    (hbuilding : Stays R (Build.attempt tools host o.job) b)
    (hexecuting : ∀ b₁, (Build.attempt tools host o.job).run.run b = (.ok (), b₁) →
      Stays R (Execution.attempt tools host prettifier o.job) b₁) :
    R b ((run tools host prettifier clock o).run b).2 := by
  unfold Stays at hbuilding hexecuting
  generalize hrun : (run tools host prettifier clock o).run b = r
  have hending := run_ending tools host prettifier clock o b
  rw [hrun] at hending
  have hboth : ∀ b₁, (Build.attempt tools host o.job).run.run b = (.ok (), b₁) →
      R b ((Execution.attempt tools host prettifier o.job).run.run b₁).2 := by
    intro b₁ hbuild
    rw [hbuild] at hbuilding
    exact hR.trans hbuilding (hexecuting b₁ hbuild)
  cases hending with
  | refused _ => exact hR.refl b
  | unbuilt _ hattempt =>
      rw [hattempt] at hbuilding
      exact hR.trans hbuilding (hR.warnings _ _)
  | unexecuted _ hbuild hattempt =>
      have hrelated := hboth _ hbuild
      rw [hattempt] at hrelated
      exact hR.trans hrelated (hR.warnings _ _)
  | done _ hbuild hattempt =>
      have hrelated := hboth _ hbuild
      rwa [hattempt] at hrelated

/-- What holds along the actions of a run holds along the run. -/
theorem related_run {R : Bench → Bench → Prop} (hR : AlongCalls tools R) :
    R b ((run tools host prettifier clock o).run b).2 :=
  related_run_of hR.toQuiet (Build.stays_attempt hR host o)
    fun _ _ => Execution.stays_attempt hR host prettifier o.job

end Order
end
end JitLens
