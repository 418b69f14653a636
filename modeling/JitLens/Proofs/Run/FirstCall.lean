import JitLens.Proofs.Run.GateFaults
/-!
# The first call of a run

A run calls a tool if and only if every check of its gate passes, and the first call builds the
project.  A run that the gate stops leaves everything but its warnings as it was.
-/

namespace JitLens

open Files JitLens.Action

section

variable {tools : Tools} {host : Host} {j : Job} {b b' : Bench}

/-- A call that is made stays on record, whatever follows. -/
theorem calls_call_bind {β : Type} {i : Invocation} {f : ToolResult → Action β}
    (hcancel : b.Uncancelled)
    (hf : ∀ result b', Stays CallsGrow (f result) b') :
    b.calls ++ [i] <+: ((Action.call tools i >>= f).run.run b).2.calls := by
  cases houtcome : (tools b.calls i b.files).outcome with
  | error e =>
      rw [run_bind_error (run_call_error hcancel.not_refuses houtcome)]
      exact List.prefix_refl _
  | ok result =>
      rw [run_bind_ok (run_call_ok hcancel.not_refuses houtcome)]
      exact hf result (called tools i b)

/-! ## Building -/

theorem Check.isGeneric_of_passed {t : Tree} {here : Location} {o : Order}
    (hpassed : Check.symbol.verdict host t here o = .passed) : o.symbol.isGeneric = false := by
  rw [Bool.eq_false_iff]
  intro hgeneric
  rw [Check.verdict, if_pos hgeneric] at hpassed
  cases hpassed

namespace Build

theorem gate_of_passed {o : Order} (hcancel : b.Uncancelled)
    (hpassed : ∀ c : Check, c.verdict host b.files b.here o = .passed) :
    ∃ g, (gate host o.job).run.run b = (.ok g, b) := by
  have hnone : Check.firstOf host b.files b.here o Check.ofGate = none := by
    rw [← Check.firstOf_cons_passed (hpassed .symbol)]
    exact Check.stop?_eq_none_iff.2 hpassed
  exact (obeys_gate hcancel).passes hnone

/-- Building a project after the build program has ended. -/
def finish (host : Host) (j : Job) (compiler : Path) (result : ToolResult) : Action Unit := do
  Action.checkCancelled
  if let some complaint := complaint? result then
    Action.stop .toolFailed complaint
  if j.settings.reload = .publish then
    layRuntime host j compiler
  Action.checkCancelled

theorem attempt_eq (tools : Tools) (host : Host) (j : Job) :
    attempt tools host j = (do
      let passed ← gate host j
      Action.report (status host j)
      let result ← Action.call tools (invocation host j)
      finish host j passed.compiler result) := rfl

theorem stays_finish {R : Bench → Bench → Prop} (hR : OffRecord R) (compiler : Path)
    (result : ToolResult) : Stays R (finish host j compiler result) b := by
  have hlay : ∀ b, Stays R (do
      if j.settings.reload = .publish then
        layRuntime host j compiler
      Action.checkCancelled) b := by
    intro b
    split
    · apply Stays.bind hR.toQuiet (stays_layRuntime hR _ _ _)
      intro _ b₁ _
      exact Stays.checkCancelled hR.toQuiet
    · exact Stays.checkCancelled hR.toQuiet
  apply Stays.bind hR.toQuiet (Stays.checkCancelled hR.toQuiet)
  intro _ b₁ _
  dsimp only
  split
  · apply Stays.bind hR.toQuiet (Stays.throw hR.toQuiet _)
    intro _ b₂ _
    exact hlay b₂
  · exact hlay b₁

theorem calls_attempt (tools : Tools) {g : Gate}
    (hcancel : b.Uncancelled) (hgate : (gate host j).run.run b = (.ok g, b)) :
    b.calls ++ [invocation host j] <+: ((attempt tools host j).run.run b).2.calls := by
  have hreport : (Action.report (status host j)).run.run b =
      (.ok (), { b with statuses := b.statuses ++ [status host j] }) := rfl
  rw [attempt_eq, run_bind_ok hgate, run_bind_ok hreport]
  exact calls_call_bind (b := { b with statuses := b.statuses ++ [status host j] }) hcancel
    fun result _ => stays_finish (alongCalls_callsGrow tools).toOffRecord g.compiler result

theorem run_ok (hattempt : (attempt tools host j).run.run b = (.ok (), b')) :
    (Build.run tools host j).run b = (none, b') := by
  unfold Build.run
  rw [run_steps hattempt]
  rfl

theorem run_error {f : Failure} (hattempt : (attempt tools host j).run.run b = (.error f, b')) :
    ∃ ws, (Build.run tools host j).run b = (some f.shown, { b' with warnings := ws }) := by
  obtain ⟨ws, hshown⟩ := run_shownFailure .buildFailed f b'
  refine ⟨ws, ?_⟩
  unfold Build.run
  rw [run_steps hattempt]
  dsimp only
  rw [run_steps hshown]
  rfl

theorem calls_run (tools : Tools) {g : Gate}
    (hcancel : b.Uncancelled) (hgate : (gate host j).run.run b = (.ok g, b)) :
    b.calls ++ [invocation host j] <+: ((Build.run tools host j).run b).2.calls := by
  have hcalls := calls_attempt tools hcancel hgate
  rcases hattempt : (attempt tools host j).run.run b with ⟨f | _, b'⟩
  · obtain ⟨ws, hrun⟩ := run_error hattempt
    rw [hrun]
    rwa [hattempt] at hcalls
  · rw [run_ok hattempt]
    rwa [hattempt] at hcalls

end Build

/-! ## Executing -/

theorem Execution.callsGrow_run (prettifier : Option Prettifier) :
    CallsGrow b ((Execution.run tools host prettifier j).run b).2 := by
  have hstays := Execution.stays_attempt (b := b) (alongCalls_callsGrow tools) host prettifier j
  unfold Stays at hstays
  unfold Execution.run
  rcases hattempt : (attempt tools host prettifier j).run.run b with ⟨f | e, b'⟩
  · obtain ⟨ws, hshown⟩ := Build.run_shownFailure .executionFailed f b'
    rw [hattempt] at hstays
    rw [run_steps hattempt]
    dsimp only
    rw [run_steps hshown]
    exact hstays
  · rw [hattempt] at hstays
    rw [run_steps hattempt]
    exact hstays

/-! ## Runs -/

/-- The outcome of a run that ended before its second step: a text, no picture and no phases. -/
def Outcome.ended (clock : Clock) (output : String) : Outcome where
  success := false
  output := output
  picture := none
  phases := []
  elapsed := clock.elapsed

namespace Order

variable {prettifier : Option Prettifier} {clock : Clock} {o : Order}

theorem run_generic (hgeneric : o.symbol.isGeneric = true) :
    (run tools host prettifier clock o).run b =
      ({ success := false, output := "Generic methods are not supported yet.",
         elapsed := clock.elapsed }, b) := by
  unfold run steps
  rw [if_pos hgeneric]
  rfl

theorem run_of_build_failed {m : String} (hgeneric : o.symbol.isGeneric = false)
    (hbuild : (Build.run tools host o.job).run b = (some m, b')) :
    (run tools host prettifier clock o).run b =
      ({ success := false, output := m, elapsed := clock.elapsed }, b') := by
  have hsteps : (steps tools host prettifier o).run b =
      ({ success := false, output := m }, b') := by
    unfold steps
    rw [hgeneric, if_neg Bool.false_ne_true, run_steps hbuild]
    rfl
  unfold run
  rw [run_steps hsteps]
  rfl

theorem run_of_built (hgeneric : o.symbol.isGeneric = false)
    (hbuild : (Build.run tools host o.job).run b = (none, b')) :
    ((run tools host prettifier clock o).run b).2 =
      ((Execution.run tools host prettifier o.job).run b').2 := by
  have hsteps : ((steps tools host prettifier o).run b).2 =
      ((Execution.run tools host prettifier o.job).run b').2 := by
    unfold steps
    rw [hgeneric, if_neg Bool.false_ne_true, run_steps hbuild]
    rfl
  rcases hrun : (steps tools host prettifier o).run b with ⟨outcome, b''⟩
  unfold run
  rw [hrun] at hsteps
  rw [run_steps hrun]
  exact hsteps

theorem exists_run_of_stop {c : Check} (hcancel : b.Uncancelled)
    (hstop : Check.stop? host b.files b.here o = some c) :
    ∃ ws, (run tools host prettifier clock o).run b =
      (.ended clock (c.verdict host b.files b.here o).shown, { b with warnings := ws }) := by
  -- The symbol is looked at before the project is built, all other checks belong to the gate.
  cases hgeneric : o.symbol.isGeneric with
  | true =>
      have hverdict : Check.symbol.verdict host b.files b.here o =
          .refused "Generic methods are not supported yet." := by
        rw [Check.verdict, if_pos hgeneric]
      have hsymbol : Check.stop? host b.files b.here o = some .symbol :=
        Check.firstOf_cons_stopped (by rw [hverdict]; rfl)
      rw [hsymbol] at hstop
      obtain rfl : Check.symbol = c := Option.some.inj hstop
      refine ⟨b.warnings, ?_⟩
      rw [run_generic hgeneric, hverdict]
      rfl
  | false =>
      have hverdict : Check.symbol.verdict host b.files b.here o = .passed := by
        rw [Check.verdict, hgeneric, if_neg Bool.false_ne_true]
      have hrest : Check.firstOf host b.files b.here o Check.ofGate = some c := by
        rw [← Check.firstOf_cons_passed hverdict]
        exact hstop
      obtain ⟨f, hgate, hshown⟩ := (obeys_gate hcancel).stops c hrest
      have hattempt : (Build.attempt tools host o.job).run.run b = (.error f, b) :=
        run_bind_error hgate
      obtain ⟨ws, hbuild⟩ := Build.run_error hattempt
      refine ⟨ws, ?_⟩
      rw [run_of_build_failed hgeneric hbuild, hshown]
      rfl

theorem calls_run_of_passed (hcancel : b.Uncancelled)
    (hpassed : ∀ c : Check, c.verdict host b.files b.here o = .passed) :
    b.calls ++ [Build.invocation host o.job] <+:
      ((run tools host prettifier clock o).run b).2.calls := by
  have hgeneric := Check.isGeneric_of_passed (hpassed .symbol)
  obtain ⟨g, hgate⟩ := Build.gate_of_passed hcancel hpassed
  have hcalls := Build.calls_run tools hcancel hgate
  rcases hbuild : (Build.run tools host o.job).run b with ⟨_ | m, b'⟩
  · rw [hbuild] at hcalls
    rw [run_of_built hgeneric hbuild]
    exact List.IsPrefix.trans hcalls (Execution.callsGrow_run prettifier)
  · rw [hbuild] at hcalls
    rw [run_of_build_failed hgeneric hbuild]
    exact hcalls

theorem calls_ne_iff (hcancel : b.Uncancelled) :
    ((run tools host prettifier clock o).run b).2.calls ≠ b.calls ↔
      ∀ c : Check, c.verdict host b.files b.here o = .passed := by
  constructor
  · intro hne
    rw [← Check.stop?_eq_none_iff]
    cases hstop : Check.stop? host b.files b.here o with
    | none => rfl
    | some c =>
        obtain ⟨ws, hrun⟩ := exists_run_of_stop hcancel hstop
        rw [hrun] at hne
        exact absurd rfl hne
  · intro hpassed hsame
    have hcalls : b.calls ++ [Build.invocation host o.job] <+:
        ((run tools host prettifier clock o).run b).2.calls := calls_run_of_passed hcancel hpassed
    rw [hsame] at hcalls
    have hlength := hcalls.length_le
    rw [List.length_append, List.length_singleton] at hlength
    omega

theorem output_eq_message_iff {c : Check} (hcancel : b.Uncancelled)
    (hstop : Check.stop? host b.files b.here o = some c) :
    (∃ m, c.verdict host b.files b.here o = .refused m ∧
      ((run tools host prettifier clock o).run b).1.output = m) ↔
      ¬ c.Faults host b.files b.here o := by
  obtain ⟨ws, hrun⟩ := exists_run_of_stop hcancel hstop
  rw [hrun, ← Check.isFault_verdict]
  have hstops : c.verdict host b.files b.here o ≠ .passed := by
    have hfound := List.find?_some hstop
    intro hpassed
    rw [hpassed] at hfound
    cases hfound
  cases hverdict : c.verdict host b.files b.here o with
  | passed => exact absurd hverdict hstops
  | refused m => exact iff_of_true ⟨m, rfl, rfl⟩ (Verdict.not_isFault_refused m)
  | fault f => exact iff_of_false (by simp) (not_not_intro ⟨f, rfl⟩)

theorem exists_stop_of_crossgen (t : Tree) (here : Location)
    (hcrossgen : o.settings.crossgenSelected = true)
    (hasked : o.settings.pgo = true ∨ o.settings.runApp = true ∨ o.settings.tieredJit = true ∨
      o.settings.flowGraph = true) :
    ∃ c, Check.stop? host t here o = some c := by
  cases hstop : Check.stop? host t here o with
  | some c => exact ⟨c, rfl⟩
  | none =>
      have hpassed := Check.stop?_eq_none_iff.1 hstop .rules
      exact absurd hpassed (Check.rules_not_passed_of_crossgen hcrossgen hasked)

/-- What the gate makes of a run, which leaves an outcome and a bench. -/
structure Gated (host : Host) (clock : Clock) (o : Order) (b : Bench) (r : Outcome × Bench) :
    Prop where
  /-- A tool is called if and only if every check passes. -/
  calls_iff : r.2.calls ≠ b.calls ↔ ∀ c : Check, c.verdict host b.files b.here o = .passed
  first_call : (∀ c : Check, c.verdict host b.files b.here o = .passed) →
    b.calls ++ [Build.invocation host o.job] <+: r.2.calls
  /-- The first check that does not pass ends the run. -/
  stopped : ∀ c, Check.stop? host b.files b.here o = some c →
    r.1 = .ended clock (c.verdict host b.files b.here o).shown ∧
      ∃ ws, r.2 = { b with warnings := ws }
  /-- It ends the run with its message unless it faults. -/
  message_iff : ∀ c, Check.stop? host b.files b.here o = some c →
    ((∃ m, c.verdict host b.files b.here o = .refused m ∧ r.1.output = m) ↔
      ¬ c.Faults host b.files b.here o)
  crossgen : o.settings.crossgenSelected = true →
    o.settings.pgo = true ∨ o.settings.runApp = true ∨ o.settings.tieredJit = true ∨
      o.settings.flowGraph = true →
    ∃ c, Check.stop? host b.files b.here o = some c

theorem run_gated (tools : Tools) (host : Host) (prettifier : Option Prettifier) (clock : Clock)
    (o : Order) (b : Bench) (hcancel : b.Uncancelled) :
    Gated host clock o b ((run tools host prettifier clock o).run b) where
  calls_iff := calls_ne_iff hcancel
  first_call := calls_run_of_passed hcancel
  stopped c hstop := by
    obtain ⟨ws, hrun⟩ := exists_run_of_stop hcancel hstop
    rw [hrun]
    exact ⟨rfl, ws, rfl⟩
  message_iff _ := output_eq_message_iff hcancel
  crossgen := exists_stop_of_crossgen b.files b.here

end Order

end

/-! ## A fault at the gate -/

namespace Order

/-- A checkout with a compiler for an architecture whose name is two stars. -/
def starredCheckout : Bench where
  files := ⟨[("rt", .dir [("artifacts", .dir [("bin", .dir [
    ("coreclr", .dir [("linux.**.Checked", .dir [])]), ("runtime", .dir [])])])])]⟩
  here := []
  temporary := ⟨.root, ["tmp"]⟩
  token := some {}

/-- An order for that architecture. -/
def starred : Order where
  symbol := { qualifiedClass := "App.Program", className := "Program", method := some "Main" }
  settings := { runtimeRoot := "rt", arch := some "**" }
  project := "App/App.csproj"
  framework := "net8.0"

/-- Tools that do nothing. -/
def idleTools : Tools :=
  fun _ _ files => { files := files, outcome := .ok {} }

theorem stop?_starred :
    Check.stop? {} starredCheckout.files starredCheckout.here starred = some .pack := by
  decide +kernel

theorem findPack_starred :
    Compiler.findPack starredCheckout.files starredCheckout.here {} starred.settings none =
      .error ⟨⟩ := by
  rfl

/-- The library pack is missing there, but the run does not end with the message about it. -/
theorem run_gated_starred :
    let r := (run idleTools {} none ⟨.zero false, .zero false⟩ starred).run starredCheckout
    starredCheckout.Uncancelled ∧
      r.2.calls = [] ∧ r.1.output = (Fault.pattern ⟨⟩).trace ∧
      r.1.output ≠ Compiler.noPack "**" "linux" := by
  intro r
  have hcancel : starredCheckout.Uncancelled := by
    rintro t ⟨⟩
    rfl
  have hgated : Gated {} ⟨.zero false, .zero false⟩ starred starredCheckout r :=
    run_gated _ _ _ _ _ _ hcancel
  have hverdict : Check.pack.verdict {} starredCheckout.files starredCheckout.here starred =
      .fault (.pattern ⟨⟩) := by
    have hbuild : starred.settings.reload = .build := rfl
    rw [Check.verdict, if_pos hbuild, findPack_starred]
    rfl
  obtain ⟨houtcome, ws, hbench⟩ := hgated.stopped .pack stop?_starred
  have houtput : r.1.output = (Fault.pattern ⟨⟩).trace := by
    rw [houtcome, hverdict]
    rfl
  refine ⟨hcancel, ?_, houtput, ?_⟩
  · rw [hbench]
    rfl
  · rw [houtput]
    decide +kernel

end Order
end JitLens
