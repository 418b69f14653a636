import JitLens.Proofs.Run.Endings
/-!
# Cancelled runs

A request to cancel can be there before a run or be made during any of its calls.  Whatever the
call leaves, the run makes no other call then, and it neither succeeds nor has a picture.
-/

namespace JitLens

open Files JitLens.Action

/-- Tools with a request to cancel during the call that has a number of calls before it. -/
def Tools.cancelledDuring (tools : Tools) (n : Nat) (message : Option String) : Tools :=
  fun calls i files =>
    let r := tools calls i files
    if calls.length = n then { r with cancel := some message } else r

theorem Token.cancelled_cancel (t : Token) (message : Option String) :
    (t.cancel message).cancelled = true := by
  cases message with
  | none => rfl
  | some m =>
      unfold Token.cancel
      dsimp only
      split <;> rfl

section

variable {tools : Tools} {host : Host} {o : Order} {b b' : Bench} {n : Nat}
  {message : Option String}

theorem cancelledDuring_eq (tools : Tools) (message : Option String) (calls : List Invocation)
    (i : Invocation) (files : Tree) (hlength : calls.length = n) :
    tools.cancelledDuring n message calls i files =
      { tools calls i files with cancel := some message } :=
  if_pos hlength

theorem cancelled_called (i : Invocation) (htoken : b.token ≠ none)
    (hlength : b.calls.length = n) :
    (called (tools.cancelledDuring n message) i b).Cancelled := by
  obtain ⟨t, ht⟩ := Option.ne_none_iff_exists'.1 htoken
  refine ⟨t.cancel message, ?_, t.cancelled_cancel message⟩
  unfold called
  dsimp only
  rw [cancelledDuring_eq _ _ _ _ _ hlength, ht]
  rfl

/-! ## After a request -/

/-- The call with a number of calls before it was not made yet, or it is the last one and the
run is cancelled since. -/
structure Bench.HaltsAfter (n : Nat) (b : Bench) : Prop where
  token : b.token ≠ none
  heeded : b.heeded = true
  calls : b.calls.length ≤ n ∨ b.calls.length = n + 1 ∧ b.Cancelled

/-- A call keeps that: once it was cancelled, none is made. -/
theorem haltsAfter_called (i : Invocation) (hopen : ¬ b.Refuses)
    (hhalts : b.HaltsAfter n) :
    (called (tools.cancelledDuring n message) i b).HaltsAfter n := by
  have hlength : (called (tools.cancelledDuring n message) i b).calls.length =
      b.calls.length + 1 := by
    unfold called
    rw [List.length_append, List.length_singleton]
  have htoken : (called (tools.cancelledDuring n message) i b).token ≠ none := by
    unfold called
    dsimp only
    split
    · exact fun hnone => hhalts.token (Option.map_eq_none_iff.1 hnone)
    · exact hhalts.token
  refine ⟨htoken, hhalts.heeded, ?_⟩
  rw [hlength]
  -- The call at hand comes before the one with the request or is that one: a later one would
  -- find the run cancelled.
  rcases hhalts.calls with hbefore | ⟨-, hcancelled⟩
  · by_cases hlast : b.calls.length = n
    · exact .inr ⟨by rw [hlast], cancelled_called i hhalts.token hlast⟩
    · exact .inl (by omega)
  · exact absurd ⟨hhalts.heeded, hcancelled⟩ hopen

theorem alongCalls_haltsAfter (tools : Tools) (n : Nat) (message : Option String) :
    AlongCalls (tools.cancelledDuring n message)
      (fun b b' => b.HaltsAfter n → b'.HaltsAfter n) where
  refl _ := id
  trans hab hbc ha := hbc (hab ha)
  files _ _ hhalts := ⟨hhalts.token, hhalts.heeded, hhalts.calls⟩
  drawn _ _ hhalts := ⟨hhalts.token, hhalts.heeded, hhalts.calls⟩
  statuses _ _ hhalts := ⟨hhalts.token, hhalts.heeded, hhalts.calls⟩
  warnings _ _ hhalts := ⟨hhalts.token, hhalts.heeded, hhalts.calls⟩
  call _ i hopen hhalts := haltsAfter_called i hopen hhalts

/-- A first step whose call is cancelled fails, at the gate or with the files that the call
left. -/
theorem Build.attempt_of_cancelled
    (hcancelled : (called tools (invocation host o.job) (announced host o.job b)).Cancelled) :
    ∃ f b', (attempt tools host o.job).run.run b = (.error f, b') ∧
      (b' = b ∨ b' = called tools (invocation host o.job) (announced host o.job b)) := by
  rcases gate_cases host o b with ⟨f, hgate⟩ | ⟨huncancelled, -, g, hgate⟩
  · exact ⟨f, b, run_bind_error hgate, .inl rfl⟩
  · have hannounced := uncancelled_announced host o.job huncancelled
    rw [run_attempt_of_gate hgate]
    cases houtcome : (tools (announced host o.job b).calls (invocation host o.job)
        (announced host o.job b).files).outcome with
    | error f => exact ⟨f, _, run_bind_error (run_call_error hannounced.not_refuses houtcome), .inr rfl⟩
    | ok result =>
        -- The check behind the call is the first thing that sees the request.
        obtain ⟨m, hstop⟩ := run_checkCancelled_of_cancelled hcancelled
        have hcall := run_call_ok hannounced.not_refuses houtcome
        exact ⟨_, _, (run_bind_ok hcall).trans (run_bind_error hstop), .inr rfl⟩

/-! ## Runs -/

namespace Order

variable {prettifier : Option Prettifier} {clock : Clock}

/-- What a request to cancel makes of the runs of an order with all kinds of tools, each of
which leaves an outcome and a bench. -/
structure Heeds (host : Host) (o : Order) (b : Bench) (runs : Tools → Outcome × Bench) :
    Prop where
  /-- A run that is cancelled at its end has not succeeded and has no picture. -/
  failed : ∀ tools : Tools, (runs tools).2.Cancelled →
    (runs tools).1.success = false ∧ (runs tools).1.picture = none
  /-- A run that is cancelled before it starts leaves all but its warnings as it was. -/
  beforehand : b.Cancelled → ∀ tools : Tools,
    (runs tools).1.success = false ∧ (runs tools).1.picture = none ∧
      ∃ ws, (runs tools).2 = { b with warnings := ws }
  /-- No call follows the one during which the request is made, if the tools heed it. -/
  during : b.token ≠ none → b.heeded = true → ∀ (tools : Tools) n message,
    let r := runs (tools.cancelledDuring (b.calls.length + n) message)
    r.2.calls.length ≤ b.calls.length + n + 1 ∧
      (r.2.calls.length = b.calls.length + n + 1 →
        r.2.Cancelled ∧ r.1.success = false ∧ r.1.picture = none)
  /-- If the first call is cancelled, the files stay as it leaves them: no runtime is laid over
  them. -/
  first : b.token ≠ none → ∀ (tools : Tools) message,
    let r := runs (tools.cancelledDuring b.calls.length message)
    r.2.calls ≠ b.calls →
      r.2.files = (tools b.calls (Build.invocation host o.job) b.files).files ∧
        r.2.statuses = b.statuses ++ [Build.status host o.job]

theorem failed_of_cancelled
    (hcancelled : ((run tools host prettifier clock o).run b).2.Cancelled) :
    ((run tools host prettifier clock o).run b).1.success = false ∧
      ((run tools host prettifier clock o).run b).1.picture = none := by
  have hending := run_ending tools host prettifier clock o b
  generalize (run tools host prettifier clock o).run b = r at *
  cases hending with
  | refused _ => exact ⟨rfl, rfl⟩
  | unbuilt _ _ => exact ⟨rfl, rfl⟩
  | unexecuted _ _ _ => exact ⟨rfl, rfl⟩
  | done _ _ hattempt =>
      exact absurd (Execution.attempt_eq_ok hattempt).still hcancelled.not_uncancelled

theorem run_of_unbuilt (prettifier : Option Prettifier) (clock : Clock) {f : Failure}
    (hattempt : (Build.attempt tools host o.job).run.run b = (.error f, b')) :
    ∃ output b₁, (run tools host prettifier clock o).run b = (.ended clock output, b₁) ∧
      (b₁ = b ∨ ∃ ws, b₁ = { b' with warnings := ws }) := by
  cases hgeneric : o.symbol.isGeneric with
  | true => exact ⟨_, b, run_generic hgeneric, .inl rfl⟩
  | false =>
      obtain ⟨ws, hbuild⟩ := Build.run_error hattempt
      exact ⟨f.shown, _, run_of_build_failed hgeneric hbuild, .inr ⟨ws, rfl⟩⟩

theorem run_of_cancelled (tools : Tools) (hcancelled : b.Cancelled) :
    ∃ output ws, (run tools host prettifier clock o).run b =
      (.ended clock output, { b with warnings := ws }) := by
  obtain ⟨f, hgate⟩ := Build.gate_of_cancelled host o.job hcancelled
  have hattempt : (Build.attempt tools host o.job).run.run b = (.error f, b) :=
    run_bind_error hgate
  obtain ⟨output, b₁, hrun, rfl | ⟨ws, rfl⟩⟩ := run_of_unbuilt prettifier clock hattempt
  · exact ⟨output, b₁.warnings, hrun⟩
  · exact ⟨output, ws, hrun⟩

theorem haltsAfter_run (tools : Tools) (host : Host) (prettifier : Option Prettifier)
    (clock : Clock) (o : Order) (message : Option String) (htoken : b.token ≠ none)
    (hheeded : b.heeded = true) (hlength : b.calls.length ≤ n) :
    ((run (tools.cancelledDuring n message) host prettifier clock o).run b).2.HaltsAfter n :=
  related_run (alongCalls_haltsAfter tools n message) ⟨htoken, hheeded, .inl hlength⟩

theorem bench_of_first_cancelled (htoken : b.token ≠ none)
    (hcalls : ((run (tools.cancelledDuring b.calls.length message) host prettifier clock o).run
      b).2.calls ≠ b.calls) :
    ∃ ws, ((run (tools.cancelledDuring b.calls.length message) host prettifier clock o).run b).2 =
      { called (tools.cancelledDuring b.calls.length message) (Build.invocation host o.job)
          (Build.announced host o.job b) with warnings := ws } := by
  have hcancelled : (called (tools.cancelledDuring b.calls.length message)
      (Build.invocation host o.job) (Build.announced host o.job b)).Cancelled :=
    cancelled_called _ htoken rfl
  obtain ⟨f, b₁, hattempt, hbench⟩ := Build.attempt_of_cancelled hcancelled
  obtain ⟨output, b₂, hrun, hleft⟩ := run_of_unbuilt prettifier clock hattempt
  rw [hrun] at hcalls ⊢
  rcases hleft with rfl | ⟨ws, rfl⟩
  · exact absurd rfl hcalls
  · rcases hbench with rfl | rfl
    · exact absurd rfl hcalls
    · exact ⟨ws, rfl⟩

theorem run_heeds (host : Host) (prettifier : Option Prettifier) (clock : Clock) (o : Order)
    (b : Bench) :
    Heeds host o b fun tools => (run tools host prettifier clock o).run b where
  failed _ := failed_of_cancelled
  beforehand hcancelled tools := by
    obtain ⟨output, ws, hrun⟩ := run_of_cancelled tools hcancelled
    rw [hrun]
    exact ⟨rfl, rfl, ws, rfl⟩
  during htoken hheeded tools n message := by
    have hhalts := haltsAfter_run tools host prettifier clock o message htoken hheeded
      (Nat.le_add_right b.calls.length n)
    intro r
    refine ⟨?_, ?_⟩
    · rcases hhalts.calls with hbefore | ⟨hlast, -⟩
      · exact Nat.le_succ_of_le hbefore
      · exact Nat.le_of_eq hlast
    · intro hlength
      have hcancelled : r.2.Cancelled := by
        rcases hhalts.calls with hbefore | ⟨-, hcancelled⟩
        · exact absurd hlength (Nat.ne_of_lt (Nat.lt_succ_of_le hbefore))
        · exact hcancelled
      exact ⟨hcancelled, failed_of_cancelled hcancelled⟩
  first htoken tools message := by
    intro r hcalls
    obtain ⟨ws, hbench⟩ := bench_of_first_cancelled htoken hcalls
    have hreaction := cancelledDuring_eq tools message b.calls (Build.invocation host o.job)
      b.files rfl
    have hfiles : r.2.files = (tools.cancelledDuring b.calls.length message b.calls
        (Build.invocation host o.job) b.files).files := congrArg Bench.files hbench
    refine ⟨?_, congrArg Bench.statuses hbench⟩
    rw [hfiles, hreaction]

end Order
end
end JitLens
