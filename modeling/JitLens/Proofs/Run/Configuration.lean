import JitLens.Proofs.Run.Containment
import JitLens.Proofs.Run.Lookups
/-!
# Settings that cannot be run

The settings are checked by the gate, before any tool is called, and once more when the variables
are derived.  Flow graphs of all methods of a class are turned down there only, when the project is
built and the loader is in place.
-/

namespace JitLens

open Files JitLens.Action

/-- The loader prepares all methods of a class, or a method that nobody can name. -/
theorem Job.method_eq_star_iff {j : Job} : j.target.method = "*" ↔
    j.symbol.method = none ∨ j.symbol.isLocal = true ∨ j.symbol.method = some "*" := by
  have htarget : j.target.method = (Target.methodAndFilter j.symbol).1 := rfl
  rw [htarget, Target.methodAndFilter]
  cases j.symbol.method with
  | none => simp
  | some m =>
      cases j.symbol.isLocal with
      | true => simp
      | false =>
          cases Target.holdsTopLevel j.symbol.qualifiedClass <;> simp

/-- A flow graph is asked for of all methods of a class, or of a method that nobody can name. -/
def Order.DrawsAll (o : Order) : Prop :=
  o.settings.flowGraph = true ∧
    (o.symbol.method = none ∨ o.symbol.isLocal = true ∨ o.symbol.method = some "*")

theorem Order.drawsAll_iff {o : Order} :
    o.DrawsAll ↔ o.settings.flowGraph = true ∧ o.job.target.method = "*" := by
  rw [Job.method_eq_star_iff]
  rfl

section

variable {tools : Tools} {host : Host} {prettifier : Option Prettifier} {clock : Clock} {o : Order}
  {b : Bench} {m : String}

/-- A first step that fails does so at its gate, or in a way that the gate does not know. -/
theorem Build.raised_of_attempt {f : Failure} {b' : Bench}
    (hattempt : (attempt tools host o.job).run.run b = (.error f, b')) :
    (gate host o.job).run.run b = (.error f, b) ∨
      Raised tools [.cancelled, .toolFailed, .artifact] f := by
  rcases gate_cases host o b with ⟨e, hgate⟩ | ⟨-, -, g, hgate⟩
  · left
    rw [attempt_eq, run_bind_error hgate] at hattempt
    cases hattempt
    exact hgate
  · right
    rw [run_attempt_of_gate hgate] at hattempt
    have hrest : Raises tools [.cancelled, .toolFailed, .artifact] (do
        let result ← Action.call tools (invocation host o.job)
        finish host o.job g.compiler result) (announced host o.job b) := by
      apply Raises.bind (Raises.call (by decide) _)
      intro result b₁ _
      exact raises_finish o.job g.compiler result
    exact hrest f b' hattempt

namespace Order

/-- The variables of a run are refused when its project is built and the loader is in place. -/
inductive RefusedLate (tools : Tools) (host : Host) (o : Order) (b : Bench) : String → Prop where
  | intro {b₁ b₂ : Bench} {pack : Compiler.Found}
      (hbuild : (Build.attempt tools host o.job).run.run b = (.ok (), b₁))
      (hload : (Execution.load tools o.job).run.run b₁ = (.ok (), b₂))
      (hpack : Compiler.Variables.packOn host o.settings b₂ = .ok pack)
      (hrefused : Compiler.Variables.Refused o.settings o.job.target.method pack) :
    RefusedLate tools host o b (Execution.refusedMessage o.settings pack)

/-- A configuration is turned down by the gate, or late, or by a tool. -/
theorem configuration_of_failsWith
    (hfails : FailsWith tools host prettifier o b (.step .configuration m)) :
    (Build.gate host o.job).run.run b = (.error (.step .configuration m), b) ∨
      RefusedLate tools host o b m ∨
      ∃ calls i t, (tools calls i t).outcome = .error (.step .configuration m) := by
  obtain ⟨-, ⟨b', hbuild⟩ | ⟨b₁, b', hbuild, hattempt⟩⟩ := hfails
  · rcases Build.raised_of_attempt hbuild with hgate | hraised
    · exact .inl hgate
    · exact .inr (.inr (hraised.exists_tool (by decide)))
  · cases Execution.failing_of_attempt hattempt with
    | loader hraised => exact .inr (.inr (hraised.exists_tool (by decide)))
    | call hraised => exact .inr (.inr (hraised.exists_tool (by decide)))
    | @vars b₂ b₃ hload hvars =>
        have hending := Execution.vars_ending host o.job b₂
        rw [hvars] at hending
        cases hending with
        | refused hpack hrefused => exact .inr (.inl (.intro hbuild hload hpack hrefused))
    | lookup hload hvars hinvocation =>
        rcases Execution.unfound_of_invocation hinvocation with ⟨_, hkind, -⟩ | ⟨_, hkind⟩
        · cases hkind
        · cases hkind

theorem exists_gate {b₁ : Bench}
    (hbuild : (Build.attempt tools host o.job).run.run b = (.ok (), b₁)) :
    b.Uncancelled ∧ ∃ g, (Build.gate host o.job).run.run b = (.ok g, b) := by
  rcases Build.gate_cases host o b with ⟨f, hgate⟩ | ⟨huncancelled, -, hgate⟩
  · rw [Build.attempt_eq, run_bind_error hgate] at hbuild
    cases hbuild
  · exact ⟨huncancelled, hgate⟩

/-- What the gate turns down was not yet worth a call. -/
theorem failsWith_of_gate {f : Failure} (hgeneric : o.symbol.isGeneric = false)
    (hgate : (Build.gate host o.job).run.run b = (.error f, b)) :
    FailsWith tools host prettifier o b f ∧
      ((run tools host prettifier clock o).run b).2.calls = b.calls := by
  have hattempt : (Build.attempt tools host o.job).run.run b = (.error f, b) := by
    rw [Build.attempt_eq, run_bind_error hgate]
  obtain ⟨ws, hrun⟩ := Build.run_error hattempt
  refine ⟨⟨hgeneric, .inl ⟨b, hattempt⟩⟩, ?_⟩
  rw [run_of_build_failed hgeneric hrun]

/-- What is refused late was worth the call that builds the project. -/
theorem failsWith_of_refusedLate (hgeneric : o.symbol.isGeneric = false)
    (hlate : RefusedLate tools host o b m) :
    FailsWith tools host prettifier o b (.step .configuration m) ∧
      b.calls ++ [Build.invocation host o.job] <+:
        ((run tools host prettifier clock o).run b).2.calls := by
  cases hlate with
  | @intro b₁ b₂ pack hbuild hload hpack hrefused =>
      have hvars : (Execution.vars host o.job).run.run b₂ =
          (.error (.step .configuration (Execution.refusedMessage o.settings pack)), b₂) :=
        Execution.run_vars_of_refused hpack hrefused
      have hattempt : (Execution.attempt tools host prettifier o.job).run.run b₁ =
          (.error (.step .configuration (Execution.refusedMessage o.settings pack)), b₂) := by
        rw [Execution.attempt_eq, Execution.prepare]
        apply run_bind_error
        rw [run_bind_ok hload]
        exact run_bind_error hvars
      refine ⟨⟨hgeneric, .inr ⟨b₁, b₂, hbuild, hattempt⟩⟩, ?_⟩
      obtain ⟨huncancelled, g, hgate⟩ := exists_gate hbuild
      have hbuilding := Build.calls_attempt tools huncancelled hgate
      have hloading : CallsGrow b₁ b₂ := by
        have hstays := Execution.stays_load (b := b₁) (alongCalls_callsGrow tools) o.job
        unfold Stays at hstays
        rwa [hload] at hstays
      obtain ⟨ws, hrun⟩ := Execution.run_error hattempt
      rw [hbuild] at hbuilding
      rw [run_of_executed hgeneric (Build.run_ok hbuild) hrun]
      exact List.IsPrefix.trans hbuilding hloading

/-- Flow graphs of all methods of a class are refused, and late. -/
theorem refusedLate_of_graph {b₁ b₂ : Bench} (hgraph : o.DrawsAll)
    (hbuild : (Build.attempt tools host o.job).run.run b = (.ok (), b₁))
    (hload : (Execution.load tools o.job).run.run b₁ = (.ok (), b₂)) :
    ∃ m, RefusedLate tools host o b m := by
  obtain ⟨pack, hpack⟩ : ∃ pack, Compiler.Variables.packOn host o.settings b₂ = .ok pack := by
    cases hreload : o.settings.reload with
    | publish => exact ⟨{}, if_pos hreload⟩
    | build =>
        obtain ⟨pack, path, hpack, hpath⟩ := (Build.surveyed_of_attempt hbuild).pack hreload
        rw [Compiler.Variables.packOn_build hreload]
        exact Compiler.exists_findPack hpack hpath b₂
  exact ⟨_, .intro hbuild hload hpack (.inr (drawsAll_iff.1 hgraph))⟩

/-- Nothing else is refused late, unless the library pack is gone by then. -/
theorem not_refusedLate (hgraph : ¬ o.DrawsAll)
    (hsame : o.settings.reload = .build → ∀ b₁ b₂,
      (Build.attempt tools host o.job).run.run b = (.ok (), b₁) →
      (Execution.load tools o.job).run.run b₁ = (.ok (), b₂) →
      Compiler.Unchanged host o.settings b b₂) : ¬ RefusedLate tools host o b m := by
  rintro ⟨hbuild, hload, hpack, ⟨hreload, hmissing⟩ | hrefused⟩
  · obtain ⟨pack, path, hfound, hpath⟩ : ∃ pack path,
        Compiler.findPack b.files b.here host o.settings none = .ok pack ∧
          pack.path? = some path := (Build.surveyed_of_attempt hbuild).pack hreload
    rw [Compiler.Variables.packOn_build hreload, (hsame hreload _ _ hbuild hload).findPack,
      hfound] at hpack
    cases hpack
    rw [hmissing] at hpath
    cases hpath
  · exact hgraph (drawsAll_iff.2 hrefused)

/-- What a run does about settings that cannot be run. -/
structure Configured (tools : Tools) (host : Host) (prettifier : Option Prettifier) (clock : Clock)
    (o : Order) (b : Bench) : Prop where
  /-- Unless a tool says so, settings are turned down by the gate, or when the variables are
  derived. -/
  origin : ∀ m, FailsWith tools host prettifier o b (.step .configuration m) →
    (Build.gate host o.job).run.run b = (.error (.step .configuration m), b) ∨
      RefusedLate tools host o b m ∨
      ∃ calls i t, (tools calls i t).outcome = .error (.step .configuration m)
  /-- The gate turns them down before any call. -/
  early : o.symbol.isGeneric = false → ∀ m,
    (Build.gate host o.job).run.run b = (.error (.step .configuration m), b) →
    FailsWith tools host prettifier o b (.step .configuration m) ∧
      ((run tools host prettifier clock o).run b).2.calls = b.calls
  /-- Later it is after the call that builds the project. -/
  late : o.symbol.isGeneric = false → ∀ m, RefusedLate tools host o b m →
    FailsWith tools host prettifier o b (.step .configuration m) ∧
      b.calls ++ [Build.invocation host o.job] <+:
        ((run tools host prettifier clock o).run b).2.calls
  /-- That is where flow graphs are turned down of classes and of local functions. -/
  graph : o.DrawsAll → ∀ b₁ b₂, (Build.attempt tools host o.job).run.run b = (.ok (), b₁) →
    (Execution.load tools o.job).run.run b₁ = (.ok (), b₂) → ∃ m, RefusedLate tools host o b m
  /-- All else is turned down before any call, as long as nothing changes in the checkout. -/
  rest : ¬ o.DrawsAll →
    (o.settings.reload = .build → ∀ b₁ b₂,
      (Build.attempt tools host o.job).run.run b = (.ok (), b₁) →
      (Execution.load tools o.job).run.run b₁ = (.ok (), b₂) →
      Compiler.Unchanged host o.settings b b₂) →
    (∀ calls i t m, (tools calls i t).outcome ≠ .error (.step .configuration m)) →
    ∀ m, FailsWith tools host prettifier o b (.step .configuration m) →
      ((run tools host prettifier clock o).run b).2.calls = b.calls

theorem run_configured (tools : Tools) (host : Host) (prettifier : Option Prettifier)
    (clock : Clock) (o : Order) (b : Bench) : Configured tools host prettifier clock o b where
  origin _ hfails := configuration_of_failsWith hfails
  early hgeneric _ hgate := failsWith_of_gate hgeneric hgate
  late hgeneric _ hlate := failsWith_of_refusedLate hgeneric hlate
  graph hgraph _ _ hbuild hload := refusedLate_of_graph hgraph hbuild hload
  rest hgraph hsame htools m hfails := by
    rcases configuration_of_failsWith hfails with hgate | hlate | ⟨calls, i, t, houtcome⟩
    · exact (failsWith_of_gate hfails.1 hgate).2
    · exact absurd hlate (not_refusedLate hgraph hsame)
    · exact absurd houtcome (htools calls i t m)

/-- A flow graph of a whole class. -/
def classOrder : Order :=
  { drawingOrder with symbol := { qualifiedClass := "App.Program", className := "Program" } }

/-- The project is built before its settings are turned down. -/
theorem run_configured_class :
    let tools : Tools := fun _ _ t => { files := t, outcome := .ok {} }
    let clock : Clock := ⟨.zero false, .zero false⟩
    (∃ m, FailsWith tools {} none classOrder drawingBench (.step .configuration m)) ∧
      [Build.invocation {} classOrder.job] <+:
        ((run tools {} none clock classOrder).run drawingBench).2.calls ∧
      ((run tools {} none clock classOrder).run drawingBench).1.output =
        "Flowgraph for classes (all methods) is not supported yet." := by
  intro tools clock
  have hconfigured := run_configured tools {} none clock classOrder drawingBench
  have hbuilt : ((Build.attempt tools {} classOrder.job).run.run drawingBench).1.isOk = true := by
    decide +kernel
  rcases hbuild : (Build.attempt tools {} classOrder.job).run.run drawingBench with ⟨f | ⟨⟩, b₁⟩
  · rw [hbuild] at hbuilt
    cases hbuilt
  · have hload : (Execution.load tools classOrder.job).run.run b₁ = (.ok (), b₁) := rfl
    obtain ⟨m, hlate⟩ := hconfigured.graph ⟨rfl, .inl rfl⟩ b₁ b₁ hbuild hload
    obtain ⟨hfails, hcalls⟩ := hconfigured.late rfl m hlate
    exact ⟨⟨m, hfails⟩, hcalls, by decide +kernel⟩

end Order
end
end JitLens
