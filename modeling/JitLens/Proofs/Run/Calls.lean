import JitLens.Proofs.Bench
import JitLens.Run
/-!
# Calls of a run

Of each step of a run: what holds along all actions that it is made of holds along the step.  The
steps between the calls leave the record of calls alone, and a call adds to it.
-/

namespace JitLens

open Files JitLens.Action

section

variable {R : Bench → Bench → Prop} {b : Bench}

/-! ## Steps without a call -/

theorem Loader.stays_writeSource (hR : OffRecord R) (waiting : String) (folder : Path)
    (fill : List Char → List Char) : Stays R (Loader.writeSource waiting folder fill) b := by
  apply Stays.get_bind
  split
  · exact Stays.pure hR.toQuiet _
  · split
    · exact Stays.ofExcept hR.toQuiet _ _
    · apply Stays.bind hR.toQuiet (Stays.change hR _)
      intro _ b' _
      exact Stays.pure hR.toQuiet _

theorem Loader.stays_copyFile (hR : OffRecord R) (source target : Path) :
    Stays R (Loader.copyFile source target) b := by
  apply Stays.get_bind
  split
  · exact Stays.setFiles hR _
  · exact Stays.throw hR.toQuiet _
  · exact Stays.throw hR.toQuiet _

theorem Loader.stays_copyTo (hR : OffRecord R) (source dest : Path) :
    Stays R (Loader.copyTo source dest) b :=
  Stays.forM hR.toQuiet fun _ _ _ => Loader.stays_copyFile hR _ _

theorem Loader.stays_begin (hR : Quiet R) (dest : Path) : Stays R (Loader.begin dest) b := by
  apply Stays.get_bind
  split
  · exact Stays.throw hR _
  · split
    · exact Stays.pure hR _
    · apply Stays.bind hR (Stays.report hR _)
      intro _ b' _
      exact Stays.pure hR _

theorem Loader.stays_arrange (hR : OffRecord R) (root : Path) (key : Loader.Key) (dest : Path) :
    Stays R (Loader.arrange root key dest) b := by
  apply Stays.get_bind
  split
  · apply Stays.bind hR.toQuiet (Loader.stays_copyTo hR _ _)
    intro _ b' _
    exact Stays.pure hR.toQuiet _
  · apply Stays.bind hR.toQuiet (Stays.makeDirs hR _)
    intro _ b₁ _
    apply Stays.bind hR.toQuiet (Stays.checkCancelled hR.toQuiet)
    intro _ b₂ _
    apply Stays.bind hR.toQuiet (Stays.report hR.toQuiet _)
    intro _ b₃ _
    apply Stays.bind hR.toQuiet (Loader.stays_writeSource hR _ _ _)
    intro _ b₄ _
    apply Stays.bind hR.toQuiet (Loader.stays_writeSource hR _ _ _)
    intro _ b₅ _
    apply Stays.bind hR.toQuiet (Stays.checkCancelled hR.toQuiet)
    intro _ b₆ _
    exact Stays.pure hR.toQuiet _

theorem Loader.stays_collect (hR : OffRecord R) (root : Path) (key : Loader.Key) (dest : Path)
    (result : ToolResult) : Stays R (Loader.collect root key dest result) b := by
  apply Stays.get_bind
  split
  · exact Stays.throw hR.toQuiet _
  · apply Stays.bind hR.toQuiet (Stays.checkCancelled hR.toQuiet)
    intro _ b₁ _
    apply Stays.bind hR.toQuiet (Loader.stays_copyTo hR _ _)
    intro _ b₂ _
    exact Stays.pure hR.toQuiet _

theorem FlowGraph.stays_keepLast (hR : OffRecord R) (file : Path) :
    Stays R (FlowGraph.keepLast file) b := by
  apply Stays.bind hR.toQuiet (Stays.look hR.toQuiet _ _)
  intro r b₁ _
  apply Stays.bind hR.toQuiet (Stays.ofExcept hR.toQuiet _ r)
  intro content b₂ _
  dsimp only
  split
  · apply Stays.bind hR.toQuiet (Stays.change hR _)
    intro _ b₃ _
    exact Stays.pure hR.toQuiet _
  · exact Stays.pure hR.toQuiet _

theorem Compiler.Variables.stays_forRun (hR : OffRecord R) (host : Host) (s : Settings)
    (method filter : String) : Stays R (Compiler.Variables.forRun host s method filter) b := by
  have hpack : Stays R (Compiler.Variables.packFor host s) b := by
    unfold Compiler.Variables.packFor
    split
    · exact Stays.pure hR.toQuiet _
    · apply Stays.get_bind
      exact Stays.ofExcept hR.toQuiet _ _
  apply Stays.bind hR.toQuiet hpack
  intro pack b₁ _
  unfold Compiler.Variables.prepare
  split
  · exact Stays.pure hR.toQuiet _
  · split
    · apply Stays.bind hR.toQuiet (Stays.temporaryFile hR _)
      intro file b₂ _
      exact Stays.pure hR.toQuiet _
    · exact Stays.pure hR.toQuiet _

theorem Execution.stays_vars (hR : OffRecord R) (host : Host) (j : Job) :
    Stays R (Execution.vars host j) b := by
  apply Stays.bind hR.toQuiet (Compiler.Variables.stays_forRun hR _ _ _ _)
  intro r b₁ _
  split
  · exact Stays.pure hR.toQuiet _
  · exact Stays.throw hR.toQuiet _

theorem Execution.stays_crossgenCall (hR : Quiet R) (host : Host) (j : Job)
    (vars : Compiler.Variables) : Stays R (Execution.crossgenCall host j vars) b := by
  apply Stays.get_bind
  apply Stays.bind hR (Stays.ofExcept hR _ _)
  intro r b₁ _
  split
  · exact Stays.throw hR _
  · exact Stays.pure hR _

theorem Execution.stays_runCall (hR : Quiet R) (host : Host) (j : Job)
    (vars : Compiler.Variables) : Stays R (Execution.runCall host j vars) b := by
  apply Stays.get_bind
  dsimp only
  split
  · apply Stays.bind hR (Stays.pure hR _)
    intro _ b₁ _
    exact Stays.pure hR _
  · apply Stays.bind hR (Stays.ofExcept hR _ _)
    intro _ b₁ _
    exact Stays.pure hR _

theorem Execution.stays_invocation (hR : Quiet R) (host : Host) (j : Job)
    (vars : Compiler.Variables) : Stays R (Execution.invocation host j vars) b := by
  unfold Execution.invocation
  split
  · apply Stays.bind hR (Execution.stays_crossgenCall hR _ _ _)
    intro _ b₁ _
    apply Stays.bind hR (Stays.report hR _)
    intro _ b₂ _
    exact Stays.pure hR _
  · apply Stays.bind hR (Stays.report hR _)
    intro _ b₁ _
    exact Execution.stays_runCall hR _ _ _

theorem Build.stays_layRuntime (hR : OffRecord R) (host : Host) (j : Job) (compiler : Path) :
    Stays R (Build.layRuntime host j compiler) b := by
  apply Stays.bind hR.toQuiet (Stays.report hR.toQuiet _)
  intro _ b₁ _
  apply Stays.get_bind
  dsimp only
  split
  · exact Stays.throw hR.toQuiet _
  · apply Stays.ofExcept_bind hR.toQuiet
    intro _ _
    apply Stays.bind hR.toQuiet (Stays.setFiles hR _)
    intro _ b₂ _
    split
    · exact Stays.pure hR.toQuiet _
    · exact Stays.throw hR.toQuiet _

end

/-! ## Steps with calls -/

section

variable {tools : Tools} {R : Bench → Bench → Prop} {b : Bench}

/-- The version of the build program is what a call for it has printed. -/
theorem Loader.sdkVersion_eq_ok {b' : Bench} {dotnet sdk : String}
    (hversion : (sdkVersion tools dotnet).run.run b = (.ok sdk, b')) :
    ∃ result, (Action.call tools (versionCall dotnet)).run.run b = (.ok result, b') ∧
      sdk = Text.trimmed result.output := by
  unfold sdkVersion at hversion
  obtain ⟨result, b₁, hasked, hlast⟩ := exists_of_run_bind_ok hversion
  cases hlast
  rcases hcall : (Action.call tools (versionCall dotnet)).run.run b with ⟨f | r, b₂⟩
  · rw [run_tryCatch_error hcall] at hasked
    split at hasked
    · cases hasked
    · cases hasked
  · rw [run_tryCatch_ok hcall] at hasked
    cases hasked
    exact ⟨result, rfl, rfl⟩

theorem Loader.stays_sdkVersion (hR : AlongCalls tools R) (dotnet : String) :
    Stays R (Loader.sdkVersion tools dotnet) b := by
  apply Stays.bind hR.toQuiet
  · apply Stays.tryCatch hR.toQuiet (Stays.call hR _)
    intro e b₁ _
    split
    · exact Stays.throw hR.toQuiet _
    · exact Stays.throw hR.toQuiet _
  · intro result b₁ _
    exact Stays.pure hR.toQuiet _

theorem Loader.stays_install (hR : AlongCalls tools R) (dotnet : String) (root dest : Path)
    (framework version : String) :
    Stays R (Loader.install tools dotnet root dest framework version) b := by
  apply Stays.bind hR.toQuiet (Loader.stays_begin hR.toQuiet _)
  intro origin? b₁ _
  split
  · exact Stays.pure hR.toQuiet _
  · apply Stays.bind hR.toQuiet (Loader.stays_sdkVersion hR _)
    intro sdk b₂ _
    apply Stays.bind hR.toQuiet (Loader.stays_arrange hR.toOffRecord _ _ _)
    intro origin? b₃ _
    split
    · exact Stays.pure hR.toQuiet _
    · apply Stays.bind hR.toQuiet (Stays.call hR _)
      intro result b₄ _
      exact Loader.stays_collect hR.toOffRecord _ _ _ _

theorem FlowGraph.stays_render (hR : AlongCalls tools R) (name program : String) :
    Stays R (FlowGraph.render tools name program) b := by
  apply Stays.get_bind
  split
  · exact Stays.pure hR.toQuiet _
  · split
    · exact Stays.pure hR.toQuiet _
    · apply Stays.bind hR.toQuiet (FlowGraph.stays_keepLast hR.toOffRecord _)
      intro _ b₁ _
      apply Stays.bind hR.toQuiet (Stays.checkCancelled hR.toQuiet)
      intro _ b₂ _
      apply Stays.bind hR.toQuiet (Stays.temporaryFile hR.toOffRecord _)
      intro picture b₃ _
      apply Stays.bind hR.toQuiet (Stays.call hR _)
      intro result b₄ _
      apply Stays.bind hR.toQuiet (Stays.checkCancelled hR.toQuiet)
      intro _ b₅ _
      apply Stays.get_bind
      split
      · apply Stays.bind hR.toQuiet (Stays.change hR.toOffRecord _)
        intro _ b₆ _
        exact Stays.pure hR.toQuiet _
      · exact Stays.pure hR.toQuiet _

theorem Execution.stays_drawn (hR : AlongCalls tools R) (s : Settings)
    (vars : Compiler.Variables) : Stays R (Execution.drawn tools s vars) b := by
  unfold Execution.drawn
  split
  · apply Stays.bind hR.toQuiet (FlowGraph.stays_render hR _ _)
    intro r b₁ _
    split
    · exact Stays.pure hR.toQuiet _
    · exact Stays.throw hR.toQuiet _
  · exact Stays.pure hR.toQuiet _

/-- Sees to it that the loader is there, if it is needed. -/
def Execution.load (tools : Tools) (j : Job) : Action Unit := do
  if needsLoader j.settings then
    let root := Loader.defaultRoot (← get).temporary
    let _ ← Loader.install tools j.settings.dotnet root j.target.folder j.framework
      j.settings.version

/-- Executing a project up to the call that is instrumented: that call and its variables. -/
def Execution.prepare (tools : Tools) (host : Host) (j : Job) :
    Action (Compiler.Variables × Invocation) := do
  load tools j
  let vars ← vars host j
  let call ← invocation host j vars
  return (vars, call)

/-- Executing a project from the end of that call on. -/
def Execution.finish (tools : Tools) (prettifier : Option Prettifier) (j : Job)
    (vars : Compiler.Variables) (result : ToolResult) : Action Execution := do
  Action.checkCancelled
  let output := shown j.settings prettifier result
  let picture ← drawn tools j.settings vars
  return { failed := false, output := output, picture := picture }

theorem Execution.attempt_eq (tools : Tools) (host : Host) (prettifier : Option Prettifier)
    (j : Job) : attempt tools host prettifier j = (do
      let ready ← prepare tools host j
      let result ← Action.call tools ready.2
      finish tools prettifier j ready.1 result) := by
  unfold attempt prepare load finish
  split <;> simp only [bind_assoc, pure_bind]

theorem Execution.stays_load (hR : AlongCalls tools R) (j : Job) :
    Stays R (Execution.load tools j) b := by
  unfold Execution.load
  split
  · apply Stays.get_bind
    apply Stays.bind hR.toQuiet (Loader.stays_install hR _ _ _ _ _)
    intro _ b₁ _
    exact Stays.pure hR.toQuiet _
  · exact Stays.pure hR.toQuiet _

theorem Execution.stays_prepare (hR : AlongCalls tools R) (host : Host) (j : Job) :
    Stays R (Execution.prepare tools host j) b := by
  apply Stays.bind hR.toQuiet (Execution.stays_load hR _)
  intro _ b₁ _
  apply Stays.bind hR.toQuiet (Execution.stays_vars hR.toOffRecord _ _)
  intro vars b₂ _
  apply Stays.bind hR.toQuiet (Execution.stays_invocation hR.toQuiet _ _ _)
  intro call b₃ _
  exact Stays.pure hR.toQuiet _

theorem Execution.stays_finish (hR : AlongCalls tools R) (prettifier : Option Prettifier) (j : Job)
    (vars : Compiler.Variables) (result : ToolResult) :
    Stays R (Execution.finish tools prettifier j vars result) b := by
  apply Stays.bind hR.toQuiet (Stays.checkCancelled hR.toQuiet)
  intro _ b₁ _
  apply Stays.bind hR.toQuiet (Execution.stays_drawn hR _ _)
  intro picture b₂ _
  exact Stays.pure hR.toQuiet _

theorem Execution.stays_attempt (hR : AlongCalls tools R) (host : Host)
    (prettifier : Option Prettifier) (j : Job) :
    Stays R (Execution.attempt tools host prettifier j) b := by
  rw [Execution.attempt_eq]
  apply Stays.bind hR.toQuiet (Execution.stays_prepare hR _ _)
  intro ready b₁ _
  apply Stays.bind hR.toQuiet (Stays.call hR _)
  intro result b₂ _
  exact Execution.stays_finish hR _ _ _ _

end

/-! ## What calls add and what they keep -/

/-- The second bench has the calls of the first one, and perhaps more. -/
def CallsGrow (b b' : Bench) : Prop :=
  b.calls <+: b'.calls

theorem alongCalls_callsGrow (tools : Tools) : AlongCalls tools CallsGrow where
  refl b := List.prefix_refl b.calls
  trans := List.IsPrefix.trans
  files b _ := List.prefix_refl b.calls
  drawn b _ := List.prefix_refl b.calls
  statuses b _ := List.prefix_refl b.calls
  warnings b _ := List.prefix_refl b.calls
  call b i _ := List.prefix_append b.calls [i]

theorem alongCalls_temporary (tools : Tools) :
    AlongCalls tools fun b b' => b'.temporary = b.temporary where
  refl _ := rfl
  trans hab hbc := hbc.trans hab
  files _ _ := rfl
  drawn _ _ := rfl
  statuses _ _ := rfl
  warnings _ _ := rfl
  call _ _ _ := rfl

end JitLens
