import JitLens.Proofs.Run.Endings
/-!
# Kinds of failures

Each step of a run foresees failures of a few kinds.  What else ends it is a fault of what it relies
on, or a failure that comes out of a tool.
-/

namespace JitLens

open Files JitLens.Action

/-- What ends an action that foresees failures of some kinds. -/
inductive Raised (tools : Tools) (kinds : List StepKind) : Failure → Prop where
  | step {kind : StepKind} (message : String) (hkind : kind ∈ kinds) :
    Raised tools kinds (.step kind message)
  | fault (f : Fault) : Raised tools kinds (.fault f)
  | tool {calls : List Invocation} {i : Invocation} {t : Tree} {f : Failure}
      (houtcome : (tools calls i t).outcome = .error f) : Raised tools kinds f

theorem Raised.mono {tools : Tools} {kinds more : List StepKind} {f : Failure}
    (hf : Raised tools kinds f) (hkinds : ∀ kind ∈ kinds, kind ∈ more) : Raised tools more f := by
  cases hf with
  | step message hkind => exact .step message (hkinds _ hkind)
  | fault f => exact .fault f
  | tool houtcome => exact .tool houtcome

/-- A failure of a kind that is not foreseen comes out of a tool. -/
theorem Raised.exists_tool {tools : Tools} {kinds : List StepKind} {kind : StepKind} {m : String}
    (hf : Raised tools kinds (.step kind m)) (hkind : kind ∉ kinds) :
    ∃ calls i t, (tools calls i t).outcome = .error (.step kind m) := by
  cases hf with
  | step _ hmem => exact absurd hmem hkind
  | tool houtcome => exact ⟨_, _, _, houtcome⟩

/-- Nothing else ends an action than what it foresees, faults and what comes out of tools. -/
def Raises {α : Type} (tools : Tools) (kinds : List StepKind) (x : Action α) (b : Bench) : Prop :=
  ∀ f b', x.run.run b = (.error f, b') → Raised tools kinds f

namespace Raises

variable {α β : Type} {tools : Tools} {kinds : List StepKind} {b : Bench}

theorem of_ok {x : Action α} {a : α} {b' : Bench} (hx : x.run.run b = (.ok a, b')) :
    Raises tools kinds x b := by
  intro f b'' hf
  rw [hx] at hf
  cases hf

theorem pure (a : α) : Raises tools kinds (Pure.pure a) b :=
  of_ok (run_pure a b)

theorem stop {kind : StepKind} (m : String) (hkind : kind ∈ kinds) :
    Raises tools kinds (Action.stop kind m : Action α) b := by
  rintro f b' ⟨⟩
  exact .step m hkind

theorem throw_fault (f : Fault) : Raises tools kinds (throw (.fault f) : Action α) b := by
  rintro f b' ⟨⟩
  exact .fault _

theorem ofExcept {ε : Type} {wrap : ε → Failure} (hwrap : ∀ e, Raised tools kinds (wrap e))
    (r : Except ε α) : Raises tools kinds (Action.ofExcept wrap r) b := by
  cases r with
  | ok a => exact pure a
  | error e =>
      rintro f b' ⟨⟩
      exact hwrap e

theorem ofFiles (r : Except FileError α) : Raises tools kinds (Action.ofFiles r) b :=
  ofExcept (fun e => .fault (.file e)) r

theorem bind {x : Action α} {f : α → Action β} (hx : Raises tools kinds x b)
    (hf : ∀ a b', x.run.run b = (.ok a, b') → Raises tools kinds (f a) b') :
    Raises tools kinds (x >>= f) b := by
  intro e b'' herror
  rcases hrun : x.run.run b with ⟨e' | a, b'⟩
  · rw [run_bind_error hrun] at herror
    cases herror
    exact hx e b'' hrun
  · rw [run_bind_ok hrun] at herror
    exact hf a b' hrun e b'' herror

theorem get_bind {f : Bench → Action β} (hf : Raises tools kinds (f b) b) :
    Raises tools kinds (get >>= f) b := by
  intro e b' herror
  rw [run_bind_ok (run_get b)] at herror
  exact hf e b' herror

theorem mono {more : List StepKind} {x : Action α} (hx : Raises tools kinds x b)
    (hkinds : ∀ kind ∈ kinds, kind ∈ more) : Raises tools more x b :=
  fun f b' hf => (hx f b' hf).mono hkinds

theorem forM {l : List α} {f : α → Action PUnit} (hf : ∀ a ∈ l, ∀ b, Raises tools kinds (f a) b) :
    Raises tools kinds (l.forM f) b := by
  induction l generalizing b with
  | nil => exact pure _
  | cons a l ih =>
      apply bind (hf a (by simp) b)
      intro _ b' _
      exact ih fun a' ha' => hf a' (by simp [ha'])

theorem change (f : Tree → Location → Except FileError Tree) :
    Raises tools kinds (Action.change f) b := by
  apply get_bind
  apply bind (ofFiles _)
  intro t b' _
  exact of_ok (run_set _ _)

theorem makeDirs (p : Path) : Raises tools kinds (Action.makeDirs p) b := by
  apply get_bind
  split
  · exact of_ok (run_set _ _)
  · apply bind (of_ok (run_set _ _))
    intro _ b' _
    exact throw_fault _

theorem report (status : String) : Raises tools kinds (Action.report status) b :=
  of_ok rfl

theorem temporaryFile (ending : String) : Raises tools kinds (Action.temporaryFile ending) b := by
  apply get_bind
  apply bind (of_ok (run_draw _ _ _ b))
  intro p b' _
  apply bind (change _)
  intro _ b'' _
  exact pure _

theorem checkCancelled (hcancelled : .cancelled ∈ kinds) :
    Raises tools kinds Action.checkCancelled b := by
  intro f b' hf
  rcases b.cancelled_or_uncancelled with h | h
  · obtain ⟨m, hstop⟩ := run_checkCancelled_of_cancelled h
    rw [hstop] at hf
    cases hf
    exact .step m hcancelled
  · rw [run_checkCancelled h] at hf
    cases hf

theorem call (hcancelled : .cancelled ∈ kinds) (i : Invocation) :
    Raises tools kinds (Action.call tools i) b := by
  intro f b' hf
  by_cases hrefuses : b.Refuses
  · obtain ⟨m, hstop⟩ := run_call_of_refuses tools i hrefuses
    rw [hstop] at hf
    cases hf
    exact .step m hcancelled
  · rw [run_call tools i hrefuses, Prod.mk.injEq] at hf
    exact .tool hf.1

end Raises

section

variable {tools : Tools} {host : Host} {b : Bench}

/-! ## The loader -/

namespace Loader

theorem raises_writeSource (waiting : String) (folder : Path) (fill : List Char → List Char) :
    Raises tools [] (writeSource waiting folder fill) b := by
  apply Raises.get_bind
  split
  · exact Raises.pure _
  · split
    · exact Raises.ofFiles _
    · apply Raises.bind (Raises.change _)
      intro _ b' _
      exact Raises.pure _

theorem raises_copyTo (source dest : Path) : Raises tools [] (copyTo source dest) b := by
  apply Raises.forM
  intro name _ b
  apply Raises.get_bind
  split
  · exact Raises.of_ok (run_set _ _)
  · exact Raises.throw_fault _
  · exact Raises.throw_fault _

theorem raises_sdkVersion (dotnet : String) :
    Raises tools [.loaderBuild, .cancelled] (sdkVersion tools dotnet) b := by
  have hcall : Raises tools [.loaderBuild, .cancelled]
      (Action.call tools (versionCall dotnet)) b := Raises.call (by decide) _
  apply Raises.bind
  · intro f b'' hf
    rcases hrun : (Action.call tools (versionCall dotnet)).run.run b with ⟨e | result, b'⟩
    · rw [run_tryCatch_error hrun] at hf
      split at hf
      · cases hf
        exact hcall _ _ hrun
      · exact Raises.stop _ (by decide) f b'' hf
    · rw [run_tryCatch_ok hrun] at hf
      cases hf
  · intro result b' _
    exact Raises.pure _

theorem raises_begin (dest : Path) : Raises tools [.loaderBuild] (begin dest) b := by
  apply Raises.get_bind
  split
  · exact Raises.stop _ (by decide)
  · split
    · exact Raises.pure _
    · apply Raises.bind (Raises.report _)
      intro _ b₁ _
      exact Raises.pure _

theorem raises_arrange (root : Path) (key : Key) (dest : Path) :
    Raises tools [.cancelled] (arrange root key dest) b := by
  apply Raises.get_bind
  split
  · apply Raises.bind ((raises_copyTo _ _).mono (by simp))
    intro _ b₁ _
    exact Raises.pure _
  · apply Raises.bind (Raises.makeDirs _)
    intro _ b₁ _
    apply Raises.bind (Raises.checkCancelled (by decide))
    intro _ b₂ _
    apply Raises.bind (Raises.report _)
    intro _ b₃ _
    apply Raises.bind ((raises_writeSource _ _ _).mono (by simp))
    intro _ b₄ _
    apply Raises.bind ((raises_writeSource _ _ _).mono (by simp))
    intro _ b₅ _
    apply Raises.bind (Raises.checkCancelled (by decide))
    intro _ b₆ _
    exact Raises.pure _

theorem raises_collect (root : Path) (key : Key) (dest : Path) (result : ToolResult) :
    Raises tools [.loaderBuild, .cancelled] (collect root key dest result) b := by
  apply Raises.get_bind
  split
  · exact Raises.stop _ (by decide)
  · apply Raises.bind (Raises.checkCancelled (by decide))
    intro _ b₁ _
    apply Raises.bind ((raises_copyTo _ _).mono (by simp))
    intro _ b₂ _
    exact Raises.pure _

theorem raises_install (dotnet : String) (root dest : Path) (framework version : String) :
    Raises tools [.loaderBuild, .cancelled]
      (install tools dotnet root dest framework version) b := by
  apply Raises.bind ((raises_begin dest).mono (by simp))
  intro origin? b₁ _
  split
  · exact Raises.pure _
  · apply Raises.bind (raises_sdkVersion dotnet)
    intro sdk b₂ _
    apply Raises.bind ((raises_arrange _ _ _).mono (by simp))
    intro origin? b₃ _
    split
    · exact Raises.pure _
    · apply Raises.bind (Raises.call (by decide) _)
      intro result b₄ _
      exact raises_collect _ _ _ result

end Loader

/-! ## Pictures -/

namespace FlowGraph

theorem raises_keepLast (file : Path) : Raises tools [] (keepLast file) b := by
  apply Raises.bind (Raises.of_ok (run_look _ _ b))
  intro r b₁ _
  apply Raises.bind (Raises.ofFiles r)
  intro content b₂ _
  dsimp only
  split
  · apply Raises.bind (Raises.change _)
    intro _ b₃ _
    exact Raises.pure _
  · exact Raises.pure _

theorem raises_render (name program : String) :
    Raises tools [.cancelled] (render tools name program) b := by
  apply Raises.get_bind
  split
  · exact Raises.pure _
  · split
    · exact Raises.pure _
    · apply Raises.bind ((raises_keepLast _).mono (by simp))
      intro _ b₁ _
      apply Raises.bind (Raises.checkCancelled (by decide))
      intro _ b₂ _
      apply Raises.bind (Raises.temporaryFile _)
      intro picture b₃ _
      apply Raises.bind (Raises.call (by decide) _)
      intro result b₄ _
      apply Raises.bind (Raises.checkCancelled (by decide))
      intro _ b₅ _
      apply Raises.get_bind
      split
      · apply Raises.bind (Raises.change _)
        intro _ b₆ _
        exact Raises.pure _
      · exact Raises.pure _

end FlowGraph

/-! ## The two steps -/

namespace Build

theorem raises_layRuntime (j : Job) (compiler : Path) :
    Raises tools [.artifact] (layRuntime host j compiler) b := by
  apply Raises.bind (Raises.report _)
  intro _ b₁ _
  apply Raises.get_bind
  dsimp only
  split
  · exact Raises.stop _ (by decide)
  · apply Raises.bind (Raises.ofFiles _)
    intro _ b₂ _
    apply Raises.bind (Raises.of_ok (run_set _ _))
    intro _ b₃ _
    split
    · exact Raises.pure _
    · exact Raises.throw_fault _

theorem raises_finish (j : Job) (compiler : Path) (result : ToolResult) :
    Raises tools [.cancelled, .toolFailed, .artifact] (finish host j compiler result) b := by
  have hlast : ∀ b, Raises tools [.cancelled, .toolFailed, .artifact] (do
      if j.settings.reload = .publish then
        layRuntime host j compiler
      Action.checkCancelled) b := by
    intro b
    split
    · apply Raises.bind ((raises_layRuntime j compiler).mono (by simp))
      intro _ b₁ _
      exact Raises.checkCancelled (by decide)
    · exact Raises.checkCancelled (by decide)
  apply Raises.bind (Raises.checkCancelled (by decide))
  intro _ b₁ _
  dsimp only
  split
  · apply Raises.bind (Raises.stop _ (by decide))
    intro _ b₂ _
    exact hlast b₂
  · exact hlast b₁

end Build

namespace Execution

variable {prettifier : Option Prettifier} {j : Job}

theorem raises_load (j : Job) : Raises tools [.loaderBuild, .cancelled] (load tools j) b := by
  unfold load
  split
  · apply Raises.get_bind
    apply Raises.bind (Loader.raises_install _ _ _ _ _)
    intro _ b₁ _
    exact Raises.pure _
  · exact Raises.pure _

theorem raises_drawn (s : Settings) (vars : Compiler.Variables) :
    Raises tools [.cancelled, .artifact] (drawn tools s vars) b := by
  unfold drawn
  split
  · apply Raises.bind ((FlowGraph.raises_render _ _).mono (by simp))
    intro r b₁ _
    split
    · exact Raises.pure _
    · exact Raises.stop _ (by decide)
  · exact Raises.pure _

theorem raises_finish (prettifier : Option Prettifier) (j : Job) (vars : Compiler.Variables)
    (result : ToolResult) :
    Raises tools [.cancelled, .artifact] (finish tools prettifier j vars result) b := by
  apply Raises.bind (Raises.checkCancelled (by decide))
  intro _ b₁ _
  apply Raises.bind (raises_drawn j.settings vars)
  intro picture b₂ _
  exact Raises.pure _

/-- The ways in which the second step of a run fails: while the loader is seen to, while the
variables are derived, while the call that is instrumented is put together, or from then on. -/
inductive Failing (tools : Tools) (host : Host) (j : Job) (b : Bench) (f : Failure) : Prop where
  | loader (hraised : Raised tools [.loaderBuild, .cancelled] f)
  | vars {b₁ b₂ : Bench} (hload : (load tools j).run.run b = (.ok (), b₁))
      (hvars : (vars host j).run.run b₁ = (.error f, b₂))
  | lookup {b₁ b₂ b₃ : Bench} {vars : Compiler.Variables}
      (hload : (load tools j).run.run b = (.ok (), b₁))
      (hvars : (Execution.vars host j).run.run b₁ = (.ok vars, b₂))
      (hinvocation : (invocation host j vars).run.run b₂ = (.error f, b₃))
  | call (hraised : Raised tools [.cancelled, .artifact] f)

theorem failing_of_attempt {f : Failure} {b' : Bench}
    (hattempt : (attempt tools host prettifier j).run.run b = (.error f, b')) :
    Failing tools host j b f := by
  rw [attempt_eq, prepare] at hattempt
  rcases hload : (load tools j).run.run b with ⟨e | ⟨⟩, b₁⟩
  · rw [run_bind_error (run_bind_error hload)] at hattempt
    cases hattempt
    exact .loader (raises_load j f b' hload)
  rcases hvars : (vars host j).run.run b₁ with ⟨e | vars, b₂⟩
  · rw [bind_assoc, run_bind_ok hload, run_bind_error (run_bind_error hvars)] at hattempt
    cases hattempt
    exact .vars hload hvars
  rcases hinvocation : (invocation host j vars).run.run b₂ with ⟨e | call, b₃⟩
  · rw [bind_assoc, run_bind_ok hload, bind_assoc, run_bind_ok hvars,
      run_bind_error (run_bind_error hinvocation)] at hattempt
    cases hattempt
    exact .lookup hload hvars hinvocation
  · rw [bind_assoc, run_bind_ok hload, bind_assoc, run_bind_ok hvars, bind_assoc,
      run_bind_ok hinvocation, pure_bind] at hattempt
    have hlast : Raises tools [.cancelled, .artifact] (do
        let result ← Action.call tools call
        finish tools prettifier j vars result) b₃ := by
      apply Raises.bind (Raises.call (by decide) _)
      intro result b₄ _
      exact raises_finish prettifier j vars result
    exact .call (hlast f b' hattempt)

end Execution
end
end JitLens
