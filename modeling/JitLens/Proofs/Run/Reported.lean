import JitLens.Proofs.Loader.Sequence
import JitLens.Proofs.Run.Cancellation
import JitLens.Proofs.Run.Lookups
/-!
# How a request to cancel is reported

A run that is cancelled during a call shows the message of the request, unless something else ends
it before the next check for requests.  Behind most calls there is such a check at once.  Where the
loader is installed there are two calls without: the one for the version of the build program, and
the one that builds the loader, whose binaries are looked for first.
-/

namespace JitLens

open Files JitLens.Action

/-- Tools that do what they are called for or are cancelled. -/
def Tools.OnlyCancelled (tools : Tools) : Prop :=
  ∀ calls i t f, (tools calls i t).outcome = .error f → ∃ m, f = .step .cancelled m

/-- Failures that tell of a request to cancel: those of the checks for one, with its message, and
those of tools. -/
inductive Tells (tools : Tools) (b : Bench) : Failure → Prop where
  | token {t : Token} (htoken : b.token = some t) (ht : t.cancelled = true) :
    Tells tools b (.step .cancelled t.message)
  | tool {calls : List Invocation} {i : Invocation} {t : Tree} {m : String}
      (houtcome : (tools calls i t).outcome = .error (.step .cancelled m)) :
    Tells tools b (.step .cancelled m)

/-- If there is a request to cancel at the end of an action, the action fails and tells of it. -/
def Prompt {α : Type} (tools : Tools) (x : Action α) (b : Bench) : Prop :=
  ∀ r b', x.run.run b = (r, b') → b'.Cancelled → ∃ f, r = .error f ∧ Tells tools b' f

/-- Neither calls nor requests to cancel come in between. -/
def SameRecord (b b' : Bench) : Prop :=
  b'.token = b.token ∧ b'.calls = b.calls

theorem offRecord_sameRecord : OffRecord SameRecord where
  refl _ := ⟨rfl, rfl⟩
  trans hab hbc := ⟨hbc.1.trans hab.1, hbc.2.trans hab.2⟩
  files _ _ := ⟨rfl, rfl⟩
  drawn _ _ := ⟨rfl, rfl⟩
  statuses _ _ := ⟨rfl, rfl⟩
  warnings _ _ := ⟨rfl, rfl⟩

theorem SameRecord.cancelled_iff {b b' : Bench} (hsame : SameRecord b b') :
    b'.Cancelled ↔ b.Cancelled := by
  unfold Bench.Cancelled
  rw [hsame.1]

section

variable {α β : Type} {tools : Tools} {b b' : Bench}

theorem Action.Stays.sameRecord {x : Action α} {r : Except Failure α}
    (hx : Stays SameRecord x b) (hrun : x.run.run b = (r, b')) : SameRecord b b' := by
  unfold Stays at hx
  rwa [hrun] at hx

namespace Prompt

/-- A request cannot come in between two calls. -/
theorem of_stays {x : Action α} (hx : Stays SameRecord x b) (hcancel : b.Uncancelled) :
    Prompt tools x b := by
  intro r b' hrun hcancelled
  exact absurd hcancel ((hx.sameRecord hrun).cancelled_iff.1 hcancelled).not_uncancelled

theorem bind {x : Action α} {f : α → Action β} (hx : Prompt tools x b)
    (hf : ∀ a b', x.run.run b = (.ok a, b') → b'.Uncancelled → Prompt tools (f a) b') :
    Prompt tools (x >>= f) b := by
  intro r b'' hrun hcancelled
  rcases hxb : x.run.run b with ⟨e | a, b'⟩
  · rw [run_bind_error hxb] at hrun
    cases hrun
    obtain ⟨g, hg, htells⟩ := hx _ _ hxb hcancelled
    cases hg
    exact ⟨e, rfl, htells⟩
  · have huncancelled : b'.Uncancelled := by
      refine b'.cancelled_or_uncancelled.resolve_left fun hcancelled => ?_
      obtain ⟨g, hg, -⟩ := hx _ _ hxb hcancelled
      cases hg
    rw [run_bind_ok hxb] at hrun
    exact hf a b' hxb huncancelled r b'' hrun hcancelled

theorem get_bind {f : Bench → Action β} (hf : Prompt tools (f b) b) :
    Prompt tools (get >>= f) b := by
  intro r b' hrun
  rw [run_bind_ok (run_get b)] at hrun
  exact hf r b' hrun

/-- Behind a check there is no request. -/
theorem checked {f : Unit → Action β} (hf : b.Uncancelled → Prompt tools (f ()) b) :
    Prompt tools (Action.checkCancelled >>= f) b := by
  intro r b' hrun hcancelled
  rcases b.cancelled_or_uncancelled with ⟨t, htoken, ht⟩ | huncancelled
  · rw [run_bind_error (run_checkCancelled_of_token htoken ht)] at hrun
    cases hrun
    exact ⟨_, rfl, .token htoken ht⟩
  · rw [run_bind_ok (run_checkCancelled huncancelled)] at hrun
    exact hf huncancelled r b' hrun hcancelled

/-- The same if there are no calls behind it. -/
theorem checked_of_stays {f : Unit → Action β}
    (hx : Stays SameRecord (Action.checkCancelled >>= f) b) :
    Prompt tools (Action.checkCancelled >>= f) b := by
  rcases b.cancelled_or_uncancelled with hcancelled | huncancelled
  · exact checked fun huncancelled => absurd huncancelled hcancelled.not_uncancelled
  · exact of_stays hx huncancelled

end Prompt

/-- A call that does not return tells why, whenever the request was made. -/
theorem tells_of_call (htools : tools.OnlyCancelled) {i : Invocation} {f : Failure}
    (hcall : (Action.call tools i).run.run b = (.error f, b')) : Tells tools b' f := by
  by_cases hrefuses : b.Refuses
  · obtain ⟨hheeded, t, htoken, ht⟩ := hrefuses
    rw [run_call_of_token tools i hheeded htoken ht] at hcall
    cases hcall
    exact .token htoken ht
  · rw [run_call tools i hrefuses, Prod.mk.injEq] at hcall
    obtain ⟨houtcome, -⟩ := hcall
    obtain ⟨m, rfl⟩ := htools _ _ _ _ houtcome
    exact .tool houtcome

/-- A call is prompt together with the check behind it. -/
theorem Prompt.call_bind (htools : tools.OnlyCancelled) {i : Invocation}
    {f : ToolResult → Action β} (hf : ∀ result b', Prompt tools (f result) b') :
    Prompt tools (Action.call tools i >>= f) b := by
  intro r b'' hrun hcancelled
  rcases hcall : (Action.call tools i).run.run b with ⟨e | result, b'⟩
  · rw [run_bind_error hcall] at hrun
    cases hrun
    exact ⟨e, rfl, tells_of_call htools hcall⟩
  · rw [run_bind_ok hcall] at hrun
    exact hf result b' r b'' hrun hcancelled

theorem calls_of_call {i : Invocation} {result : ToolResult}
    (hcall : (Action.call tools i).run.run b = (.ok result, b')) : b'.calls = b.calls ++ [i] := by
  obtain ⟨-, rfl⟩ := call_eq_ok hcall
  rfl

end

section

variable {tools : Tools} {host : Host} {o : Order} {j : Job} {b b' : Bench} {f : Failure}

/-! ## Steps that are prompt -/

theorem Build.prompt_attempt (htools : tools.OnlyCancelled) (hcancel : b.Uncancelled) :
    Prompt tools (attempt tools host o.job) b := by
  have hgate : Stays SameRecord (gate host o.job) b := by
    unfold Stays
    rw [bench_gate]
    exact ⟨rfl, rfl⟩
  rw [attempt_eq]
  apply Prompt.bind (.of_stays hgate hcancel)
  intro g b₁ _ hb₁
  apply Prompt.bind (.of_stays (Stays.report offRecord_sameRecord.toQuiet _) hb₁)
  intro _ b₂ _ _
  apply Prompt.call_bind htools
  intro result b₃
  exact .checked_of_stays (stays_finish offRecord_sameRecord g.compiler result)

theorem FlowGraph.prompt_render (htools : tools.OnlyCancelled) (name program : String)
    (hcancel : b.Uncancelled) : Prompt tools (render tools name program) b := by
  have hquiet := offRecord_sameRecord.toQuiet
  apply Prompt.get_bind
  split
  · exact .of_stays (Stays.pure hquiet _) hcancel
  · split
    · exact .of_stays (Stays.pure hquiet _) hcancel
    · apply Prompt.bind (.of_stays (stays_keepLast offRecord_sameRecord _) hcancel)
      intro _ b₁ _ _
      apply Prompt.checked
      intro hb₁
      apply Prompt.bind (.of_stays (Stays.temporaryFile offRecord_sameRecord _) hb₁)
      intro picture b₂ _ _
      apply Prompt.call_bind htools
      intro result b₃
      apply Prompt.checked
      intro hb₃
      apply Prompt.get_bind
      split
      · apply Prompt.bind (.of_stays (Stays.change offRecord_sameRecord _) hb₃)
        intro _ b₄ _ hb₄
        exact .of_stays (Stays.pure hquiet _) hb₄
      · exact .of_stays (Stays.pure hquiet _) hb₃

theorem Execution.prompt_finish (htools : tools.OnlyCancelled) (prettifier : Option Prettifier)
    (vars : Compiler.Variables) (result : ToolResult) :
    Prompt tools (finish tools prettifier j vars result) b := by
  have hquiet := offRecord_sameRecord.toQuiet
  have hdrawn : ∀ {b : Bench}, b.Uncancelled → Prompt tools (drawn tools j.settings vars) b := by
    intro b hb
    unfold drawn
    split
    · apply Prompt.bind (FlowGraph.prompt_render htools _ _ hb)
      intro r b₁ _ hb₁
      split
      · exact .of_stays (Stays.pure hquiet _) hb₁
      · exact .of_stays (Stays.throw hquiet _) hb₁
    · exact .of_stays (Stays.pure hquiet _) hb
  apply Prompt.checked
  intro hb
  apply Prompt.bind (hdrawn hb)
  intro picture b₁ _ hb₁
  exact .of_stays (Stays.pure hquiet _) hb₁

/-! ## The loader -/

namespace Loader

variable {dotnet sdk : String} {root dest : Path} {key : Key} {framework version : String}
  {b₁ : Bench}

/-- An installation comes to know the version of the build program. -/
def Versioned (tools : Tools) (dotnet : String) (dest : Path) (b : Bench) (sdk : String)
    (b' : Bench) : Prop :=
  ∃ b₁, (begin dest).run.run b = (.ok none, b₁) ∧
    (sdkVersion tools dotnet).run.run b₁ = (.ok sdk, b')

/-- Failures of an installation that come before the request to cancel is seen that was made during
the call in front of them. -/
inductive Overtaken (tools : Tools) (dotnet : String) (root dest : Path)
    (framework version : String) (b : Bench) : Failure → Prop where
  /-- After the call for the version, the loader cannot be copied from the cache, or its directory
  in the cache cannot be made. -/
  | arranging {b₁ b₂ : Bench} {sdk : String} {e : Fault}
      (hversioned : Versioned tools dotnet dest b sdk b₁) (hcancelled : b₁.Cancelled)
      (harrange : (arrange root ⟨version, framework, sdk⟩ dest).run.run b₁ =
        (.error (.fault e), b₂)) :
    Overtaken tools dotnet root dest framework version b (.fault e)
  /-- After the call that builds the loader, its binaries are not there. -/
  | notBuilt {b₁ b₂ b₃ : Bench} {sdk : String} {result : ToolResult}
      (hversioned : Versioned tools dotnet dest b sdk b₁)
      (harrange : (arrange root ⟨version, framework, sdk⟩ dest).run.run b₁ = (.ok none, b₂))
      (hbuild : (Action.call tools (buildCall dotnet root ⟨version, framework, sdk⟩)).run.run b₂ =
        (.ok result, b₃))
      (hcancelled : b₃.Cancelled)
      (hmissing : isIn (Key.out ⟨version, framework, sdk⟩ root) b₃.files b₃.here = false) :
    Overtaken tools dotnet root dest framework version b
      (.step .loaderBuild (Loader.notBuilt (Key.out ⟨version, framework, sdk⟩ root) result))

theorem sameRecord_begin {r : Except Failure (Option Origin)}
    (hrun : (begin dest).run.run b = (r, b')) : SameRecord b b' :=
  (stays_begin offRecord_sameRecord.toQuiet dest).sameRecord hrun

theorem sameRecord_arrange {r : Except Failure (Option Origin)}
    (hrun : (arrange root key dest).run.run b = (r, b')) : SameRecord b b' :=
  (stays_arrange offRecord_sameRecord root key dest).sameRecord hrun

theorem Versioned.calls (hversioned : Versioned tools dotnet dest b sdk b') :
    b'.calls = b.calls ++ [versionCall dotnet] := by
  obtain ⟨b₁, hbegin, hversion⟩ := hversioned
  obtain ⟨result, hcall, -⟩ := sdkVersion_eq_ok hversion
  rw [calls_of_call hcall, (sameRecord_begin hbegin).2]

theorem Versioned.run_install (hversioned : Versioned tools dotnet dest b sdk b')
    (root : Path) (framework version : String) :
    (install tools dotnet root dest framework version).run.run b =
      (deliver tools dotnet root dest ⟨version, framework, sdk⟩).run.run b' := by
  obtain ⟨b₁, hbegin, hversion⟩ := hversioned
  rw [install, run_bind_ok hbegin]
  exact run_bind_ok hversion

theorem tells_of_sdkVersion (htools : tools.OnlyCancelled)
    (hrun : (sdkVersion tools dotnet).run.run b = (.error f, b')) : Tells tools b' f := by
  unfold sdkVersion at hrun
  rcases hcall : (Action.call tools (versionCall dotnet)).run.run b with ⟨e | r, b₂⟩
  · have htells := tells_of_call htools hcall
    have hcancelled : e.isCancelled = true := by
      cases htells with
      | token _ _ => rfl
      | tool _ => rfl
    rw [run_bind_error (run_tryCatch_error hcall |>.trans (by rw [if_pos hcancelled]; rfl))] at hrun
    cases hrun
    exact htells
  · rw [run_bind_ok (run_tryCatch_ok hcall)] at hrun
    cases hrun

theorem fault_of_raises {α : Type} {x : Action α} (htools : tools.OnlyCancelled)
    (hx : Raises tools [] x b) (hrun : x.run.run b = (.error f, b')) :
    Tells tools b' f ∨ ∃ e, f = .fault e := by
  cases hx f b' hrun with
  | step _ hkind => cases hkind
  | fault e => exact .inr ⟨e, rfl⟩
  | tool houtcome =>
      obtain ⟨m, rfl⟩ := htools _ _ _ _ houtcome
      exact .inl (.tool houtcome)

/-- A request that is there when the build is arranged is told, unless there is a fault first. -/
theorem tells_or_fault_of_arrange (htools : tools.OnlyCancelled) (hcancelled : b.Cancelled)
    (hrun : (arrange root key dest).run.run b = (.error f, b')) :
    Tells tools b' f ∨ ∃ e, f = .fault e := by
  rw [arrange, run_bind_ok (run_get b)] at hrun
  split at hrun
  · exact fault_of_raises htools (Raises.bind (raises_copyTo _ _) fun _ _ _ => Raises.pure _) hrun
  · rcases hmake : (Action.makeDirs (root.child key.name)).run.run b with ⟨e | ⟨⟩, b₁⟩
    · rw [run_bind_error hmake] at hrun
      cases hrun
      exact fault_of_raises htools (Raises.makeDirs _) hmake
    · have hsame := (Stays.makeDirs offRecord_sameRecord _).sameRecord hmake
      obtain ⟨t, htoken, ht⟩ := hsame.cancelled_iff.2 hcancelled
      rw [run_bind_ok hmake, run_bind_error (run_checkCancelled_of_token htoken ht)] at hrun
      cases hrun
      exact .inl (.token htoken ht)

theorem prompt_collect {result : ToolResult} (hin : isIn (key.out root) b.files b.here = true) :
    Prompt tools (collect root key dest result) b := by
  have hquiet := offRecord_sameRecord.toQuiet
  apply Prompt.get_bind
  rw [hin]
  apply Prompt.checked_of_stays
  apply Stays.bind hquiet (Stays.checkCancelled hquiet)
  intro _ b₁ _
  apply Stays.bind hquiet (stays_copyTo offRecord_sameRecord _ _)
  intro _ b₂ _
  exact Stays.pure hquiet _

theorem run_collect_of_missing {result : ToolResult}
    (hmissing : isIn (key.out root) b.files b.here = false) :
    (collect root key dest result).run.run b =
      (.error (.step .loaderBuild (notBuilt (key.out root) result)), b) := by
  rw [collect, run_bind_ok (run_get b), hmissing]
  rfl

/-- An installation that is cancelled before it knows the version tells so. -/
theorem versioned_cases (htools : tools.OnlyCancelled) (hcancel : b.Uncancelled)
    {r : Except Failure Origin}
    (hrun : (install tools dotnet root dest framework version).run.run b = (r, b'))
    (hcancelled : b'.Cancelled) :
    (∃ f, r = .error f ∧ Tells tools b' f) ∨
      ∃ sdk b₁, Versioned tools dotnet dest b sdk b₁ := by
  rw [install] at hrun
  rcases hbegin : (begin dest).run.run b with ⟨f | origin?, b₁⟩
  · rw [run_bind_error hbegin] at hrun
    cases hrun
    have hb := (sameRecord_begin hbegin).cancelled_iff.1 hcancelled
    exact absurd hcancel hb.not_uncancelled
  · rw [run_bind_ok hbegin] at hrun
    cases origin? with
    | some origin =>
        cases hrun
        have hb := (sameRecord_begin hbegin).cancelled_iff.1 hcancelled
        exact absurd hcancel hb.not_uncancelled
    | none =>
        rcases hversion : (sdkVersion tools dotnet).run.run b₁ with ⟨f | sdk, b₂⟩
        · rw [run_bind_error hversion] at hrun
          cases hrun
          exact .inl ⟨f, rfl, tells_of_sdkVersion htools hversion⟩
        · exact .inr ⟨sdk, b₂, b₁, hbegin, hversion⟩

/-- From then on a cancelled installation tells so or is overtaken by another failure, unless it
takes the loader from the cache. -/
theorem deliver_cases (htools : tools.OnlyCancelled)
    (hversioned : Versioned tools dotnet dest b sdk b₁) {r : Except Failure Origin}
    (hrun : (deliver tools dotnet root dest ⟨version, framework, sdk⟩).run.run b₁ = (r, b'))
    (hcancelled : b'.Cancelled) :
    (∃ f, r = .error f ∧
      (Tells tools b' f ∨ Overtaken tools dotnet root dest framework version b f)) ∨
    ∃ origin, r = .ok origin ∧ b'.calls = b₁.calls := by
  rw [deliver] at hrun
  rcases harrange : (arrange root ⟨version, framework, sdk⟩ dest).run.run b₁ with ⟨f | origin?, b₂⟩
  · rw [run_bind_error harrange] at hrun
    cases hrun
    have hb₁ := (sameRecord_arrange harrange).cancelled_iff.1 hcancelled
    rcases tells_or_fault_of_arrange htools hb₁ harrange with htells | ⟨e, rfl⟩
    · exact .inl ⟨f, rfl, .inl htells⟩
    · exact .inl ⟨_, rfl, .inr (.arranging hversioned hb₁ harrange)⟩
  · rw [run_bind_ok harrange] at hrun
    cases origin? with
    | some origin =>
        cases hrun
        exact .inr ⟨origin, rfl, (sameRecord_arrange harrange).2⟩
    | none =>
        rcases hbuild : (Action.call tools
            (buildCall dotnet root ⟨version, framework, sdk⟩)).run.run b₂ with ⟨f | result, b₃⟩
        · rw [run_bind_error hbuild] at hrun
          cases hrun
          exact .inl ⟨f, rfl, .inl (tells_of_call htools hbuild)⟩
        · rw [run_bind_ok hbuild] at hrun
          -- The binaries are looked for before the request is.
          cases hin : isIn (Key.out ⟨version, framework, sdk⟩ root) b₃.files b₃.here with
          | true =>
              obtain ⟨f, hf, htells⟩ := prompt_collect hin r b' hrun hcancelled
              exact .inl ⟨f, hf, .inl htells⟩
          | false =>
              rw [run_collect_of_missing hin] at hrun
              cases hrun
              exact .inl ⟨_, rfl, .inr (.notBuilt hversioned harrange hbuild hcancelled hin)⟩

theorem install_cases (htools : tools.OnlyCancelled) (hcancel : b.Uncancelled)
    {r : Except Failure Origin}
    (hrun : (install tools dotnet root dest framework version).run.run b = (r, b'))
    (hcancelled : b'.Cancelled) :
    (∃ f, r = .error f ∧
      (Tells tools b' f ∨ Overtaken tools dotnet root dest framework version b f)) ∨
    ∃ origin, r = .ok origin ∧ b'.calls = b.calls ++ [versionCall dotnet] := by
  rcases versioned_cases htools hcancel hrun hcancelled with
    ⟨f, hf, htells⟩ | ⟨sdk, b₁, hversioned⟩
  · exact .inl ⟨f, hf, .inl htells⟩
  · rw [hversioned.run_install] at hrun
    rcases deliver_cases htools hversioned hrun hcancelled with hfails | ⟨origin, hr, hcalls⟩
    · exact .inl hfails
    · exact .inr ⟨origin, hr, by rw [hcalls, hversioned.calls]⟩

/-- Of an installation whose request to cancel is overtaken, the call for the version or the one
that builds the loader is the last one. -/
theorem Overtaken.exists_run (hover : Overtaken tools dotnet root dest framework version b f) :
    ∃ b', (install tools dotnet root dest framework version).run.run b = (.error f, b') ∧
      b'.Cancelled ∧ f.isCancelled = false ∧
      (b'.calls = b.calls ++ [versionCall dotnet] ∨
        ∃ key, b'.calls = b.calls ++ [versionCall dotnet, buildCall dotnet root key]) := by
  cases hover with
  | @arranging b₁ b₂ sdk e hversioned hcancelled harrange =>
      have hsame := sameRecord_arrange harrange
      refine ⟨b₂, ?_, hsame.cancelled_iff.2 hcancelled, rfl, .inl ?_⟩
      · rw [hversioned.run_install]
        exact run_bind_error harrange
      · rw [hsame.2, hversioned.calls]
  | @notBuilt b₁ b₂ b₃ sdk result hversioned harrange hbuild hcancelled hmissing =>
      refine ⟨b₃, ?_, hcancelled, rfl, .inr ⟨⟨version, framework, sdk⟩, ?_⟩⟩
      · rw [hversioned.run_install, deliver, run_bind_ok harrange]
        dsimp only
        rw [run_bind_ok hbuild]
        exact run_collect_of_missing hmissing
      · rw [calls_of_call hbuild, (sameRecord_arrange harrange).2, hversioned.calls]
        simp

end Loader

/-! ## The second step -/

namespace Execution

variable {prettifier : Option Prettifier} {vars : Compiler.Variables} {b₁ b₂ b₃ : Bench}

/-- Failures of the second step that come before the request to cancel is seen that was made while
the loader was seen to. -/
inductive Overtaken (tools : Tools) (host : Host) (j : Job) (b : Bench) : Failure → Prop where
  | loader {f : Failure} (hneeds : needsLoader j.settings = true)
      (hover : Loader.Overtaken tools j.settings.dotnet (Loader.defaultRoot b.temporary)
        j.target.folder j.framework j.settings.version b f) : Overtaken tools host j b f
  | vars {b₁ b₂ : Bench} {f : Failure} (hload : (load tools j).run.run b = (.ok (), b₁))
      (hcancelled : b₁.Cancelled) (hvars : (Execution.vars host j).run.run b₁ = (.error f, b₂)) :
    Overtaken tools host j b f
  | lookup {b₁ b₂ b₃ : Bench} {vars : Compiler.Variables} {f : Failure}
      (hload : (load tools j).run.run b = (.ok (), b₁)) (hcancelled : b₁.Cancelled)
      (hvars : (Execution.vars host j).run.run b₁ = (.ok vars, b₂))
      (hinvocation : (invocation host j vars).run.run b₂ = (.error f, b₃)) :
    Overtaken tools host j b f

theorem sameRecord_vars {r : Except Failure Compiler.Variables}
    (hrun : (Execution.vars host j).run.run b = (r, b')) : SameRecord b b' :=
  (stays_vars offRecord_sameRecord host j).sameRecord hrun

theorem sameRecord_invocation {r : Except Failure Invocation}
    (hrun : (invocation host j vars).run.run b = (r, b')) : SameRecord b b' :=
  (stays_invocation offRecord_sameRecord.toQuiet host j vars).sameRecord hrun

theorem run_load_of_needsLoader (hneeds : needsLoader j.settings = true) (b : Bench) :
    (load tools j).run.run b =
      (do
        let _ ← Loader.install tools j.settings.dotnet (Loader.defaultRoot b.temporary)
          j.target.folder j.framework j.settings.version).run.run b := by
  rw [load, if_pos hneeds, run_bind_ok (run_get b)]

/-- A request that is made while the loader is seen to and is not told there is one of a run with
a loader from the cache. -/
theorem load_cases (htools : tools.OnlyCancelled) (host : Host) (hcancel : b.Uncancelled)
    {r : Except Failure Unit} (hrun : (load tools j).run.run b = (r, b'))
    (hcancelled : b'.Cancelled) :
    needsLoader j.settings = true ∧
      ((∃ f, r = .error f ∧ (Tells tools b' f ∨ Overtaken tools host j b f)) ∨
        r = .ok () ∧ b'.calls = b.calls ++ [Loader.versionCall j.settings.dotnet]) := by
  cases hneeds : needsLoader j.settings with
  | false =>
      rw [load, hneeds, if_neg Bool.false_ne_true] at hrun
      cases hrun
      exact absurd hcancel hcancelled.not_uncancelled
  | true =>
      refine ⟨rfl, ?_⟩
      rw [run_load_of_needsLoader hneeds] at hrun
      rcases hinstall : (Loader.install tools j.settings.dotnet (Loader.defaultRoot b.temporary)
          j.target.folder j.framework j.settings.version).run.run b with ⟨f | origin, b₁⟩
      · rw [run_bind_error hinstall] at hrun
        cases hrun
        rcases Loader.install_cases htools hcancel hinstall hcancelled with
          ⟨g, hg, htells | hover⟩ | ⟨origin, horigin, -⟩
        · cases hg
          exact .inl ⟨f, rfl, .inl htells⟩
        · cases hg
          exact .inl ⟨f, rfl, .inr (.loader hneeds hover)⟩
        · cases horigin
      · rw [run_bind_ok hinstall] at hrun
        cases hrun
        rcases Loader.install_cases htools hcancel hinstall hcancelled with
          ⟨g, hg, -⟩ | ⟨-, -, hcalls⟩
        · cases hg
        · exact .inr ⟨rfl, hcalls⟩

/-- The second step tells of a request to cancel that is made during it, or another failure
overtakes it. -/
theorem attempt_cases (htools : tools.OnlyCancelled) (hcancel : b.Uncancelled)
    {r : Except Failure Execution}
    (hrun : (attempt tools host prettifier j).run.run b = (r, b')) (hcancelled : b'.Cancelled) :
    ∃ f, r = .error f ∧ (Tells tools b' f ∨ Overtaken tools host j b f) := by
  rw [attempt_eq, prepare] at hrun
  rcases hload : (load tools j).run.run b with ⟨f | ⟨⟩, b₁⟩
  · rw [run_bind_error (run_bind_error hload)] at hrun
    cases hrun
    obtain ⟨-, ⟨g, hg, hends⟩ | ⟨hok, -⟩⟩ := load_cases htools host hcancel hload hcancelled
    · cases hg
      exact ⟨f, rfl, hends⟩
    · cases hok
  rcases hvars : (Execution.vars host j).run.run b₁ with ⟨f | vars, b₂⟩
  · rw [bind_assoc, run_bind_ok hload, run_bind_error (run_bind_error hvars)] at hrun
    cases hrun
    have hb₁ := (sameRecord_vars hvars).cancelled_iff.1 hcancelled
    exact ⟨f, rfl, .inr (.vars hload hb₁ hvars)⟩
  rcases hinvocation : (invocation host j vars).run.run b₂ with ⟨f | call, b₃⟩
  · rw [bind_assoc, run_bind_ok hload, bind_assoc, run_bind_ok hvars,
      run_bind_error (run_bind_error hinvocation)] at hrun
    cases hrun
    have hb₂ := (sameRecord_invocation hinvocation).cancelled_iff.1 hcancelled
    have hb₁ := (sameRecord_vars hvars).cancelled_iff.1 hb₂
    exact ⟨f, rfl, .inr (.lookup hload hb₁ hvars hinvocation)⟩
  · rw [bind_assoc, run_bind_ok hload, bind_assoc, run_bind_ok hvars, bind_assoc,
      run_bind_ok hinvocation, pure_bind] at hrun
    have hlast : Prompt tools (do
        let result ← Action.call tools call
        finish tools prettifier j vars result) b₃ :=
      Prompt.call_bind htools fun result _ => prompt_finish htools prettifier vars result
    obtain ⟨f, hf, htells⟩ := hlast r b' hrun hcancelled
    exact ⟨f, hf, .inl htells⟩

theorem not_cancelled_of_vars (hrun : (Execution.vars host j).run.run b = (.error f, b')) :
    f.isCancelled = false := by
  have hending := vars_ending host j b
  rw [hrun] at hending
  cases hending <;> rfl

theorem not_cancelled_of_invocation (hrun : (invocation host j vars).run.run b = (.error f, b')) :
    f.isCancelled = false := by
  rcases unfound_of_invocation hrun with ⟨m, rfl, -⟩ | ⟨e, rfl⟩
  · rfl
  · rfl

/-- What overtakes a request to cancel is the failure of the second step, and it does not tell of
the request. -/
theorem Overtaken.exists_attempt (htools : tools.OnlyCancelled) (hcancel : b.Uncancelled)
    (hover : Overtaken tools host j b f) (prettifier : Option Prettifier) :
    needsLoader j.settings = true ∧
      ∃ b', (attempt tools host prettifier j).run.run b = (.error f, b') ∧
        b'.Cancelled ∧ f.isCancelled = false ∧
        (b'.calls = b.calls ++ [Loader.versionCall j.settings.dotnet] ∨
          ∃ key, b'.calls = b.calls ++ [Loader.versionCall j.settings.dotnet,
            Loader.buildCall j.settings.dotnet (Loader.defaultRoot b.temporary) key]) := by
  have hcached {b₁ : Bench} (hload : (load tools j).run.run b = (.ok (), b₁))
      (hcancelled : b₁.Cancelled) : needsLoader j.settings = true ∧
        b₁.calls = b.calls ++ [Loader.versionCall j.settings.dotnet] := by
    obtain ⟨hneeds, ⟨g, hg, -⟩ | ⟨-, hcalls⟩⟩ :=
      load_cases htools host hcancel hload hcancelled
    · cases hg
    · exact ⟨hneeds, hcalls⟩
  rw [attempt_eq, prepare]
  cases hover with
  | loader hneeds hover =>
      obtain ⟨b', hinstall, hcancelled, hf, hcalls⟩ := hover.exists_run
      refine ⟨hneeds, b', ?_, hcancelled, hf, hcalls⟩
      apply run_bind_error
      apply run_bind_error
      rw [run_load_of_needsLoader hneeds]
      exact run_bind_error hinstall
  | @vars b₁ b₂ _ hload hcancelled hvars =>
      obtain ⟨hneeds, hcalls⟩ := hcached hload hcancelled
      have hsame := sameRecord_vars hvars
      refine ⟨hneeds, b₂, ?_, hsame.cancelled_iff.2 hcancelled, not_cancelled_of_vars hvars, .inl ?_⟩
      · apply run_bind_error
        rw [run_bind_ok hload]
        exact run_bind_error hvars
      · rw [hsame.2, hcalls]
  | @lookup b₁ b₂ b₃ vars _ hload hcancelled hvars hinvocation =>
      obtain ⟨hneeds, hcalls⟩ := hcached hload hcancelled
      have hsame := sameRecord_vars hvars
      have hsame' := sameRecord_invocation hinvocation
      have hb₃ : b₃.Cancelled := hsame'.cancelled_iff.2 (hsame.cancelled_iff.2 hcancelled)
      refine ⟨hneeds, b₃, ?_, hb₃, not_cancelled_of_invocation hinvocation, .inl ?_⟩
      · apply run_bind_error
        rw [run_bind_ok hload, run_bind_ok hvars]
        exact run_bind_error hinvocation
      · rw [hsame'.2, hsame.2, hcalls]

end Execution

/-! ## Runs -/

namespace Order

variable {prettifier : Option Prettifier} {clock : Clock}

/-- The second step of a run fails before it sees that it was cancelled. -/
def Overtaken (tools : Tools) (host : Host) (o : Order) (b : Bench) (f : Failure) : Prop :=
  o.symbol.isGeneric = false ∧
    ∃ b₁, (Build.attempt tools host o.job).run.run b = (.ok (), b₁) ∧
      Execution.Overtaken tools host o.job b₁ f

/-- What a run, which leaves an outcome and a bench, shows of a request to cancel. -/
structure Reported (tools : Tools) (host : Host) (o : Order) (b : Bench) (r : Outcome × Bench) :
    Prop where
  /-- The message of the request is shown, unless another failure overtakes it. -/
  told : ∀ t, r.2.token = some t → t.cancelled = true →
    (∀ calls i files m, (tools calls i files).outcome = .error (.step .cancelled m) →
      m = t.message) →
    (∀ f, ¬ Overtaken tools host o b f) →
    r.1.success = false ∧ r.1.picture = none ∧ r.1.output = t.message
  /-- It is if the last call is not one of those that install the loader. -/
  elsewhere : ∀ t i, r.2.token = some t → t.cancelled = true →
    (∀ calls i files m, (tools calls i files).outcome = .error (.step .cancelled m) →
      m = t.message) →
    r.2.calls.getLast? = some i → i ≠ Loader.versionCall o.settings.dotnet →
    (∀ key, i ≠ Loader.buildCall o.settings.dotnet (Loader.defaultRoot b.temporary) key) →
    r.1.success = false ∧ r.1.picture = none ∧ r.1.output = t.message
  /-- Otherwise that failure is shown. -/
  overtaken : ∀ f, Overtaken tools host o b f →
    r.2.Cancelled ∧ r.1.success = false ∧ f.isCancelled = false ∧ r.1.output = f.shown
  /-- The request was made while the loader was seen to then, after the first call. -/
  calls : ∀ f, Overtaken tools host o b f → Execution.needsLoader o.settings = true ∧
    (r.2.calls = b.calls ++ [Build.invocation host o.job, Loader.versionCall o.settings.dotnet] ∨
      ∃ key, r.2.calls = b.calls ++ [Build.invocation host o.job,
        Loader.versionCall o.settings.dotnet,
        Loader.buildCall o.settings.dotnet (Loader.defaultRoot b.temporary) key])

theorem calls_of_attempt (hattempt : (Build.attempt tools host o.job).run.run b = (.ok (), b')) :
    b'.calls = b.calls ++ [Build.invocation host o.job] := by
  have hpassed := hattempt
  rw [Build.attempt_eq] at hpassed
  obtain ⟨g, b₁, hgate, -⟩ := exists_of_run_bind_ok hpassed
  obtain ⟨rfl, -, -⟩ := Build.gate_eq_ok hgate
  rw [Build.run_attempt_of_gate hgate] at hattempt
  obtain ⟨result, b₂, hcall, hfinish⟩ := exists_of_run_bind_ok hattempt
  have hstays : Stays SameRecord (Build.finish host o.job g.compiler result) b₂ :=
    Build.stays_finish offRecord_sameRecord g.compiler result
  rw [(hstays.sameRecord hfinish).2, calls_of_call hcall]
  rfl

/-- A run that is cancelled shows what tells of it, or another failure overtakes that. -/
theorem told_or_overtaken (htools : tools.OnlyCancelled) (hcancel : b.Uncancelled)
    (hcancelled : ((run tools host prettifier clock o).run b).2.Cancelled) :
    (∃ m, Tells tools ((run tools host prettifier clock o).run b).2 (.step .cancelled m) ∧
      ((run tools host prettifier clock o).run b).1.output = m) ∨
    ∃ f, Overtaken tools host o b f := by
  have hending := run_ending tools host prettifier clock o b
  generalize (run tools host prettifier clock o).run b = r at *
  cases hending with
  | refused _ => exact absurd hcancel hcancelled.not_uncancelled
  | unbuilt _ hattempt =>
      obtain ⟨f, hf, htells⟩ := Build.prompt_attempt htools hcancel _ _ hattempt hcancelled
      cases hf
      cases htells with
      | token htoken ht => exact .inl ⟨_, .token htoken ht, rfl⟩
      | tool houtcome => exact .inl ⟨_, .tool houtcome, rfl⟩
  | unexecuted hgeneric hbuild hattempt =>
      have hstill := (Build.attempt_eq_ok hbuild).still
      obtain ⟨f, hf, htells | hover⟩ :=
        Execution.attempt_cases htools hstill hattempt hcancelled
      · cases hf
        cases htells with
        | token htoken ht => exact .inl ⟨_, .token htoken ht, rfl⟩
        | tool houtcome => exact .inl ⟨_, .tool houtcome, rfl⟩
      · exact .inr ⟨f, hgeneric, _, hbuild, hover⟩
  | done _ _ hattempt =>
      exact absurd (Execution.attempt_eq_ok hattempt).still hcancelled.not_uncancelled

/-- What overtakes a request to cancel is what the run shows. -/
theorem run_of_overtaken (prettifier : Option Prettifier) (clock : Clock)
    (htools : tools.OnlyCancelled) {f : Failure} (hover : Overtaken tools host o b f) :
    Execution.needsLoader o.settings = true ∧ f.isCancelled = false ∧
      ∃ b', (run tools host prettifier clock o).run b =
          (.executed clock o { failed := true, output := f.shown }, b') ∧ b'.Cancelled ∧
        (b'.calls = b.calls ++ [Build.invocation host o.job,
            Loader.versionCall o.settings.dotnet] ∨
          ∃ key, b'.calls = b.calls ++ [Build.invocation host o.job,
            Loader.versionCall o.settings.dotnet,
            Loader.buildCall o.settings.dotnet (Loader.defaultRoot b.temporary) key]) := by
  obtain ⟨hgeneric, b₁, hbuild, hover⟩ := hover
  have hpassed := Build.attempt_eq_ok hbuild
  obtain ⟨hneeds, b', hattempt, hcancelled, hf, hcalls⟩ :=
    hover.exists_attempt htools hpassed.still prettifier
  have htemporary : b₁.temporary = b.temporary := by
    have hstays := Build.stays_attempt (alongCalls_temporary tools) host o (b := b)
    unfold Stays at hstays
    rwa [hbuild] at hstays
  obtain ⟨ws, hrun⟩ := Execution.run_error hattempt
  refine ⟨hneeds, hf, _, run_of_executed hgeneric (Build.run_ok hbuild) hrun, hcancelled, ?_⟩
  rw [calls_of_attempt hbuild, htemporary] at hcalls
  simp only [List.append_assoc, List.singleton_append] at hcalls
  exact hcalls

/-- The message of a request to cancel is shown, unless another failure overtakes it. -/
theorem output_of_told (htools : tools.OnlyCancelled) (hcancel : b.Uncancelled) {t : Token}
    (htoken : ((run tools host prettifier clock o).run b).2.token = some t)
    (ht : t.cancelled = true)
    (hraised : ∀ calls i files m, (tools calls i files).outcome = .error (.step .cancelled m) →
      m = t.message)
    (hnone : ∀ f, ¬ Overtaken tools host o b f) :
    ((run tools host prettifier clock o).run b).1.success = false ∧
      ((run tools host prettifier clock o).run b).1.picture = none ∧
      ((run tools host prettifier clock o).run b).1.output = t.message := by
  have hcancelled : ((run tools host prettifier clock o).run b).2.Cancelled := ⟨t, htoken, ht⟩
  obtain ⟨hfailed, hpicture⟩ := failed_of_cancelled hcancelled
  rcases told_or_overtaken htools hcancel hcancelled with ⟨m, htells, houtput⟩ | ⟨f, hover⟩
  · refine ⟨hfailed, hpicture, houtput.trans ?_⟩
    cases htells with
    | token htoken' _ =>
        rw [htoken, Option.some.injEq] at htoken'
        rw [htoken']
    | tool houtcome => exact hraised _ _ _ _ houtcome
  · exact absurd hover (hnone f)

/-- A request to cancel that is made during a call is what a run shows, but for requests made while
the loader is installed that another failure overtakes. -/
theorem run_reported (host : Host) (prettifier : Option Prettifier) (clock : Clock) (o : Order)
    (htools : tools.OnlyCancelled) (hcancel : b.Uncancelled) :
    Reported tools host o b ((run tools host prettifier clock o).run b) where
  told _ htoken ht hraised hnone := output_of_told htools hcancel htoken ht hraised hnone
  elsewhere t i htoken ht hraised hlast hversion hbuild := by
    refine output_of_told htools hcancel htoken ht hraised fun f hover => ?_
    obtain ⟨-, -, b', hrun, -, hcalls | ⟨key, hcalls⟩⟩ :=
      run_of_overtaken prettifier clock htools hover
    · have hi : Loader.versionCall o.settings.dotnet = i := by simpa [hrun, hcalls] using hlast
      exact hversion hi.symm
    · have hi : Loader.buildCall o.settings.dotnet (Loader.defaultRoot b.temporary) key = i := by
        simpa [hrun, hcalls] using hlast
      exact hbuild key hi.symm
  overtaken f hover := by
    obtain ⟨-, hf, b', hrun, hcancelled, -⟩ := run_of_overtaken prettifier clock htools hover
    rw [hrun]
    exact ⟨hcancelled, rfl, hf, rfl⟩
  calls f hover := by
    obtain ⟨hneeds, -, b', hrun, -, hcalls⟩ := run_of_overtaken prettifier clock htools hover
    rw [hrun]
    exact ⟨hneeds, hcalls⟩

/-- A checkout that is built, and an output directory without the loader. -/
def loadingBench : Bench where
  files := ⟨[
    ("rt", .dir [("artifacts", .dir [("bin", .dir [
      ("coreclr", .dir [("linux.x64.Checked", .dir [])]),
      ("runtime", .dir [("net8.0-linux-Release-x64", .dir [])])])])]),
    ("App", .dir [("out", .dir [])]), ("tmp", .dir [])]⟩
  here := []
  temporary := ⟨.root, ["tmp"]⟩
  token := some {}

def loadingOrder : Order where
  symbol := { qualifiedClass := "App.Program", className := "Program", method := some "Main" }
  settings := { runtimeRoot := "rt", arch := some "x64" }
  project := "App/App.csproj"
  framework := "net8.0"
  output := some "out"

/-- Tools that leave nothing, and a request to cancel during the third call. -/
def stoppedTools : Tools := fun calls _ files => {
  files := files
  cancel := if calls.length = 2 then some (some "Stop.") else none
  outcome := .ok {} }

theorem onlyCancelled_stoppedTools : stoppedTools.OnlyCancelled := by
  intro calls i t f houtcome
  cases houtcome

/-- The build of the loader is cancelled, and what is shown is that its binaries are missing. -/
theorem run_reported_loader :
    let clock : Clock := ⟨.zero false, .zero false⟩
    let r := (run stoppedTools {} none clock loadingOrder).run loadingBench
    stoppedTools.OnlyCancelled ∧ loadingBench.Uncancelled ∧
      r.2.token = some ⟨true, "Stop."⟩ ∧
      (∃ f, Overtaken stoppedTools {} loadingOrder loadingBench f ∧ r.1.output = f.shown) ∧
      r.1.output.startsWith "ERROR: 'dotnet build' did not produce expected binaries" := by
  intro clock r
  have hcancel : loadingBench.Uncancelled := by
    rintro t ⟨⟩
    rfl
  have hreported : Reported stoppedTools {} loadingOrder loadingBench r :=
    run_reported {} none clock loadingOrder onlyCancelled_stoppedTools hcancel
  have hleft : r.2.token = some ⟨true, "Stop."⟩ ∧ r.1.output ≠ "Stop." ∧
      r.1.output.startsWith "ERROR: 'dotnet build' did not produce expected binaries" := by
    decide +kernel
  obtain ⟨htoken, houtput, hmessage⟩ := hleft
  refine ⟨onlyCancelled_stoppedTools, hcancel, htoken, ?_, hmessage⟩
  by_contra hnone
  have hopen : ∀ f, ¬ Overtaken stoppedTools {} loadingOrder loadingBench f :=
    fun f hover => hnone ⟨f, hover, (hreported.overtaken f hover).2.2.2⟩
  exact houtput (hreported.told _ htoken rfl nofun hopen).2.2

end Order

end
end JitLens
