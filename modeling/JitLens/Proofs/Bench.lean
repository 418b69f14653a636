import JitLens.Bench
/-!
# Actions step by step

What an action does to a bench, from what its steps do.
-/

namespace JitLens

/-- The path of the next temporary file in a directory. -/
def Bench.nextTemporary (b : Bench) (folder : Files.Path) (stem ending : String) : Files.Path :=
  numbered folder stem ending (b.freeNumber folder stem ending)

/-- The number of the next temporary file of a flow graph. -/
def Bench.nextNumber (b : Bench) (ending : String) : Nat :=
  b.freeNumber b.temporary "jitscope-fg-" ending

/-- The path of the next temporary file of a flow graph. -/
def Bench.nextFile (b : Bench) (ending : String) : Files.Path :=
  b.nextTemporary b.temporary "jitscope-fg-" ending

/-- No request to cancel has been made. -/
def Bench.Uncancelled (b : Bench) : Prop :=
  ∀ t, b.token = some t → t.cancelled = false

/-- A request to cancel has been made. -/
def Bench.Cancelled (b : Bench) : Prop :=
  ∃ t, b.token = some t ∧ t.cancelled = true

/-- A request to cancel has been made that the tools heed. -/
def Bench.Refuses (b : Bench) : Prop :=
  b.heeded = true ∧ b.Cancelled

theorem Bench.cancelled_or_uncancelled (b : Bench) : b.Cancelled ∨ b.Uncancelled := by
  cases htoken : b.token with
  | none =>
      right
      intro t ht
      rw [htoken] at ht
      cases ht
  | some t =>
      cases hcancelled : t.cancelled with
      | true => exact .inl ⟨t, htoken, hcancelled⟩
      | false =>
          right
          intro t' ht'
          rw [htoken] at ht'
          cases ht'
          exact hcancelled

theorem Bench.Cancelled.not_uncancelled {b : Bench} (hcancelled : b.Cancelled) :
    ¬ b.Uncancelled := by
  intro huncancelled
  obtain ⟨t, htoken, ht⟩ := hcancelled
  rw [huncancelled t htoken] at ht
  cases ht

theorem Bench.Uncancelled.not_refuses {b : Bench} (huncancelled : b.Uncancelled) :
    ¬ b.Refuses :=
  fun hrefuses => hrefuses.2.not_uncancelled huncancelled

def called (tools : Tools) (i : Invocation) (b : Bench) : Bench :=
  let r := tools b.calls i b.files
  { b with
    files := r.files
    calls := b.calls ++ [i]
    token := match r.cancel with
      | some message => b.token.map (·.cancel message)
      | none => b.token }

namespace Action

variable {α β : Type}

@[simp] theorem run_pure (a : α) (b : Bench) : (pure a : Action α).run.run b = (.ok a, b) := rfl

@[simp] theorem run_throw (f : Failure) (b : Bench) :
    (throw f : Action α).run.run b = (.error f, b) := rfl

@[simp] theorem run_stop (kind : StepKind) (message : String) (b : Bench) :
    (stop kind message : Action α).run.run b = (.error (.step kind message), b) := rfl

theorem run_bind (x : Action α) (f : α → Action β) (b : Bench) :
    (x >>= f).run.run b =
      match x.run.run b with
      | (.ok a, b') => (f a).run.run b'
      | (.error e, b') => (.error e, b') := by
  change (match x.run.run b with
    | (r, b') => (ExceptT.bindCont f r).run b') = _
  rcases x.run.run b with ⟨_ | a, b'⟩ <;> rfl

theorem run_bind_ok {x : Action α} {f : α → Action β} {b b' : Bench} {a : α}
    (hx : x.run.run b = (.ok a, b')) : (x >>= f).run.run b = (f a).run.run b' := by
  rw [run_bind, hx]

theorem run_bind_error {x : Action α} {f : α → Action β} {b b' : Bench} {e : Failure}
    (hx : x.run.run b = (.error e, b')) : (x >>= f).run.run b = (.error e, b') := by
  rw [run_bind, hx]

theorem exists_of_run_bind_ok {x : Action α} {f : α → Action β} {b b' : Bench} {c : β}
    (hrun : (x >>= f).run.run b = (.ok c, b')) :
    ∃ a b₁, x.run.run b = (.ok a, b₁) ∧ (f a).run.run b₁ = (.ok c, b') := by
  rcases hx : x.run.run b with ⟨e | a, b₁⟩
  · rw [run_bind_error hx] at hrun
    cases hrun
  · rw [run_bind_ok hx] at hrun
    exact ⟨a, b₁, rfl, hrun⟩

@[simp] theorem run_get (b : Bench) : (get : Action Bench).run.run b = (.ok b, b) := rfl

@[simp] theorem run_set (b b' : Bench) : (set b' : Action Unit).run.run b = (.ok (), b') := rfl

@[simp] theorem run_ofExcept_ok {ε : Type} (wrap : ε → Failure) (a : α) (b : Bench) :
    (Action.ofExcept wrap (.ok a)).run.run b = (.ok a, b) := rfl

@[simp] theorem run_ofExcept_error {ε : Type} (wrap : ε → Failure) (e : ε) (b : Bench) :
    (Action.ofExcept wrap (.error e) : Action α).run.run b = (.error (wrap e), b) := rfl

theorem run_ofExcept_id (r : Except Failure α) (b : Bench) :
    (Action.ofExcept id r).run.run b = (r, b) := by
  cases r with
  | ok a => rfl
  | error f => rfl

/-- Steps that cannot fail, one after the other. -/
theorem run_steps {x : StateM Bench α} {f : α → StateM Bench β} {b b' : Bench} {a : α}
    (hx : x.run b = (a, b')) : (x >>= f).run b = (f a).run b' := by
  change (match x.run b with
    | (a, b') => (f a).run b') = _
  rw [hx]

theorem run_liftM {x : StateM Bench α} {a : α} {b b' : Bench} (hx : x.run b = (a, b')) :
    (liftM x : Action α).run.run b = (.ok a, b') := by
  change (Except.ok (x.run b).1, (x.run b).2) = _
  rw [hx]

theorem run_tryCatch_ok {x : Action α} {h : Failure → Action α} {b b' : Bench} {a : α}
    (hx : x.run.run b = (.ok a, b')) : (tryCatch x h).run.run b = (.ok a, b') := by
  change (ExceptT.tryCatch x h).run.run b = _
  rw [ExceptT.tryCatch, ExceptT.run_mk, StateT.run_bind]
  change (do
    let (r, b'') ← x.run.run b
    _ : Id _) = _
  rw [hx]
  rfl

theorem run_tryCatch_error {x : Action α} {h : Failure → Action α} {b b' : Bench} {e : Failure}
    (hx : x.run.run b = (.error e, b')) : (tryCatch x h).run.run b = (h e).run.run b' := by
  change (ExceptT.tryCatch x h).run.run b = _
  rw [ExceptT.tryCatch, ExceptT.run_mk, StateT.run_bind]
  change (do
    let (r, b'') ← x.run.run b
    _ : Id _) = _
  rw [hx]
  rfl

@[simp] theorem run_look {γ : Type} (f : Files.Tree → Files.Location → Files.Path → γ)
    (p : Files.Path) (b : Bench) : (look f p).run.run b = (.ok (f b.files b.here p), b) := rfl

theorem run_change_ok {f : Files.Tree → Files.Location → Except Files.FileError Files.Tree}
    {b : Bench} {t : Files.Tree} (hf : f b.files b.here = .ok t) :
    (change f).run.run b = (.ok (), { b with files := t }) := by
  unfold change
  rw [run_bind_ok (run_get b), hf]
  rfl

theorem run_change_error {f : Files.Tree → Files.Location → Except Files.FileError Files.Tree}
    {b : Bench} {e : Files.FileError} (hf : f b.files b.here = .error e) :
    (change f).run.run b = (.error (.fault (.file e)), b) := by
  unfold change
  rw [run_bind_ok (run_get b), hf]
  rfl

theorem run_makeDirs_ok {b : Bench} {p : Files.Path} {made : Files.Tree}
    (hmade : b.files.makeDirs b.here p = .ok made) :
    (makeDirs p).run.run b = (.ok (), { b with files := made }) := by
  unfold makeDirs
  rw [run_bind_ok (run_get b), hmade]
  rfl

theorem run_makeDirs_error {b : Bench} {p : Files.Path} {e : Files.FileError}
    (hmade : b.files.makeDirs b.here p = .error e) :
    (makeDirs p).run.run b =
      (.error (.fault (.file e)), { b with files := b.files.partDirs b.here p }) := by
  unfold makeDirs
  rw [run_bind_ok (run_get b), hmade]
  rfl

@[simp] theorem run_draw (folder : Files.Path) (stem ending : String) (b : Bench) :
    (draw folder stem ending).run.run b =
      (.ok (b.nextTemporary folder stem ending),
        { b with drawn := b.freeNumber folder stem ending }) := rfl

section Temporary

variable {folder : Files.Path} {stem ending : String} {content : Text.Bytes} {b : Bench}
  {t : Files.Tree} {e : Files.FileError}

theorem run_makeTemporary_ok
    (hcreate : b.files.create b.here (b.nextTemporary folder stem ending) content = .ok t) :
    (makeTemporary folder stem ending content).run.run b =
      (.ok (b.nextTemporary folder stem ending),
        { b with files := t, drawn := b.freeNumber folder stem ending }) := by
  unfold makeTemporary
  rw [run_bind_ok (run_draw folder stem ending b), run_bind_ok (run_change_ok hcreate)]
  rfl

theorem run_makeTemporary_error
    (hcreate : b.files.create b.here (b.nextTemporary folder stem ending) content = .error e) :
    (makeTemporary folder stem ending content).run.run b =
      (.error (.fault (.file e)), { b with drawn := b.freeNumber folder stem ending }) := by
  unfold makeTemporary
  rw [run_bind_ok (run_draw folder stem ending b)]
  exact run_bind_error (run_change_error hcreate)

theorem run_temporaryFile_ok (hcreate : b.files.create b.here (b.nextFile ending) [] = .ok t) :
    (temporaryFile ending).run.run b =
      (.ok (b.nextFile ending), { b with files := t, drawn := b.nextNumber ending }) := by
  unfold temporaryFile
  rw [run_bind_ok (run_get b)]
  exact run_makeTemporary_ok hcreate

theorem run_temporaryFile_error
    (hcreate : b.files.create b.here (b.nextFile ending) [] = .error e) :
    (temporaryFile ending).run.run b =
      (.error (.fault (.file e)), { b with drawn := b.nextNumber ending }) := by
  unfold temporaryFile
  rw [run_bind_ok (run_get b)]
  exact run_makeTemporary_error hcreate

end Temporary

theorem run_checkCancelled {b : Bench} (hcancel : b.Uncancelled) :
    checkCancelled.run.run b = (.ok (), b) := by
  unfold checkCancelled
  rw [run_bind_ok (run_get b)]
  cases htoken : b.token with
  | none => rfl
  | some t =>
      simp only [hcancel t htoken, Bool.false_eq_true, if_false]
      rfl

theorem run_checkCancelled_of_token {b : Bench} {t : Token} (htoken : b.token = some t)
    (ht : t.cancelled = true) :
    checkCancelled.run.run b = (.error (.step .cancelled t.message), b) := by
  unfold checkCancelled
  rw [run_bind_ok (run_get b)]
  simp only [htoken, ht, if_true]
  rfl

theorem run_checkCancelled_of_cancelled {b : Bench} (hcancelled : b.Cancelled) :
    ∃ m, checkCancelled.run.run b = (.error (.step .cancelled m), b) := by
  obtain ⟨t, htoken, ht⟩ := hcancelled
  exact ⟨t.message, run_checkCancelled_of_token htoken ht⟩

/-- What passes the check for a request to cancel is as before, and there was no request. -/
theorem checkCancelled_eq_ok {b b' : Bench} {u : Unit}
    (hrun : checkCancelled.run.run b = (.ok u, b')) : b' = b ∧ b.Uncancelled := by
  rcases b.cancelled_or_uncancelled with hcancelled | huncancelled
  · obtain ⟨m, hstop⟩ := run_checkCancelled_of_cancelled hcancelled
    rw [hstop] at hrun
    cases hrun
  · rw [run_checkCancelled huncancelled] at hrun
    cases hrun
    exact ⟨rfl, huncancelled⟩

/-- Unless the tools refuse to start, the tool that is called decides what follows. -/
theorem run_call (tools : Tools) (i : Invocation) {b : Bench} (hopen : ¬ b.Refuses) :
    (call tools i).run.run b = ((tools b.calls i b.files).outcome, called tools i b) := by
  unfold call
  rw [run_bind_ok (run_get b)]
  by_cases hheeded : b.heeded = true
  · have huncancelled : b.Uncancelled :=
      b.cancelled_or_uncancelled.resolve_left fun hcancelled => hopen ⟨hheeded, hcancelled⟩
    rw [if_pos hheeded, run_bind_ok (run_checkCancelled huncancelled), run_bind_ok (run_get b),
      run_bind_ok (run_set _ _)]
    exact run_ofExcept_id _ _
  · rw [if_neg hheeded, run_bind_ok (run_get b), run_bind_ok (run_set _ _)]
    exact run_ofExcept_id _ _

theorem run_call_ok {tools : Tools} {i : Invocation} {b : Bench} {result : ToolResult}
    (hopen : ¬ b.Refuses) (houtcome : (tools b.calls i b.files).outcome = .ok result) :
    (call tools i).run.run b = (.ok result, called tools i b) := by
  rw [run_call tools i hopen, houtcome]

theorem run_call_error {tools : Tools} {i : Invocation} {b : Bench} {f : Failure}
    (hopen : ¬ b.Refuses) (houtcome : (tools b.calls i b.files).outcome = .error f) :
    (call tools i).run.run b = (.error f, called tools i b) := by
  rw [run_call tools i hopen, houtcome]

theorem run_call_of_token (tools : Tools) (i : Invocation) {b : Bench} {t : Token}
    (hheeded : b.heeded = true) (htoken : b.token = some t) (ht : t.cancelled = true) :
    (call tools i).run.run b = (.error (.step .cancelled t.message), b) := by
  unfold call
  rw [run_bind_ok (run_get b), if_pos hheeded]
  exact run_bind_error (run_checkCancelled_of_token htoken ht)

theorem run_call_of_refuses (tools : Tools) (i : Invocation) {b : Bench} (hrefuses : b.Refuses) :
    ∃ m, (call tools i).run.run b = (.error (.step .cancelled m), b) := by
  obtain ⟨hheeded, t, htoken, ht⟩ := hrefuses
  exact ⟨t.message, run_call_of_token tools i hheeded htoken ht⟩

theorem call_eq_ok {tools : Tools} {i : Invocation} {b b' : Bench} {result : ToolResult}
    (hrun : (call tools i).run.run b = (.ok result, b')) :
    (tools b.calls i b.files).outcome = .ok result ∧ b' = called tools i b := by
  by_cases hrefuses : b.Refuses
  · obtain ⟨m, hstop⟩ := run_call_of_refuses tools i hrefuses
    rw [hstop] at hrun
    cases hrun
  · rw [run_call tools i hrefuses, Prod.mk.injEq] at hrun
    exact ⟨hrun.1, hrun.2.symm⟩

/-- A tool either is called or refuses to start, which leaves everything as it was. -/
theorem bench_of_call {tools : Tools} {i : Invocation} {b b' : Bench}
    {r : Except Failure ToolResult} (hrun : (call tools i).run.run b = (r, b')) :
    b' = b ∨ b' = called tools i b := by
  by_cases hrefuses : b.Refuses
  · obtain ⟨m, hstop⟩ := run_call_of_refuses tools i hrefuses
    rw [hstop] at hrun
    exact .inl (congrArg Prod.snd hrun).symm
  · rw [run_call tools i hrefuses] at hrun
    exact .inr (congrArg Prod.snd hrun).symm

/-! ## Relations along actions -/

/-- Relations that hold between the benches before and after steps that change neither files nor
calls nor the token, and that can be chained. -/
structure Quiet (R : Bench → Bench → Prop) : Prop where
  refl : ∀ b, R b b
  trans : ∀ {a b c}, R a b → R b c → R a c
  drawn : ∀ b n, R b { b with drawn := n }
  statuses : ∀ b ss, R b { b with statuses := ss }
  warnings : ∀ b ws, R b { b with warnings := ws }

/-- Such relations that hold along steps that change the files too. -/
structure OffRecord (R : Bench → Bench → Prop) : Prop extends Quiet R where
  files : ∀ b t, R b { b with files := t }

/-- Such relations that hold along calls of the tools too. -/
structure AlongCalls (tools : Tools) (R : Bench → Bench → Prop) : Prop extends OffRecord R where
  call : ∀ b i, ¬ b.Refuses → R b (called tools i b)

/-- The benches before and after an action are related. -/
def Stays (R : Bench → Bench → Prop) (x : Action α) (b : Bench) : Prop :=
  R b (x.run.run b).2

namespace Stays

variable {R : Bench → Bench → Prop} {b : Bench}

/-! ### Steps that leave the files alone -/

theorem pure (hR : Quiet R) (a : α) : Stays R (Pure.pure a) b :=
  hR.refl b

theorem throw (hR : Quiet R) (f : Failure) : Stays R (throw f : Action α) b :=
  hR.refl b

theorem ofExcept {ε : Type} (hR : Quiet R) (wrap : ε → Failure) (r : Except ε α) :
    Stays R (Action.ofExcept wrap r) b := by
  cases r with
  | ok a => exact pure hR a
  | error e => exact throw hR (wrap e)

theorem bind (hR : Quiet R) {x : Action α} {f : α → Action β} (hx : Stays R x b)
    (hf : ∀ a b', x.run.run b = (.ok a, b') → Stays R (f a) b') : Stays R (x >>= f) b := by
  unfold Stays at hx ⊢
  rcases hrun : x.run.run b with ⟨_ | a, b'⟩
  · rw [run_bind_error hrun]
    rwa [hrun] at hx
  · rw [run_bind_ok hrun]
    rw [hrun] at hx
    exact hR.trans hx (hf a b' hrun)

theorem get_bind {f : Bench → Action β} (hf : Stays R (f b) b) : Stays R (get >>= f) b := by
  unfold Stays
  rw [run_bind_ok (run_get b)]
  exact hf

/-- What follows on a computation that may end in a fault goes on from the same bench. -/
theorem ofExcept_bind {ε : Type} (hR : Quiet R) {wrap : ε → Failure} {r : Except ε α}
    {f : α → Action β} (hf : ∀ a, r = .ok a → Stays R (f a) b) :
    Stays R (Action.ofExcept wrap r >>= f) b := by
  cases r with
  | error e => exact bind hR (throw hR (wrap e)) nofun
  | ok a =>
      unfold Stays
      rw [run_bind_ok (run_ofExcept_ok wrap a b)]
      exact hf a rfl

theorem tryCatch (hR : Quiet R) {x : Action α} {h : Failure → Action α} (hx : Stays R x b)
    (hh : ∀ e b', x.run.run b = (.error e, b') → Stays R (h e) b') :
    Stays R (MonadExcept.tryCatch x h) b := by
  unfold Stays at hx ⊢
  rcases hrun : x.run.run b with ⟨e | a, b'⟩
  · rw [run_tryCatch_error hrun]
    rw [hrun] at hx
    exact hR.trans hx (hh e b' hrun)
  · rw [run_tryCatch_ok hrun]
    rwa [hrun] at hx

theorem forM {γ : Type} (hR : Quiet R) {f : γ → Action PUnit} {xs : List γ}
    (hf : ∀ x ∈ xs, ∀ b, Stays R (f x) b) : Stays R (xs.forM f) b := by
  induction xs generalizing b with
  | nil => exact pure hR _
  | cons x xs ih =>
      apply bind hR (hf x (by simp) b)
      intro _ b' _
      exact ih fun y hy => hf y (List.mem_cons_of_mem _ hy)

theorem look {γ : Type} (hR : Quiet R) (f : Files.Tree → Files.Location → Files.Path → γ)
    (p : Files.Path) : Stays R (Action.look f p) b :=
  hR.refl b

theorem report (hR : Quiet R) (status : String) : Stays R (Action.report status) b :=
  hR.statuses b _

theorem checkCancelled (hR : Quiet R) : Stays R Action.checkCancelled b := by
  apply get_bind
  split
  · split
    · exact throw hR _
    · exact pure hR _
  · exact pure hR _

/-! ### Changes of the files -/

theorem setFiles (hR : OffRecord R) (t : Files.Tree) : Stays R (set { b with files := t }) b :=
  hR.files b t

/-- A change of the files is related if each tree that it can lead to is. -/
theorem change_of (hR : Quiet R)
    {f : Files.Tree → Files.Location → Except Files.FileError Files.Tree}
    (hf : ∀ t, f b.files b.here = .ok t → R b { b with files := t }) :
    Stays R (Action.change f) b := by
  unfold Stays
  cases hchange : f b.files b.here with
  | error e =>
      rw [run_change_error hchange]
      exact hR.refl b
  | ok t =>
      rw [run_change_ok hchange]
      exact hf t hchange

theorem change (hR : OffRecord R)
    (f : Files.Tree → Files.Location → Except Files.FileError Files.Tree) :
    Stays R (Action.change f) b :=
  change_of hR.toQuiet fun t _ => hR.files b t

/-- The making of directories is related if what it leaves is, whether it succeeds or fails. -/
theorem makeDirs_of {p : Files.Path}
    (hmade : ∀ made, b.files.makeDirs b.here p = .ok made → R b { b with files := made })
    (hpart : R b { b with files := b.files.partDirs b.here p }) :
    Stays R (Action.makeDirs p) b := by
  unfold Stays
  cases hmake : b.files.makeDirs b.here p with
  | error e =>
      rw [run_makeDirs_error hmake]
      exact hpart
  | ok made =>
      rw [run_makeDirs_ok hmake]
      exact hmade made hmake

theorem makeDirs (hR : OffRecord R) (p : Files.Path) : Stays R (Action.makeDirs p) b :=
  makeDirs_of (fun made _ => hR.files b made) (hR.files b _)

theorem makeTemporary_of (hR : Quiet R) {folder : Files.Path} {stem ending : String}
    {content : Text.Bytes}
    (hfile : ∀ t,
      b.files.create b.here (b.nextTemporary folder stem ending) content = .ok t →
      R b { b with files := t, drawn := b.freeNumber folder stem ending }) :
    Stays R (Action.makeTemporary folder stem ending content) b := by
  unfold Stays
  cases hcreate : b.files.create b.here (b.nextTemporary folder stem ending) content with
  | error e =>
      rw [run_makeTemporary_error hcreate]
      exact hR.drawn b _
  | ok t =>
      rw [run_makeTemporary_ok hcreate]
      exact hfile t hcreate

theorem makeTemporary (hR : OffRecord R) (folder : Files.Path) (stem ending : String)
    (content : Text.Bytes) : Stays R (Action.makeTemporary folder stem ending content) b :=
  makeTemporary_of hR.toQuiet fun t _ => hR.trans (hR.files b t) (hR.drawn _ _)

theorem temporaryFile_of (hR : Quiet R) {ending : String}
    (hfile : ∀ t, b.files.create b.here (b.nextFile ending) [] = .ok t →
      R b { b with files := t, drawn := b.nextNumber ending }) :
    Stays R (Action.temporaryFile ending) b :=
  get_bind (makeTemporary_of hR hfile)

theorem temporaryFile (hR : OffRecord R) (ending : String) :
    Stays R (Action.temporaryFile ending) b :=
  get_bind (makeTemporary hR _ _ _ _)

/-! ### Calls -/

theorem call_of (hR : Quiet R) {tools : Tools} {i : Invocation}
    (hcall : ¬ b.Refuses → R b (called tools i b)) : Stays R (Action.call tools i) b := by
  unfold Stays
  by_cases hrefuses : b.Refuses
  · obtain ⟨m, hstop⟩ := run_call_of_refuses tools i hrefuses
    rw [hstop]
    exact hR.refl b
  · rw [run_call tools i hrefuses]
    exact hcall hrefuses

theorem call {tools : Tools} (hR : AlongCalls tools R) (i : Invocation) :
    Stays R (Action.call tools i) b :=
  call_of hR.toQuiet (hR.call b i)

end Stays

end Action
end JitLens
