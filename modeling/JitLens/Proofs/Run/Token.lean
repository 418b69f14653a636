import JitLens.Proofs.Run.FirstCall
import JitLens.Settings.Store
/-!
# Runs with a token that nobody cancels

A run may be given a token or none.  As long as nobody cancels it, that makes no difference: the
run has the same outcome, and it leaves the same bench but for the token.
-/

namespace JitLens

open Files JitLens.Action

/-- The bench with another token, or with none. -/
def Bench.withToken (b : Bench) (k : Option Token) : Bench :=
  { b with token := k }

/-- Tools during whose calls nobody cancels a token. -/
def Tools.Quiet (tools : Tools) : Prop :=
  ∀ calls i t, (tools calls i t).cancel = none

theorem called_withToken {tools : Tools} (hquiet : tools.Quiet) (i : Invocation) (b : Bench)
    (k : Option Token) : called tools i (b.withToken k) = (called tools i b).withToken k := by
  unfold called Bench.withToken
  dsimp only
  rw [hquiet]

theorem token_called {tools : Tools} (hquiet : tools.Quiet) (i : Invocation) (b : Bench) :
    (called tools i b).token = b.token := by
  unfold called
  dsimp only
  rw [hquiet]

/-- A computation that goes the same with another token on a bench without a request to cancel. -/
def TokenFree {α : Type} (k : Option Token) (x : StateM Bench α) : Prop :=
  ∀ b, b.Uncancelled →
    x.run (b.withToken k) = ((x.run b).1, (x.run b).2.withToken k) ∧ (x.run b).2.Uncancelled

namespace TokenFree

variable {α β : Type} {k : Option Token}

/-! ## Computations that cannot fail -/

theorem value (a : α) : TokenFree k (Pure.pure a) :=
  fun _ hb => ⟨rfl, hb⟩

theorem steps {x : StateM Bench α} {f : α → StateM Bench β} (hx : TokenFree k x)
    (hf : ∀ a, TokenFree k (f a)) : TokenFree k (x >>= f) := by
  intro b hb
  obtain ⟨hrun, hopen⟩ := hx b hb
  rcases hxb : x.run b with ⟨a, b'⟩
  rw [hxb] at hrun hopen
  rw [run_steps hrun, run_steps hxb]
  exact hf a b' hopen

/-! ## Actions -/

theorem pure (a : α) : TokenFree k (Pure.pure a : Action α).run :=
  value _

theorem throw (f : Failure) : TokenFree k (throw f : Action α).run :=
  value _

theorem ofExcept {ε : Type} (wrap : ε → Failure) (r : Except ε α) :
    TokenFree k (Action.ofExcept wrap r).run := by
  cases r with
  | ok a => exact pure a
  | error e => exact throw (wrap e)

theorem bind {x : Action α} {f : α → Action β} (hx : TokenFree k x.run)
    (hf : ∀ a, TokenFree k (f a).run) : TokenFree k (x >>= f).run := by
  intro b hb
  obtain ⟨hrun, hopen⟩ := hx b hb
  rcases hxb : x.run.run b with ⟨e | a, b'⟩
  · rw [hxb] at hrun hopen
    rw [run_bind_error hrun, run_bind_error hxb]
    exact ⟨rfl, hopen⟩
  · rw [hxb] at hrun hopen
    rw [run_bind_ok hrun, run_bind_ok hxb]
    exact hf a b' hopen

/-- What is done with the bench may depend on all of it but the token. -/
theorem get_bind {f : Bench → Action β} (hsame : ∀ b, f (b.withToken k) = f b)
    (hf : ∀ b, TokenFree k (f b).run) : TokenFree k (get >>= f).run := by
  intro b hb
  rw [run_bind_ok (run_get _), run_bind_ok (run_get _), hsame]
  exact hf b b hb

theorem tryCatch {x : Action α} {h : Failure → Action α} (hx : TokenFree k x.run)
    (hh : ∀ e, TokenFree k (h e).run) : TokenFree k (MonadExcept.tryCatch x h).run := by
  intro b hb
  obtain ⟨hrun, hopen⟩ := hx b hb
  rcases hxb : x.run.run b with ⟨e | a, b'⟩
  · rw [hxb] at hrun hopen
    rw [run_tryCatch_error hrun, run_tryCatch_error hxb]
    exact hh e b' hopen
  · rw [hxb] at hrun hopen
    rw [run_tryCatch_ok hrun, run_tryCatch_ok hxb]
    exact ⟨rfl, hopen⟩

theorem forM {γ : Type} {f : γ → Action PUnit} (hf : ∀ x, TokenFree k (f x).run) (xs : List γ) :
    TokenFree k (xs.forM f).run := by
  induction xs with
  | nil => exact pure _
  | cons x xs ih => exact bind (hf x) fun _ => ih

theorem look {γ : Type} (f : Tree → Location → Path → γ) (p : Path) :
    TokenFree k (Action.look f p).run :=
  fun _ hb => ⟨rfl, hb⟩

theorem change (f : Tree → Location → Except FileError Tree) :
    TokenFree k (Action.change f).run := by
  intro b hb
  cases hf : f b.files b.here with
  | error e =>
      have hf' : f (b.withToken k).files (b.withToken k).here = .error e := hf
      rw [run_change_error hf, run_change_error hf']
      exact ⟨rfl, hb⟩
  | ok t =>
      have hf' : f (b.withToken k).files (b.withToken k).here = .ok t := hf
      rw [run_change_ok hf, run_change_ok hf']
      exact ⟨rfl, hb⟩

theorem makeDirs (p : Path) : TokenFree k (Action.makeDirs p).run := by
  intro b hb
  cases hmake : b.files.makeDirs b.here p with
  | error e =>
      have hmake' : (b.withToken k).files.makeDirs (b.withToken k).here p = .error e := hmake
      rw [run_makeDirs_error hmake, run_makeDirs_error hmake']
      exact ⟨rfl, hb⟩
  | ok made =>
      have hmake' : (b.withToken k).files.makeDirs (b.withToken k).here p = .ok made := hmake
      rw [run_makeDirs_ok hmake, run_makeDirs_ok hmake']
      exact ⟨rfl, hb⟩

theorem report (status : String) : TokenFree k (Action.report status).run :=
  fun _ hb => ⟨rfl, hb⟩

theorem warn (w : Warning) : TokenFree k (Action.warn w).run :=
  fun _ hb => ⟨rfl, hb⟩

theorem draw (folder : Path) (stem ending : String) :
    TokenFree k (Action.draw folder stem ending).run :=
  fun _ hb => ⟨rfl, hb⟩

theorem temporaryFile (ending : String) : TokenFree k (Action.temporaryFile ending).run := by
  apply get_bind (fun _ => rfl)
  intro b
  apply bind (draw _ _ _)
  intro p
  apply bind (change _)
  intro _
  exact pure _

section

variable (hk : ∀ t, k = some t → t.cancelled = false)
include hk

theorem checkCancelled : TokenFree k Action.checkCancelled.run := by
  intro b hb
  have hb' : (b.withToken k).Uncancelled := hk
  rw [run_checkCancelled hb, run_checkCancelled hb']
  exact ⟨rfl, hb⟩

theorem call {tools : Tools} (hquiet : tools.Quiet) (i : Invocation) :
    TokenFree k (Action.call tools i).run := by
  intro b hb
  have hb' : (b.withToken k).Uncancelled := hk
  rw [run_call tools i hb.not_refuses, run_call tools i hb'.not_refuses,
    called_withToken hquiet]
  refine ⟨rfl, ?_⟩
  intro t ht
  rw [token_called hquiet] at ht
  exact hb t ht

end

end TokenFree

section

variable {k : Option Token}

/-! ## Steps without a call -/

theorem Loader.tokenFree_writeSource (waiting : String) (folder : Path)
    (fill : List Char → List Char) : TokenFree k (Loader.writeSource waiting folder fill).run := by
  apply TokenFree.get_bind (fun _ => rfl)
  intro b
  split
  · exact TokenFree.pure _
  · split
    · exact TokenFree.ofExcept _ _
    · exact TokenFree.bind (TokenFree.change _) fun _ => TokenFree.pure _

theorem Loader.tokenFree_copyFile (source target : Path) :
    TokenFree k (Loader.copyFile source target).run := by
  intro b hb
  unfold Loader.copyFile
  rw [run_bind_ok (run_get _), run_bind_ok (run_get _)]
  dsimp only [Bench.withToken]
  cases b.files.copyFile b.here source target with
  | ok files => exact ⟨rfl, hb⟩
  | error e =>
      cases e with
      | file e => exact ⟨rfl, hb⟩
      | same source target => exact ⟨rfl, hb⟩

theorem Loader.tokenFree_copyTo (source dest : Path) :
    TokenFree k (Loader.copyTo source dest).run :=
  TokenFree.forM (fun _ => Loader.tokenFree_copyFile _ _) _

theorem Loader.tokenFree_begin (dest : Path) : TokenFree k (Loader.begin dest).run := by
  apply TokenFree.get_bind (fun _ => rfl)
  intro b
  split
  · exact TokenFree.throw _
  · split
    · exact TokenFree.pure _
    · exact TokenFree.bind (TokenFree.report _) fun _ => TokenFree.pure _

theorem FlowGraph.tokenFree_keepLast (file : Path) :
    TokenFree k (FlowGraph.keepLast file).run := by
  apply TokenFree.bind (TokenFree.look _ _)
  intro r
  apply TokenFree.bind (TokenFree.ofExcept _ r)
  intro content
  dsimp only
  split
  · exact TokenFree.bind (TokenFree.change _) fun _ => TokenFree.pure _
  · exact TokenFree.pure _

theorem Compiler.Variables.tokenFree_forRun (host : Host) (s : Settings)
    (method filter : String) :
    TokenFree k (Compiler.Variables.forRun host s method filter).run := by
  have hpack : TokenFree k (Compiler.Variables.packFor host s).run := by
    unfold Compiler.Variables.packFor
    split
    · exact TokenFree.pure _
    · exact TokenFree.get_bind (fun _ => rfl) fun _ => TokenFree.ofExcept _ _
  apply TokenFree.bind hpack
  intro pack
  unfold Compiler.Variables.prepare
  split
  · exact TokenFree.pure _
  · split
    · exact TokenFree.bind (TokenFree.temporaryFile _) fun _ => TokenFree.pure _
    · exact TokenFree.pure _

theorem Execution.tokenFree_vars (host : Host) (j : Job) :
    TokenFree k (Execution.vars host j).run := by
  apply TokenFree.bind (Compiler.Variables.tokenFree_forRun _ _ _ _)
  intro r
  split
  · exact TokenFree.pure _
  · exact TokenFree.throw _

theorem Execution.tokenFree_crossgenCall (host : Host) (j : Job) (vars : Compiler.Variables) :
    TokenFree k (Execution.crossgenCall host j vars).run := by
  apply TokenFree.get_bind (fun _ => rfl)
  intro b
  apply TokenFree.bind (TokenFree.ofExcept _ _)
  intro r
  split
  · exact TokenFree.throw _
  · exact TokenFree.pure _

theorem Execution.tokenFree_runCall (host : Host) (j : Job) (vars : Compiler.Variables) :
    TokenFree k (Execution.runCall host j vars).run := by
  apply TokenFree.get_bind (fun _ => rfl)
  intro b
  dsimp only
  split
  · exact TokenFree.bind (TokenFree.pure _) fun _ => TokenFree.pure _
  · exact TokenFree.bind (TokenFree.ofExcept _ _) fun _ => TokenFree.pure _

theorem Execution.tokenFree_invocation (host : Host) (j : Job) (vars : Compiler.Variables) :
    TokenFree k (Execution.invocation host j vars).run := by
  unfold Execution.invocation
  split
  · apply TokenFree.bind (Execution.tokenFree_crossgenCall _ _ _)
    intro _
    exact TokenFree.bind (TokenFree.report _) fun _ => TokenFree.pure _
  · exact TokenFree.bind (TokenFree.report _) fun _ => Execution.tokenFree_runCall _ _ _

theorem Build.tokenFree_layRuntime (host : Host) (j : Job) (compiler : Path) :
    TokenFree k (Build.layRuntime host j compiler).run := by
  apply TokenFree.bind (TokenFree.report _)
  intro _ b hb
  rw [run_bind_ok (run_get _), run_bind_ok (run_get _)]
  cases hfound : b.files.isDir b.here (Target.outputFolder j.project j.output) with
  | false =>
      simp only [Bench.withToken, hfound]
      exact ⟨rfl, hb⟩
  | true =>
      rcases hlay : b.files.overlay b.here compiler (Target.outputFolder j.project j.output) with
        ⟨errors, t⟩
      cases hopen : b.files.openDir b.here compiler with
      | error e =>
          simp only [Bench.withToken, hfound, hopen]
          exact ⟨rfl, hb⟩
      | ok _ =>
          simp only [Bench.withToken, hfound, hopen, hlay]
          cases errors with
          | nil => exact ⟨rfl, hb⟩
          | cons e errors => exact ⟨rfl, hb⟩

theorem Build.tokenFree_shownFailure (warning : Failure → Warning) (f : Failure) :
    TokenFree k (Build.shownFailure warning f) := by
  cases f with
  | step kind message => exact TokenFree.value _
  | fault e => exact fun _ hb => ⟨rfl, hb⟩
  | settings e => exact fun _ hb => ⟨rfl, hb⟩

/-! ## Loading settings -/

theorem Settings.tokenFree_ofContent (path : Path) (content : Text.Bytes) :
    TokenFree k (Settings.ofContent path content).run := by
  have hwarn : ∀ keys : List Value,
      TokenFree k (forIn keys PUnit.unit fun key _ => do
        Action.warn (.unknownSetting key)
        return ForInStep.yield PUnit.unit : Action PUnit).run := by
    intro keys
    induction keys with
    | nil => exact TokenFree.pure _
    | cons key keys ih =>
        rw [List.forIn_cons]
        apply TokenFree.bind
        · exact TokenFree.bind (TokenFree.warn _) fun _ => TokenFree.pure _
        · intro r
          cases r with
          | done u => exact TokenFree.pure _
          | yield u => exact ih
  apply TokenFree.bind (TokenFree.ofExcept _ _)
  intro entries
  dsimp only
  apply TokenFree.bind (hwarn _)
  intro _
  split
  · exact TokenFree.pure _
  · exact TokenFree.throw _

theorem Settings.tokenFree_load (e : Environment) (path : Option Path) :
    TokenFree k (Settings.load e path).run := by
  have hpath : TokenFree k (Settings.pathOr e path).run := by
    cases path with
    | some p => exact TokenFree.pure _
    | none => exact TokenFree.ofExcept _ _
  have hfile : ∀ path, TokenFree k (Settings.loadFile path).run := by
    intro path
    apply TokenFree.bind (TokenFree.look _ _)
    intro found
    split
    · apply TokenFree.bind (TokenFree.look _ _)
      intro r
      apply TokenFree.bind (TokenFree.ofExcept _ r)
      intro content
      exact Settings.tokenFree_ofContent _ _
    · exact TokenFree.pure _
  apply TokenFree.bind hpath
  intro path
  exact TokenFree.bind (hfile path) fun _ => TokenFree.pure _

/-! ## Steps that look for a request to cancel -/

section

variable (hk : ∀ t, k = some t → t.cancelled = false)
include hk

theorem Loader.tokenFree_arrange (root : Path) (key : Loader.Key) (dest : Path) :
    TokenFree k (Loader.arrange root key dest).run := by
  apply TokenFree.get_bind (fun _ => rfl)
  intro b
  split
  · exact TokenFree.bind (Loader.tokenFree_copyTo _ _) fun _ => TokenFree.pure _
  · apply TokenFree.bind (TokenFree.makeDirs _)
    intro _
    apply TokenFree.bind (TokenFree.checkCancelled hk)
    intro _
    apply TokenFree.bind (TokenFree.report _)
    intro _
    apply TokenFree.bind (Loader.tokenFree_writeSource _ _ _)
    intro _
    apply TokenFree.bind (Loader.tokenFree_writeSource _ _ _)
    intro _
    exact TokenFree.bind (TokenFree.checkCancelled hk) fun _ => TokenFree.pure _

theorem Loader.tokenFree_collect (root : Path) (key : Loader.Key) (dest : Path)
    (result : ToolResult) : TokenFree k (Loader.collect root key dest result).run := by
  apply TokenFree.get_bind (fun _ => rfl)
  intro b
  split
  · exact TokenFree.throw _
  · apply TokenFree.bind (TokenFree.checkCancelled hk)
    intro _
    exact TokenFree.bind (Loader.tokenFree_copyTo _ _) fun _ => TokenFree.pure _

theorem Build.tokenFree_gate (host : Host) (j : Job) : TokenFree k (Build.gate host j).run := by
  have hpack : ∀ b compiler, TokenFree k (Build.passPack host j b compiler).run := by
    intro b compiler
    unfold Build.passPack
    split
    · apply TokenFree.bind (TokenFree.ofExcept _ _)
      intro pack
      exact TokenFree.bind (TokenFree.ofExcept _ _) fun _ => TokenFree.pure _
    · exact TokenFree.pure _
  have hproject : ∀ b compiler, TokenFree k (Build.passProject host j b compiler).run := by
    intro b compiler
    unfold Build.passProject
    split
    · exact TokenFree.bind (TokenFree.throw _) fun _ => hpack b compiler
    · exact hpack b compiler
  have hrules : ∀ b compiler, TokenFree k (Build.passRules host j b compiler).run := by
    intro b compiler
    apply TokenFree.bind (TokenFree.ofExcept _ _)
    intro broken
    split
    · exact TokenFree.bind (TokenFree.throw _) fun _ => hproject b compiler
    · exact hproject b compiler
  have hcompiler : ∀ b, TokenFree k (Build.passCompiler host j b).run := by
    intro b
    apply TokenFree.bind (TokenFree.ofExcept _ _)
    intro compiler
    exact TokenFree.bind (TokenFree.checkCancelled hk) fun _ => hrules b compiler
  rw [Build.gate_eq]
  apply TokenFree.get_bind (fun _ => rfl)
  intro b
  split
  · exact TokenFree.bind (TokenFree.throw _) fun _ => hcompiler b
  · exact hcompiler b

theorem Build.tokenFree_finish (host : Host) (j : Job) (compiler : Path) (result : ToolResult) :
    TokenFree k (Build.finish host j compiler result).run := by
  have hlast : TokenFree k (do
      if j.settings.reload = .publish then
        Build.layRuntime host j compiler
      Action.checkCancelled : Action Unit).run := by
    split
    · exact TokenFree.bind (Build.tokenFree_layRuntime _ _ _) fun _ => TokenFree.checkCancelled hk
    · exact TokenFree.checkCancelled hk
  apply TokenFree.bind (TokenFree.checkCancelled hk)
  intro _
  cases Build.complaint? result with
  | some complaint => exact TokenFree.bind (TokenFree.throw _) fun _ => hlast
  | none => exact hlast

/-! ## Steps with calls -/

variable {tools : Tools} (hquiet : tools.Quiet)
include hquiet

theorem Loader.tokenFree_sdkVersion (dotnet : String) :
    TokenFree k (Loader.sdkVersion tools dotnet).run := by
  apply TokenFree.bind
  · apply TokenFree.tryCatch (TokenFree.call hk hquiet _)
    intro e
    split
    · exact TokenFree.throw _
    · exact TokenFree.throw _
  · intro result
    exact TokenFree.pure _

theorem Loader.tokenFree_install (dotnet : String) (root dest : Path)
    (framework version : String) :
    TokenFree k (Loader.install tools dotnet root dest framework version).run := by
  apply TokenFree.bind (Loader.tokenFree_begin _)
  intro origin?
  split
  · exact TokenFree.pure _
  · apply TokenFree.bind (Loader.tokenFree_sdkVersion hk hquiet _)
    intro sdk
    apply TokenFree.bind (Loader.tokenFree_arrange hk _ _ _)
    intro origin?
    split
    · exact TokenFree.pure _
    · apply TokenFree.bind (TokenFree.call hk hquiet _)
      intro result
      exact Loader.tokenFree_collect hk _ _ _ _

theorem FlowGraph.tokenFree_render (name program : String) :
    TokenFree k (FlowGraph.render tools name program).run := by
  apply TokenFree.get_bind (fun _ => rfl)
  intro b
  split
  · exact TokenFree.pure _
  · split
    · exact TokenFree.pure _
    · apply TokenFree.bind (FlowGraph.tokenFree_keepLast _)
      intro _
      apply TokenFree.bind (TokenFree.checkCancelled hk)
      intro _
      apply TokenFree.bind (TokenFree.temporaryFile _)
      intro picture
      apply TokenFree.bind (TokenFree.call hk hquiet _)
      intro result
      apply TokenFree.bind (TokenFree.checkCancelled hk)
      intro _
      apply TokenFree.get_bind (fun _ => rfl)
      intro b'
      split
      · exact TokenFree.bind (TokenFree.change _) fun _ => TokenFree.pure _
      · exact TokenFree.pure _

theorem Execution.tokenFree_drawn (s : Settings) (vars : Compiler.Variables) :
    TokenFree k (Execution.drawn tools s vars).run := by
  unfold Execution.drawn
  split
  · apply TokenFree.bind (FlowGraph.tokenFree_render hk hquiet _ _)
    intro r
    split
    · exact TokenFree.pure _
    · exact TokenFree.throw _
  · exact TokenFree.pure _

theorem Execution.tokenFree_load (j : Job) : TokenFree k (Execution.load tools j).run := by
  unfold Execution.load
  split
  · apply TokenFree.get_bind (fun _ => rfl)
    intro b
    exact TokenFree.bind (Loader.tokenFree_install hk hquiet _ _ _ _ _) fun _ => TokenFree.pure _
  · exact TokenFree.pure _

theorem Execution.tokenFree_attempt (host : Host) (prettifier : Option Prettifier) (j : Job) :
    TokenFree k (Execution.attempt tools host prettifier j).run := by
  rw [Execution.attempt_eq]
  apply TokenFree.bind
  · apply TokenFree.bind (Execution.tokenFree_load hk hquiet _)
    intro _
    apply TokenFree.bind (Execution.tokenFree_vars _ _)
    intro vars
    exact TokenFree.bind (Execution.tokenFree_invocation _ _ _) fun _ => TokenFree.pure _
  · intro ready
    apply TokenFree.bind (TokenFree.call hk hquiet _)
    intro result
    apply TokenFree.bind (TokenFree.checkCancelled hk)
    intro _
    exact TokenFree.bind (Execution.tokenFree_drawn hk hquiet _ _) fun _ => TokenFree.pure _

theorem Execution.tokenFree_run (host : Host) (prettifier : Option Prettifier) (j : Job) :
    TokenFree k (Execution.run tools host prettifier j) := by
  apply TokenFree.steps (Execution.tokenFree_attempt hk hquiet _ _ _)
  intro r
  split
  · exact TokenFree.value _
  · exact TokenFree.steps (Build.tokenFree_shownFailure _ _) fun _ => TokenFree.value _

theorem Build.tokenFree_run (host : Host) (j : Job) : TokenFree k (Build.run tools host j) := by
  have hattempt : TokenFree k (Build.attempt tools host j).run := by
    rw [Build.attempt_eq]
    apply TokenFree.bind (Build.tokenFree_gate hk _ _)
    intro g
    apply TokenFree.bind (TokenFree.report _)
    intro _
    apply TokenFree.bind (TokenFree.call hk hquiet _)
    intro result
    exact Build.tokenFree_finish hk _ _ _ _
  apply TokenFree.steps hattempt
  intro r
  split
  · exact TokenFree.value _
  · exact TokenFree.steps (Build.tokenFree_shownFailure _ _) fun _ => TokenFree.value _

/-! ## Runs -/

/-- A run goes the same with a token that nobody cancels and with none. -/
theorem Order.tokenFree_run (host : Host) (prettifier : Option Prettifier) (clock : Clock)
    (o : Order) : TokenFree k (Order.run tools host prettifier clock o) := by
  have hsteps : TokenFree k (Order.steps tools host prettifier o) := by
    unfold Order.steps
    split
    · exact TokenFree.value _
    · apply TokenFree.steps (Build.tokenFree_run hk hquiet _ _)
      intro complaint?
      split
      · exact TokenFree.value _
      · exact TokenFree.steps (Execution.tokenFree_run hk hquiet _ _ _) fun _ => TokenFree.value _
  exact TokenFree.steps hsteps fun _ => TokenFree.value _

end

end

end JitLens
