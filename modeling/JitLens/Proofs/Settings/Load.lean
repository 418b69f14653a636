import JitLens.Proofs.Bench
import JitLens.Settings.Store
/-!
# Loading settings

What is loaded depends on the files alone, and nothing but warnings is left behind.
-/

namespace JitLens.Settings

open Files JitLens.Action

/-- What the content of a settings file stands for. -/
def contained (path : Path) (content : Text.Bytes) : Except Failure Settings :=
  match readEntries path content with
  | .error f => .error f
  | .ok entries =>
    (ofEntries entries).2.mapError fun e => .settings (.invalid path.text e.message)

/-- What a settings file stands for; one that is not there stands for the defaults. -/
def loaded (t : Tree) (here : Location) (path : Path) : Except Failure Settings :=
  if t.holds here path then
    match t.read here path with
    | .error e => .error (.fault (.file e))
    | .ok content => contained path content
  else .ok {}

/-- A bench with more warnings. -/
def warned (b : Bench) (ws : List Warning) : Bench :=
  { b with warnings := b.warnings ++ ws }

theorem warned_warned (b : Bench) (ws vs : List Warning) :
    warned (warned b ws) vs = warned b (ws ++ vs) := by
  simp [warned]

theorem warned_nil (b : Bench) : warned b [] = b := by
  simp [warned]

theorem run_warnings (keys : List Value) (b : Bench) :
    (forIn keys PUnit.unit fun key _ => do
      Action.warn (.unknownSetting key)
      pure (ForInStep.yield PUnit.unit) : Action PUnit).run.run b =
      (.ok PUnit.unit, warned b (keys.map .unknownSetting)) := by
  induction keys generalizing b with
  | nil => rw [List.forIn_nil, run_pure, List.map_nil, warned_nil]
  | cons key keys ih =>
      have hwarn : (do
          Action.warn (.unknownSetting key)
          pure (ForInStep.yield PUnit.unit) : Action (ForInStep PUnit)).run.run b =
          (.ok (.yield PUnit.unit), warned b [.unknownSetting key]) := rfl
      rw [List.forIn_cons, run_bind_ok hwarn]
      dsimp only
      rw [ih, warned_warned]
      rfl

theorem run_ofContent (path : Path) (content : Text.Bytes) (b : Bench) :
    ∃ ws, (ofContent path content).run.run b = (contained path content, warned b ws) := by
  unfold ofContent contained
  cases hentries : readEntries path content with
  | error f => exact ⟨[], by rw [warned_nil]; rfl⟩
  | ok entries =>
      refine ⟨(ofEntries entries).1.map .unknownSetting, ?_⟩
      rw [run_bind_ok (run_ofExcept_ok id entries b)]
      dsimp only
      rw [run_bind_ok (run_warnings _ b)]
      cases (ofEntries entries).2 with
      | error e => rfl
      | ok s => rfl

/-- Loading gives what the file stands for, and leaves the bench as it is but for warnings. -/
theorem exists_run_loadFile (path : Path) (b : Bench) :
    ∃ ws, (loadFile path).run.run b = (loaded b.files b.here path, warned b ws) := by
  unfold loadFile loaded
  rw [run_bind_ok (run_look _ _ b)]
  split
  · rw [run_bind_ok (run_look _ _ b)]
    cases b.files.read b.here path with
    | error e => exact ⟨[], by rw [warned_nil]; rfl⟩
    | ok content => exact run_ofContent path content b
  · exact ⟨[], by rw [warned_nil]; rfl⟩

theorem loaded_of_run {path : Path} {b b' : Bench} {s : Settings}
    (hrun : (loadFile path).run.run b = (.ok s, b')) : loaded b.files b.here path = .ok s := by
  obtain ⟨ws, hload⟩ := exists_run_loadFile path b
  rw [hrun, Prod.mk.injEq] at hload
  exact hload.1.symm

/-! ## Variables of the environment -/

/-- What every variable that is set keeps, they all keep together. -/
theorem withEnvironment_induction {P : Settings → Prop} {e : Environment}
    (hstep : ∀ o ∈ overriddenBy, ∀ v s, e.filled? o.1 = some v → P s → P (s.update (o.2 v)))
    {s : Settings} (hs : P s) : P (s.withEnvironment e) := by
  unfold withEnvironment
  generalize overriddenBy = overrides at hstep ⊢
  induction overrides generalizing s with
  | nil => exact hs
  | cons o overrides ih =>
      have hrest := fun o' ho' => hstep o' (List.mem_cons_of_mem _ ho')
      rw [List.foldl_cons]
      refine ih ?_ hrest
      cases hvalue : e.filled? o.1 with
      | none => simpa only [hvalue] using hs
      | some v => simpa only [hvalue] using hstep o (by simp) v s hvalue hs

theorem withEnvironment_eq_self {e : Environment}
    (hvars : ∀ o ∈ overriddenBy, e.filled? o.1 = none) (s : Settings) :
    s.withEnvironment e = s := by
  apply withEnvironment_induction (P := (· = s)) _ rfl
  intro o ho v t hvalue _
  rw [hvars o ho] at hvalue
  cases hvalue

end JitLens.Settings
