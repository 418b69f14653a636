import JitLens.Proofs.Loader.Install
import Mathlib.Algebra.Order.BigOperators.Group.Finset
import Mathlib.Data.Fintype.BigOperators
import Mathlib.Logic.Function.Basic
/-!
# Interleaved installations

Installations of the loader that go on at the same time take turns part by part: an installation
gives way to the others whenever it waits for the build program, and the build program works without
interruption.  One installation that always has the turn does what an installation does, and each
turn brings it further.
-/

namespace JitLens.Loader

open Files JitLens.Action

/-- What installations of one loader have in common. -/
structure Installer where
  tools : Tools
  dotnet : String
  root : Path
  framework : String
  version : String

/-- How far an installation has come. -/
inductive Stage where
  | waiting
  /-- The loader is not there yet. -/
  | asking
  /-- The build program has told its version. -/
  | asked (sdk : String)
  /-- The sources are there. -/
  | arranged (key : Key)
  /-- The build program has ended. -/
  | compiled (key : Key) (result : ToolResult)
  | ended (origin : Origin)
  | failed (f : Failure)

namespace Installer

variable (c : Installer)

def key (sdk : String) : Key :=
  ⟨c.version, c.framework, sdk⟩

def install (dest : Path) : Action Origin :=
  Loader.install c.tools c.dotnet c.root dest c.framework c.version

/-- The part of an installation that comes next: what it does until it waits for the build program,
or what the build program does. -/
def next (dest : Path) : Stage → Action Stage
  | .waiting => do
    match ← begin dest with
    | some origin => return .ended origin
    | none => return .asking
  | .asking => do
    let sdk ← sdkVersion c.tools c.dotnet
    return .asked sdk
  | .asked sdk => do
    match ← arrange c.root (c.key sdk) dest with
    | some origin => return .ended origin
    | none => return .arranged (c.key sdk)
  | .arranged key => do
    let result ← Action.call c.tools (buildCall c.dotnet c.root key)
    return .compiled key result
  | .compiled key result => do
    let origin ← collect c.root key dest result
    return .ended origin
  | .ended origin => return .ended origin
  | .failed f => throw f

/-- One turn of an installation. -/
def advance (dest : Path) (s : Stage) (b : Bench) : Stage × Bench :=
  match (c.next dest s).run.run b with
  | (.ok s', b') => (s', b')
  | (.error f, b') => (.failed f, b')

end Installer

/-- Installations that go on at the same time, and the bench that they share. -/
structure World (n : Nat) where
  bench : Bench
  stage : Fin n → Stage

namespace World

variable {n : Nat}

def start (b : Bench) : World n :=
  ⟨b, fun _ => .waiting⟩

/-- The world in which one installation has come to a stage and left a bench. -/
def put (w : World n) (i : Fin n) (s : Stage) (b : Bench) : World n :=
  ⟨b, Function.update w.stage i s⟩

@[simp] theorem put_stage_self (w : World n) (i : Fin n) (s : Stage) (b : Bench) :
    (w.put i s b).stage i = s := by
  simp [put]

theorem put_stage_of_ne (w : World n) {i j : Fin n} (hne : j ≠ i) (s : Stage) (b : Bench) :
    (w.put i s b).stage j = w.stage j := by
  simp [put, hne]

end World

namespace Installer

variable {n : Nat} (c : Installer) (dests : Fin n → Path)

/-- The installation into one of the directories has its turn. -/
def step (w : World n) (i : Fin n) : World n :=
  let r := c.advance (dests i) (w.stage i) w.bench
  w.put i r.1 r.2

/-- The installations have their turns in some order. -/
def play (schedule : List (Fin n)) (w : World n) : World n :=
  schedule.foldl (c.step dests) w

end Installer

section

variable {c : Installer} {dest : Path} {b b' : Bench} {s s' : Stage} {f : Failure}

theorem advance_of_ok (hnext : (c.next dest s).run.run b = (.ok s', b')) :
    c.advance dest s b = (s', b') := by
  rw [Installer.advance, hnext]

theorem advance_of_error (hnext : (c.next dest s).run.run b = (.error f, b')) :
    c.advance dest s b = (.failed f, b') := by
  rw [Installer.advance, hnext]

theorem step_stage_self {n : Nat} {dests : Fin n → Path} {w : World n} {i : Fin n} :
    (c.step dests w i).stage i = (c.advance (dests i) (w.stage i) w.bench).1 :=
  World.put_stage_self ..

theorem step_stage_of_ne {n : Nat} {dests : Fin n → Path} {w : World n} {i j : Fin n} (hne : j ≠ i) :
    (c.step dests w i).stage j = w.stage j :=
  World.put_stage_of_ne _ hne _ _

theorem step_eq {n : Nat} {dests : Fin n → Path} {w : World n} {i : Fin n} (hstage : w.stage i = s)
    (hnext : (c.next (dests i) s).run.run w.bench = (.ok s', b')) :
    c.step dests w i = w.put i s' b' := by
  rw [Installer.step, hstage, advance_of_ok hnext]

theorem step_of_ended {n : Nat} {dests : Fin n → Path} {w : World n} {i : Fin n} {origin : Origin}
    (hstage : w.stage i = .ended origin) : c.step dests w i = w := by
  rw [step_eq hstage rfl, World.put, ← hstage, Function.update_eq_self]

/-! ## Progress -/

/-- The count of turns that have brought an installation to a stage, at least. -/
def Stage.rank : Stage → Nat
  | .waiting => 0
  | .asking => 1
  | .asked _ => 2
  | .arranged _ => 3
  | .compiled _ _ => 4
  | .ended _ => 5
  | .failed _ => 5

theorem Stage.ended_or_failed (hrank : 5 ≤ s.rank) :
    (∃ origin, s = .ended origin) ∨ ∃ f, s = .failed f := by
  cases s with
  | ended origin => exact .inl ⟨origin, rfl⟩
  | failed f => exact .inr ⟨f, rfl⟩
  | _ => simp [rank] at hrank

theorem rank_next (hnext : (c.next dest s).run.run b = (.ok s', b')) :
    min 5 (s.rank + 1) ≤ s'.rank := by
  cases s with
  | waiting =>
      obtain ⟨origin?, b₁, -, hlast⟩ := exists_of_run_bind_ok hnext
      cases origin? with
      | some origin => cases hlast; simp [Stage.rank]
      | none => cases hlast; simp [Stage.rank]
  | asking =>
      obtain ⟨sdk, b₁, -, hlast⟩ := exists_of_run_bind_ok hnext
      cases hlast
      simp [Stage.rank]
  | asked sdk =>
      obtain ⟨origin?, b₁, -, hlast⟩ := exists_of_run_bind_ok hnext
      cases origin? with
      | some origin => cases hlast; simp [Stage.rank]
      | none => cases hlast; simp [Stage.rank]
  | arranged key =>
      obtain ⟨result, b₁, -, hlast⟩ := exists_of_run_bind_ok hnext
      cases hlast
      simp [Stage.rank]
  | compiled key result =>
      obtain ⟨origin, b₁, -, hlast⟩ := exists_of_run_bind_ok hnext
      cases hlast
      simp [Stage.rank]
  | ended origin =>
      cases hnext
      simp [Stage.rank]
  | failed f => cases hnext

/-- A turn brings an installation further, until it has ended. -/
theorem rank_advance (c : Installer) (dest : Path) (s : Stage) (b : Bench) :
    min 5 (s.rank + 1) ≤ (c.advance dest s b).1.rank := by
  rcases hnext : (c.next dest s).run.run b with ⟨f | s', b'⟩
  · rw [advance_of_error hnext]
    exact Nat.min_le_left _ _
  · rw [advance_of_ok hnext]
    exact rank_next hnext

/-- An installation that has had five turns has ended, whoever had a turn in between. -/
theorem rank_play {n : Nat} (c : Installer) (dests : Fin n → Path) (schedule : List (Fin n))
    (w : World n) (i : Fin n) :
    min 5 ((w.stage i).rank + schedule.count i) ≤ ((c.play dests schedule w).stage i).rank := by
  induction schedule generalizing w with
  | nil => exact Nat.min_le_right _ _
  | cons j schedule ih =>
      have hplay : c.play dests (j :: schedule) w = c.play dests schedule (c.step dests w j) := rfl
      have hrest := ih (c.step dests w j)
      rw [hplay]
      by_cases hj : j = i
      · subst hj
        have hturn := rank_advance c (dests j) (w.stage j) w.bench
        rw [step_stage_self] at hrest
        rw [List.count_cons_self]
        omega
      · rw [step_stage_of_ne (Ne.symm hj)] at hrest
        rwa [List.count_cons_of_ne hj]

/-! ## Counts of builds -/

/-- The builds that an installation has run when it has come to a stage. -/
def Stage.builds : Stage → Nat
  | .compiled _ _ => 1
  | .ended .built => 1
  | _ => 0

/-- Whether the loader has been delivered. -/
def Stage.delivered : Stage → Bool
  | .ended _ => true
  | _ => false

theorem Stage.builds_le_one (s : Stage) : s.builds ≤ 1 := by
  unfold builds
  split <;> decide

theorem Stage.builds_of_rank (hrank : s.rank ≤ 3) : s.builds = 0 := by
  cases s with
  | compiled _ _ => simp [rank] at hrank
  | ended _ => simp [rank] at hrank
  | _ => rfl

theorem Stage.delivered_of_rank (hrank : s.rank ≤ 4) : s.delivered = false := by
  cases s with
  | ended _ => simp [rank] at hrank
  | _ => rfl

namespace World

variable {n : Nat}

/-- All builds that have been run. -/
def builds (w : World n) : Nat :=
  ∑ i, (w.stage i).builds

def delivered (w : World n) (i : Fin n) : Bool :=
  (w.stage i).delivered

theorem builds_le (w : World n) : w.builds ≤ n := by
  have hsum : w.builds ≤ ∑ _i : Fin n, 1 :=
    Finset.sum_le_sum fun i _ => (w.stage i).builds_le_one
  simpa using hsum

theorem stage_builds_le (w : World n) (i : Fin n) : (w.stage i).builds ≤ w.builds :=
  Finset.single_le_sum (f := fun i => (w.stage i).builds) (fun _ _ => Nat.zero_le _)
    (Finset.mem_univ i)

theorem builds_eq_zero {w : World n} (hranks : ∀ i, (w.stage i).rank ≤ 3) : w.builds = 0 :=
  Finset.sum_eq_zero fun i _ => Stage.builds_of_rank (hranks i)

theorem builds_put (w : World n) (i : Fin n) (s : Stage) (b : Bench) :
    (w.put i s b).builds + (w.stage i).builds = w.builds + s.builds := by
  have hsum : (w.put i s b).builds =
      ∑ j, Function.update (fun j => (w.stage j).builds) i s.builds j := by
    refine Finset.sum_congr rfl fun j _ => ?_
    exact congrFun (Function.comp_update Stage.builds w.stage i s) j
  have hrest := Finset.add_sum_erase Finset.univ (fun j => (w.stage j).builds) (Finset.mem_univ i)
  rw [hsum, Finset.sum_update_of_mem (Finset.mem_univ i), Finset.sdiff_singleton_eq_erase]
  simp only [builds] at hrest ⊢
  omega

theorem builds_put_of_eq {w : World n} {i : Fin n} {s : Stage} {b : Bench}
    (hsame : s.builds = (w.stage i).builds) : (w.put i s b).builds = w.builds := by
  have hput := w.builds_put i s b
  omega

theorem delivered_put (w : World n) (i : Fin n) (s : Stage) (b : Bench) :
    (w.put i s b).delivered = Function.update w.delivered i s.delivered :=
  Function.comp_update Stage.delivered w.stage i s

theorem delivered_put_of_eq {w : World n} {i : Fin n} {s : Stage} {b : Bench}
    (hsame : s.delivered = (w.stage i).delivered) : (w.put i s b).delivered = w.delivered := by
  rw [delivered_put, Function.update_eq_self_iff]
  exact hsame

end World

/-! ## One installation on its own -/

/-- The rest of an installation from a stage on. -/
def Installer.rest (c : Installer) (dest : Path) : Stage → Action Origin
  | .waiting => c.install dest
  | .asking => do
    let sdk ← sdkVersion c.tools c.dotnet
    match ← arrange c.root (c.key sdk) dest with
    | some origin => return origin
    | none =>
      let result ← Action.call c.tools (buildCall c.dotnet c.root (c.key sdk))
      collect c.root (c.key sdk) dest result
  | .asked sdk => do
    match ← arrange c.root (c.key sdk) dest with
    | some origin => return origin
    | none =>
      let result ← Action.call c.tools (buildCall c.dotnet c.root (c.key sdk))
      collect c.root (c.key sdk) dest result
  | .arranged key => do
    let result ← Action.call c.tools (buildCall c.dotnet c.root key)
    collect c.root key dest result
  | .compiled key result => collect c.root key dest result
  | .ended origin => return origin
  | .failed f => throw f

theorem rest_eq (c : Installer) (dest : Path) (s : Stage) :
    c.rest dest s = c.next dest s >>= c.rest dest := by
  cases s with
  | waiting =>
      simp only [Installer.rest, Installer.next, Installer.install, install, bind_assoc]
      refine bind_congr fun origin? => ?_
      cases origin? with
      | some origin => simp [Installer.rest]
      | none =>
          simp only [pure_bind]
          rfl
  | asking => simp [Installer.rest, Installer.next]
  | asked sdk =>
      simp only [Installer.rest, Installer.next, bind_assoc]
      refine bind_congr fun origin? => ?_
      cases origin? with
      | some origin => simp [Installer.rest]
      | none => simp [Installer.rest]
  | arranged key => simp [Installer.rest, Installer.next]
  | compiled key result => simp [Installer.rest, Installer.next]
  | ended origin => simp [Installer.rest, Installer.next]
  | failed f => rfl

/-- A turn leaves the rest of an installation to be done. -/
theorem run_rest_advance (c : Installer) (dest : Path) (s : Stage) (b : Bench) :
    (c.rest dest (c.advance dest s b).1).run.run (c.advance dest s b).2 =
      (c.rest dest s).run.run b := by
  rw [rest_eq c dest s]
  rcases hnext : (c.next dest s).run.run b with ⟨f | s', b'⟩
  · rw [advance_of_error hnext, run_bind_error hnext]
    rfl
  · rw [advance_of_ok hnext, run_bind_ok hnext]

/-- The stage that an installation comes to with its result. -/
def Stage.ofResult : Except Failure Origin → Stage
  | .ok origin => .ended origin
  | .error f => .failed f

def Installer.turns (c : Installer) (dest : Path) : Nat → Stage → Bench → Stage × Bench
  | 0, s, b => (s, b)
  | k + 1, s, b => c.turns dest k (c.advance dest s b).1 (c.advance dest s b).2

theorem run_rest_turns (c : Installer) (dest : Path) (k : Nat) (s : Stage) (b : Bench) :
    (c.rest dest (c.turns dest k s b).1).run.run (c.turns dest k s b).2 =
      (c.rest dest s).run.run b := by
  induction k generalizing s b with
  | zero => rfl
  | succ k ih => rw [Installer.turns, ih, run_rest_advance]

theorem rank_turns (c : Installer) (dest : Path) (k : Nat) (s : Stage) (b : Bench) :
    min 5 (s.rank + k) ≤ (c.turns dest k s b).1.rank := by
  induction k generalizing s b with
  | zero => exact Nat.min_le_right _ _
  | succ k ih =>
      have hturn := rank_advance c dest s b
      have hrest := ih (c.advance dest s b).1 (c.advance dest s b).2
      rw [Installer.turns]
      omega

/-- Five turns in a row are an installation. -/
theorem turns_eq_install (c : Installer) (dest : Path) (b : Bench) :
    c.turns dest 5 .waiting b =
      (.ofResult ((c.install dest).run.run b).1, ((c.install dest).run.run b).2) := by
  have hrest := run_rest_turns c dest 5 .waiting b
  have hrank := rank_turns c dest 5 .waiting b
  generalize c.turns dest 5 .waiting b = r at *
  obtain ⟨s, b'⟩ := r
  rcases Stage.ended_or_failed hrank with ⟨origin, rfl⟩ | ⟨f, rfl⟩
  · rw [← show c.rest dest .waiting = c.install dest from rfl, ← hrest]
    rfl
  · rw [← show c.rest dest .waiting = c.install dest from rfl, ← hrest]
    rfl

end

end JitLens.Loader
