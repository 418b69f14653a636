import JitLens.Proofs.Run.Frame
import JitLens.Proofs.Service.Session
import JitLens.Proofs.Settings.Atomic
import JitLens.Proofs.Settings.Writes
/-!
# The settings file between requests

Of all requests only changes that are accepted reach the settings file.  A run works on settings of
its own, and changes of which one is turned down are turned down before anything is saved.
-/

namespace JitLens

open Files JitLens.Action

/-! ## Loading and saving -/

namespace Settings

variable {e : Environment} {s : Settings} {p : Option Path} {path : Path} {b b' : Bench}

theorem stays_pathOr {R : Bench → Bench → Prop} (hR : Quiet R) (e : Environment)
    (p : Option Path) : Stays R (pathOr e p) b := by
  rcases pathOr_cases e p with ⟨path, hpath⟩ | ⟨f, hfault⟩
  · rw [hpath]
    exact Stays.pure hR path
  · rw [hfault]
    exact Stays.throw hR _

/-- Loading leaves nothing but warnings. -/
theorem stays_load {R : Bench → Bench → Prop} (hR : Quiet R) (e : Environment)
    (p : Option Path) : Stays R (load e p) b := by
  apply Stays.bind hR (stays_pathOr hR e p)
  intro path b₁ _
  apply Stays.bind hR
  · obtain ⟨ws, hload⟩ := exists_run_loadFile path b₁
    unfold Stays
    rw [hload]
    exact hR.warnings b₁ _
  intro s b₂ _
  exact Stays.pure hR _

theorem stays_save {R : Bench → Bench → Prop} (hR : OffRecord R) (e : Environment)
    (s : Settings) (p : Option Path) : Stays R (save e s p) b := by
  apply Stays.bind hR.toQuiet (stays_pathOr hR.toQuiet e p)
  intro path b₁ _
  apply Stays.bind hR.toQuiet (Stays.makeDirs hR _)
  intro _ b₂ _
  apply Stays.get_bind
  apply Stays.bind hR.toQuiet (Stays.makeTemporary hR _ _ _ _)
  intro temporary b₃ _
  apply Stays.get_bind
  split
  · apply Stays.bind hR.toQuiet (Stays.setFiles hR _)
    intro _ b₄ _
    exact Stays.pure hR.toQuiet _
  · apply Stays.bind hR.toQuiet (Stays.setFiles hR _)
    intro _ b₄ _
    exact Stays.throw hR.toQuiet _

end Settings

namespace Service

/-! ## Routes -/

/-- What a request is for. -/
def route? (r : Request) : Option Route :=
  (routesAt r.path).lookup r.method

variable {c : Config} {clock : Clock} {r : Request} {b b' : Bench} {path : Path}

theorem answer_of_route {route : Route} (hroute : route? r = some route) :
    answer c clock r = answerRoute c clock r route := by
  unfold answer
  unfold route? at hroute
  cases hknown : routesAt r.path with
  | nil => simp [hknown] at hroute
  | cons known others =>
      rw [hknown] at hroute
      simp only [hroute]

theorem answer_of_no_route (c : Config) (clock : Clock) (hroute : route? r = none) :
    ∃ status detail, status ≠ 200 ∧ answer c clock r = pure (.refused status detail) := by
  unfold answer
  unfold route? at hroute
  cases hknown : routesAt r.path with
  | nil => exact ⟨404, "Not Found", by decide, rfl⟩
  | cons known others =>
      rw [hknown] at hroute
      exact ⟨405, "Method Not Allowed", by decide, by simp only [hroute]⟩

/-- Changes are what is asked for by this method, and nothing else is. -/
theorem method_eq_patch_iff {route : Route} (hroute : route? r = some route) :
    r.method = "PATCH" ↔ route = .changeSettings := by
  obtain ⟨before, after, hknown, -⟩ := List.lookup_eq_some_iff.1 hroute
  have hmem : (r.method, route) ∈ routesAt r.path := by
    rw [hknown]
    simp
  obtain ⟨⟨place, method, route'⟩, hentry, heq⟩ := List.mem_map.1 hmem
  have hroutes := List.mem_of_mem_filter hentry
  obtain ⟨rfl, rfl⟩ := Prod.mk.inj heq
  simp only [routes, List.mem_cons, Prod.mk.injEq, List.not_mem_nil, or_false] at hroutes
  rcases hroutes with ⟨-, hm, hr⟩ | ⟨-, hm, hr⟩ | ⟨-, hm, hr⟩ | ⟨-, hm, hr⟩ | ⟨-, hm, hr⟩ <;>
    rw [hm, hr] <;> decide

/-! ## Requests step by step -/

section

variable {R : Bench → Bench → Prop}

/-- The run that a request asks for on a bench. -/
inductive Orders (c : Config) (r : Request) (b : Bench) : Order → Prop where
  | run {v : Value} {body : RunBody} {s changed : Settings} {b' : Bench}
      (hroute : route? r = some .run) (hbody : bodyValue r = .ok v)
      (hcheck : runBody v = .good body)
      (hload : (loadSettings c).run.run b = (.ok (.ok s), b'))
      (happly : s.applyAll (changesOf body.overrides) = .ok changed) :
    Orders c r b (orderOf body changed)

end

/-! ## Changes -/

/-- A change that was accepted. -/
def Accepted (r : Request) (a : Except Failure Response) : Prop :=
  r.method = "PATCH" ∧ ∃ response, a = .ok response ∧ response.status = 200

theorem Accepted.route (haccepted : Accepted r ((answer c clock r).run.run b).1) :
    route? r = some .changeSettings := by
  obtain ⟨hmethod, response, hresponse, hstatus⟩ := haccepted
  cases hroute : route? r with
  | none =>
      obtain ⟨status, detail, hne, hanswer⟩ := answer_of_no_route c clock hroute
      rw [hanswer] at hresponse
      cases hresponse
      exact absurd hstatus hne
  | some route => rw [(method_eq_patch_iff hroute).1 hmethod]

/-- The bench after one request after the other, each with what the clock shows for its run. -/
def after (c : Config) (b : Bench) (visits : List (Clock × Request)) : Bench :=
  visits.foldl (fun b visit => ((answer c visit.1 visit.2).run.run b).2) b

/-- Relative paths and temporary files mean the same on both benches. -/
def SamePlaces (b b' : Bench) : Prop :=
  b'.here = b.here ∧ b'.temporary = b.temporary

theorem alongCalls_samePlaces (tools : Tools) : AlongCalls tools SamePlaces where
  refl _ := ⟨rfl, rfl⟩
  trans hab hbc := ⟨hbc.1.trans hab.1, hbc.2.trans hab.2⟩
  files _ _ := ⟨rfl, rfl⟩
  drawn _ _ := ⟨rfl, rfl⟩
  statuses _ _ := ⟨rfl, rfl⟩
  warnings _ _ := ⟨rfl, rfl⟩
  call _ _ _ := ⟨rfl, rfl⟩

end Service
end JitLens
