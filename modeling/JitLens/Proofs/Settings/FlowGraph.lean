import JitLens.Proofs.Settings.Load
import JitLens.Proofs.Settings.Save
import JitLens.Run.Rules
/-!
# Flow graphs come from dumps

Settings whose flow graphs are on have a dump as their capture mode, and stay so under every way in
which settings change: by changes of a user, by the environment, and through a file.
-/

namespace JitLens

namespace Settings

open Files

/-- Flow graphs are on only for a dump. -/
def GraphHasDump (s : Settings) : Prop :=
  s.flowGraph = true → s.capture = .jitDump

/-- Fields of which neither is a capture mode nor the switch of flow graphs. -/
def isApart (f : Field) : Bool :=
  f != .capture && f != .flag .flowGraph

/-! ## Changes -/

theorem GraphHasDump.congr {s t : Settings} (hs : s.GraphHasDump)
    (hgraph : t.flowGraph = s.flowGraph) (hcapture : t.capture = s.capture) : t.GraphHasDump := by
  intro ht
  rw [hgraph] at ht
  rw [hcapture]
  exact hs ht

theorem GraphHasDump.update {s : Settings} (hs : s.GraphHasDump) {c : Change}
    (hapart : isApart c.field = true) : (s.update c).GraphHasDump := by
  cases c with
  | capture mode => exact absurd hapart (by simp [isApart, Change.field])
  | reload strategy => exact hs
  | flag f b =>
      cases f with
      | flowGraph => exact absurd hapart (by simp [isApart, Change.field])
      | _ => exact hs
  | text f t => cases f <;> exact hs
  | optional f t => cases f <;> exact hs

/-- The capture mode is set with the flow graphs in mind, whatever they were before. -/
theorem graphHasDump_withCapture (s : Settings) (mode : CaptureMode) :
    (s.withCapture mode).GraphHasDump := by
  unfold withCapture
  split
  · intro hgraph
    exact absurd hgraph (by simp)
  · next hmode =>
    intro hgraph
    have hdump : ¬ (mode ≠ .jitDump) := fun hne => hmode ⟨hne, hgraph⟩
    exact Decidable.not_not.1 hdump

theorem GraphHasDump.apply {s : Settings} (hs : s.GraphHasDump) (c : Change) :
    (s.apply c).GraphHasDump := by
  -- A change either sets the capture mode through `withCapture` or leaves both fields alone,
  -- except for the one that switches flow graphs off.
  cases c with
  | capture mode => exact graphHasDump_withCapture s mode
  | reload strategy => exact hs.update (c := .reload strategy) rfl
  | flag f b =>
      cases f with
      | flowGraph =>
          cases b with
          | true => exact graphHasDump_withCapture _ _
          | false => exact fun hgraph => absurd hgraph (by simp [Settings.apply, Settings.update])
      | pgo =>
          cases b with
          | true => exact hs.congr rfl rfl
          | false => exact hs.congr rfl rfl
      | customRuntime =>
          cases b with
          | true => exact hs.congr rfl rfl
          | false => exact (graphHasDump_withCapture _ .disasm).congr rfl rfl
      | _ => exact hs.congr rfl rfl
  | text f t => cases f <;> exact hs.congr rfl rfl
  | optional f t =>
      cases f with
      | selectedJit =>
          cases t with
          | none => exact hs.congr rfl rfl
          | some name =>
              unfold Settings.apply
              dsimp only
              split
              · exact (graphHasDump_withCapture _ .disasm).congr rfl rfl
              · exact hs.congr rfl rfl
      | _ => exact hs.congr rfl rfl

theorem GraphHasDump.applyAll {s t : Settings} (hs : s.GraphHasDump)
    {changes : List (String × Value)} (happly : s.applyAll changes = .ok t) : t.GraphHasDump := by
  induction changes generalizing s with
  | nil =>
      rw [Settings.applyAll, Except.ok.injEq] at happly
      rwa [← happly]
  | cons entry changes ih =>
      obtain ⟨name, value⟩ := entry
      rw [Settings.applyAll] at happly
      cases hcheck : Change.check name value with
      | error e => simp [hcheck] at happly
      | ok c =>
          simp only [hcheck] at happly
          exact ih (hs.apply c) happly

/-! ## Variables of the environment -/

theorem isApart_of_mem_overriddenBy {name : String} {change : String → Change}
    (hmem : (name, change) ∈ overriddenBy) (v : String) : isApart (change v).field = true := by
  simp only [overriddenBy, List.mem_cons, Prod.mk.injEq, List.not_mem_nil, or_false] at hmem
  rcases hmem with ⟨-, rfl⟩ | ⟨-, rfl⟩ | ⟨-, rfl⟩ | ⟨-, rfl⟩ <;> rfl

theorem GraphHasDump.withEnvironment {s : Settings} (hs : s.GraphHasDump) (e : Environment) :
    (s.withEnvironment e).GraphHasDump :=
  withEnvironment_induction (fun _ ho v _ _ ht => ht.update (isApart_of_mem_overriddenBy ho v)) hs

/-! ## Sessions -/

/-- The ways in which settings become others: by accepted changes, by variables of the environment,
and by a file that they are saved to and loaded from, with the variables of the environment put
over them or not. -/
inductive Step : Settings → Settings → Prop
  | change {s t : Settings} {changes : List (String × Value)}
      (happly : s.applyAll changes = .ok t) : Step s t
  | environment (s : Settings) (e : Environment) : Step s (s.withEnvironment e)
  | file {s t : Settings} {e : Environment} {p : Option Path} {q : Path} {b b' b'' : Bench}
      (hsave : (s.save e p).run.run b = (.ok q, b'))
      (hload : (loadFile q).run.run b' = (.ok t, b'')) : Step s t
  | fileWithEnvironment {s t : Settings} {e e' : Environment} {p p' : Option Path} {q : Path}
      {b b' b'' : Bench} (hsave : (s.save e p).run.run b = (.ok q, b'))
      (hpath : pathOr e' p' = pure q) (hload : (load e' p').run.run b' = (.ok t, b'')) : Step s t

/-- Settings that others lead to, step by step. -/
inductive Reachable (start : Settings) : Settings → Prop
  | start : Reachable start start
  | step {s t : Settings} (hs : Reachable start s) (hstep : Step s t) : Reachable start t

/-- What is saved and loaded is what it was. -/
theorem eq_of_save_load {s t : Settings} {e : Environment} {p : Option Path} {q : Path}
    {b b' b'' : Bench} (hsave : (s.save e p).run.run b = (.ok q, b'))
    (hload : (loadFile q).run.run b' = (.ok t, b'')) : t = s := by
  rw [(run_loadFile_of_save hsave).2, Prod.mk.injEq, Except.ok.injEq] at hload
  exact hload.1.symm

theorem GraphHasDump.step {s t : Settings} (hs : s.GraphHasDump) (hstep : Step s t) :
    t.GraphHasDump := by
  cases hstep with
  | change happly => exact hs.applyAll happly
  | environment e => exact hs.withEnvironment e
  | file hsave hload =>
      rw [eq_of_save_load hsave hload]
      exact hs
  | fileWithEnvironment hsave hpath hload =>
      rw [run_load hpath (run_loadFile_of_save hsave).2, Prod.mk.injEq, Except.ok.injEq] at hload
      rw [← hload.1]
      exact hs.withEnvironment _

theorem GraphHasDump.reachable {s t : Settings} (hs : s.GraphHasDump) (ht : Reachable s t) :
    t.GraphHasDump := by
  induction ht with
  | start => exact hs
  | step _ hstep ih => exact ih.step hstep

theorem graphHasDump_default : ({} : Settings).GraphHasDump := by
  intro hgraph
  exact absurd hgraph (by decide)

/-! ## The rule -/

/-- The rule that is reported is broken. -/
theorem exists_isBroken {s : Settings} {t : Tree} {here : Location} {framework : String}
    {r : RunRule} (hrule : s.brokenRule? t here framework = .ok (some r)) :
    ∃ supported, r.isBroken s supported (s.hasGraphProgram t here) = true := by
  unfold brokenRule? at hrule
  cases hsupported : Framework.isSupported framework with
  | error e => simp [hsupported, Except.map] at hrule
  | ok supported =>
      simp only [hsupported, Except.map, Except.ok.injEq] at hrule
      exact ⟨supported, List.find?_some hrule⟩

theorem GraphHasDump.brokenRule {s : Settings} (hs : s.GraphHasDump) {t : Tree} {here : Location}
    {framework : String} {r : RunRule} (hrule : s.brokenRule? t here framework = .ok (some r)) :
    r ≠ .graphFromDump := by
  rintro rfl
  obtain ⟨supported, hbroken⟩ := exists_isBroken hrule
  simp only [RunRule.isBroken, Bool.and_eq_true, bne_iff_ne] at hbroken
  exact hbroken.2 (hs hbroken.1)

/-- Each rule has a message of its own. -/
theorem eq_of_message {r q : RunRule} (hmessage : r.message = q.message) : r = q := by
  cases r <;> cases q <;> first | rfl | exact absurd hmessage (by decide)

theorem message_graphFromDump {r : RunRule} (hmessage : r.message = RunRule.graphFromDump.message) :
    r = .graphFromDump :=
  eq_of_message hmessage

/-- Settings stay such that flow graphs are on only for a dump, and the user is never told to
choose between the two. -/
theorem graphHasDump_of_reachable {s t : Settings} (hs : s.GraphHasDump) (ht : Reachable s t) :
    t.GraphHasDump ∧
      ∀ (files : Tree) (here : Location) (framework : String) (r : RunRule),
        t.brokenRule? files here framework = .ok (some r) →
        r.message ≠ "Either disable flowgraphs in the 'Flowgraph' tab or enable JitDump." := by
  have hgraph := hs.reachable ht
  refine ⟨hgraph, ?_⟩
  intro files here framework r hrule hmessage
  exact hgraph.brokenRule hrule (message_graphFromDump hmessage)

/-- Flow graphs are switched on, the architecture comes from the environment, the settings go
through a file, and then the dump is left. -/
theorem graphHasDump_of_leaving_dump :
    let s : Settings := { arch := some "arm64" }
    ({} : Settings).GraphHasDump ∧ Reachable {} s ∧ s.GraphHasDump := by
  intro s
  let dumped : Settings := { flowGraph := true, capture := .jitDump }
  let named : Settings := { dumped with arch := some "arm64" }
  let e : Environment := { vars := [("JITSCOPE_ARCH", "arm64")], defaultSettings := newFile }
  have hswitch : ({} : Settings).applyAll [("fg_enable", .bool true)] = .ok dumped := by rfl
  have hleave : named.applyAll [("capture_mode", .text "disasm")] = .ok s := by rfl
  obtain ⟨b, hsave, -⟩ := exists_run_save e named savable_newFile
  have hnamed : Reachable {} named :=
    .step (.step .start (.change hswitch)) (.environment dumped e)
  have hloaded : Reachable {} named :=
    .step hnamed (.file hsave (run_loadFile_of_save hsave).2)
  have hs : Reachable {} s := .step hloaded (.change hleave)
  exact ⟨graphHasDump_default, hs, (graphHasDump_of_reachable graphHasDump_default hs).1⟩

end Settings
end JitLens
