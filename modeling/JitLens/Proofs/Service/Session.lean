import JitLens.Proofs.Settings.Load
import JitLens.Proofs.Settings.Save
import JitLens.Service
import Mathlib.Data.List.Forall2
/-!
# Sessions with the service

A client that reads and changes settings through the service sees what it would see if the settings
were kept in memory: the file between two requests holds what the last accepted change left.
-/

namespace JitLens.Service

open Files JitLens.Action Settings

/-! ## Requests for settings -/

/-- What a client asks of the settings. -/
inductive Ask where
  | read
  | change (changes : Entries)

/-- Well-formed requests and what they ask for. -/
inductive Asks : Request → Ask → Prop
  | read {r : Request} (hmethod : r.method = "GET") (hpath : r.path = "/api/settings") :
      Asks r .read
  | change {r : Request} {v : Value} {changes : Entries} (hmethod : r.method = "PATCH")
      (hpath : r.path = "/api/settings") (hbody : bodyValue r = .ok v)
      (hchanges : changesBody v = .good changes) : Asks r (.change changes)

namespace Ask

/-- The settings in memory after what was asked; changes that are not accepted leave them alone. -/
def next (s : Settings) : Ask → Settings
  | read => s
  | change changes =>
    match s.applyAll (changesOf changes) with
    | .ok changed => changed
    | .error _ => s

/-- The answer from the settings in memory. -/
def response (c : Config) (path : Path) (s : Settings) : Ask → Response
  | read => settingsResponse s ((c.settingsPath.map Path.text).getD "")
  | change changes =>
    match s.applyAll (changesOf changes) with
    | .ok changed => settingsResponse changed path.text
    | .error e => .refused 400 e.message

/-- The answers to one request after the other. -/
def responses (c : Config) (path : Path) : Settings → List Ask → List Response
  | _, [] => []
  | s, a :: as => a.response c path s :: responses c path (a.next s) as

end Ask

/-! ## One request -/

/-- The settings that the file on a bench stands for, on a bench where they can be saved. -/
structure Stored (path : Path) (b : Bench) (s : Settings) : Prop where
  savable : Savable b path
  loads : loaded b.files b.here path = .ok s

/-- A service that no variable of the environment interferes with, and its settings file. -/
structure Undisturbed (c : Config) (path : Path) : Prop where
  vars : ∀ o ∈ overriddenBy, c.environment.filled? o.1 = none
  path : pathOr c.environment c.settingsPath = pure path

variable {c : Config} {path : Path} {b : Bench} {s : Settings}

theorem Stored.warned (hs : Stored path b s) (ws : List Warning) :
    Stored path (warned b ws) s :=
  ⟨⟨hs.savable.here, hs.savable.hereNames, hs.savable.name, hs.savable.folder⟩, hs.loads⟩

/-- What the service has when loading has ended; it answers a fault of the settings file. -/
def caught : Except Failure Settings → Except Failure (Except Response Settings)
  | .ok s => .ok (.ok s)
  | .error (.settings e) => .ok (.error (.refused 500 e.message))
  | .error f => .error f

theorem run_loadSettings_of_load {a : Except Failure Settings} {b' : Bench}
    (hload : (Settings.load c.environment c.settingsPath).run.run b = (a, b')) :
    (loadSettings c).run.run b = (caught a, b') := by
  cases a with
  | ok s =>
      apply run_tryCatch_ok
      rw [run_bind_ok hload]
      rfl
  | error f =>
      have hfailed : (do
          let s ← Settings.load c.environment c.settingsPath
          return .ok s : Action (Except Response Settings)).run.run b = (.error f, b') :=
        run_bind_error hload
      cases f with
      | settings e => exact run_tryCatch_error hfailed
      | step kind m => exact run_tryCatch_error hfailed
      | fault f => exact run_tryCatch_error hfailed

theorem run_loadSettings (hc : Undisturbed c path) (hs : Stored path b s) :
    ∃ ws, (loadSettings c).run.run b = (.ok (.ok s), Settings.warned b ws) := by
  obtain ⟨ws, hload⟩ := exists_run_loadFile path b
  rw [hs.loads] at hload
  have hsettings := run_load hc.path hload
  rw [withEnvironment_eq_self hc.vars] at hsettings
  exact ⟨ws, run_loadSettings_of_load hsettings⟩

theorem run_withSettings (hc : Undisturbed c path) (hs : Stored path b s)
    (answer : Settings → Action Response) :
    ∃ b', Stored path b' s ∧
      (withSettings c answer).run.run b = (answer s).run.run b' := by
  obtain ⟨ws, hload⟩ := run_loadSettings hc hs
  refine ⟨Settings.warned b ws, hs.warned ws, ?_⟩
  unfold withSettings
  rw [run_bind_ok hload]

theorem run_changeSettings (hc : Undisturbed c path) (hs : Stored path b s) (changes : Entries) :
    ∃ b', (changeSettings c changes s).run.run b =
        (.ok ((Ask.change changes).response c path s), b') ∧
      Stored path b' ((Ask.change changes).next s) := by
  cases happly : s.applyAll (changesOf changes) with
  | error e =>
      simp only [changeSettings, Ask.response, Ask.next, happly]
      exact ⟨b, rfl, hs⟩
  | ok changed =>
      simp only [changeSettings, Ask.response, Ask.next, happly]
      obtain ⟨b', hsave, hsavable⟩ := exists_run_save c.environment changed hs.savable
      rw [← save_of_pathOr hc.path] at hsave
      have hload := (run_loadFile_of_save hsave).2
      refine ⟨b', ?_, hsavable, loaded_of_run hload⟩
      rw [run_bind_ok hsave]
      rfl

/-- A request is answered as from the settings in memory, and then the file stands for what they
have become. -/
theorem run_answer (clock : Clock) {r : Request} {a : Ask} (hc : Undisturbed c path)
    (hs : Stored path b s) (hask : Asks r a) :
    ∃ b', (answer c clock r).run.run b = (.ok (a.response c path s), b') ∧
      Stored path b' (a.next s) := by
  cases hask with
  | read hmethod hpath =>
      have hroute : answer c clock r = answerRoute c clock r .readSettings := by
        unfold answer
        rw [hpath, hmethod]
        rfl
      obtain ⟨b', hs', hrun⟩ := run_withSettings hc hs fun s =>
        return settingsResponse s ((c.settingsPath.map Path.text).getD "")
      exact ⟨b', by rw [hroute]; exact hrun, hs'⟩
  | change hmethod hpath hbody hchanges =>
      have hroute : answer c clock r = answerRoute c clock r .changeSettings := by
        unfold answer
        rw [hpath, hmethod]
        rfl
      obtain ⟨b', hs', hrun⟩ := run_withSettings hc hs (changeSettings c _)
      obtain ⟨b'', hchange, hs''⟩ := run_changeSettings hc hs' _
      refine ⟨b'', ?_, hs''⟩
      rw [hroute, answerRoute, withBody, hbody]
      simp only [hchanges]
      rw [hrun, hchange]

/-! ## Many requests -/

theorem run_answers {clock : Clock} {rs : List Request} {asks : List Ask}
    (hc : Undisturbed c path) (hs : Stored path b s) (hasks : List.Forall₂ Asks rs asks) :
    ∃ b', (rs.mapM (answer c clock)).run.run b = (.ok (Ask.responses c path s asks), b') ∧
      Stored path b' (asks.foldl Ask.next s) := by
  -- What carries over from one request to the next is that the file stands for the settings.
  induction hasks generalizing b s with
  | nil => exact ⟨b, rfl, hs⟩
  | cons hask _ ih =>
      obtain ⟨b', hanswer, hs'⟩ := run_answer clock hc hs hask
      obtain ⟨b'', hrest, hs''⟩ := ih hs'
      refine ⟨b'', ?_, hs''⟩
      rw [List.mapM_cons, run_bind_ok hanswer, run_bind_ok hrest]
      rfl

/-- Every session with the service goes as if the settings were kept in memory. -/
theorem session_eq_memory {clock : Clock} {b₁ : Bench} {rs : List Request} {asks : List Ask}
    (hc : Undisturbed c path) (hsavable : Savable b path)
    (hload : (loadFile path).run.run b = (.ok s, b₁)) (hasks : List.Forall₂ Asks rs asks) :
    ∃ b', (rs.mapM (answer c clock)).run.run b = (.ok (Ask.responses c path s asks), b') ∧
      ∃ b₂, (loadFile path).run.run b' = (.ok (asks.foldl Ask.next s), b₂) := by
  obtain ⟨b', hrun, hs'⟩ := run_answers hc ⟨hsavable, loaded_of_run hload⟩ hasks
  obtain ⟨ws, hload'⟩ := exists_run_loadFile path b'
  rw [hs'.loads] at hload'
  exact ⟨b', hrun, _, hload'⟩

/-- A service with a settings file that is not there yet and tools that do nothing. -/
def freshService : Config where
  environment := { vars := [("JITSCOPE_ARCH", "")], defaultSettings := newFile }
  host := {}
  tools := fun _ _ t => { files := t, outcome := .ok {} }

/-- A change, one that is turned down, and a look at what is left. -/
def freshRequests : List Request := [
  { method := "PATCH"
    path := "/api/settings"
    body := some "\x7b\"changes\": \x7b\"fg_enable\": true, \"arch\": \"1e3\"\x7d\x7d" },
  { method := "PATCH"
    path := "/api/settings"
    body := some "\x7b\"changes\": \x7b\"use_pgo\": true, \"use_tiered_jit\": 1\x7d\x7d" },
  { method := "GET", path := "/api/settings" }]

theorem session_eq_memory_fresh :
    let s : Settings := { flowGraph := true, capture := .jitDump, arch := some "1e3" }
    let asks : List Ask := [
      .change [(.text "fg_enable", .bool true), (.text "arch", .text "1e3")],
      .change [(.text "use_pgo", .bool true), (.text "use_tiered_jit", .int 1)], .read]
    Undisturbed freshService newFile ∧ Savable emptyBench newFile ∧
      List.Forall₂ Asks freshRequests asks ∧
      ∃ b, (freshRequests.mapM (answer freshService ⟨.zero false, .zero false⟩)).run.run
          emptyBench =
        (.ok [settingsResponse s newFile.text,
          .refused 400 "Setting 'use_tiered_jit' expects true or false, got 1",
          settingsResponse s ""], b) := by
  intro s asks
  have hc : Undisturbed freshService newFile := ⟨by decide, rfl⟩
  have hload : (loadFile newFile).run.run emptyBench = (.ok {}, emptyBench) := rfl
  have hfirst : bodyValue freshRequests[0] = .ok (.map [(.text "changes",
      .map [(.text "fg_enable", .bool true), (.text "arch", .text "1e3")])]) := by cbv
  have hsecond : bodyValue freshRequests[1] = .ok (.map [(.text "changes",
      .map [(.text "use_pgo", .bool true), (.text "use_tiered_jit", .int 1)])]) := by cbv
  have hasks : List.Forall₂ Asks freshRequests asks :=
    .cons (.change rfl rfl hfirst rfl) (.cons (.change rfl rfl hsecond rfl)
      (.cons (.read rfl rfl) .nil))
  obtain ⟨b, hrun, -⟩ := session_eq_memory hc savable_newFile hload hasks
  exact ⟨hc, savable_newFile, hasks, b, hrun⟩

end JitLens.Service
