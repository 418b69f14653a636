import JitLens.Proofs.Service.SettingsFile
import JitLens.Proofs.Settings.Entries
import JitLens.Proofs.Yaml.BadValues
/-!
# Settings files that cannot be used

A settings file that is no valid mapping is reported as such, if its bytes are a text and every
scalar in the text has a value of its type.  Bytes that are no text, and scalars that are bad in
their values, end loading with a fault that is not one of the settings, and the service does not
answer then.
-/

namespace JitLens

open Files JitLens.Action

namespace Settings

/-! ## What a file holds -/

/-- The entries that the text of a settings file holds; a file may hold nothing. -/
inductive HoldsEntries (cs : List Char) : List (Value × Value) → Prop where
  | nothing (hread : Yaml.read (Text.unifyLineEnds cs) = .ok .null) : HoldsEntries cs []
  | mapping {entries : List (Value × Value)}
      (hread : Yaml.read (Text.unifyLineEnds cs) = .ok (.map entries)) : HoldsEntries cs entries

/-- Every field among the entries of the text takes its value. -/
def IsValid (cs : List Char) : Prop :=
  ∃ entries, HoldsEntries cs entries ∧ AllTaken entries

/-- No scalar that is read from the text is bad in its value. -/
def IsSound (cs : List Char) : Prop :=
  ∀ e, Yaml.read (Text.unifyLineEnds cs) ≠ .error (.badValue e)

/-- How loading a file with some content ends. -/
inductive Ending (content : Text.Bytes) : Except Failure Settings → Prop where
  | valid {cs : List Char} {entries : List (Value × Value)} {s : Settings}
      (hcontent : content = Text.encode cs) (hholds : HoldsEntries cs entries)
      (htaken : AllTaken entries) (hset : (ofEntries entries).2 = .ok s) : Ending content (.ok s)
  | invalid {cs : List Char} {fault : SettingsFault} (hcontent : content = Text.encode cs)
      (hsound : IsSound cs) (hinvalid : ¬ IsValid cs) : Ending content (.error (.settings fault))
  | notText {e : Text.DecodeError} (hcontent : ∀ cs, content ≠ Text.encode cs) :
    Ending content (.error (.fault (.notText e)))
  | badValue {cs : List Char} {e : Yaml.BadValue} (hcontent : content = Text.encode cs)
      (hread : Yaml.read (Text.unifyLineEnds cs) = .error (.badValue e))
      (hbad : Yaml.BadIn (Text.unifyLineEnds cs) e) :
    Ending content (.error (.fault (.badValue e)))

section

variable {path : Path} {content : Text.Bytes} {cs : List Char} {entries : List (Value × Value)}

theorem HoldsEntries.unique {es es' : List (Value × Value)} (h : HoldsEntries cs es)
    (h' : HoldsEntries cs es') : es = es' := by
  cases h with
  | nothing hread =>
      cases h' with
      | nothing => rfl
      | mapping hread' =>
          rw [hread] at hread'
          cases hread'
  | mapping hread =>
      cases h' with
      | nothing hread' =>
          rw [hread] at hread'
          cases hread'
      | mapping hread' =>
          rw [hread] at hread'
          cases hread'
          rfl

theorem HoldsEntries.isSound (h : HoldsEntries cs entries) : IsSound cs := by
  intro e he
  cases h with
  | nothing hread => rw [hread] at he; cases he
  | mapping hread => rw [hread] at he; cases he

theorem ending_of_entries {fault : ChangeError → SettingsFault}
    (hcontent : content = Text.encode cs) (hholds : HoldsEntries cs entries) :
    Ending content ((ofEntries entries).2.mapError fun e => .settings (fault e)) := by
  cases hset : (ofEntries entries).2 with
  | ok s => exact .valid hcontent hholds (allTaken_of_setEntries hset) hset
  | error e =>
      refine .invalid hcontent hholds.isSound ?_
      rintro ⟨es, hes, htaken⟩
      rw [hes.unique hholds] at htaken
      obtain ⟨t, ht⟩ := exists_setEntries_of_allTaken htaken {}
      rw [ofEntries, ht] at hset
      cases hset

/-- A text that is read as neither nothing nor a mapping is no valid one. -/
theorem not_isValid (hnull : Yaml.read (Text.unifyLineEnds cs) ≠ .ok .null)
    (hmap : ∀ entries, Yaml.read (Text.unifyLineEnds cs) ≠ .ok (.map entries)) :
    ¬ IsValid cs := by
  rintro ⟨entries, hholds, -⟩
  cases hholds with
  | nothing hread => exact hnull hread
  | mapping hread => exact hmap entries hread

theorem ending_contained (path : Path) (content : Text.Bytes) :
    Ending content (contained path content) := by
  unfold contained readEntries
  cases hdecode : Text.decode content with
  | error e =>
      refine .notText fun cs hcs => ?_
      rw [hcs, Text.decode_encode] at hdecode
      cases hdecode
  | ok cs =>
      have hcontent : content = Text.encode cs := (Text.encode_of_decode hdecode).symm
      dsimp only
      cases hread : Yaml.read (Text.unifyLineEnds cs) with
      | error err =>
          cases err with
          | malformed fault =>
              exact .invalid hcontent (by simp [IsSound, hread])
                (not_isValid (by simp [hread]) (by simp [hread]))
          | badValue e => exact .badValue hcontent hread (Yaml.findsOnly_read _ e hread)
      | ok v =>
          have hsound : IsSound cs := by simp [IsSound, hread]
          cases v with
          | null => exact ending_of_entries hcontent (.nothing hread)
          | map entries => exact ending_of_entries hcontent (.mapping hread)
          | _ => exact .invalid hcontent hsound (not_isValid (by simp [hread]) (by simp [hread]))

/-- Loading ends with settings or with a fault of the settings file. -/
inductive IsReported : Except Failure Settings → Prop where
  | settings (s : Settings) : IsReported (.ok s)
  | fault (fault : SettingsFault) : IsReported (.error (.settings fault))

theorem Ending.isReported_iff {a : Except Failure Settings} (h : Ending content a) :
    IsReported a ↔ ∃ cs, content = Text.encode cs ∧ IsSound cs := by
  cases h with
  | valid hcontent hholds => exact ⟨fun _ => ⟨_, hcontent, hholds.isSound⟩, fun _ => .settings _⟩
  | invalid hcontent hsound => exact ⟨fun _ => ⟨_, hcontent, hsound⟩, fun _ => .fault _⟩
  | notText hcontent =>
      constructor
      · rintro ⟨⟩
      · rintro ⟨cs, hcs, -⟩
        exact absurd hcs (hcontent cs)
  | badValue hcontent hread =>
      constructor
      · rintro ⟨⟩
      · rintro ⟨cs, hcs, hsound⟩
        rw [hcontent] at hcs
        rw [← Text.encode_injective hcs] at hsound
        exact absurd hread (hsound _)

end
end Settings

namespace Service

open Settings

variable {c : Config} {clock : Clock} {r : Request} {b b' : Bench} {path : Path}
  {content : Text.Bytes} {a : Except Failure Settings}

/-- The answer with the settings in a file, or that they cannot be loaded; the service does not
answer another failure. -/
def settingsAnswer (c : Config) : Except Failure Settings → Except Failure Response
  | .ok s => .ok (settingsResponse (s.withEnvironment c.environment)
      ((c.settingsPath.map Path.text).getD ""))
  | .error (.settings fault) => .ok (.refused 500 fault.message)
  | .error f => .error f

/-- What comes of a settings file with some content, which is loaded with some end. -/
structure FileEnding (c : Config) (content : Text.Bytes) (b : Bench)
    (a : Except Failure Settings) : Prop where
  ending : Ending content a
  /-- The end is as documented just for a text whose scalars have values. -/
  reported_iff : IsReported a ↔ ∃ cs, content = Text.encode cs ∧ IsSound cs
  load : ∃ ws, (Settings.load c.environment c.settingsPath).run.run b =
    (a.map fun s => s.withEnvironment c.environment, warned b ws)
  answer : ∀ clock r, route? r = some .readSettings →
    ∃ ws, (answer c clock r).run.run b = (settingsAnswer c a, warned b ws)
  answered_iff : (∃ response, settingsAnswer c a = .ok response) ↔ IsReported a

theorem run_readSettings (hroute : route? r = some .readSettings)
    (hload : (Settings.load c.environment c.settingsPath).run.run b =
      (a.map fun s => s.withEnvironment c.environment, b')) :
    (answer c clock r).run.run b = (settingsAnswer c a, b') := by
  have hcaught := run_loadSettings_of_load hload
  rw [answer_of_route hroute, answerRoute, withSettings]
  cases a with
  | ok s =>
      rw [run_bind_ok hcaught]
      rfl
  | error f =>
      cases f with
      | settings fault =>
          rw [run_bind_ok hcaught]
          rfl
      | step kind m => exact run_bind_error hcaught
      | fault f => exact run_bind_error hcaught

theorem settingsAnswer_ok_iff : (∃ response, settingsAnswer c a = .ok response) ↔ IsReported a := by
  constructor
  · rintro ⟨response, hanswer⟩
    cases a with
    | ok s => exact .settings s
    | error f =>
        cases f with
        | settings fault => exact .fault fault
        | step kind m => cases hanswer
        | fault f => cases hanswer
  · rintro (s | fault)
    · exact ⟨_, rfl⟩
    · exact ⟨_, rfl⟩

/-- A settings file that can be read is loaded, or reported with the reason why it cannot be; only
bytes that are no text and scalars without a value of their type end loading otherwise, and then
the service does not answer. -/
theorem exists_fileEnding (hpath : pathOr c.environment c.settingsPath = pure path)
    (hread : b.files.read b.here path = .ok content) : ∃ a, FileEnding c content b a := by
  have hending := ending_contained path content
  obtain ⟨ws, hfile⟩ := exists_run_loadFile path b
  have hloaded : loaded b.files b.here path = contained path content := by
    rw [loaded, if_pos (Tree.holds_of_read hread), hread]
  rw [hloaded] at hfile
  have hload := run_load_map hpath hfile
  exact ⟨_, hending, hending.isReported_iff, ⟨ws, hload⟩,
    fun clock r hroute => ⟨ws, run_readSettings hroute hload⟩, settingsAnswer_ok_iff⟩

/-- A date in the thirteenth month. -/
def lateDate : List Char :=
  "arch: 2024-13-01\n".toList

def datedFile : Path :=
  ⟨.relative, ["settings.yaml"]⟩

def datedService : Config where
  environment := { defaultSettings := datedFile }
  host := {}
  tools := fun _ _ t => { files := t, outcome := .ok {} }
  settingsPath := some datedFile

def datedBench : Bench where
  files := ⟨[("settings.yaml", .file (Text.encode lateDate) false)]⟩
  here := []
  temporary := ⟨.root, ["tmp"]⟩

/-- The service does not answer what its settings are. -/
theorem exists_fileEnding_date :
    ∃ a, FileEnding datedService (Text.encode lateDate) datedBench a ∧ ¬ IsReported a ∧
      ∀ clock, ∃ f ws, (answer datedService clock ⟨"GET", "/api/settings", none⟩).run.run datedBench =
        (.error f, warned datedBench ws) := by
  have hpath : pathOr datedService.environment datedService.settingsPath = pure datedFile := rfl
  have hread : datedBench.files.read datedBench.here datedFile = .ok (Text.encode lateDate) := rfl
  obtain ⟨a, hfile⟩ := exists_fileEnding hpath hread
  have hbad : (match Yaml.read (Text.unifyLineEnds lateDate) with
      | .error (.badValue _) => true
      | _ => false) = true := by
    decide +kernel
  have hunreported : ¬ IsReported a := by
    rw [hfile.reported_iff]
    rintro ⟨cs, hcs, hsound⟩
    rw [← Text.encode_injective hcs] at hsound
    split at hbad
    · next e hread => exact hsound e hread
    · cases hbad
  refine ⟨a, hfile, hunreported, fun clock => ?_⟩
  obtain ⟨ws, hanswer⟩ := hfile.answer clock ⟨"GET", "/api/settings", none⟩ (by decide)
  cases hresponse : settingsAnswer datedService a with
  | ok response => exact absurd (hfile.answered_iff.1 ⟨response, hresponse⟩) hunreported
  | error f => exact ⟨f, ws, by rw [hanswer, hresponse]⟩

end Service
end JitLens
