import JitLens.Proofs.FrontEnds
import JitLens.Proofs.Service.SettingsFile
/-!
# What saving keeps

Both front ends put the variables of the environment over what the file says, change the settings
that come out, and save all of them.  So the file keeps the values of variables, too, except in
fields that the changes write.
-/

namespace JitLens

open Files JitLens.Action

/-! ## Variables as writes -/

namespace Settings

/-- What the variables of an environment write. -/
def overrides (e : Environment) : List Change :=
  overriddenBy.filterMap fun o => (e.filled? o.1).map o.2

theorem withEnvironment_eq (s : Settings) (e : Environment) :
    s.withEnvironment e = (overrides e).foldl update s := by
  unfold withEnvironment overrides
  generalize overriddenBy = table
  induction table generalizing s with
  | nil => rfl
  | cons o table ih =>
      rw [List.foldl_cons, ih, List.filterMap_cons]
      cases hvalue : e.filled? o.1 <;> simp [hvalue]

/-- Every variable has a field of its own. -/
theorem nodup_overrides (e : Environment) : ((overrides e).map Change.field).Nodup := by
  have hfields : (overriddenBy.map fun o => (o.2 "").field).Nodup := by decide
  have hsublist : ((overrides e).map Change.field).Sublist
      (overriddenBy.map fun o => (o.2 "").field) := by
    have hfield : ∀ o ∈ overriddenBy, ∀ v, (o.2 v).field = (o.2 "").field := by
      simp [overriddenBy, Change.field]
    unfold overrides
    generalize overriddenBy = table at hfield ⊢
    induction table with
    | nil => exact List.Sublist.refl []
    | cons o table ih =>
        rw [List.forall_mem_cons] at hfield
        rw [List.filterMap_cons, List.map_cons]
        cases hvalue : e.filled? o.1 with
        | none => exact (ih hfield.2).cons _
        | some v =>
            rw [Option.map_some, List.map_cons, hfield.1 v]
            exact (ih hfield.2).cons_cons _
  exact hsublist.nodup hfields

theorem lookup_withEnvironment {s : Settings} {e : Environment} {w : Change}
    (hw : w ∈ overrides e) : (s.withEnvironment e).lookup w.field = w := by
  rw [withEnvironment_eq, lookup_foldl_update, lastWrite?_of_mem (nodup_overrides e) hw]
  rfl

theorem lookup_withEnvironment_of_ne {s : Settings} {e : Environment} {f : Field}
    (hf : ∀ w ∈ overrides e, w.field ≠ f) : (s.withEnvironment e).lookup f = s.lookup f := by
  rw [withEnvironment_eq, lookup_foldl_update, lastWrite?_eq_none_iff.2 hf]
  rfl

/-- What is kept of settings, of which the changes alone would make others, when they are changed
with the variables of an environment over them. -/
structure Keeps (e : Environment) (changes : List (String × Value)) (s t kept : Settings) :
    Prop where
  changed : (s.withEnvironment e).applyAll changes = .ok kept
  /-- Fields that are written have what is written. -/
  written : ∀ f, Writes changes f → kept.lookup f = t.lookup f
  /-- Fields without a variable are as if there were no environment. -/
  untouched : ∀ f, (∀ w ∈ overrides e, w.field ≠ f) → kept.lookup f = t.lookup f
  /-- The value of a variable is kept unless its field is written. -/
  leaked : ∀ w ∈ overrides e, ¬ Writes changes w.field → kept.lookup w.field = w
  /-- Nothing else than the changes is kept if and only if no variable says anything new. -/
  eq_iff : kept = t ↔ ∀ w ∈ overrides e, Writes changes w.field ∨ s.lookup w.field = w

/-- Changes that settings take are taken with any variables over them. -/
theorem exists_keeps {s t : Settings} {changes : List (String × Value)} (e : Environment)
    (happly : s.applyAll changes = .ok t) : ∃ kept, Keeps e changes s t kept := by
  obtain ⟨kept, hkept⟩ : ∃ kept, (s.withEnvironment e).applyAll changes = .ok kept := by
    cases hchanged : (s.withEnvironment e).applyAll changes with
    | ok kept => exact ⟨kept, rfl⟩
    | error err =>
        have hrefused := applyAll_refused s hchanged
        rw [happly] at hrefused
        cases hrefused
  have hwritten : ∀ f, Writes changes f → kept.lookup f = t.lookup f :=
    fun f hf => lookup_applyAll_of_writes hf hkept happly
  have huntouched : ∀ f, (∀ w ∈ overrides e, w.field ≠ f) → kept.lookup f = t.lookup f := by
    intro f hf
    by_cases hwrites : Writes changes f
    · exact hwritten f hwrites
    · calc kept.lookup f
          = (s.withEnvironment e).lookup f := lookup_applyAll_of_not_writes hwrites hkept
        _ = s.lookup f := lookup_withEnvironment_of_ne hf
        _ = t.lookup f := (lookup_applyAll_of_not_writes hwrites happly).symm
  have hleaked : ∀ w ∈ overrides e, ¬ Writes changes w.field → kept.lookup w.field = w := by
    intro w hw hwrites
    rw [lookup_applyAll_of_not_writes hwrites hkept, lookup_withEnvironment hw]
  refine ⟨kept, hkept, hwritten, huntouched, hleaked, ?_, ?_⟩
  · rintro rfl w hw
    by_cases hwrites : Writes changes w.field
    · exact .inl hwrites
    · right
      rw [← lookup_applyAll_of_not_writes hwrites happly]
      exact hleaked w hw hwrites
  · intro hsame
    apply eq_of_lookup
    intro f
    by_cases hf : ∃ w ∈ overrides e, w.field = f
    · obtain ⟨w, hw, rfl⟩ := hf
      by_cases hwrites : Writes changes w.field
      · exact hwritten _ hwrites
      · rw [hleaked w hw hwrites, lookup_applyAll_of_not_writes hwrites happly]
        exact ((hsame w hw).resolve_left hwrites).symm
    · exact huntouched f fun w hw hfield => hf ⟨w, hw, hfield⟩

/-- A bench whose settings file stands for some settings. -/
structure KeptAt (path : Path) (kept : Settings) (b : Bench) : Prop where
  bytes : b.files.bytesAt (path.spelled b.here) = some (Text.encode kept.document)
  loads : b.files.holds b.here path = true → ∃ b', (loadFile path).run.run b = (.ok kept, b')
  /-- Only a path that goes back up can lose its way. -/
  holds : (∀ n ∈ path.parts, n ≠ "..") → b.files.holds b.here path = true

variable {e : Environment} {s t kept : Settings} {p : Option Path} {path : Path} {b b' : Bench}

/-- The file stands for what was saved as long as its bytes stay. -/
theorem keptAt_of_sameAt (hread : b.files.read b.here path = .ok (Text.encode kept.document))
    (hsame : SameAt b.here b.temporary (path.spelled b.here) b b') : KeptAt path kept b' := by
  obtain ⟨hhere, -, hstays⟩ := hsame ⟨rfl, rfl⟩
  have hbytes : b'.files.bytesAt (path.spelled b'.here) = some (Text.encode kept.document) := by
    rw [hhere, hstays, Tree.bytesAt_of_read hread]
  obtain ⟨l, hlocate, -⟩ := Tree.exists_of_holds (Tree.holds_of_read hread)
  have hnull := (Tree.locate_eq_ok hlocate).1
  constructor
  · exact hbytes
  · exact fun hholds => ⟨b', run_loadFile (Tree.read_of_holds hholds hbytes)⟩
  · exact fun hdots => Tree.holds_of_read (Tree.read_of_bytesAt hdots hnull hbytes)

end Settings

theorem Settings.Savable.warned {path : Path} {b : Bench} (hsavable : Settings.Savable b path)
    (ws : List Warning) : Settings.Savable (Settings.warned b ws) path :=
  ⟨hsavable.here, hsavable.hereNames, hsavable.name, hsavable.folder⟩

/-! ## Changes through the service -/

namespace Service

variable {c : Config} {clock : Clock} {r : Request} {path : Path} {b b₁ b' : Bench}
  {s kept : Settings} {v : Value} {entries : Entries}

/-- A change that is taken comes down to a save. -/
theorem run_answer_change (hpath : Settings.pathOr c.environment c.settingsPath = pure path)
    (hload : (Settings.loadFile path).run.run b = (.ok s, b₁))
    (hkept : (s.withEnvironment c.environment).applyAll (changesOf entries) = .ok kept)
    (hroute : route? r = some .changeSettings) (hbody : bodyValue r = .ok v)
    (hcheck : changesBody v = .good entries) :
    (answer c clock r).run.run b = (do
      let q ← kept.save c.environment (some path)
      return settingsResponse kept q.text : Action Response).run.run b₁ := by
  have hsettings : (loadSettings c).run.run b =
      (.ok (.ok (s.withEnvironment c.environment)), b₁) := by
    apply run_tryCatch_ok
    rw [run_bind_ok (Settings.run_load hpath hload)]
    rfl
  rw [answer_of_route hroute, answerRoute, withBody, hbody]
  dsimp only
  rw [hcheck]
  dsimp only
  unfold withSettings
  rw [run_bind_ok hsettings]
  dsimp only
  unfold changeSettings
  rw [hkept]
  dsimp only
  rw [Settings.save_of_pathOr hpath]

end Service

/-! ## Changes on the command line -/

namespace CommandLine

variable {tools : Tools} {host : Host} {e : Environment} {clock : Clock} {argv : List String}
  {a : Arguments} {path : Path} {b b₁ b' : Bench} {s kept : Settings}

/-- The run that arguments ask for. -/
inductive Orders (a : Arguments) (s : Settings) : Order → Prop where
  | run {project symbol : String} {parsed : Symbol} (hlist : a.listJits = false)
      (hproject : filled? a.project = some project) (hsymbol : filled? a.symbol = some symbol)
      (hparse : Symbol.parse symbol a.localFunction = .ok parsed) :
    Orders a s (order a s project parsed)

/-- What is asked for beside the settings ends with a transcript, and touches the bench with a run
only. -/
theorem exists_run_perform (tools : Tools) (host : Host) (clock : Clock) (a : Arguments)
    (s : Settings) (b : Bench) : ∃ t b', (perform tools host clock a s).run.run b = (.ok t, b') ∧
      (b' = b ∨ ∃ o, Orders a s o ∧ b' = ((o.run tools host none clock).run b).2) := by
  unfold perform
  split
  · unfold listJits
    rw [run_bind_ok (run_get b)]
    split
    · exact ⟨_, b, rfl, .inl rfl⟩
    · exact ⟨_, b, rfl, .inl rfl⟩
  · next hlist =>
    split
    · next project symbol hproject hsymbol =>
      unfold runSymbol
      cases hparse : Symbol.parse symbol a.localFunction with
      | error e => exact ⟨_, b, rfl, .inl rfl⟩
      | ok parsed =>
          rcases hrun : ((order a s project parsed).run tools host none clock).run b with
            ⟨outcome, last⟩
          refine ⟨_, last, run_runOrder hrun a, .inr ⟨_, .run ?_ hproject hsymbol hparse, ?_⟩⟩
          · simpa using hlist
          · rw [hrun]
    · exact ⟨_, b, rfl, .inl rfl⟩

/-- A command that saves does so before anything is run. -/
theorem run_saving (hread : Arguments.read argv = .ok a) (hsave : a.save = true)
    (hpath : Settings.pathOr e (a.settings.map Path.ofString) = pure path)
    (hsettings : (settings e a).run.run b = (.ok (.ok kept), b₁))
    (tools : Tools) (host : Host) (clock : Clock) :
    (∃ f b₂, (kept.save e (some path)).run.run b₁ = (.error f, b₂) ∧
      (run tools host e clock argv).run.run b = (.error f, b₂)) ∨
    ∃ b₂ t b', (kept.save e (some path)).run.run b₁ = (.ok path, b₂) ∧
      (run tools host e clock argv).run.run b = (.ok t, b') ∧
      (b' = b₂ ∨ ∃ o, Orders a kept o ∧ b' = ((o.run tools host none clock).run b₂).2) := by
  unfold run
  rw [hread]
  dsimp only
  unfold runArguments
  rw [run_bind_ok hsettings]
  dsimp only
  rcases hwritten : (kept.save e (some path)).run.run b₁ with ⟨f | q, b₂⟩
  · left
    have hsaved : (saved e a kept).run.run b₁ = (.error f, b₂) := by
      unfold saved
      rw [hsave, if_pos rfl, Settings.save_of_pathOr hpath, run_bind_error hwritten]
    exact ⟨f, b₂, rfl, run_bind_error hsaved⟩
  · right
    obtain ⟨rfl, -, -⟩ := Settings.read_of_save hwritten
    have hsaved : (saved e a kept).run.run b₁ = (.ok ["Saved settings to " ++ q.text], b₂) := by
      unfold saved
      rw [hsave, if_pos rfl, Settings.save_of_pathOr hpath, run_bind_ok hwritten]
      rfl
    obtain ⟨t, b', hperform, hb'⟩ := exists_run_perform tools host clock a kept b₂
    refine ⟨b₂, t.behind ["Saved settings to " ++ q.text], b', rfl, ?_, hb'⟩
    rw [run_bind_ok hsaved, run_bind_ok hperform]
    rfl

end CommandLine

/-! ## Both ways -/

/-- An ending that leaves settings in the file, and that is reached wherever a settings file can
be saved. -/
structure Saves (path : Path) (kept : Settings) (before after : Bench) (ended : Prop) : Prop where
  kept : ended → Settings.KeptAt path kept after
  ends : Settings.Savable before path → ended

variable {c : Service.Config} {clock : Clock} {path : Path} {b b₁ : Bench} {s t kept : Settings}
  {changes : List (String × Value)}

theorem saves_of_patch {r : Service.Request} {v : Value} {entries : Service.Entries}
    (hpath : Settings.pathOr c.environment c.settingsPath = pure path)
    (hload : (Settings.loadFile path).run.run b = (.ok s, b₁))
    (hkept : (s.withEnvironment c.environment).applyAll (Service.changesOf entries) = .ok kept)
    (hroute : Service.route? r = some .changeSettings) (hbody : Service.bodyValue r = .ok v)
    (hcheck : Service.changesBody v = .good entries) (clock : Clock) :
    Saves path kept b ((Service.answer c clock r).run.run b).2
      (Service.Accepted r ((Service.answer c clock r).run.run b).1) := by
  have hmethod := (Service.method_eq_patch_iff hroute).2 rfl
  rw [Service.run_answer_change hpath hload hkept hroute hbody hcheck]
  obtain ⟨ws, hloaded⟩ := Settings.exists_run_loadFile path b
  obtain rfl : b₁ = Settings.warned b ws := by
    rw [hload] at hloaded
    exact (Prod.mk.inj hloaded).2
  constructor
  · rintro ⟨-, response, hresponse, -⟩
    rcases hsave : (kept.save c.environment (some path)).run.run (Settings.warned b ws) with
      ⟨f | q, b₂⟩
    · rw [run_bind_error hsave] at hresponse
      cases hresponse
    · obtain ⟨rfl, -, hread⟩ := Settings.read_of_save hsave
      rw [run_bind_ok hsave]
      exact Settings.keptAt_of_sameAt hread (quiet_sameAt.refl b₂)
  · intro hsavable
    obtain ⟨b₂, hsave, -⟩ := Settings.exists_run_save c.environment kept (hsavable.warned ws)
    rw [run_bind_ok hsave]
    exact ⟨hmethod, _, rfl, rfl⟩

theorem saves_of_command {argv : List String} {a : CommandLine.Arguments} {table : Table Value}
    (hpath : Settings.pathOr c.environment c.settingsPath = pure path)
    (hload : (Settings.loadFile path).run.run b = (.ok s, b₁))
    (hkept : (s.withEnvironment c.environment).applyAll table = .ok kept)
    (hargv : CommandLine.Arguments.read argv = .ok a) (hsave : a.save = true)
    (hsettings : a.settings.map Path.ofString = c.settingsPath)
    (hparse : Settings.parseOverrides a.overrides = .ok table)
    (hleaves : c.tools.Leaves (path.spelled b.here))
    (happart : ∀ o, CommandLine.Orders a kept o →
      o.job.Apart c.tools b.here b.temporary (path.spelled b.here)) (clock : Clock) :
    Saves path kept b ((CommandLine.run c.tools c.host c.environment clock argv).run.run b).2
      (∃ t, ((CommandLine.run c.tools c.host c.environment clock argv).run.run b).1 = .ok t) := by
  rw [← hsettings] at hpath
  have hchanged := CommandLine.run_settings (Settings.run_load hpath hload) hparse hkept
  obtain ⟨ws, hloaded⟩ := Settings.exists_run_loadFile path b
  obtain rfl : b₁ = Settings.warned b ws := by
    rw [hload] at hloaded
    exact (Prod.mk.inj hloaded).2
  rcases CommandLine.run_saving hargv hsave hpath hchanged c.tools c.host clock with
    ⟨f, b₂, hwritten, hrun⟩ | ⟨b₂, t, b', hwritten, hrun, hb'⟩
  · rw [hrun]
    constructor
    · rintro ⟨t, ht⟩
      cases ht
    · intro hsavable
      obtain ⟨b₃, hsaved, -⟩ := Settings.exists_run_save c.environment kept (hsavable.warned ws)
      rw [hwritten] at hsaved
      cases hsaved
  · rw [hrun]
    refine ⟨fun _ => ?_, fun _ => ⟨t, rfl⟩⟩
    obtain ⟨-, -, hread⟩ := Settings.read_of_save hwritten
    have hplaces : Service.SamePlaces (Settings.warned b ws) b₂ := by
      have hstays := Settings.stays_save (b := Settings.warned b ws)
        (Service.alongCalls_samePlaces c.tools).toOffRecord c.environment kept (some path)
      unfold Stays at hstays
      rwa [hwritten] at hstays
    apply Settings.keptAt_of_sameAt hread
    rcases hb' with rfl | ⟨o, horder, rfl⟩
    · exact quiet_sameAt.refl _
    · have hsame : SameAt b.here b.temporary (path.spelled b.here) b₂
          ((o.run c.tools c.host none clock).run b₂).2 :=
        Order.sameAt_run hleaves (happart o horder)
      rw [hplaces.1, hplaces.2]
      exact hsame

/-- Both front ends keep changes together with the variables of the environment. -/
theorem changes_keep_variables
    (hpath : Settings.pathOr c.environment c.settingsPath = pure path)
    (hload : (Settings.loadFile path).run.run b = (.ok s, b₁))
    (happly : s.applyAll changes = .ok t) :
    ∃ kept, Settings.Keeps c.environment changes s t kept ∧
      (∀ clock r v entries, Service.route? r = some .changeSettings →
        Service.bodyValue r = .ok v → Service.changesBody v = .good entries →
        Service.changesOf entries = changes →
        Saves path kept b ((Service.answer c clock r).run.run b).2
          (Service.Accepted r ((Service.answer c clock r).run.run b).1)) ∧
      ∀ clock argv a, CommandLine.Arguments.read argv = .ok a → a.save = true →
        a.settings.map Path.ofString = c.settingsPath →
        Settings.parseOverrides a.overrides = .ok changes →
        c.tools.Leaves (path.spelled b.here) →
        (∀ o, CommandLine.Orders a kept o →
          o.job.Apart c.tools b.here b.temporary (path.spelled b.here)) →
        Saves path kept b
          ((CommandLine.run c.tools c.host c.environment clock argv).run.run b).2
          (∃ t, ((CommandLine.run c.tools c.host c.environment clock argv).run.run b).1 = .ok t) := by
  obtain ⟨kept, hkeeps⟩ := Settings.exists_keeps c.environment happly
  refine ⟨kept, hkeeps, ?_, ?_⟩
  · rintro clock r v entries hroute hbody hcheck rfl
    exact saves_of_patch hpath hload hkeeps.changed hroute hbody hcheck clock
  · intro clock argv a hargv hsave hsettings hparse hleaves happart
    exact saves_of_command hpath hload hkeeps.changed hargv hsave hsettings hparse hleaves happart
      clock

/-- A service where a variable names the architecture. -/
def armService : Service.Config where
  environment := { vars := [("JITSCOPE_ARCH", "arm64")], defaultSettings := Settings.newFile }
  host := {}
  tools := fun _ _ t => { files := t, outcome := .ok {} }

def phaseRequest : Service.Request where
  method := "PATCH"
  path := "/api/settings"
  body := some "\x7b\"changes\": \x7b\"fg_phase\": \"Morph\"\x7d\x7d"

/-- The architecture of the environment gets into the file with a change of another field. -/
theorem changes_keep_variables_arm :
    let clock : Clock := ⟨.zero false, .zero false⟩
    let b := Settings.emptyBench
    let t : Settings := { flowGraphPhase := some "Morph" }
    ({} : Settings).applyAll [("fg_phase", .text "Morph")] = .ok t ∧
      ∃ kept : Settings, kept.arch = some "arm64" ∧ t.arch = none ∧
        Settings.KeptAt Settings.newFile kept
          ((Service.answer armService clock phaseRequest).run.run b).2 ∧
        Settings.KeptAt Settings.newFile kept
          ((CommandLine.run armService.tools armService.host armService.environment clock
            ["--set", "fg_phase=Morph", "--save"]).run.run b).2 := by
  intro clock b t
  have happly : ({} : Settings).applyAll [("fg_phase", .text "Morph")] = .ok t := rfl
  have hload : (Settings.loadFile Settings.newFile).run.run b = (.ok {}, b) := rfl
  have hpath : Settings.pathOr armService.environment armService.settingsPath =
    pure Settings.newFile := rfl
  obtain ⟨kept, hkeeps, hpatch, hcommand⟩ := changes_keep_variables hpath hload happly
  have hbody : Service.bodyValue phaseRequest = .ok (.map [(.text "changes",
    .map [(.text "fg_phase", .text "Morph")])]) := by cbv
  have hpatched := hpatch clock phaseRequest _ _ (by decide) hbody rfl rfl
  have hargv : CommandLine.Arguments.read ["--set", "fg_phase=Morph", "--save"] =
    .ok { overrides := ["fg_phase=Morph"], save := true } := by decide +kernel
  have hcommanded := hcommand clock _ _ hargv rfl rfl rfl (fun _ _ _ => rfl) ?_
  · refine ⟨happly, kept, ?_, rfl, hpatched.kept (hpatched.ends Settings.savable_newFile),
      hcommanded.kept (hcommanded.ends Settings.savable_newFile)⟩
    obtain rfl := Except.ok.inj hkeeps.changed
    rfl
  · rintro o ⟨-, hproject, -, -⟩
    cases hproject

end JitLens
