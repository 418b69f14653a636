import JitLens.Proofs.Settings.Document
import JitLens.Proofs.Temporary
/-!
# Saving settings

Settings that were saved are loaded again, whatever they are and whatever else is on the bench.
They can be saved again and again once their directory can be made and no directory stands in the
place of the file.
-/

namespace JitLens.Settings

open Files JitLens.Action

/-- The directory of a path under the names that lead to it from the root. -/
def wholeFolder (here : Location) (path : Path) : Path :=
  if path.parent.isAbsolute then ⟨path.parent.anchor, Path.fold path.parent.parts⟩
  else ⟨.root, Path.fold (here ++ path.parent.parts)⟩

/-- The path under which a file is made before it is moved into its place. -/
def temporaryPath (here : Location) (path : Path) (n : Nat) : Path :=
  numbered (wholeFolder here path) (path.name ++ ".") ".tmp" n

theorem temporaryPath_ne_nil (here : Location) (path : Path) (n : Nat) :
    (temporaryPath here path n).parts ≠ [] :=
  numbered_ne_nil _ _ _ n

/-- Makes a file under a temporary path and moves it into its place. -/
def putInPlace (content : Text.Bytes) (temporary path : Path) : Action Path := do
  Action.change fun t here => t.create here temporary content
  let b ← get
  match b.files.move b.here temporary path with
  | .ok files =>
    set { b with files := files }
    return path
  | .error err =>
    set { b with files := b.files.removeFile b.here temporary }
    Action.fail (.fault (.file err))

theorem run_putInPlace (content : Text.Bytes) (temporary path : Path) (b : Bench) :
    (putInPlace content temporary path).run.run b =
      match b.files.create b.here temporary content with
      | .error err => (.error (.fault (.file err)), b)
      | .ok written =>
        match written.move b.here temporary path with
        | .ok files => (.ok path, { b with files := files })
        | .error err =>
          (.error (.fault (.file err)),
            { b with files := written.removeFile b.here temporary }) := by
  unfold putInPlace
  cases hcreate : b.files.create b.here temporary content with
  | error err => rw [run_bind_error (run_change_error hcreate)]
  | ok written =>
      rw [run_bind_ok (run_change_ok hcreate), run_bind_ok (run_get _)]
      dsimp only
      cases written.move b.here temporary path with
      | error err => rfl
      | ok files => rfl

theorem run_save_of_unmade {b : Bench} {path : Path} {err : FileError} (e : Environment)
    (s : Settings) (hmake : b.files.makeDirs b.here path.parent = .error err) :
    (save e s (some path)).run.run b =
      (.error (.fault (.file err)), { b with files := b.files.partDirs b.here path.parent }) := by
  unfold save pathOr
  rw [pure_bind, run_bind_error (run_makeDirs_error hmake)]

/-- Once its directory is made, a save makes a file with the document where nothing stands and
moves it into its place. -/
theorem run_save_of_made {b : Bench} {path : Path} {made : Tree} (e : Environment) (s : Settings)
    (hmake : b.files.makeDirs b.here path.parent = .ok made) :
    ∃ n, made.holds b.here (temporaryPath b.here path n) = false ∧
      (save e s (some path)).run.run b =
        (putInPlace (Text.encode s.document) (temporaryPath b.here path n) path).run.run
          { b with files := made, drawn := n } := by
  refine ⟨_, Bench.holds_nextTemporary { b with files := made } _ _ _, ?_⟩
  unfold save pathOr makeTemporary
  rw [pure_bind, run_bind_ok (run_makeDirs_ok hmake), run_bind_ok (run_get _), bind_assoc,
    run_bind_ok (run_draw _ _ _ _), bind_assoc]
  rfl

/-! ## What was saved -/

variable {e : Environment} {s : Settings} {p : Option Path} {path q : Path} {b b' : Bench}

theorem run_loadFile (hread : b.files.read b.here path = .ok (Text.encode s.document)) :
    (loadFile path).run.run b = (.ok s, b) := by
  unfold loadFile
  rw [run_bind_ok (run_look _ _ b), if_pos (Tree.holds_of_read hread), run_bind_ok (run_look _ _ b),
    hread]
  change (ofContent path (Text.encode s.document)).run.run b = _
  rw [ofContent_document, run_pure]

theorem run_putInPlace_ok {content : Text.Bytes} {temporary : Path} (hparts : temporary.parts ≠ [])
    (hrun : (putInPlace content temporary path).run.run b = (.ok q, b')) :
    q = path ∧ b' = { b with files := b'.files } ∧ b'.files.read b.here path = .ok content ∧
      b.files.KeepsDirs b'.files ∧ b'.files.KeepsDirs b.files := by
  rw [run_putInPlace] at hrun
  split at hrun
  · cases hrun
  · next written hcreate =>
    obtain ⟨hkeeps, hkeeps', l, executable, hlocate, hlook⟩ :=
      Tree.look_of_create hparts hcreate
    split at hrun
    · next files hmove =>
      rw [Prod.mk.injEq, Except.ok.injEq] at hrun
      obtain ⟨rfl, rfl⟩ := hrun
      obtain ⟨hread, hmoved, hmoved'⟩ := Tree.read_of_move hlocate hlook hmove
      exact ⟨rfl, rfl, hread, hkeeps.trans hmoved, hmoved'.trans hkeeps'⟩
    · cases hrun

/-- Settings that were saved are in the file. -/
theorem read_of_save (hrun : (save e s (some path)).run.run b = (.ok q, b')) :
    q = path ∧ b'.here = b.here ∧
      b'.files.read b'.here path = .ok (Text.encode s.document) := by
  cases hmake : b.files.makeDirs b.here path.parent with
  | error err =>
      rw [run_save_of_unmade e s hmake] at hrun
      cases hrun
  | ok made =>
      obtain ⟨n, -, hsave⟩ := run_save_of_made e s hmake
      rw [hsave] at hrun
      obtain ⟨hq, hb, hread, -, -⟩ := run_putInPlace_ok (temporaryPath_ne_nil _ _ _) hrun
      have hhere : b'.here = b.here := by rw [hb]
      rw [hhere]
      exact ⟨hq, rfl, hread⟩

/-! ## Saving again and again -/

/-- A bench on which a settings file can be saved: its directory can be made, and no directory stands
where the file goes. -/
structure Savable (b : Bench) (path : Path) : Prop where
  here : b.files.look b.here = some .dir
  hereNames : ∀ n ∈ b.here, n ≠ ".." ∧ holdsNull n = false
  name : path.name ≠ "" ∧ path.name ≠ ".." ∧ holdsNull path.name = false
  folder : ∃ made, b.files.makeDirs b.here path.parent = .ok made ∧
    made.isDir b.here path = false

/-- The whole name of the directory leads to it. -/
theorem locate_wholeFolder {t : Tree} {here l : Location}
    (hnames : ∀ n ∈ here, n ≠ ".." ∧ holdsNull n = false)
    (hlocate : t.locate here path.parent = .ok l) (hdir : t.look l = some .dir) :
    t.locate here (wholeFolder here path) = .ok l := by
  obtain ⟨hnull, hwalk⟩ := Tree.locate_eq_ok hlocate
  have hbase : ∀ n ∈ (if path.parent.isAbsolute then [] else here),
      n ≠ ".." ∧ holdsNull n = false := by
    split
    · simp
    · exact hnames
  have hparts : (wholeFolder here path).parts = l := by
    have hfold := Tree.fold_of_walk (fun n hn => (hbase n hn).1) hwalk
    unfold wholeFolder
    split
    · next habsolute => simpa [habsolute] using hfold
    · next hrelative => simpa [hrelative] using hfold
  have habsolute : (wholeFolder here path).isAbsolute = true := by
    unfold wholeFolder
    split
    · next habsolute => exact habsolute
    · rfl
  have hl : ∀ n ∈ l, n ≠ ".." ∧ holdsNull n = false := by
    intro n hn
    rcases Tree.mem_of_walk hwalk hn with hmem | ⟨hmem, hne⟩
    · exact hbase n hmem
    · rw [List.any_eq_false] at hnull
      exact ⟨hne, by simpa using hnull n hmem⟩
  apply Tree.locate_of_walk
  · rw [hparts, List.any_eq_false]
    intro n hn
    simp [(hl n hn).2]
  · rw [habsolute, hparts, if_pos rfl]
    have hself := Tree.walk_self (l := []) (fun n hn => (hl n hn).1) (by simpa using hdir)
    simpa using hself

/-- The file of a path is put in its place if no directory stands there and nothing under its
temporary name. -/
theorem exists_run_putInPlace {n : Nat} (content : Text.Bytes)
    (hnames : ∀ n ∈ b.here, n ≠ ".." ∧ holdsNull n = false)
    (hname : path.name ≠ "" ∧ path.name ≠ ".." ∧ holdsNull path.name = false)
    (hfolder : b.files.isDir b.here path.parent = true)
    (hpath : b.files.isDir b.here path = false)
    (hfree : b.files.holds b.here (temporaryPath b.here path n) = false) :
    ∃ b', (putInPlace content (temporaryPath b.here path n) path).run.run b = (.ok path, b') := by
  obtain ⟨l, hlocate, hdir⟩ := Tree.isDir_iff.1 hfolder
  have hsource : b.files.locate b.here (temporaryPath b.here path n) =
      .ok (l ++ [numberedName (path.name ++ ".") ".tmp" n]) :=
    locate_numbered (locate_wholeFolder hnames hlocate hdir) hdir
      (holdsNull_append hname.2.2 (by decide)) (by decide) n
  have hgoal : b.files.locate b.here path = .ok (l ++ [path.name]) :=
    Tree.locate_of_parent hname.1 hname.2.1 hname.2.2 hlocate hdir
  have hnoGoal : b.files.look (l ++ [path.name]) ≠ some .dir := by
    intro hlook
    rw [Tree.isDir_iff.2 ⟨_, hgoal, hlook⟩] at hpath
    exact absurd hpath (by simp)
  have hcreate := Tree.create_of_look hsource (Tree.look_of_holds_eq_false hsource hfree) content
  obtain ⟨hkeeps, hkeeps', origin, executable, horigin, hfile⟩ :=
    Tree.look_of_create (temporaryPath_ne_nil _ _ _) hcreate
  have hmove := Tree.move_of_look hname.1 hname.2.1 horigin
    (Tree.locate_of_keepsDirs hkeeps hgoal) hfile (fun hlook => hnoGoal (hkeeps' _ hlook))
  rw [run_putInPlace, hcreate]
  simp only [hmove]
  exact ⟨_, rfl⟩

/-- A file that can be saved is saved, and can be saved again. -/
theorem exists_run_save (e : Environment) (s : Settings) (hsavable : Savable b path) :
    ∃ b', (save e s (some path)).run.run b = (.ok path, b') ∧ Savable b' path := by
  obtain ⟨made, hmade, hpath⟩ := hsavable.folder
  obtain ⟨hfolder, hkeepsMade⟩ := Tree.makeDirs_isDir hsavable.here hmade
  obtain ⟨n, hfree, hsave⟩ := run_save_of_made e s hmade
  obtain ⟨b', hput⟩ := exists_run_putInPlace (b := { b with files := made, drawn := n })
    (Text.encode s.document) hsavable.hereNames hsavable.name hfolder hpath hfree
  obtain ⟨-, hb, -, hkeeps, hkeeps'⟩ := run_putInPlace_ok (temporaryPath_ne_nil _ _ _) hput
  refine ⟨b', hsave.trans hput, ?_⟩
  have hhere : b'.here = b.here := by rw [hb]
  constructor
  · rw [hhere]
    exact hkeeps _ (hkeepsMade _ hsavable.here)
  · rw [hhere]
    exact hsavable.hereNames
  · exact hsavable.name
  · rw [hhere]
    refine ⟨b'.files, Tree.makeDirs_of_isDir (Tree.isDir_of_keepsDirs hkeeps hfolder), ?_⟩
    -- No directory has come up since.
    rw [Bool.eq_false_iff] at hpath ⊢
    exact fun hdir => hpath (Tree.isDir_of_keepsDirs hkeeps' hdir)

/-! ## Loading what was saved -/

theorem pathOr_cases (e : Environment) (p : Option Path) :
    (∃ path, pathOr e p = pure path) ∨ ∃ f : Fault, pathOr e p = throw (.fault f) := by
  cases p with
  | some path => exact .inl ⟨path, rfl⟩
  | none =>
      cases hpath : e.settingsPath with
      | ok path => exact .inl ⟨path, by rw [pathOr, hpath]; rfl⟩
      | error f => exact .inr ⟨f, by rw [pathOr, hpath]; rfl⟩

theorem save_of_pathOr (hpath : pathOr e p = pure path) : save e s p = save e s (some path) := by
  unfold save
  rw [hpath]
  rfl

theorem run_loadFile_of_save (hrun : (save e s p).run.run b = (.ok q, b')) :
    pathOr e p = pure q ∧ (loadFile q).run.run b' = (.ok s, b') := by
  rcases pathOr_cases e p with ⟨path, hpath⟩ | ⟨f, hfault⟩
  · rw [save_of_pathOr hpath] at hrun
    obtain ⟨rfl, -, hread⟩ := read_of_save hrun
    exact ⟨hpath, run_loadFile hread⟩
  · rw [save, hfault] at hrun
    cases hrun

theorem run_load_map {path : Path} {a : Except Failure Settings}
    (hpath : pathOr e p = pure path) (hload : (loadFile path).run.run b = (a, b')) :
    (load e p).run.run b = (a.map fun s => s.withEnvironment e, b') := by
  unfold load
  rw [hpath, pure_bind]
  cases a with
  | ok s =>
      rw [run_bind_ok hload]
      rfl
  | error f => exact run_bind_error hload

theorem run_load {path : Path} (hpath : pathOr e p = pure path)
    (hload : (loadFile path).run.run b = (.ok s, b')) :
    (load e p).run.run b = (.ok (s.withEnvironment e), b') :=
  run_load_map hpath hload

/-- Saved settings are loaded again, and they are saved wherever a settings file can be. -/
theorem loadFile_save (e : Environment) (s : Settings) (p : Option Path) (b : Bench) :
    (∀ q b', (save e s p).run.run b = (.ok q, b') →
      pathOr e p = pure q ∧ (loadFile q).run.run b' = (.ok s, b')) ∧
    ∀ path, pathOr e p = pure path → Savable b path →
      ∃ b', (save e s p).run.run b = (.ok path, b') ∧
        (loadFile path).run.run b' = (.ok s, b') := by
  constructor
  · intro q b' hrun
    exact run_loadFile_of_save hrun
  · intro path hpath hsavable
    obtain ⟨b', hrun, -⟩ := exists_run_save e s hsavable
    rw [← save_of_pathOr hpath] at hrun
    exact ⟨b', hrun, (run_loadFile_of_save hrun).2⟩

/-- A bench with nothing but its root on it. -/
def emptyBench : Bench where
  files := .empty
  here := []
  temporary := ⟨.root, ["tmp"]⟩

/-- A settings file in a directory that is not there yet. -/
def newFile : Path := ⟨.root, ["conf", "settings.yaml"]⟩

theorem savable_newFile : Savable emptyBench newFile := by
  have hfolder : emptyBench.files.makeDirs emptyBench.here newFile.parent =
      .ok ⟨[("conf", .dir [])]⟩ := by rfl
  exact ⟨rfl, by decide, by decide, _, hfolder, by decide +kernel⟩

/-- Texts that look like other things are kept as well. -/
theorem loadFile_save_newFile :
    let s : Settings :=
      { customVars := some "a: 'b'\n\x00#\u2028 ", version := "1e3", arch := some "~" }
    Savable emptyBench newFile ∧
      ∃ b, (save { defaultSettings := newFile } s none).run.run emptyBench = (.ok newFile, b) ∧
        (loadFile newFile).run.run b = (.ok s, b) := by
  intro s
  have hsave := loadFile_save { defaultSettings := newFile } s none emptyBench
  obtain ⟨b, hrun, -⟩ := hsave.2 newFile rfl savable_newFile
  exact ⟨savable_newFile, b, hrun, (hsave.1 newFile b hrun).2⟩

end JitLens.Settings
