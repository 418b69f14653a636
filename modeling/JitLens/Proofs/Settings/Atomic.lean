import JitLens.Proofs.Files.Directories
import JitLens.Proofs.Settings.Save
/-!
# Saving all or nothing

A save puts a file with the whole document in its place, or it changes no file at all.  Either way
nothing else changes but that directories come up on the way to the file.
-/

namespace JitLens

open Files JitLens.Action

/-! ## A file that is moved into its place -/

namespace Files.Tree

variable {t u v : Tree} {here : Location} {source target : Path} {content : Text.Bytes}

/-- A file is made without the permission to run it, in a directory. -/
theorem create_child (hparts : source.parts ≠ [])
    (hcreate : t.create here source content = .ok u) :
    ∃ m n, t.locate here source = .ok (m ++ [n]) ∧ t.look m = some .dir ∧
      t.look (m ++ [n]) = none ∧ u = t.putFile (m ++ [n]) content false := by
  obtain ⟨l, hlocate, hnew, rfl⟩ := create_eq_ok hcreate
  obtain ⟨m, n, rfl, hdir⟩ := (isDir_or_child hparts hlocate).resolve_left (by simp [hnew])
  exact ⟨m, n, hlocate, hdir, hnew, rfl⟩

/-- A new file that is removed again leaves everything as it was. -/
theorem look_remove_putFile {m : Location} {n : String} (hnew : t.look (m ++ [n]) = none)
    (hdir : t.look m = some .dir) (l : Location) :
    ((t.putFile (m ++ [n]) content false).remove (m ++ [n])).look l = t.look l := by
  have hfile := look_putFile_child (n := n) hdir content false
  by_cases hl : m ++ [n] = l
  · subst hl
    have hgone := look_remove_append (t := t.putFile (m ++ [n]) content false)
      (List.append_ne_nil_of_right_ne_nil m (List.cons_ne_nil n [])) []
    rw [List.append_nil] at hgone
    rw [hgone, hnew]
  · rw [look_remove_of_ne (by simp [hfile]) hl, look_putFile_of_free (by simp [hnew]) hl]

/-- A new file that is moved is all that is new, and it is under its new name only. -/
theorem look_of_move_new (hparts : source.parts ≠ [])
    (hcreate : t.create here source content = .ok u) (hmove : u.move here source target = .ok v) :
    v.look (target.spelled here) = some (.file content false) ∧
      (∀ l, l ≠ target.spelled here → v.look l = t.look l) ∧
      ∃ l, v.locate here target = .ok l := by
  obtain ⟨m, n, hlocate, hdir, hnew, rfl⟩ := create_child hparts hcreate
  have hfile := look_putFile_child (n := n) hdir content false
  obtain ⟨hname, -, origin, goal, content', executable, horigin, hgoal, hlook, hfree, rfl⟩ :=
    move_eq_ok hmove
  rw [spelled_of_locate hgoal]
  have horigin' : origin = m ++ [n] :=
    (spelled_of_locate horigin).symm.trans (spelled_of_locate hlocate)
  subst horigin'
  rw [hfile, Option.some.injEq, Item.file.injEq] at hlook
  obtain ⟨rfl, rfl⟩ := hlook
  have hkeeps := KeepsDirs.remove (t := t.putFile (m ++ [n]) content false) (l := m ++ [n])
    (by simp [hfile])
  have hstill : ((t.putFile (m ++ [n]) content false).remove (m ++ [n])).look goal ≠ some .dir :=
    fun hgoalDir => hfree (KeepsDirs.of_remove (by simp) _ hgoalDir)
  obtain ⟨g, k, rfl, hgoalDir⟩ :=
    (isDir_or_child (by simp [Path.parts_eq hname]) hgoal).resolve_left hfree
  refine ⟨look_putFile_child (hkeeps g hgoalDir) content false, ?_, _,
    locate_of_keepsDirs (hkeeps.trans (KeepsDirs.put hstill _)) hgoal⟩
  intro l hl
  rw [look_putFile_of_free hstill hl.symm, look_remove_putFile hnew hdir]

/-- A new file that is taken away again leaves everything as it was. -/
theorem look_removeFile_new (hparts : source.parts ≠ [])
    (hcreate : t.create here source content = .ok u) (l : Location) : (u.removeFile here source).look l = t.look l := by
  obtain ⟨m, n, hlocate, hdir, hnew, rfl⟩ := create_child hparts hcreate
  have hfile := look_putFile_child (n := n) hdir content false
  have hkeeps : KeepsDirs t (t.putFile (m ++ [n]) content false) :=
    KeepsDirs.put (by simp [hnew]) _
  have hlocate' := locate_of_keepsDirs hkeeps hlocate
  have hisFile : (t.putFile (m ++ [n]) content false).isFile here source = true := by
    simp [isFile, content?, lookAt, hlocate', hfile]
  rw [removeFile, hlocate']
  dsimp only
  rw [if_pos hisFile, look_remove_putFile hnew hdir]

end Files.Tree

namespace Settings

variable {e : Environment} {s : Settings} {p : Option Path} {path : Path} {b : Bench}

/-! ## A save and its endings -/

/-- What a save leaves: the file with the whole document, in directories that are there, or no file
that was not there before. -/
inductive SaveEnding (s : Settings) (path : Path) (b : Bench) :
    Except Failure Path → Bench → Prop where
  | saved {t : Tree} {drawn : Nat}
      (file : t.look (path.spelled b.here) = some (.file (Text.encode s.document) false))
      (folders : ∀ ns, ns <+: path.parent.parts → t.isDir b.here ⟨path.anchor, ns⟩ = true)
      (others : ∀ l, l ≠ path.spelled b.here → Tree.PavedAt b.here path.parent b.files t l) :
    SaveEnding s path b (.ok path) { b with files := t, drawn := drawn }
  | failed {f : Failure} {t : Tree} {drawn : Nat}
      (paved : Tree.Paved b.here path.parent b.files t) :
    SaveEnding s path b (.error f) { b with files := t, drawn := drawn }

theorem save_ending (e : Environment) (s : Settings) (path : Path) (b : Bench) :
    SaveEnding s path b ((save e s (some path)).run.run b).1
      ((save e s (some path)).run.run b).2 := by
  cases hmake : b.files.makeDirs b.here path.parent with
  | error err =>
      rw [run_save_of_unmade e s hmake]
      exact .failed (Tree.paved_partDirs _ _ _)
  | ok made =>
      have hpaved := Tree.paved_of_makeDirs hmake
      obtain ⟨n, -, hsave⟩ := run_save_of_made e s hmake
      have hparts := temporaryPath_ne_nil b.here path n
      rw [hsave, run_putInPlace]
      dsimp only
      cases hcreate : made.create b.here (temporaryPath b.here path n)
          (Text.encode s.document) with
      | error err => exact .failed hpaved
      | ok written =>
          dsimp only
          cases hmove : written.move b.here (temporaryPath b.here path n) path with
          | error err =>
              refine .failed fun l => (hpaved l).congr ?_
              exact Tree.look_removeFile_new hparts hcreate l
          | ok moved =>
              obtain ⟨hfile, hothers, l, hgoal⟩ := Tree.look_of_move_new hparts hcreate hmove
              have hname := (Tree.move_eq_ok hmove).1
              refine .saved hfile ?_ fun l hl => (hpaved l).congr (hothers l hl)
              rintro ns ⟨ms, hns⟩
              have hway : moved.locate b.here ⟨path.anchor, ns ++ (ms ++ [path.name])⟩ = .ok l := by
                rw [← List.append_assoc, hns, ← Path.parts_eq hname]
                exact hgoal
              exact Tree.isDir_of_locate (List.append_ne_nil_of_right_ne_nil ms
                (List.cons_ne_nil path.name [])) hway

/-- Settings are saved as a whole or not at all, whatever is in the way.  Without a path to save
them at nothing happens. -/
theorem save_atomic (e : Environment) (s : Settings) (p : Option Path) (b : Bench) :
    (∃ path, pathOr e p = pure path ∧
        SaveEnding s path b ((save e s p).run.run b).1 ((save e s p).run.run b).2) ∨
      ∃ f, pathOr e p = throw (.fault f) ∧ (save e s p).run.run b = (.error (.fault f), b) := by
  rcases pathOr_cases e p with ⟨path, hpath⟩ | ⟨f, hfault⟩
  · refine .inl ⟨path, hpath, ?_⟩
    rw [save_of_pathOr hpath]
    exact save_ending e s path b
  · refine .inr ⟨f, hfault, ?_⟩
    rw [save, hfault]
    rfl

/-- A temporary name that is taken is passed over. -/
example :
    let b : Bench := {
      files := ⟨[("conf", .dir [("settings.yaml.1.tmp", .file [107] false)])]⟩
      here := []
      temporary := ⟨.root, ["tmp"]⟩ }
    let b' := ((save { defaultSettings := newFile } {} none).run.run b).2
    b'.drawn = 2 ∧ b'.files.isFile [] newFile = true ∧
      b'.files.content? [] ⟨.root, ["conf", "settings.yaml.1.tmp"]⟩ = some [107] := by
  decide +kernel

end Settings
end JitLens
