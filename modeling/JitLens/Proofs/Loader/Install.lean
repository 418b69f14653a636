import JitLens.Loader
import JitLens.Proofs.Bench
import JitLens.Proofs.Files.Frame
/-!
# Steps of an installation

What the steps of an installation do to the files.  A copy fills a directory and leaves all else
alone; what is arranged for a build stays in the directory of the key.
-/

namespace JitLens.Loader

open Files JitLens.Action

/-! ## Names -/

theorem isName_binaries : ∀ name ∈ binaries, IsName name := by
  intro name hname
  simp only [binaries, List.mem_cons, List.not_mem_nil, or_false] at hname
  rcases hname with rfl | rfl <;> constructor <;> decide

theorem isName_outFolder : IsName outFolder := by
  constructor <;> decide

theorem nodup_binaries : binaries.Nodup := by
  decide

theorem Key.isName {k : Key} (hversion : '/' ∉ k.version.toList)
    (hframework : '/' ∉ k.framework.toList) (hsdk : '/' ∉ k.sdk.toList)
    (hnull : '\x00' ∉ k.name.toList) : IsName k.name := by
  have hlist : k.name.toList =
      k.version.toList ++ '_' :: (k.framework.toList ++ '_' :: k.sdk.toList) := by
    simp [Key.name]
  have hbar : '_' ∈ k.name.toList := by simp [hlist]
  have hne (s : String) (hs : '_' ∉ s.toList) : k.name ≠ s := by
    rintro rfl
    exact hs hbar
  refine ⟨hne "" (by decide), hne "." (by decide), hne ".." (by decide), ?_, hnull⟩
  simp [hlist, hversion, hframework, hsdk]

/-! ## Directories with the loader -/

/-- Something stands under the name of each binary. -/
def Loaded (d : Location) (t : Tree) : Prop :=
  ∀ name ∈ binaries, (t.look (d ++ [name])).isSome = true

theorem isIn_iff {folder : Path} {t : Tree} {here d : Location}
    (hfolder : t.locate here folder = .ok d) (hdir : t.look d = some .dir) :
    isIn folder t here = true ↔ Loaded d t := by
  rw [isIn, List.all_eq_true]
  refine forall₂_congr fun name hname => ?_
  rw [Tree.holds_child (isName_binaries name hname) hfolder hdir]

/-- A directory that holds the loader is there. -/
theorem isDir_of_isIn {folder : Path} {t : Tree} {here : Location}
    (hin : isIn folder t here = true) : t.isDir here folder = true := by
  have hname : program ++ ".dll" ∈ binaries := by decide
  have hholds := List.all_eq_true.1 hin _ hname
  obtain ⟨l, hlocate, -⟩ := Tree.exists_of_holds hholds
  obtain ⟨m, hfolder, hdir, -⟩ := Tree.locate_of_child (isName_binaries _ hname) hlocate
  exact Tree.isDir_iff.2 ⟨m, hfolder, hdir⟩

/-- The directory that the loader is needed in is there, but without the loader. -/
structure Missing (b : Bench) (dest : Path) : Prop where
  dir : b.files.isDir b.here dest = true
  binaries : isIn dest b.files b.here = false

def asking (b : Bench) : Bench :=
  { b with statuses := b.statuses ++ ["Getting SDK version..."] }

theorem run_begin_of_missing {b : Bench} {dest : Path} (hmissing : Missing b dest) :
    (begin dest).run.run b = (.ok none, asking b) := by
  unfold begin
  rw [run_bind_ok (run_get b), hmissing.dir, hmissing.binaries]
  rfl

theorem run_begin_of_isIn {b : Bench} {dest : Path} (hin : isIn dest b.files b.here = true) :
    (begin dest).run.run b = (.ok (some .cached), b) := by
  unfold begin
  rw [run_bind_ok (run_get b), isDir_of_isIn hin, hin]
  rfl

/-! ## Copies -/

/-- The files of some names were copied from one directory to another, and nothing else changed. -/
structure Copied (names : List String) (s d : Location) (t t' : Tree) : Prop where
  keeps : Tree.KeepsDirs t t'
  frame : ∀ m, (∀ n ∈ names, ¬ d ++ [n] <+: m) → t'.look m = t.look m
  same : ∀ n ∈ names, ∃ content x y,
    t.look (s ++ [n]) = some (.file content x) ∧ t'.look (d ++ [n]) = some (.file content y)

theorem run_copyFile {source target : Path} {b : Bench} {t : Tree}
    (hcopy : b.files.copyFile b.here source target = .ok t) :
    (copyFile source target).run.run b = (.ok (), { b with files := t }) := by
  unfold copyFile
  rw [run_bind_ok (run_get b), hcopy]
  rfl

/-- What is in one directory is not below a file that is put into another one. -/
theorem not_below_copy {t : Tree} {s d : Location} {n k : String} (hs : t.look s = some .dir)
    (hopen : t.look (d ++ [n]) ≠ some .dir) (hne : s ≠ d) : ¬ d ++ [n] <+: s ++ [k] := by
  rw [List.prefix_concat_iff]
  rintro (heq | hbelow)
  · exact hne (List.append_inj_left' heq rfl).symm
  · exact Tree.KeepsDirs.not_below hopen hs hbelow

theorem not_below_child {d m : Location} (hm : ¬ d <+: m) (k : String) : ¬ d ++ [k] <+: m :=
  fun hbelow => hm ((List.prefix_append d [k]).trans hbelow)

/-- What is in a directory is not below what is in another one that the directory is not below. -/
theorem not_below_outside {s d : Location} (houtside : ¬ s <+: d) (k n : String) :
    ¬ s ++ [k] <+: d ++ [n] := by
  rw [List.prefix_concat_iff]
  rintro (heq | hbelow)
  · exact houtside (List.append_inj_left' heq rfl ▸ List.prefix_refl _)
  · exact not_below_child houtside k hbelow

theorem not_below_sibling {d : Location} {n k : String} (hne : n ≠ k) : ¬ d ++ [n] <+: d ++ [k] := by
  rw [List.prefix_append_right_inj, List.prefix_cons_iff]
  simp [hne]

/-- A copy of one file, and then of the files of other names. -/
theorem Copied.cons {n : String} {names : List String} {s d : Location} {t t' : Tree}
    {content : Text.Bytes} {x y : Bool} (hnew : n ∉ names) (hs : t.look s = some .dir)
    (hd : t.look d = some .dir) (hne : s ≠ d)
    (hfile : t.look (s ++ [n]) = some (.file content x))
    (hfirst : t.look (d ++ [n]) ≠ some .dir)
    (hrest : Copied names s d (t.putFile (d ++ [n]) content y) t') :
    Copied (n :: names) s d t t' where
  keeps := (Tree.KeepsDirs.put hfirst _).trans hrest.keeps
  frame m hm := by
    rw [hrest.frame m fun k hk => hm k (by simp [hk])]
    exact Tree.look_put_of_not_below (hm n (by simp)) _
  same k hk := by
    rcases List.mem_cons.1 hk with rfl | hk
    · refine ⟨content, x, y, hfile, ?_⟩
      rw [hrest.frame _ fun j hj => not_below_sibling (ne_of_mem_of_not_mem hj hnew)]
      exact Tree.look_putFile_child hd content y
    · obtain ⟨content', x', y', hsource, htarget⟩ := hrest.same k hk
      exact ⟨content', x', y',
        (Tree.look_put_of_not_below (not_below_copy hs hfirst hne) _).symm.trans hsource, htarget⟩

theorem run_copyAll {names : List String} {source dest : Path} {s d : Location} {b : Bench}
    (hnames : ∀ n ∈ names, IsName n) (hnodup : names.Nodup)
    (hsource : b.files.locate b.here source = .ok s) (hs : b.files.look s = some .dir)
    (hdest : b.files.locate b.here dest = .ok d) (hd : b.files.look d = some .dir) (hne : s ≠ d)
    (hfiles : ∀ n ∈ names, ∃ content x, b.files.look (s ++ [n]) = some (.file content x))
    (hopen : ∀ n ∈ names, b.files.look (d ++ [n]) ≠ some .dir) :
    ∃ t', (names.forM fun n => copyFile (source.child n) (dest.child n)).run.run b =
        (.ok (), { b with files := t' }) ∧
      Copied names s d b.files t' := by
  induction names generalizing b with
  | nil => exact ⟨b.files, rfl, Tree.KeepsDirs.refl _, fun _ _ => rfl, nofun⟩
  | cons n names ih =>
      obtain ⟨hnew, hrest⟩ := List.nodup_cons.1 hnodup
      have hname := hnames n (by simp)
      obtain ⟨content, x, hfile⟩ := hfiles n (by simp)
      have hfirst := hopen n (by simp)
      have hapart : s ++ [n] ≠ d ++ [n] := fun heq => hne (List.append_inj_left' heq rfl)
      obtain ⟨y, hcopy⟩ := Tree.exists_copyFile (Tree.locate_child hname hsource hs) hfile
        (Tree.locate_child hname hdest hd) hfirst hapart
      -- The first copy leaves the other files, and the places they go to, as they are.
      have hkeeps : Tree.KeepsDirs b.files (b.files.putFile (d ++ [n]) content y) :=
        Tree.KeepsDirs.put hfirst _
      have hsources (k : String) :
          (b.files.putFile (d ++ [n]) content y).look (s ++ [k]) = b.files.look (s ++ [k]) :=
        Tree.look_put_of_not_below (not_below_copy hs hfirst hne) _
      have hothers : ∀ k ∈ names,
          (b.files.putFile (d ++ [n]) content y).look (d ++ [k]) = b.files.look (d ++ [k]) :=
        fun k hk => Tree.look_put_of_not_below
          (not_below_sibling (ne_of_mem_of_not_mem hk hnew).symm) _
      obtain ⟨t', hrun, hcopied⟩ := ih (b := { b with files := b.files.putFile (d ++ [n]) content y })
        (fun k hk => hnames k (by simp [hk])) hrest
        (Tree.locate_of_keepsDirs hkeeps hsource) (hkeeps s hs)
        (Tree.locate_of_keepsDirs hkeeps hdest) (hkeeps d hd)
        (fun k hk => by rw [hsources]; exact hfiles k (by simp [hk]))
        (fun k hk => by rw [hothers k hk]; exact hopen k (by simp [hk]))
      exact ⟨t', (run_bind_ok (run_copyFile hcopy)).trans hrun,
        .cons hnew hs hd hne hfile hfirst hcopied⟩

/-! ## Sources -/

theorem isName_sourceName_template (waiting : String)
    (hwaiting : waiting ∈ [program ++ ".cs_template", program ++ ".csproj_template"]) :
    IsName (sourceName waiting) := by
  simp only [List.mem_cons, List.not_mem_nil, or_false] at hwaiting
  rcases hwaiting with rfl | rfl <;> constructor <;> decide

/-- A source that is there is left alone. -/
theorem run_writeSource_of_there {waiting : String} {folder : Path} {b : Bench}
    (fill : List Char → List Char)
    (hthere : b.files.holds b.here (folder.child (sourceName waiting)) = true) :
    (writeSource waiting folder fill).run.run b =
      (.ok (folder.child (sourceName waiting)), b) := by
  unfold writeSource
  rw [run_bind_ok (run_get b), if_pos hthere]
  rfl

/-- A source that is not there is written. -/
theorem exists_writeSource_of_new {waiting : String} {source : List Char} {folder : Path}
    {f : Location} {b : Bench} (fill : List Char → List Char) (hname : IsName (sourceName waiting))
    (hsource : sources.lookup waiting = some source)
    (hfolder : b.files.locate b.here folder = .ok f) (hdir : b.files.look f = some .dir)
    (hnew : b.files.holds b.here (folder.child (sourceName waiting)) = false) :
    ∃ x, (writeSource waiting folder fill).run.run b = (.ok (folder.child (sourceName waiting)),
        { b with
          files := b.files.putFile (f ++ [sourceName waiting]) (Text.encode (fill source)) x }) ∧
      b.files.look (f ++ [sourceName waiting]) ≠ some .dir := by
  have hpath := Tree.locate_child hname hfolder hdir
  have hfree : b.files.look (f ++ [sourceName waiting]) ≠ some .dir := by
    intro hlook
    rw [Tree.holds_of_look hpath hlook] at hnew
    cases hnew
  obtain ⟨t', hwrite⟩ := Tree.write_of_look hpath hfree (Text.encode (fill source))
  obtain ⟨l, x, hlocate, -, rfl⟩ := Tree.write_eq_ok hwrite
  rw [hpath, Except.ok.injEq] at hlocate
  subst hlocate
  refine ⟨x, ?_, hfree⟩
  unfold writeSource
  rw [run_bind_ok (run_get b), if_neg (by simp [hnew])]
  have hchange : (Action.change fun t here =>
      t.write here (folder.child (sourceName waiting)) (Text.encode (fill source))).run.run b =
      (.ok (), { b with
        files := b.files.putFile (f ++ [sourceName waiting]) (Text.encode (fill source)) x }) :=
    run_change_ok hwrite
  simp only [hsource]
  exact (run_bind_ok hchange).trans rfl

/-- The bench when a build is arranged, with some files. -/
def arranging (t : Tree) (b : Bench) : Bench :=
  { b with files := t, statuses := b.statuses ++ ["Building '" ++ program ++ "' project..."] }

/-- A build is arranged by making the directory of the key and writing the sources to it. -/
theorem run_arrange {root dest : Path} {key : Key} {made t₁ t₂ : Tree} {p₁ p₂ : Path} {b : Bench}
    (hcancel : b.Uncancelled) (hout : isIn (key.out root) b.files b.here = false)
    (hmake : b.files.makeDirs b.here (root.child key.name) = .ok made)
    (hcode : (writeSource (program ++ ".cs_template") (root.child key.name) id).run.run
      (arranging made b) = (.ok p₁, arranging t₁ b))
    (hproject : (writeSource (program ++ ".csproj_template") (root.child key.name)
      (fillFramework key.framework)).run.run (arranging t₁ b) = (.ok p₂, arranging t₂ b)) :
    (arrange root key dest).run.run b = (.ok none, arranging t₂ b) := by
  unfold arrange
  rw [run_bind_ok (run_get b), hout, if_neg (by simp)]
  refine (run_bind_ok (run_makeDirs_ok hmake)).trans ?_
  refine (run_bind_ok (run_checkCancelled (by exact hcancel))).trans ?_
  refine (run_bind_ok (x := Action.report _) rfl).trans ?_
  refine (run_bind_ok hcode).trans ?_
  refine (run_bind_ok hproject).trans ?_
  exact (run_bind_ok (run_checkCancelled (by exact hcancel))).trans rfl

/-- The name of the file of code. -/
def codeFile : String := sourceName (program ++ ".cs_template")

/-- The name of the project file. -/
def projectFile : String := sourceName (program ++ ".csproj_template")

def codeContent : Text.Bytes := Text.encode (textOf codeLines)

/-- The content of the project file for a framework. -/
def projectContent (framework : String) : Text.Bytes :=
  Text.encode (fillFramework framework (textOf projectLines))

/-- The sources for a framework are in a directory. -/
structure Sourced (folder : Location) (framework : String) (t : Tree) : Prop where
  code : ∃ x, t.look (folder ++ [codeFile]) = some (.file codeContent x)
  project : ∃ x, t.look (folder ++ [projectFile]) = some (.file (projectContent framework) x)

theorem isName_codeFile : IsName codeFile :=
  isName_sourceName_template _ (by simp)

theorem isName_projectFile : IsName projectFile :=
  isName_sourceName_template _ (by simp)

theorem codeFile_ne_projectFile : codeFile ≠ projectFile := by
  decide

/-- Nothing is written for a build if the sources are there. -/
theorem run_arrange_of_sourced {root dest : Path} {key : Key} {f : Location} {b : Bench}
    (hcancel : b.Uncancelled) (hout : isIn (key.out root) b.files b.here = false)
    (hfolder : b.files.locate b.here (root.child key.name) = .ok f)
    (hdir : b.files.look f = some .dir) (hsourced : Sourced f key.framework b.files) :
    (arrange root key dest).run.run b = (.ok none, arranging b.files b) := by
  obtain ⟨x, hcode⟩ := hsourced.code
  obtain ⟨y, hproject⟩ := hsourced.project
  have hcodeThere := Tree.holds_of_look (Tree.locate_child isName_codeFile hfolder hdir) hcode
  have hprojectThere :=
    Tree.holds_of_look (Tree.locate_child isName_projectFile hfolder hdir) hproject
  exact run_arrange hcancel hout (Tree.makeDirs_of_isDir (Tree.isDir_iff.2 ⟨f, hfolder, hdir⟩))
    (run_writeSource_of_there id (b := arranging b.files b) hcodeThere)
    (run_writeSource_of_there _ (b := arranging b.files b) hprojectThere)

/-- The loader is not there before the first build for its key. -/
theorem isIn_out_of_unbuilt {root : Path} {key : Key} {t made : Tree} {here f : Location}
    (hmake : t.makeDirs here (root.child key.name) = .ok made)
    (hfolder : made.locate here (root.child key.name) = .ok f)
    (hbuild : made.look (f ++ [outFolder]) = none) : isIn (key.out root) t here = false := by
  rw [Bool.eq_false_iff]
  intro hin
  -- If the loader were there, the directory of the key would be, and making it would do nothing.
  obtain ⟨l, hout, hdir⟩ := Tree.isDir_iff.1 (isDir_of_isIn hin)
  obtain ⟨m, hlocate, hm, rfl⟩ := Tree.locate_of_child isName_outFolder hout
  rw [Tree.makeDirs_of_isDir (Tree.isDir_iff.2 ⟨m, hlocate, hm⟩), Except.ok.injEq] at hmake
  rw [← hmake, hlocate, Except.ok.injEq] at hfolder
  rw [← hmake, ← hfolder, hdir] at hbuild
  cases hbuild

/-- Both sources are written if neither is there. -/
theorem run_arrange_of_unsourced {root : Path} {key : Key} {f : Location} {made : Tree} {b : Bench}
    (dest : Path) (hcancel : b.Uncancelled)
    (hmake : b.files.makeDirs b.here (root.child key.name) = .ok made)
    (hfolder : made.locate b.here (root.child key.name) = .ok f) (hdir : made.look f = some .dir)
    (hcode : made.look (f ++ [codeFile]) = none) (hproject : made.look (f ++ [projectFile]) = none)
    (hbuild : made.look (f ++ [outFolder]) = none) :
    ∃ t', (arrange root key dest).run.run b = (.ok none, arranging t' b) ∧
      Tree.KeepsDirs made t' ∧ Sourced f key.framework t' ∧
      ∀ m, ¬ f ++ [codeFile] <+: m → ¬ f ++ [projectFile] <+: m → t'.look m = made.look m := by
  have hholds {s : String} (hs : IsName s) {t : Tree}
      (ht : t.locate b.here (root.child key.name) = .ok f) (hd : t.look f = some .dir)
      (hnone : t.look (f ++ [s]) = none) :
      t.holds b.here ((root.child key.name).child s) = false := by
    rw [Tree.holds_child hs ht hd, hnone]
    rfl
  have hcodeSource : sources.lookup (program ++ ".cs_template") = some (textOf codeLines) := rfl
  have hprojectSource : sources.lookup (program ++ ".csproj_template") =
      some (textOf projectLines) := rfl
  -- The code is written first, and leaves the place of the project file free.
  obtain ⟨x, hfirst, hcodeFree⟩ := exists_writeSource_of_new id (b := arranging made b)
    isName_codeFile hcodeSource hfolder hdir (hholds isName_codeFile hfolder hdir hcode)
  have hkeeps₁ : Tree.KeepsDirs made (made.putFile (f ++ [codeFile]) codeContent x) :=
    Tree.KeepsDirs.put hcodeFree _
  have hfolder₁ := Tree.locate_of_keepsDirs hkeeps₁ hfolder
  have hproject₁ : (made.putFile (f ++ [codeFile]) codeContent x).look (f ++ [projectFile]) = none :=
    (Tree.look_put_of_not_below (not_below_sibling codeFile_ne_projectFile) _).trans hproject
  obtain ⟨y, hsecond, hprojectFree⟩ := exists_writeSource_of_new (fillFramework key.framework)
    (b := arranging (made.putFile (f ++ [codeFile]) codeContent x) b) isName_projectFile
    hprojectSource hfolder₁ (hkeeps₁ f hdir)
    (hholds isName_projectFile hfolder₁ (hkeeps₁ f hdir) hproject₁)
  refine ⟨_, run_arrange hcancel (isIn_out_of_unbuilt hmake hfolder hbuild) hmake hfirst hsecond,
    hkeeps₁.trans (Tree.KeepsDirs.put hprojectFree _), ⟨⟨x, ?_⟩, ⟨y, ?_⟩⟩, ?_⟩
  · exact (Tree.look_put_of_not_below (not_below_sibling codeFile_ne_projectFile.symm) _).trans
      (Tree.look_putFile_child hdir codeContent x)
  · exact Tree.look_putFile_child (hkeeps₁ f hdir) (projectContent key.framework) y
  · intro m hcodeBelow hprojectBelow
    exact (Tree.look_put_of_not_below hprojectBelow _).trans
      (Tree.look_put_of_not_below hcodeBelow _)

/-- What was arranged for a build: the directory of the key is there, and outside of it there is
nothing new. -/
structure Arranged (folder : Location) (t t' : Tree) : Prop where
  keeps : Tree.KeepsDirs t t'
  dir : t'.look folder = some .dir
  frame : ∀ m, ¬ folder <+: m → t'.look m = t.look m

/-- A source is there once it was written, and outside of its directory nothing has changed. -/
theorem exists_run_writeSource {waiting : String} {source : List Char} {folder : Path}
    {f : Location} {b : Bench} (fill : List Char → List Char) (hname : IsName (sourceName waiting))
    (hsource : sources.lookup waiting = some source)
    (hfolder : b.files.locate b.here folder = .ok f) (hdir : b.files.look f = some .dir) :
    ∃ t, (writeSource waiting folder fill).run.run b =
        (.ok (folder.child (sourceName waiting)), { b with files := t }) ∧
      Arranged f b.files t := by
  cases hthere : b.files.holds b.here (folder.child (sourceName waiting)) with
  | true =>
      exact ⟨b.files, run_writeSource_of_there fill hthere,
        ⟨Tree.KeepsDirs.refl _, hdir, fun _ _ => rfl⟩⟩
  | false =>
      obtain ⟨x, hrun, hfree⟩ := exists_writeSource_of_new fill hname hsource hfolder hdir hthere
      have hkeeps := Tree.KeepsDirs.put hfree (.file (Text.encode (fill source)) x)
      exact ⟨_, hrun, hkeeps, hkeeps f hdir,
        fun l hl => Tree.look_put_of_not_below (not_below_child hl _) _⟩

/-- Once the directory of the key is made, the sources are written to it. -/
theorem exists_run_arrange {root : Path} {key : Key} {f : Location} {made : Tree} {b : Bench}
    (dest : Path) (hcancel : b.Uncancelled) (hout : isIn (key.out root) b.files b.here = false)
    (hmake : b.files.makeDirs b.here (root.child key.name) = .ok made)
    (hfolder : made.locate b.here (root.child key.name) = .ok f)
    (hdir : made.look f = some .dir) :
    ∃ t, (arrange root key dest).run.run b = (.ok none, arranging t b) ∧ Arranged f made t := by
  obtain ⟨t₁, hcode, hfirst⟩ := exists_run_writeSource id (b := arranging made b)
    isName_codeFile rfl hfolder hdir
  have hfolder₁ := Tree.locate_of_keepsDirs hfirst.keeps hfolder
  obtain ⟨t₂, hproject, hsecond⟩ := exists_run_writeSource (fillFramework key.framework)
    (b := arranging t₁ b) isName_projectFile rfl hfolder₁ hfirst.dir
  exact ⟨t₂, run_arrange hcancel hout hmake hcode hproject, hfirst.keeps.trans hsecond.keeps,
    hsecond.dir, fun l hl => (hsecond.frame l hl).trans (hfirst.frame l hl)⟩

/-- The first build for a key finds its directory missing and writes the sources. -/
theorem run_arrange_of_fresh {root : Path} {key : Key} {rootAt : Location} {made : Tree}
    {b : Bench} (dest : Path) (hkey : IsName key.name) (hcancel : b.Uncancelled)
    (hhere : b.files.look b.here = some .dir) (hmake : b.files.makeDirs b.here root = .ok made)
    (hroot : made.locate b.here root = .ok rootAt)
    (hfresh : made.look (rootAt ++ [key.name]) = none) :
    ∃ t', (arrange root key dest).run.run b =
        (.ok none, { b with
          files := t'
          statuses := b.statuses ++ ["Building '" ++ program ++ "' project..."] }) ∧
      Arranged (rootAt ++ [key.name]) made t' := by
  have hrootdir : made.look rootAt = some .dir :=
    Tree.look_of_isDir (Tree.makeDirs_isDir hhere hmake).1 hroot
  have hkeeps : Tree.KeepsDirs made (made.putDir (rootAt ++ [key.name])) :=
    Tree.KeepsDirs.put (by simp [hfresh]) _
  have hdir : (made.putDir (rootAt ++ [key.name])).look (rootAt ++ [key.name]) = some .dir :=
    Tree.look_put_self hrootdir _
  have hfolder := Tree.locate_child hkey (Tree.locate_of_keepsDirs hkeeps hroot)
    (hkeeps _ hrootdir)
  have hmakeKey := Tree.makeDirs_child hkey hhere hmake hroot hfresh
  obtain ⟨t', hrun, harranged⟩ := exists_run_arrange dest hcancel
    (isIn_out_of_unbuilt hmakeKey hfolder (Tree.look_putDir_child hfresh outFolder)) hmakeKey
    hfolder hdir
  exact ⟨t', hrun, hkeeps.trans harranged.keeps, harranged.dir, fun m hm =>
    (harranged.frame m hm).trans (Tree.look_put_of_not_below hm _)⟩

/-! ## Calls -/

theorem called_of_reaction {tools : Tools} {i : Invocation} {b : Bench} {t' : Tree}
    {result : ToolResult}
    (hreaction : tools b.calls i b.files = { files := t', outcome := .ok result }) :
    called tools i b = { b with files := t', calls := b.calls ++ [i] } := by
  rw [called, hreaction]

/-- A call that ends normally tells the version, whatever its exit code. -/
theorem run_sdkVersion_of_result {tools : Tools} {dotnet : String} {b : Bench} {result : ToolResult}
    (hopen : ¬ b.Refuses)
    (houtcome : (tools b.calls (versionCall dotnet) b.files).outcome = .ok result) :
    (sdkVersion tools dotnet).run.run b =
      (.ok (Text.trimmed result.output), called tools (versionCall dotnet) b) := by
  rw [sdkVersion, run_bind_ok (run_tryCatch_ok (run_call_ok hopen houtcome))]
  rfl

/-- A build program that tells its version. -/
theorem run_sdkVersion {tools : Tools} {dotnet : String} {b : Bench} {result : ToolResult}
    (hcancel : b.Uncancelled) (hreaction : tools b.calls (versionCall dotnet) b.files =
      { files := b.files, outcome := .ok result }) :
    (sdkVersion tools dotnet).run.run b =
      (.ok (Text.trimmed result.output), { b with calls := b.calls ++ [versionCall dotnet] }) := by
  have houtcome := congrArg Reaction.outcome hreaction
  rw [run_sdkVersion_of_result hcancel.not_refuses houtcome, called_of_reaction hreaction]

/-- An installation that is not told the version ends as the call for it. -/
theorem run_install_of_untold {tools : Tools} {dotnet framework version : String}
    {root dest : Path} {b b' : Bench} {f : Failure} (hmissing : Missing b dest)
    (hversion : (sdkVersion tools dotnet).run.run (asking b) = (.error f, b')) :
    (install tools dotnet root dest framework version).run.run b = (.error f, b') := by
  rw [install, run_bind_ok (run_begin_of_missing hmissing)]
  exact run_bind_error hversion

/-! ## Builds -/

/-- What follows a build that has left the loader is a copy of it. -/
theorem run_collect_of_isIn {root dest : Path} {key : Key} {b b' : Bench} (hcancel : b.Uncancelled)
    (hin : isIn (key.out root) b.files b.here = true)
    (hcopy : (copyTo (key.out root) dest).run.run b = (.ok (), b')) (result : ToolResult) :
    (collect root key dest result).run.run b = (.ok .built, b') := by
  rw [collect, run_bind_ok (run_get b), if_neg (by simp [hin]),
    run_bind_ok (run_checkCancelled hcancel), run_bind_ok hcopy]
  rfl

end JitLens.Loader
