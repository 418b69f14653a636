import JitLens.Proofs.Compiler.Crossgen
import JitLens.Proofs.Files.Frame
import JitLens.Proofs.Run.Instrumented
/-!
# The folder of a run, as seen from inside

The folder of a run is the output directory as seen from the directory of the project: it is
absolute if one of the two is.  For a published project the ahead-of-time compiler is started in
that folder and refers to the libraries there by the name that the folder has for the caller.  An
absolute name leads a process in the folder to the folder; a relative one is followed from there
once more, to a directory below the folder if no double dot leads back.
-/

namespace JitLens

open Files JitLens.Action

/-! ## Paths that are put together as texts -/

namespace Files

/-- A text that names a file from the root. -/
def IsRooted (s : String) : Prop :=
  s.toList.head? = some '/'

namespace Path

variable {cs ds : List Char} {s n : String} {p q : Path}

theorem isAbsolute_ofString_iff : (ofString s).isAbsolute = true ↔ IsRooted s := by
  unfold IsRooted isAbsolute ofString
  cases hs : s.toList with
  | nil => simp [anchorOf]
  | cons c cs =>
      unfold anchorOf
      split <;> simp_all

theorem isPart_of_mem_ofString (hn : n ∈ (ofString s).parts) : IsPart n := by
  obtain ⟨hmem, hkept⟩ := List.mem_filter.1 hn
  obtain ⟨l, hl, rfl⟩ := List.mem_map.1 hmem
  have hne : String.ofList l ≠ "" ∧ String.ofList l ≠ "." := by simpa using hkept
  refine ⟨hne.1, hne.2, ?_⟩
  rw [String.toList_ofList]
  exact Text.not_mem_of_mem_splitOn hl

theorem isPart_join (hp : ∀ n ∈ p.parts, IsPart n) (hq : ∀ n ∈ q.parts, IsPart n) :
    ∀ n ∈ (p.join q).parts, IsPart n := by
  intro n hn
  unfold join at hn
  split at hn
  · exact hq n hn
  · exact (List.mem_append.1 hn).elim (hp n) (hq n)

theorem child_of_isPart (hn : IsPart n) (p : Path) : p.child n = ⟨p.anchor, p.parts ++ [n]⟩ := by
  rw [child, ofString_of_notMem hn.nonempty hn.notDot hn.noSeparator]
  rfl

/-- Only the slashes at the start of a text, which a text behind it does not add to, say where the
path starts. -/
theorem anchorOf_append (hcs : cs ≠ []) (hsep : cs.getLast? ≠ some '/' ∨ ds.head? ≠ some '/') :
    anchorOf (cs ++ ds) = anchorOf cs := by
  match cs with
  | [c] =>
      by_cases hc : c = '/' <;> cases ds <;> simp_all [anchorOf]
  | [c, d] =>
      by_cases hc : c = '/' <;> by_cases hd : d = '/' <;> cases ds <;> simp_all [anchorOf]
  | c :: d :: e :: rest =>
      by_cases hc : c = '/' <;> by_cases hd : d = '/' <;> by_cases he : e = '/' <;>
        simp_all [anchorOf]

theorem partsOf_append (cs ds : List Char) :
    partsOf (cs ++ '/' :: ds) = partsOf cs ++ partsOf ds := by
  simp [partsOf, Text.splitOn_append_cons]

theorem partsOf_of_isPart (hn : IsPart n) : partsOf n.toList = [n] :=
  congrArg parts (ofString_of_notMem hn.nonempty hn.notDot hn.noSeparator)

/-- A component behind a text and a separator is one behind the path that the text is. -/
theorem ofString_append_separator (hs : s ≠ "") (hlast : s.toList.getLast? ≠ some '/')
    (hn : IsPart n) : ofString (s ++ "/" ++ n) = (ofString s).child n := by
  have htext : (s ++ "/" ++ n).toList = s.toList ++ '/' :: n.toList := by
    have hslash : "/".toList = ['/'] := by decide
    rw [String.toList_append, String.toList_append, hslash, List.append_assoc]
    rfl
  rw [child_of_isPart hn, ofString, htext, partsOf_append, partsOf_of_isPart hn,
    anchorOf_append (fun hnil => hs (String.toList_eq_nil_iff.1 hnil)) (.inl hlast)]
  rfl

/-- No separator is needed behind a text that ends in one. -/
theorem ofString_append_of_separator (hlast : s.toList.getLast? = some '/') (hn : IsPart n) :
    ofString (s ++ n) = (ofString s).child n := by
  obtain ⟨cs, hcs⟩ := List.getLast?_eq_some_iff.1 hlast
  have hparts : partsOf (s.toList ++ n.toList) = partsOf s.toList ++ [n] := by
    have hbare : partsOf s.toList = partsOf cs := by
      rw [hcs, partsOf_append]
      exact List.append_nil _
    rw [hbare, hcs, List.append_assoc]
    exact (partsOf_append cs n.toList).trans (congrArg _ (partsOf_of_isPart hn))
  have hhead : n.toList.head? ≠ some '/' := fun hhead =>
    hn.noSeparator (List.mem_of_mem_head? hhead)
  rw [child_of_isPart hn, ofString, String.toList_append, hparts,
    anchorOf_append (by simp [hcs]) (.inr hhead)]
  rfl

theorem text_ne_empty (hp : ∀ n ∈ p.parts, IsPart n) : p.text ≠ "" := by
  intro hempty
  have hback : p = ofString "" := by rw [← hempty, ofString_text hp]
  rw [hback] at hempty
  revert hempty
  decide

end Path
end Files

theorem Text.endsWith_singleton {c : Char} {cs : List Char} :
    endsWith [c] cs = true ↔ cs.getLast? = some c := by
  rw [endsWith, startsWith_iff, ← List.head?_reverse, List.head?_eq_some_iff]
  rfl

/-- The pattern for the libraries of a folder is the path of their names in it. -/
theorem Compiler.Crossgen.ofString_librariesOf {folder : Path}
    (hfolder : ∀ n ∈ folder.parts, IsPart n) :
    Path.ofString (librariesOf folder) = folder.child "*.dll" := by
  have hpattern : IsPart "*.dll" := ⟨by decide, by decide, by decide⟩
  unfold librariesOf
  dsimp only
  split
  · next hlast =>
    rw [Path.ofString_append_of_separator (Text.endsWith_singleton.1 hlast) hpattern,
      Path.ofString_text hfolder]
  · next hlast =>
    have hseparated : folder.text ++ "/*.dll" = folder.text ++ "/" ++ "*.dll" := by
      rw [String.append_assoc]
      rfl
    rw [hseparated, Path.ofString_append_separator (Path.text_ne_empty hfolder)
      (fun h => hlast (Text.endsWith_singleton.2 h)) hpattern, Path.ofString_text hfolder]

namespace Target

variable {project output : String}

theorem outputFolder_eq_join (project output : String) :
    outputFolder project output = (Path.ofString project).parent.join (Path.ofString output) := by
  unfold outputFolder Path.join
  dsimp only
  split <;> rfl

theorem isPart_outputFolder : ∀ n ∈ (outputFolder project output).parts, IsPart n := by
  rw [outputFolder_eq_join]
  apply Path.isPart_join
  · exact fun n hn => Path.isPart_of_mem_ofString (List.dropLast_subset _ hn)
  · exact fun n hn => Path.isPart_of_mem_ofString hn

theorem isAbsolute_outputFolder_iff :
    (outputFolder project output).isAbsolute = true ↔ IsRooted project ∨ IsRooted output := by
  rw [outputFolder_eq_join, Path.isAbsolute_join, Bool.or_eq_true, Path.isAbsolute_parent,
    Path.isAbsolute_ofString_iff, Path.isAbsolute_ofString_iff]

end Target

/-! ## Where the libraries are looked for -/

/-- A process that is started with a call starts in the first directory and looks in the second one
for the libraries that the last argument refers to. -/
structure Invocation.LooksIn (call : Invocation) (t : Tree) (here l m : Location) : Prop where
  starts : ∃ directory, call.directory = some directory ∧
    t.locate here (Path.ofString directory) = .ok l
  follows : ∃ reference, call.args.getLast? = some ("-r:" ++ reference) ∧
    (Path.ofString reference).name = "*.dll" ∧
    t.locate l (Path.ofString reference).parent = .ok m

/-- A call is made in a folder and refers to the libraries there by the name of the folder. -/
structure RefersTo (folder : Path) (call : Invocation) : Prop where
  /-- The process follows the name from the working directory and then, from the folder, again. -/
  followed : ∀ t here l m, call.LooksIn t here l m ↔
    t.locate here folder = .ok l ∧ t.locate l folder = .ok m
  /-- An absolute name leads to the libraries of the folder itself. -/
  absolute : folder.isAbsolute = true → ∀ t here l m, call.LooksIn t here l m ↔
    t.locate here folder = .ok l ∧ m = l
  /-- A relative name leads to another directory, below the folder. -/
  relative : folder.isAbsolute = false → (∀ n ∈ folder.parts, n ≠ "..") →
    ∀ t here l m, call.LooksIn t here l m →
      m = l ++ folder.parts ∧ (m = l ↔ folder.parts = [])

namespace Files.Tree

variable {t : Tree} {l m : Location} {p : Path}

theorem locate_of_isAbsolute (habsolute : p.isAbsolute = true) (here l : Location) :
    t.locate l p = t.locate here p := by
  rw [locate, locate, habsolute]
  rfl

theorem eq_of_locate_relative (hrelative : p.isAbsolute = false) (hdots : ∀ n ∈ p.parts, n ≠ "..")
    (hlocate : t.locate l p = .ok m) : m = l ++ p.parts := by
  have hspelled := spelled_of_locate hlocate
  rw [Path.spelled, hrelative, if_neg Bool.false_ne_true,
    Path.foldl_enter_of_noDots hdots] at hspelled
  exact hspelled.symm

end Files.Tree

theorem refersTo_of_texts {folder : Path} {directory reference : String} {call : Invocation}
    (hdirectory : call.directory = some directory) (hfolder : Path.ofString directory = folder)
    (hlast : call.args.getLast? = some ("-r:" ++ reference))
    (hreference : Path.ofString reference = folder.child "*.dll") : RefersTo folder call := by
  have hpattern : IsName "*.dll" := ⟨by decide, by decide, by decide, by decide, by decide⟩
  have hfollowed (t here l m) : call.LooksIn t here l m ↔
      t.locate here folder = .ok l ∧ t.locate l folder = .ok m := by
    constructor
    · rintro ⟨⟨directory', hdirectory', hl⟩, ⟨reference', hlast', -, hm⟩⟩
      rw [hdirectory, Option.some.injEq] at hdirectory'
      rw [hlast, Option.some.injEq, String.append_right_inj] at hlast'
      subst hdirectory' hlast'
      rw [hreference, hpattern.parent_child] at hm
      exact ⟨hfolder ▸ hl, hm⟩
    · rintro ⟨hl, hm⟩
      refine ⟨⟨directory, hdirectory, hfolder ▸ hl⟩, reference, hlast, ?_, ?_⟩
      · rw [hreference, hpattern.name_child]
      · rw [hreference, hpattern.parent_child, hm]
  refine ⟨hfollowed, fun habsolute t here l m => ?_, fun hrelative hdots t here l m hlooks => ?_⟩
  · rw [hfollowed, Tree.locate_of_isAbsolute habsolute here l]
    refine and_congr_right fun hl => ?_
    rw [hl, Except.ok.injEq, eq_comm]
  · have hm : m = l ++ folder.parts :=
      Tree.eq_of_locate_relative hrelative hdots ((hfollowed t here l m).1 hlooks).2
    refine ⟨hm, ?_⟩
    rw [hm, List.append_right_eq_self]

namespace Execution

variable {host : Host} {j : Job} {b b' : Bench} {vars : Compiler.Variables} {call : Invocation}

/-- What the folder of a job is, and how the ahead-of-time compiler is referred to the libraries
that were published there. -/
structure NamesFolder (j : Job) : Prop where
  folder : j.target.folder = (Path.ofString j.project).parent.join (Path.ofString j.output)
  absolute : j.target.folder.isAbsolute = true ↔ IsRooted j.project ∨ IsRooted j.output
  refers : j.settings.crossgenSelected = true → j.settings.reload = .publish →
    ∀ tools host vars call b b',
      (prepare tools host j).run.run b = (.ok (vars, call), b') → RefersTo j.target.folder call

theorem refersTo_of_crossgenCall (hpublish : j.settings.reload = .publish)
    (hcall : (crossgenCall host j vars).run.run b = (.ok call, b')) :
    RefersTo j.target.folder call := by
  have hparts : ∀ n ∈ j.target.folder.parts, IsPart n := Target.isPart_outputFolder
  obtain ⟨made, hmade, -, rfl⟩ := exists_of_crossgenCall hcall
  obtain ⟨jit, pack, extra, -, -, rfl⟩ := Compiler.Crossgen.call_eq_ok_iff.1 hmade
  refine refersTo_of_texts rfl (Path.ofString_text hparts) ?_
    (Compiler.Crossgen.ofString_librariesOf hparts)
  dsimp only
  rw [Compiler.Crossgen.references, if_pos hpublish, List.getLast?_concat]

/-- The folder of a job is as absolute as the project and the output directory make it, and the
libraries that were published there are referred to by its name. -/
theorem job_namesFolder (j : Job) : NamesFolder j where
  folder := Target.outputFolder_eq_join j.project j.output
  absolute := Target.isAbsolute_outputFolder_iff
  refers hcrossgen hpublish tools host vars call b b' hprepare := by
    unfold prepare at hprepare
    obtain ⟨_, b₁, _, hloaded⟩ := exists_of_run_bind_ok hprepare
    obtain ⟨vars', b₂, _, hcalling⟩ := exists_of_run_bind_ok hloaded
    obtain ⟨call', b₃, hcall, hlast⟩ := exists_of_run_bind_ok hcalling
    cases hlast
    unfold invocation at hcall
    rw [hcrossgen, if_pos rfl] at hcall
    obtain ⟨made, b₄, hmade, hreport⟩ := exists_of_run_bind_ok hcall
    cases hreport
    exact refersTo_of_crossgenCall hpublish hmade

/-- A checkout with a compiler, a library pack and a project that was published. -/
def publishedBench : Bench where
  files := ⟨[
    ("rt", .dir [("artifacts", .dir [("bin", .dir [
      ("coreclr", .dir [("linux.x64.Checked", .dir [])]),
      ("runtime", .dir [("net9.0-linux-Release-x64", .dir [])])])])]),
    ("App", .dir [("out", .dir [("App.dll", .file [1] false)])]), ("tmp", .dir [])]⟩
  here := []
  temporary := ⟨.root, ["tmp"]⟩

def publishedJob : Job where
  symbol := { qualifiedClass := "App.Program", className := "Program", method := some "Main" }
  settings := {
    runtimeRoot := "rt", arch := some "x64", reload := .publish, selectedJit := some crossgenJit }
  project := "App/App.csproj"
  framework := "net8.0"
  output := "out"

/-- The compiler is started in `App/out` and looks for the libraries in `App/out/App/out`. -/
theorem job_namesFolder_relative :
    let tools : Tools := fun _ _ t => { files := t, outcome := .ok {} }
    publishedJob.target.folder = ⟨.relative, ["App", "out"]⟩ ∧
      ∃ vars call b',
        (prepare tools {} publishedJob).run.run publishedBench = (.ok (vars, call), b') ∧
        RefersTo publishedJob.target.folder call ∧
        ∀ t here l m, call.LooksIn t here l m → m = l ++ ["App", "out"] ∧ m ≠ l := by
  intro tools
  have hnames : NamesFolder publishedJob := job_namesFolder publishedJob
  have hfolder : publishedJob.target.folder = ⟨.relative, ["App", "out"]⟩ := by
    rw [hnames.folder]
    decide
  have hprepared : ((prepare tools {} publishedJob).run.run publishedBench).1.isOk = true := by
    decide +kernel
  rcases hprepare : (prepare tools {} publishedJob).run.run publishedBench with
    ⟨f | ⟨vars, call⟩, b'⟩
  · rw [hprepare] at hprepared
    cases hprepared
  · have hrefers := hnames.refers rfl rfl tools {} vars call publishedBench b' hprepare
    refine ⟨hfolder, vars, call, b', rfl, hrefers, fun t here l m hlooks => ?_⟩
    have hrelative := hrefers.relative
    rw [hfolder] at hrelative
    obtain ⟨hm, hsame⟩ := hrelative rfl (by decide) t here l m hlooks
    exact ⟨hm, fun heq => absurd (hsame.1 heq) (by decide)⟩

end Execution
end JitLens
