import JitLens.Proofs.Compiler.Crossgen
import JitLens.Proofs.Compiler.Layers
import JitLens.Proofs.Files.Listing
import JitLens.Settings.Change
/-!
# The compilers on offer

The compilers of a build are offered in increasing order, and the ahead-of-time compiler behind them
where the default one is among them.  Whichever of them is selected, it is of one kind only: the
ahead-of-time compiler, a default one, or one whose name a run is told by a variable.
-/

namespace JitLens

open Files Compiler.Variables

namespace Compiler.Variables

/-! ## The variable with the name of a compiler -/

variable {s : Settings} {method filter value : String} {pack : Found} {b b' : Bench}
  {vars : Variables}

theorem derives_altJitName_iff : Derives s filter pack altJitName value ↔ Selects s value := by
  constructor
  · intro hderives
    have hcapture := (captureName_ne s.capture).1
    generalize hname : altJitName = k at hderives
    cases hderives with
    | altJitName hjit => exact hjit
    | capture => exact absurd hname.symm hcapture
    | altJit _ => exact absurd hname (by decide)
    | tieredPgo => exact absurd hname (by decide)
    | coreLibraries _ _ => exact absurd hname (by decide)
    | tieredCompilation => exact absurd hname (by decide)
  · exact .altJitName

theorem exists_all_of_run_prepare
    (hrun : (prepare s method filter pack).run.run b = (.ok (.ok vars), b')) :
    ∃ file, vars = all s filter pack file := by
  by_cases hrefused : Refused s method pack
  · rw [run_prepare_of_refused hrefused] at hrun
    cases hrun
  · cases hgraph : s.flowGraph with
    | false =>
        rw [run_prepare_plain hrefused hgraph] at hrun
        cases hrun
        exact ⟨_, rfl⟩
    | true =>
        cases hcreate : b.files.create b.here (b.nextFile "") [] with
        | ok t =>
            rw [run_prepare_graph hrefused hgraph hcreate] at hrun
            cases hrun
            exact ⟨_, rfl⟩
        | error e =>
            rw [run_prepare_unwritable hrefused hgraph hcreate] at hrun
            cases hrun

/-- Unless the user sets it, the variable with the name of another compiler has that of the one
that is selected in place of the default one. -/
theorem get?_altJitName
    (hrun : (prepare s method filter pack).run.run b = (.ok (.ok vars), b'))
    (huser : ∀ v, ¬ UserSets s.customVars altJitName v) :
    Table.get? vars altJitName = some value ↔ Selects s value := by
  obtain ⟨file, rfl⟩ := exists_all_of_run_prepare hrun
  have hderives : Derives s filter pack altJitName value ↔ Selects s value :=
    derives_altJitName_iff
  rw [get?_all, ← hderives]
  have hgraph : altJitName ∉ graphNames := by decide
  constructor
  · intro hvalue
    cases hvalue with
    | graph _ hdraws => exact absurd hdraws.mem_graphNames hgraph
    | user _ hsets => exact absurd hsets (huser _)
    | settings _ _ hderives => exact hderives
  · exact .settings (fun _ => hgraph) huser

end Compiler.Variables

namespace Compiler

variable {t : Tree} {here : Location} {host : Host} {s s' : Settings} {folder : Path} {j n : String}

/-! ## What is offered -/

/-- A file in a directory that is named like a compiler. -/
structure IsCompiler (t : Tree) (here : Location) (folder : Path) (n : String) : Prop where
  file : t.isFile here (folder.entry n) = true
  named : "clrjit".toList <+: n.toList ∨ "libclrjit".toList <+: n.toList

theorem isCompilerName_iff :
    isCompilerName n = true ↔ "clrjit".toList <+: n.toList ∨ "libclrjit".toList <+: n.toList := by
  rw [isCompilerName, Bool.or_eq_true, Text.startsWith_iff_isPrefix, Text.startsWith_iff_isPrefix]

theorem IsCompiler.ne_dots (hcompiler : IsCompiler t here folder n) : n ≠ ".." := by
  rintro rfl
  exact absurd (isCompilerName_iff.2 hcompiler.named) (by decide)

/-- The names of the compilers in a directory. -/
def compilersIn (t : Tree) (here : Location) (folder : Path) : List String :=
  (t.namesAt here folder).filter fun n => t.isFile here (folder.entry n) && isCompilerName n

theorem mem_compilersIn : n ∈ compilersIn t here folder ↔ IsCompiler t here folder n := by
  rw [compilersIn, List.mem_filter, Bool.and_eq_true, isCompilerName_iff]
  constructor
  · exact fun ⟨_, hfile, hnamed⟩ => ⟨hfile, hnamed⟩
  · intro hcompiler
    have hholds := Tree.holds_of_isFile hcompiler.file
    exact ⟨Tree.mem_namesAt hcompiler.ne_dots hholds, hcompiler.file, hcompiler.named⟩

theorem pairwise_compilersIn (t : Tree) (here : Location) (folder : Path) :
    (compilersIn t here folder).Pairwise (· < ·) := by
  refine List.Pairwise.filter _ ?_
  unfold Tree.namesAt
  split
  · exact Tree.pairwise_names t _
  · exact List.Pairwise.nil

theorem offeredJits_eq (hcustom : s.customRuntime = true)
    (hfolder : jitFolder? t here s.runtimeRoot (s.targetArch host) host.os = some folder) :
    offeredJits t here host s =
      if (compilersIn t here folder).any isDefaultJit then
        compilersIn t here folder ++ [crossgenJit]
      else compilersIn t here folder := by
  rw [offeredJits, hcustom, if_neg (by decide), hfolder]
  rfl

theorem isCompiler_or_eq_crossgenJit (hcustom : s.customRuntime = true)
    (hfolder : jitFolder? t here s.runtimeRoot (s.targetArch host) host.os = some folder)
    (hj : j ∈ offeredJits t here host s) : IsCompiler t here folder j ∨ j = crossgenJit := by
  rw [offeredJits_eq hcustom hfolder] at hj
  split at hj
  · rw [List.mem_append, List.mem_singleton, mem_compilersIn] at hj
    exact hj
  · exact .inl (mem_compilersIn.1 hj)

/-! ## What a name stands for -/

theorem isCrossgen_of_named
    (hnamed : "clrjit".toList <+: n.toList ∨ "libclrjit".toList <+: n.toList) :
    isCrossgen n = false := by
  rw [← Bool.not_eq_true, isCrossgen, Text.startsWith_iff_isPrefix]
  intro hcrossgen
  rcases hnamed with hnamed | hnamed
  · exact absurd (List.prefix_or_prefix_of_prefix hnamed hcrossgen) (by decide)
  · exact absurd (List.prefix_or_prefix_of_prefix hnamed hcrossgen) (by decide)

theorem isCrossgen_offered (hcustom : s.customRuntime = true)
    (hfolder : jitFolder? t here s.runtimeRoot (s.targetArch host) host.os = some folder)
    (hj : j ∈ offeredJits t here host s) : isCrossgen j = true ↔ j = crossgenJit := by
  rcases isCompiler_or_eq_crossgenJit hcustom hfolder hj with hcompiler | rfl
  · have hnot := isCrossgen_of_named hcompiler.named
    refine iff_of_false (by simp [hnot]) ?_
    rintro rfl
    exact absurd hnot (by decide)
  · exact iff_of_true (by decide) rfl

theorem blankString_of_named
    (hnamed : "clrjit".toList <+: n.toList ∨ "libclrjit".toList <+: n.toList) :
    Text.blankString n = false := by
  have hletter : 'c' ∈ n.toList := by
    rcases hnamed with hnamed | hnamed
    · exact hnamed.subset (by decide)
    · exact hnamed.subset (by decide)
  rw [← Bool.not_eq_true, Text.blankString, Text.allBlank, List.all_eq_true]
  exact fun hblank => absurd (hblank _ hletter) (by decide)

/-- A run is told the name of the selected compiler if it is neither the ahead-of-time compiler nor
a default one. -/
theorem selects_offered_iff (hcustom : s.customRuntime = true)
    (hfolder : jitFolder? t here s.runtimeRoot (s.targetArch host) host.os = some folder)
    (hj : j ∈ offeredJits t here host s) (hselected : s'.selectedJit = some j) :
    Selects s' n ↔ n = j ∧ j ≠ crossgenJit ∧ isDefaultJit j = false := by
  have hcrossgen := isCrossgen_offered hcustom hfolder hj
  unfold Selects
  rw [hselected, Option.some.injEq]
  constructor
  · rintro ⟨rfl, -, hnot, hdefault⟩
    exact ⟨rfl, fun heq => by simp [hcrossgen.2 heq] at hnot, hdefault⟩
  · rintro ⟨rfl, hne, hdefault⟩
    have hcompiler := (isCompiler_or_eq_crossgenJit hcustom hfolder hj).resolve_right hne
    exact ⟨rfl, blankString_of_named hcompiler.named, isCrossgen_of_named hcompiler.named, hdefault⟩

/-! ## Selecting what is offered -/

theorem applyAll_selectedJit (s : Settings) (j : String) :
    s.applyAll [("selected_custom_jit", .text j)] =
      .ok (s.apply (.optional .selectedJit (some j))) := rfl

theorem customVars_forCrossgen (s : Settings) : s.forCrossgen.customVars = s.customVars := by
  unfold Settings.forCrossgen Settings.withCapture
  split <;> rfl

theorem customVars_apply_selectedJit (s : Settings) (j : String) :
    (s.apply (.optional .selectedJit (some j))).customVars = s.customVars := by
  rw [Settings.apply]
  dsimp only
  split
  · exact customVars_forCrossgen s
  · rfl

/-- What becomes of a compiler that has been selected. -/
structure Selection (s' : Settings) (j : String) : Prop where
  selected : s'.selectedJit = some j
  crossgen_iff : s'.crossgenSelected = true ↔ j = crossgenJit
  altJitName : ∀ method filter pack b vars b',
    (prepare s' method filter pack).run.run b = (.ok (.ok vars), b') →
    (∀ v, ¬ UserSets s'.customVars altJitName v) →
    ∀ v, Table.get? vars altJitName = some v ↔
      v = j ∧ j ≠ crossgenJit ∧ isDefaultJit j = false

/-- The compilers that are offered where those of a build are in a directory. -/
structure Offer (t : Tree) (here : Location) (host : Host) (s : Settings) (folder : Path) :
    Prop where
  listed : ∃ jits : List String, jits.Pairwise (· < ·) ∧
    (∀ n, n ∈ jits ↔ IsCompiler t here folder n) ∧
    ((∃ n ∈ jits, isDefaultJit n = true) → offeredJits t here host s = jits ++ [crossgenJit]) ∧
    ((∀ n ∈ jits, isDefaultJit n = false) → offeredJits t here host s = jits)
  selectable : ∀ j ∈ offeredJits t here host s, ∃ s',
    s.applyAll [("selected_custom_jit", .text j)] = .ok s' ∧ s'.customVars = s.customVars ∧
      Selection s' j

/-- All compilers on offer can be selected, and each is of one kind. -/
theorem offeredJits_offer (hcustom : s.customRuntime = true)
    (hfolder : jitFolder? t here s.runtimeRoot (s.targetArch host) host.os = some folder) :
    Offer t here host s folder where
  listed := by
    refine ⟨compilersIn t here folder, pairwise_compilersIn t here folder,
      fun _ => mem_compilersIn, fun hdefault => ?_, fun hnone => ?_⟩
    · rw [offeredJits_eq hcustom hfolder, if_pos (List.any_eq_true.2 hdefault)]
    · rw [offeredJits_eq hcustom hfolder, if_neg]
      rw [Bool.not_eq_true, List.any_eq_false]
      exact fun n hn => by simp [hnone n hn]
  selectable j hj := by
    have hselected : (s.apply (.optional .selectedJit (some j))).selectedJit = some j := rfl
    refine ⟨_, applyAll_selectedJit s j, customVars_apply_selectedJit s j, hselected, ?_, ?_⟩
    · rw [Settings.crossgenSelected, hselected]
      exact isCrossgen_offered hcustom hfolder hj
    · intro method filter pack b vars b' hrun huser v
      rw [get?_altJitName hrun huser]
      exact selects_offered_iff hcustom hfolder hj hselected

/-- A build with a default compiler, one for another machine, and what is no compiler. -/
def builtBench : Bench where
  files := ⟨[("rt", .dir [("artifacts", .dir [("bin", .dir [("coreclr", .dir [
    ("linux.x64.Checked", .dir [
      ("libclrjit_unix_arm64_x64.so", .file [] false), ("clrjit_logs", .dir []),
      ("libclrjit.so", .file [] false), ("corerun", .file [] true)])])])])])]⟩
  here := []
  temporary := ⟨.root, ["tmp"]⟩

/-- The compiler for the other machine is offered, and a run is told its name once selected. -/
theorem offeredJits_offer_built :
    let s : Settings := { runtimeRoot := "rt", arch := some "x64", reload := .publish }
    let folder := (compilers "rt").child "linux.x64.Checked"
    let other := "libclrjit_unix_arm64_x64.so"
    s.customRuntime = true ∧
      jitFolder? builtBench.files [] s.runtimeRoot (s.targetArch {}) "linux" = some folder ∧
      Offer builtBench.files [] {} s folder ∧
      (∃ jits, offeredJits builtBench.files [] {} s = jits ++ [crossgenJit] ∧ other ∈ jits ∧
        "clrjit_logs" ∉ jits) ∧
      ∃ s' vars, s.applyAll [("selected_custom_jit", .text other)] = .ok s' ∧
        (prepare s' "Main" "Main" {}).run.run builtBench = (.ok (.ok vars), builtBench) ∧
        Table.get? vars altJitName = some other := by
  intro s folder other
  have hfolder : jitFolder? builtBench.files [] s.runtimeRoot (s.targetArch {}) "linux" =
      some folder := by decide +kernel
  have hoffer : Offer builtBench.files [] {} s folder := offeredJits_offer rfl hfolder
  obtain ⟨jits, -, hlisted, hdefault, -⟩ := hoffer.listed
  have hother : other ∈ jits := (hlisted _).2 ⟨by decide +kernel, by decide⟩
  have hlibrary : "libclrjit.so" ∈ jits := (hlisted _).2 ⟨by decide +kernel, by decide⟩
  have hlogs : "clrjit_logs" ∉ jits := fun hmem =>
    absurd ((hlisted _).1 hmem).file (by decide +kernel)
  have hoffered := hdefault ⟨_, hlibrary, by decide⟩
  obtain ⟨s', happly, hvars, hselection⟩ := hoffer.selectable other
    (by rw [hoffered]; exact List.mem_append_left _ hother)
  obtain rfl := Except.ok.inj happly
  have hrun : (prepare (s.apply (.optional .selectedJit (some other))) "Main" "Main" {}).run.run
      builtBench = (.ok (.ok _), builtBench) :=
    run_prepare_plain (not_or.2 ⟨fun hpack => absurd hpack.1 (by decide),
      fun hgraph => absurd hgraph.1 (by decide)⟩) (by decide)
  refine ⟨rfl, hfolder, hoffer, ⟨jits, hoffered, hother, hlogs⟩, _, _, happly, hrun, ?_⟩
  refine (hselection.altJitName _ _ _ _ _ _ hrun ?_ _).2 ⟨rfl, by decide, by decide⟩
  rintro v ⟨text, _, _, _, htext, -⟩
  rw [hvars] at htext
  cases htext

end Compiler
end JitLens
