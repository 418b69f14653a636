import JitLens.Compiler.Variables
import JitLens.Proofs.Bench
/-!
# Layers of variables

The variables of a run come in three layers.  Those that follow from the settings lie at the
bottom, the lines of the user over them, and the flow graph on top.  Here is what each layer
gives a variable, and that a run gets the value of the topmost layer that has one.
-/

namespace JitLens.Compiler.Variables

open Files JitLens.Action

variable {s : Settings} {filter : String} {pack : Found} {name value : String}

/-! ## The settings -/

/-- A compiler is selected in place of the default one. -/
def Selects (s : Settings) (jit : String) : Prop :=
  s.selectedJit = some jit ∧ Text.blankString jit = false ∧ isCrossgen jit = false ∧
    isDefaultJit jit = false

/-- What follows from the settings: the value of each variable that has one. -/
inductive Derives (s : Settings) (filter : String) (pack : Found) : String → String → Prop where
  | capture : Derives s filter pack (captureName s.capture) filter
  | altJitName {jit : String} (hjit : Selects s jit) : Derives s filter pack altJitName jit
  | altJit {jit : String} (hjit : Selects s jit) : Derives s filter pack altJit filter
  | tieredPgo : Derives s filter pack tieredPgo (switch s.pgo)
  | coreLibraries {folder : Path} (hbuild : s.reload = .build)
      (hpack : pack.path? = some folder) : Derives s filter pack coreLibraries folder.text
  | tieredCompilation : Derives s filter pack tieredCompilation (switch s.tieredJit)

theorem alternateJit?_eq_some_iff {jit : String} :
    s.alternateJit? = some jit ↔ Selects s jit := by
  unfold Settings.alternateJit? Selects
  rw [Option.filter_eq_some_iff]
  simp [and_assoc]

def packOf (s : Settings) (pack : Found) : Option Path :=
  if s.reload = .build then pack.path? else none

theorem packOf_eq_some_iff {folder : Path} :
    packOf s pack = some folder ↔ s.reload = .build ∧ pack.path? = some folder := by
  unfold packOf
  split
  · next hbuild => simp [hbuild]
  · next hpublish => simp [hpublish]

/-- The variables that follow from the settings, in their order. -/
def derivedEntries (s : Settings) (filter : String) (pack : Option Path) :
    List (String × String) :=
  [(captureName s.capture, filter)] ++
    (match s.alternateJit? with
      | some jit => [(altJitName, jit), (altJit, filter)]
      | none => []) ++
    [(tieredPgo, switch s.pgo)] ++
    (match pack with
      | some folder => [(coreLibraries, folder.text)]
      | none => []) ++
    [(tieredCompilation, switch s.tieredJit)]

theorem derived_eq (s : Settings) (filter : String) (pack : Option Path) :
    derived s filter pack = Table.putAll [] (derivedEntries s filter pack) := by
  unfold derived derivedEntries
  cases s.alternateJit? with
  | none => cases pack <;> rfl
  | some jit => cases pack <;> rfl

/-- The names of the variables for methods to print differ from all others that follow from the
settings. -/
theorem captureName_ne (m : CaptureMode) :
    captureName m ≠ altJitName ∧ captureName m ≠ altJit ∧ captureName m ≠ tieredPgo ∧
      captureName m ≠ coreLibraries ∧ captureName m ≠ tieredCompilation := by
  cases m <;> decide

theorem nodup_derivedEntries (s : Settings) (filter : String) (pack : Option Path) :
    ((derivedEntries s filter pack).map Prod.fst).Nodup := by
  have hnames : [captureName s.capture, altJitName, altJit, tieredPgo, coreLibraries,
      tieredCompilation].Nodup := by
    cases s.capture <;> decide
  refine hnames.sublist ?_
  unfold derivedEntries
  cases s.alternateJit? with
  | none => cases pack <;> simp
  | some jit => cases pack <;> simp

theorem mem_derivedEntries :
    (name, value) ∈ derivedEntries s filter (packOf s pack) ↔ Derives s filter pack name value := by
  unfold derivedEntries
  simp only [List.mem_append, List.mem_singleton, Prod.mk.injEq]
  constructor
  · rintro ((((⟨rfl, rfl⟩ | hjit) | ⟨rfl, rfl⟩) | hpack) | ⟨rfl, rfl⟩)
    · exact .capture
    · cases halternate : s.alternateJit? with
      | none => simp [halternate] at hjit
      | some jit =>
          have hselects := alternateJit?_eq_some_iff.1 halternate
          simp only [halternate, List.mem_cons, Prod.mk.injEq, List.not_mem_nil, or_false] at hjit
          rcases hjit with ⟨rfl, rfl⟩ | ⟨rfl, rfl⟩
          · exact .altJitName hselects
          · exact .altJit hselects
    · exact .tieredPgo
    · cases hfolder : packOf s pack with
      | none => simp [hfolder] at hpack
      | some folder =>
          obtain ⟨hbuild, hpath⟩ := packOf_eq_some_iff.1 hfolder
          simp only [hfolder, List.mem_singleton, Prod.mk.injEq] at hpack
          obtain ⟨rfl, rfl⟩ := hpack
          exact .coreLibraries hbuild hpath
    · exact .tieredCompilation
  · intro hderives
    cases hderives with
    | capture => simp
    | altJitName hjit => simp [alternateJit?_eq_some_iff.2 hjit]
    | altJit hjit => simp [alternateJit?_eq_some_iff.2 hjit]
    | tieredPgo => simp
    | coreLibraries hbuild hpack => simp [packOf_eq_some_iff.2 ⟨hbuild, hpack⟩]
    | tieredCompilation => simp

theorem get?_derived :
    Table.get? (derived s filter (packOf s pack)) name = some value ↔
      Derives s filter pack name value := by
  rw [derived_eq, Table.get?_putAll_of_nodup (nodup_derivedEntries s filter _),
    mem_derivedEntries]
  simp

theorem eq_of_captureName {m n : CaptureMode} (hname : captureName m = captureName n) : m = n := by
  cases m <;> cases n <;> first | rfl | exact absurd hname (by decide)

/-- Just the variable of the capture mode names the methods to print. -/
theorem derives_captureName_iff {m : CaptureMode} :
    Derives s filter pack (captureName m) value ↔ m = s.capture ∧ value = filter := by
  constructor
  · intro hderives
    obtain ⟨hjitName, hjit, hpgo, hcore, htiers⟩ := captureName_ne m
    generalize hname : captureName m = k at hderives
    cases hderives with
    | capture => exact ⟨eq_of_captureName hname, rfl⟩
    | altJitName _ => exact absurd hname hjitName
    | altJit _ => exact absurd hname hjit
    | tieredPgo => exact absurd hname hpgo
    | coreLibraries _ _ => exact absurd hname hcore
    | tieredCompilation => exact absurd hname htiers
  · rintro ⟨rfl, rfl⟩
    exact .capture

/-! ## The user -/

/-- A line that gives a variable its value: it has one equal sign, with the name before it and
the value behind it. -/
def Assigns (line : List Char) (name value : String) : Prop :=
  ∃ left right, line = left ++ '=' :: right ∧ '=' ∉ left ∧ '=' ∉ right ∧
    name = String.ofList (Text.trim left) ∧ value = String.ofList (Text.trim right)

/-- The last line of the user that is for a variable gives it its value. -/
def UserSets (text : Option String) (name value : String) : Prop :=
  ∃ t before line after, text = some t ∧ Text.lines t.toList = before ++ line :: after ∧
    Assigns line name value ∧ ∀ l ∈ after, ∀ v, ¬ Assigns l name v

theorem assignment?_eq_some_iff {line : List Char} :
    assignment? line = some (name, value) ↔ Assigns line name value := by
  unfold assignment? Assigns
  constructor
  · intro hline
    split at hline
    · next left right hsplit =>
      rw [Option.some.injEq, Prod.mk.injEq] at hline
      obtain ⟨hcut, hleft, hright⟩ := Text.splitOn_eq_pair_iff.1 hsplit
      exact ⟨left, right, hcut, hleft, hright, hline.1.symm, hline.2.symm⟩
    · cases hline
  · rintro ⟨left, right, hcut, hleft, hright, rfl, rfl⟩
    rw [Text.splitOn_eq_pair_iff.2 ⟨hcut, hleft, hright⟩]

theorem not_mem_assigned {ls : List (List Char)} :
    name ∉ (ls.filterMap assignment?).map Prod.fst ↔ ∀ l ∈ ls, ∀ v, ¬ Assigns l name v := by
  constructor
  · intro hnone l hl v hassigns
    have hmem : (name, v) ∈ ls.filterMap assignment? :=
      List.mem_filterMap.2 ⟨l, hl, assignment?_eq_some_iff.2 hassigns⟩
    exact hnone (List.mem_map_of_mem hmem)
  · intro hnone hmem
    obtain ⟨⟨n, v⟩, hentry, rfl⟩ := List.mem_map.1 hmem
    obtain ⟨l, hl, hline⟩ := List.mem_filterMap.1 hentry
    exact hnone l hl v (assignment?_eq_some_iff.1 hline)

/-- Of the lines for a variable the last one counts. -/
theorem get?_assigned {ls : List (List Char)} :
    Table.get? (ls.filterMap assignment?).reverse name = some value ↔
      ∃ before line after, ls = before ++ line :: after ∧ Assigns line name value ∧
        ∀ l ∈ after, ∀ v, ¬ Assigns l name v := by
  rw [Table.get?_eq_some_iff]
  constructor
  · rintro ⟨behind, ahead, hreverse, hbehind⟩
    rw [List.reverse_eq_iff] at hreverse
    have hassigned : ls.filterMap assignment? =
        ahead.reverse ++ (name, value) :: behind.reverse := by
      simpa using hreverse
    obtain ⟨start, rest, rfl, -, hrest⟩ := List.filterMap_eq_append_iff.1 hassigned
    obtain ⟨skipped, line, after, rfl, -, hline, hafter⟩ := List.filterMap_eq_cons_iff.1 hrest
    refine ⟨start ++ skipped, line, after, by simp, assignment?_eq_some_iff.1 hline, ?_⟩
    rw [← not_mem_assigned, hafter]
    simpa using hbehind
  · rintro ⟨before, line, after, rfl, hline, hafter⟩
    refine ⟨(after.filterMap assignment?).reverse, (before.filterMap assignment?).reverse, ?_, ?_⟩
    · simp [assignment?_eq_some_iff.2 hline]
    · rw [List.map_reverse, List.mem_reverse]
      exact not_mem_assigned.2 hafter

theorem get?_assignments {text : Option String} :
    Table.get? (assignments text).reverse name = some value ↔ UserSets text name value := by
  unfold assignments UserSets
  cases text with
  | none => simp
  | some t => simpa using get?_assigned

theorem get?_withUser {vars : Variables} {text : Option String} :
    Table.get? (withUser vars text) name = some value ↔
      UserSets text name value ∨
        (∀ v, ¬ UserSets text name v) ∧ Table.get? vars name = some value := by
  have hnone : Table.get? (assignments text).reverse name = none ↔
      ∀ v, ¬ UserSets text name v := by
    simp only [Option.eq_none_iff_forall_ne_some, ne_eq, get?_assignments]
  rw [withUser, Table.get?_putAll, Option.or_eq_some_iff, get?_assignments, hnone]

/-! ## The flow graph -/

def graphNames : List String := [dumpGraph, dumpGraphDot, dumpGraphPhase, dumpGraphFile]

/-- What a flow graph in a file gives its variables. -/
inductive Draws (s : Settings) (filter : String) (file : Path) : String → String → Prop where
  | methods : Draws s filter file dumpGraph filter
  | drawing : Draws s filter file dumpGraphDot "1"
  | phase : Draws s filter file dumpGraphPhase (Text.trimmed (s.flowGraphPhase.getD ""))
  | file : Draws s filter file dumpGraphFile file.text

def graphEntries (s : Settings) (filter : String) (file : Path) : List (String × String) :=
  [(dumpGraph, filter), (dumpGraphDot, "1"),
    (dumpGraphPhase, Text.trimmed (s.flowGraphPhase.getD "")), (dumpGraphFile, file.text)]

theorem mem_graphEntries {file : Path} :
    (name, value) ∈ graphEntries s filter file ↔ Draws s filter file name value := by
  simp only [graphEntries, List.mem_cons, Prod.mk.injEq, List.not_mem_nil, or_false]
  constructor
  · rintro (⟨rfl, rfl⟩ | ⟨rfl, rfl⟩ | ⟨rfl, rfl⟩ | ⟨rfl, rfl⟩)
    · exact .methods
    · exact .drawing
    · exact .phase
    · exact .file
  · intro hdraws
    cases hdraws with
    | methods => simp
    | drawing => simp
    | phase => simp
    | file => simp

theorem get?_withGraph {vars : Variables} {file : Path} :
    Table.get? (withGraph vars s filter file) name = some value ↔
      Draws s filter file name value ∨ name ∉ graphNames ∧ Table.get? vars name = some value := by
  have hnames : (graphEntries s filter file).map Prod.fst = graphNames := rfl
  have hnodup : ((graphEntries s filter file).map Prod.fst).Nodup := by
    rw [hnames]
    decide
  have hput : withGraph vars s filter file = Table.putAll vars (graphEntries s filter file) := rfl
  rw [hput, Table.get?_putAll_of_nodup hnodup, mem_graphEntries, hnames]

/-! ## All layers -/

/-- The value of a variable is that of the topmost layer that has one.  The file is that of the
flow graph, if there is one. -/
inductive HasValue (s : Settings) (filter : String) (pack : Found) (file : Option Path)
    (name value : String) : Prop where
  | graph {f : Path} (hfile : file = some f) (hdraws : Draws s filter f name value)
  | user (hgraph : file ≠ none → name ∉ graphNames) (huser : UserSets s.customVars name value)
  | settings (hgraph : file ≠ none → name ∉ graphNames)
      (huser : ∀ v, ¬ UserSets s.customVars name v) (hderives : Derives s filter pack name value)

theorem get?_all {file : Option Path} :
    Table.get? (all s filter pack file) name = some value ↔
      HasValue s filter pack file name value := by
  have hvars : Table.get? (withUser (derived s filter (packOf s pack)) s.customVars) name =
      some value ↔ UserSets s.customVars name value ∨
        (∀ v, ¬ UserSets s.customVars name v) ∧ Derives s filter pack name value := by
    rw [get?_withUser, get?_derived]
  cases file with
  | none =>
      refine hvars.trans ⟨?_, ?_⟩
      · rintro (huser | ⟨huser, hderives⟩)
        · exact .user (by simp) huser
        · exact .settings (by simp) huser hderives
      · intro hvalue
        cases hvalue with
        | graph hfile => cases hfile
        | user _ huser => exact .inl huser
        | settings _ huser hderives => exact .inr ⟨huser, hderives⟩
  | some f =>
      refine (get?_withGraph.trans (or_congr Iff.rfl (and_congr Iff.rfl hvars))).trans ⟨?_, ?_⟩
      · rintro (hdraws | ⟨hgraph, huser | ⟨huser, hderives⟩⟩)
        · exact .graph rfl hdraws
        · exact .user (fun _ => hgraph) huser
        · exact .settings (fun _ => hgraph) huser hderives
      · intro hvalue
        cases hvalue with
        | graph hfile hdraws =>
            cases hfile
            exact .inl hdraws
        | user hgraph huser => exact .inr ⟨hgraph (by simp), .inl huser⟩
        | settings hgraph huser hderives =>
            exact .inr ⟨hgraph (by simp), .inr ⟨huser, hderives⟩⟩

def settingsNames (s : Settings) : List String :=
  [captureName s.capture, altJitName, altJit, tieredPgo, coreLibraries, tieredCompilation]

theorem Derives.mem_settingsNames (hderives : Derives s filter pack name value) :
    name ∈ settingsNames s := by
  unfold settingsNames
  cases hderives with
  | capture => simp
  | altJitName _ => simp
  | altJit _ => simp
  | tieredPgo => simp
  | coreLibraries _ _ => simp
  | tieredCompilation => simp

theorem Draws.mem_graphNames {file : Path} (hdraws : Draws s filter file name value) :
    name ∈ graphNames := by
  unfold graphNames
  cases hdraws with
  | methods => simp
  | drawing => simp
  | phase => simp
  | file => simp

/-- A variable that neither the settings nor the flow graph name has the value that the user
gives it. -/
theorem userSets_of_hasValue {file : Option Path} (hsettings : name ∉ settingsNames s)
    (hgraph : name ∉ graphNames) (hvalue : HasValue s filter pack file name value) :
    UserSets s.customVars name value := by
  cases hvalue with
  | graph _ hdraws => exact absurd hdraws.mem_graphNames hgraph
  | user _ huser => exact huser
  | settings _ _ hderives => exact absurd hderives.mem_settingsNames hsettings

/-! ## Preparing the variables -/

/-- The ways in which there are no variables for a run. -/
def Refused (s : Settings) (method : String) (pack : Found) : Prop :=
  s.reload = .build ∧ pack.path? = none ∨ s.flowGraph = true ∧ method = "*"

/-- Why there are none; the library pack is looked at first. -/
def refusal (s : Settings) (pack : Found) : Option String :=
  if s.reload = .build ∧ pack.path? = none then pack.error
  else some "Flowgraph for classes (all methods) is not supported yet."

theorem refusal?_of_refused {method : String} (hrefused : Refused s method pack) :
    refusal? s method pack = some (refusal s pack) := by
  unfold refusal? refusal
  simp only [Option.isNone_iff_eq_none]
  by_cases hpack : s.reload = .build ∧ pack.path? = none
  · rw [if_pos hpack, if_pos hpack]
  · have hgraph := hrefused.resolve_left hpack
    rw [if_neg hpack, if_neg hpack, if_pos hgraph]

theorem refusal?_of_not_refused {method : String} (hrefused : ¬ Refused s method pack) :
    refusal? s method pack = none := by
  obtain ⟨hpack, hgraph⟩ := not_or.1 hrefused
  unfold refusal?
  simp only [Option.isNone_iff_eq_none]
  rw [if_neg hpack, if_neg hgraph]

/-- What becomes of the variables of a run, which leaves a result and a bench. -/
structure Layered (s : Settings) (method filter : String) (pack : Found) (b : Bench)
    (r : Except Failure (Except (Option String) Variables) × Bench) : Prop where
  refused_iff : (∃ reason, r.1 = .ok (.error reason)) ↔ Refused s method pack
  /-- No file is made for a run that is refused. -/
  refused : Refused s method pack → r = (.ok (.error (refusal s pack)), b)
  /-- Nor is one made without a flow graph. -/
  plain : ¬ Refused s method pack → s.flowGraph = false →
    ∃ vars, r = (.ok (.ok vars), b) ∧
      ∀ k v, Table.get? vars k = some v ↔ HasValue s filter pack none k v
  /-- With a flow graph one file is made, an empty one. -/
  graph : ¬ Refused s method pack → s.flowGraph = true →
    ∀ t, b.files.create b.here (b.nextFile "") [] = .ok t →
    ∃ vars, r = (.ok (.ok vars), { b with files := t, drawn := b.nextNumber "" }) ∧
      ∀ k v, Table.get? vars k = some v ↔ HasValue s filter pack (some (b.nextFile "")) k v
  unwritable : ¬ Refused s method pack → s.flowGraph = true →
    ∀ e, b.files.create b.here (b.nextFile "") [] = .error e →
    r = (.error (.fault (.file e)), { b with drawn := b.nextNumber "" })
  /-- The settings name the methods to print in the variable of the capture mode, and in no
  other one of its kind. -/
  capture : ∀ m v, Derives s filter pack (captureName m) v ↔ m = s.capture ∧ v = filter

theorem run_prepare_of_refused {method : String} {b : Bench} (hrefused : Refused s method pack) :
    (prepare s method filter pack).run.run b = (.ok (.error (refusal s pack)), b) := by
  unfold prepare
  rw [refusal?_of_refused hrefused]
  rfl

theorem run_prepare_plain {method : String} {b : Bench} (hrefused : ¬ Refused s method pack)
    (hgraph : s.flowGraph = false) :
    (prepare s method filter pack).run.run b = (.ok (.ok (all s filter pack none)), b) := by
  unfold prepare
  rw [refusal?_of_not_refused hrefused, hgraph]
  rfl

theorem prepare_eq_graph {method : String} (hrefused : ¬ Refused s method pack)
    (hgraph : s.flowGraph = true) :
    prepare s method filter pack = (do
      let file ← Action.temporaryFile ""
      return .ok (all s filter pack (some file))) := by
  unfold prepare
  rw [refusal?_of_not_refused hrefused, hgraph]
  rfl

theorem run_prepare_graph {method : String} {b : Bench} {t : Tree}
    (hrefused : ¬ Refused s method pack) (hgraph : s.flowGraph = true)
    (hcreate : b.files.create b.here (b.nextFile "") [] = .ok t) :
    (prepare s method filter pack).run.run b =
      (.ok (.ok (all s filter pack (some (b.nextFile "")))),
        { b with files := t, drawn := b.nextNumber "" }) := by
  rw [prepare_eq_graph hrefused hgraph, run_bind_ok (run_temporaryFile_ok hcreate)]
  rfl

theorem run_prepare_unwritable {method : String} {b : Bench} {e : FileError}
    (hrefused : ¬ Refused s method pack) (hgraph : s.flowGraph = true)
    (hcreate : b.files.create b.here (b.nextFile "") [] = .error e) :
    (prepare s method filter pack).run.run b =
      (.error (.fault (.file e)), { b with drawn := b.nextNumber "" }) := by
  rw [prepare_eq_graph hrefused hgraph]
  exact run_bind_error (run_temporaryFile_error hcreate)

theorem refused_of_run_prepare {method : String} {b : Bench} {reason : Option String}
    (hrun : ((prepare s method filter pack).run.run b).1 = .ok (.error reason)) :
    Refused s method pack := by
  by_cases hrefused : Refused s method pack
  · exact hrefused
  · cases hgraph : s.flowGraph with
    | false =>
        rw [run_prepare_plain hrefused hgraph] at hrun
        cases hrun
    | true =>
        cases hcreate : b.files.create b.here (b.nextFile "") [] with
        | ok t =>
            rw [run_prepare_graph hrefused hgraph hcreate] at hrun
            cases hrun
        | error e =>
            rw [run_prepare_unwritable hrefused hgraph hcreate] at hrun
            cases hrun

theorem prepare_layered (s : Settings) (method filter : String) (pack : Found) (b : Bench) :
    Layered s method filter pack b ((prepare s method filter pack).run.run b) where
  refused_iff := by
    constructor
    · rintro ⟨reason, hrun⟩
      exact refused_of_run_prepare hrun
    · intro hrefused
      exact ⟨refusal s pack, by rw [run_prepare_of_refused hrefused]⟩
  refused := run_prepare_of_refused
  plain hrefused hgraph := ⟨_, run_prepare_plain hrefused hgraph, fun _ _ => get?_all⟩
  graph hrefused hgraph _ hcreate :=
    ⟨_, run_prepare_graph hrefused hgraph hcreate, fun _ _ => get?_all⟩
  unwritable hrefused hgraph _ := run_prepare_unwritable hrefused hgraph
  capture _ _ := derives_captureName_iff

end JitLens.Compiler.Variables
