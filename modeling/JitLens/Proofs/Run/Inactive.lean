import JitLens.Run
import JitLens.Settings.Field
/-!
# Settings that a run does not read

Some settings belong to a mode: the phase and the program of flow graphs, the arguments of the
ahead-of-time compiler, the comments of disassembly.  While the mode is off they are inactive.  A
run with other values of inactive settings is the same run, from its first check to its last file.
-/

namespace JitLens

open Files

/-! ## Names of compilers -/

theorem Text.trimEnd_cons {c : Char} (hc : isBlank c = false) (cs : List Char) :
    trimEnd (c :: cs) = c :: trimEnd cs := by
  unfold trimEnd
  rw [List.reverse_cons, List.dropWhile_append]
  split
  · next hempty => simp [hc, List.isEmpty_iff.1 hempty]
  · simp

/-- The ahead-of-time compiler is no default compiler, and its name is not blank. -/
theorem isCrossgen_eq_false {name : String}
    (hname : Text.blankString name = true ∨ isDefaultJit name = true) :
    isCrossgen name = false := by
  rw [Bool.eq_false_iff]
  intro hcrossgen
  obtain ⟨rest, hrest⟩ := Text.startsWith_iff.1 hcrossgen
  rw [List.cons_append, List.cons_append] at hrest
  have hc : Text.isBlank 'c' = false := by decide
  have hr : Text.isBlank 'r' = false := by decide
  rcases hname with hblank | hdefault
  · rw [Text.blankString, hrest] at hblank
    simp [Text.allBlank, hc] at hblank
  · have htrim : ∃ cs, Text.trim name.toList = 'c' :: 'r' :: cs := by
      rw [hrest, Text.trim, List.dropWhile_cons_of_neg (by simp [hc]), Text.trimEnd_cons hc,
        Text.trimEnd_cons hr]
      exact ⟨_, rfl⟩
    obtain ⟨cs, htrim⟩ := htrim
    have hlower : ∃ ds, Text.lower ('c' :: 'r' :: cs) = 'c' :: 'r' :: ds := ⟨_, rfl⟩
    obtain ⟨ds, hlower⟩ := hlower
    have hlowered : Text.lowered (Text.trimmed name) = String.ofList ('c' :: 'r' :: ds) := by
      rw [Text.lowered, Text.trimmed, String.toList_ofList, htrim, hlower]
    -- The names of the default compiler have other letters in their first two places.
    rw [isDefaultJit, hlowered, List.contains_iff_mem] at hdefault
    simp only [defaultJitNames, defaultJit, List.mem_cons, List.not_mem_nil, or_false] at hdefault
    rcases hdefault with h | h | h
    all_goals
      have hletters := congrArg String.toList h
      rw [String.toList_ofList] at hletters
      simp at hletters

namespace Settings

/-! ## Inactive settings -/

/-- Whether the default compiler is in use: none is selected, a blank name, or its own name in
some spelling. -/
def usesDefaultJit (s : Settings) : Bool :=
  match s.selectedJit with
  | none => true
  | some name => Text.blankString name || isDefaultJit name

/-- Whether a field belongs to a mode that is off; a selection of the default compiler counts as
none. -/
def isInactive (s : Settings) : Field → Bool
  | .optional .flowGraphPhase => !s.flowGraph
  | .optional .graphvizDot => !s.flowGraph
  | .optional .crossgenArgs => !s.crossgenSelected
  | .flag .noRestore => s.reload == .publish
  | .flag .showComments => s.capture != .disasm
  | .optional .selectedJit => s.usesDefaultJit
  | _ => false

/-- Settings that differ only in fields that are inactive in both. -/
def DifferInactive (s t : Settings) : Prop :=
  ∀ f, s.lookup f = t.lookup f ∨ s.isInactive f = true ∧ t.isInactive f = true

/-- What a run reads of its settings is the same. -/
structure Alike (s t : Settings) : Prop where
  runtimeRoot : s.runtimeRoot = t.runtimeRoot
  capture : s.capture = t.capture
  customVars : s.customVars = t.customVars
  version : s.version = t.version
  reload : s.reload = t.reload
  runApp : s.runApp = t.runApp
  tieredJit : s.tieredJit = t.tieredJit
  pgo : s.pgo = t.pgo
  customRuntime : s.customRuntime = t.customRuntime
  flowGraph : s.flowGraph = t.flowGraph
  arch : s.arch = t.arch
  dotnet : s.dotnet = t.dotnet
  crossgen : s.crossgenSelected = t.crossgenSelected
  alternate : s.alternateJit? = t.alternateJit?
  crossgenArgs : s.crossgenSelected = true → s.crossgenArgs = t.crossgenArgs
  showComments : s.capture = .disasm → s.showComments = t.showComments
  noRestore : s.reload = .build → s.noRestore = t.noRestore
  graphProgram : s.flowGraph = true → s.graphvizDot = t.graphvizDot
  graphPhase : s.flowGraph = true → s.flowGraphPhase = t.flowGraphPhase

theorem of_usesDefaultJit {s : Settings} (hdefault : s.usesDefaultJit = true) :
    s.crossgenSelected = false ∧ s.alternateJit? = none := by
  unfold usesDefaultJit at hdefault
  unfold crossgenSelected alternateJit?
  cases hjit : s.selectedJit with
  | none => exact ⟨rfl, rfl⟩
  | some name =>
      rw [hjit] at hdefault
      have hname : Text.blankString name = true ∨ isDefaultJit name = true := by
        simpa using hdefault
      refine ⟨isCrossgen_eq_false hname, ?_⟩
      rcases hname with hname | hname <;> simp [hname]

section

variable {s t : Settings}

theorem DifferInactive.lookup_eq {f : Field} (hdiffer : DifferInactive s t)
    (hactive : s.isInactive f = false) : s.lookup f = t.lookup f := by
  rcases hdiffer f with hsame | ⟨hinactive, -⟩
  · exact hsame
  · rw [hactive] at hinactive
    cases hinactive

theorem DifferInactive.alike (hdiffer : DifferInactive s t) : Alike s t := by
  have hjit : s.crossgenSelected = t.crossgenSelected ∧ s.alternateJit? = t.alternateJit? := by
    rcases hdiffer (.optional .selectedJit) with hsame | ⟨hs, ht⟩
    · have hselected : s.selectedJit = t.selectedJit := (Change.optional.inj hsame).2
      unfold crossgenSelected alternateJit?
      rw [hselected]
      exact ⟨rfl, rfl⟩
    · obtain ⟨hscrossgen, hsalternate⟩ := of_usesDefaultJit hs
      obtain ⟨htcrossgen, htalternate⟩ := of_usesDefaultJit ht
      exact ⟨hscrossgen.trans htcrossgen.symm, hsalternate.trans htalternate.symm⟩
  exact {
    runtimeRoot := (Change.text.inj (hdiffer.lookup_eq (f := .text .runtimeRoot) rfl)).2
    capture := Change.capture.inj (hdiffer.lookup_eq (f := .capture) rfl)
    customVars := (Change.optional.inj (hdiffer.lookup_eq (f := .optional .customVars) rfl)).2
    version := (Change.text.inj (hdiffer.lookup_eq (f := .text .version) rfl)).2
    reload := Change.reload.inj (hdiffer.lookup_eq (f := .reload) rfl)
    runApp := (Change.flag.inj (hdiffer.lookup_eq (f := .flag .runApp) rfl)).2
    tieredJit := (Change.flag.inj (hdiffer.lookup_eq (f := .flag .tieredJit) rfl)).2
    pgo := (Change.flag.inj (hdiffer.lookup_eq (f := .flag .pgo) rfl)).2
    customRuntime := (Change.flag.inj (hdiffer.lookup_eq (f := .flag .customRuntime) rfl)).2
    flowGraph := (Change.flag.inj (hdiffer.lookup_eq (f := .flag .flowGraph) rfl)).2
    arch := (Change.optional.inj (hdiffer.lookup_eq (f := .optional .arch) rfl)).2
    dotnet := (Change.text.inj (hdiffer.lookup_eq (f := .text .dotnet) rfl)).2
    crossgen := hjit.1
    alternate := hjit.2
    crossgenArgs := fun hon => (Change.optional.inj
      (hdiffer.lookup_eq (f := .optional .crossgenArgs) (by simp [isInactive, hon]))).2
    showComments := fun hon => (Change.flag.inj
      (hdiffer.lookup_eq (f := .flag .showComments) (by simp [isInactive, hon]))).2
    noRestore := fun hon => (Change.flag.inj
      (hdiffer.lookup_eq (f := .flag .noRestore) (by simp [isInactive, hon]))).2
    graphProgram := fun hon => (Change.optional.inj
      (hdiffer.lookup_eq (f := .optional .graphvizDot) (by simp [isInactive, hon]))).2
    graphPhase := fun hon => (Change.optional.inj
      (hdiffer.lookup_eq (f := .optional .flowGraphPhase) (by simp [isInactive, hon]))).2 }

end

end Settings

/-! ## Steps of a run -/

section

variable {s t : Settings} {j : Job} {host : Host} {files : Tree} {here : Location}

theorem Settings.Alike.targetArch (h : s.Alike t) : s.targetArch host = t.targetArch host := by
  unfold Settings.targetArch
  rw [h.arch]

theorem Settings.Alike.findCompiler (h : s.Alike t) (arch : Option String) :
    Compiler.findCompiler files here host s arch = Compiler.findCompiler files here host t arch := by
  unfold Compiler.findCompiler Compiler.archOr Compiler.noCompiler
  rw [h.targetArch, h.runtimeRoot, h.crossgen]

theorem Settings.Alike.findPack (h : s.Alike t) (arch : Option String) :
    Compiler.findPack files here host s arch = Compiler.findPack files here host t arch := by
  unfold Compiler.findPack Compiler.archOr
  simp only [h.findCompiler, h.targetArch, h.runtimeRoot]

/-- The rules look at the flow graph only while it is on. -/
theorem Settings.Alike.brokenRule? (h : s.Alike t) (framework : String) :
    s.brokenRule? files here framework = t.brokenRule? files here framework := by
  have hrules : ∀ supported rule,
      RunRule.isBroken s supported (s.hasGraphProgram files here) rule =
        RunRule.isBroken t supported (t.hasGraphProgram files here) rule := by
    intro supported rule
    cases hgraph : s.flowGraph with
    | false =>
        have hgraph' : t.flowGraph = false := h.flowGraph.symm.trans hgraph
        cases rule <;>
          simp only [RunRule.isBroken, hgraph, hgraph', Bool.false_and, Bool.and_false, h.runApp,
            h.reload, h.crossgen, h.pgo, h.tieredJit]
    | true =>
        have hprogram : s.hasGraphProgram files here = t.hasGraphProgram files here := by
          unfold Settings.hasGraphProgram
          rw [h.graphProgram hgraph]
        cases rule <;>
          simp only [RunRule.isBroken, hprogram, h.graphPhase hgraph, h.flowGraph, h.capture,
            h.runApp, h.reload, h.crossgen, h.pgo, h.tieredJit]
  have hfirst : ∀ supported,
      RunRule.firstBroken? s supported (s.hasGraphProgram files here) =
        RunRule.firstBroken? t supported (t.hasGraphProgram files here) := by
    intro supported
    unfold RunRule.firstBroken?
    rw [funext (hrules supported)]
  unfold Settings.brokenRule?
  simp only [hfirst]

/-! ## The first step -/

/-- The job with other settings. -/
def Job.under (j : Job) (s : Settings) : Job :=
  { j with settings := s }

namespace Build

theorem identifier_eq (h : s.Alike t) : identifier host s = identifier host t := by
  unfold identifier
  rw [h.targetArch]

theorem invocation_under (h : s.Alike t) :
    invocation host (j.under s) = invocation host (j.under t) := by
  unfold invocation projectFolder Job.under
  dsimp only
  rw [identifier_eq h, h.dotnet]
  cases hreload : s.reload with
  | build => rw [← h.reload, hreload, h.noRestore hreload]
  | publish => rw [← h.reload, hreload]

theorem status_under (h : s.Alike t) : status host (j.under s) = status host (j.under t) := by
  unfold status Job.under
  dsimp only
  rw [identifier_eq h, h.reload]

theorem layRuntime_under (h : s.Alike t) (compiler : Path) :
    layRuntime host (j.under s) compiler = layRuntime host (j.under t) compiler := by
  unfold layRuntime notPublished Job.under
  dsimp only
  rw [identifier_eq h]

theorem gate_under (h : s.Alike t) : gate host (j.under s) = gate host (j.under t) := by
  unfold gate Job.under
  simp only [h.customRuntime, h.findCompiler, h.brokenRule?, h.reload, h.findPack]

theorem run_under (h : s.Alike t) (tools : Tools) :
    Build.run tools host (j.under s) = Build.run tools host (j.under t) := by
  have hreload : (j.under s).settings.reload = (j.under t).settings.reload := h.reload
  unfold Build.run attempt
  simp only [gate_under h, status_under h, invocation_under h, layRuntime_under h, hreload]

end Build

/-! ## The second step -/

namespace Compiler

theorem Variables.derived_eq_of_alike (h : s.Alike t) (filter : String) (pack : Option Path) :
    derived s filter pack = derived t filter pack := by
  unfold derived
  rw [h.capture, h.alternate, h.pgo, h.tieredJit]

theorem Variables.prepare_eq_of_alike (h : s.Alike t) (method filter : String) (pack : Found) :
    prepare s method filter pack = prepare t method filter pack := by
  have hrefusal : refusal? s method pack = refusal? t method pack := by
    unfold refusal?
    rw [h.reload, h.flowGraph]
  -- The phase of the flow graph is read only together with a file for the flow graph.
  have hall : ∀ file, (file = none ∨ s.flowGraph = true) →
      all s filter pack file = all t filter pack file := by
    intro file hfile
    unfold all withGraph
    dsimp only
    rw [derived_eq_of_alike h, h.reload, h.customVars]
    rcases hfile with rfl | hgraph
    · rfl
    · rw [h.graphPhase hgraph]
  unfold prepare
  rw [hrefusal]
  cases hgraph : s.flowGraph with
  | false =>
      simp only [← h.flowGraph, hgraph, hall none (.inl rfl), Bool.false_eq_true, if_false]
  | true => simp only [← h.flowGraph, hgraph, hall _ (.inr hgraph), if_true]

theorem Variables.forRun_eq_of_alike (h : s.Alike t) (method filter : String) :
    forRun host s method filter = forRun host t method filter := by
  unfold forRun packFor
  simp only [h.reload, h.findPack, prepare_eq_of_alike h]

theorem Crossgen.call_eq_of_alike (h : s.Alike t) (hcrossgen : s.crossgenSelected = true)
    (assembly : String) (folder : Path) (vars : Variables) :
    call files here host s assembly folder vars = call files here host t assembly folder vars := by
  have hargs : userArgs s = userArgs t := by
    unfold userArgs
    rw [h.crossgenArgs hcrossgen]
  unfold call references
  simp only [h.findCompiler, h.findPack, hargs, h.reload]

end Compiler

namespace Execution

theorem vars_under (h : s.Alike t) : vars host (j.under s) = vars host (j.under t) := by
  unfold vars
  exact congrArg (· >>= _) (Compiler.Variables.forRun_eq_of_alike h _ _)

theorem runCall_under (h : s.Alike t) (vars : Compiler.Variables) :
    runCall host (j.under s) vars = runCall host (j.under t) vars := by
  unfold runCall runArgs Job.under
  simp only [h.reload, h.dotnet, h.findCompiler, h.runApp, Job.target]

theorem invocation_under (h : s.Alike t) (vars : Compiler.Variables) :
    invocation host (j.under s) vars = invocation host (j.under t) vars := by
  have hselected : (j.under s).settings.crossgenSelected = (j.under t).settings.crossgenSelected :=
    h.crossgen
  unfold invocation
  rw [runCall_under h, hselected]
  by_cases hcrossgen : (j.under t).settings.crossgenSelected = true
  · have hcall : crossgenCall host (j.under s) vars = crossgenCall host (j.under t) vars := by
      have hs : s.crossgenSelected = true := h.crossgen.trans hcrossgen
      unfold crossgenCall Job.under
      simp only [Compiler.Crossgen.call_eq_of_alike h hs, Job.target]
    rw [if_pos hcrossgen, if_pos hcrossgen, hcall]
  · rw [if_neg hcrossgen, if_neg hcrossgen]

/-- Comments are taken out of disassembly alone. -/
theorem shown_eq_of_alike (h : s.Alike t) (prettifier : Option Prettifier) (result : ToolResult) :
    shown s prettifier result = shown t prettifier result := by
  have hshown : Output.shown s prettifier result.output =
      Output.shown t prettifier result.output := by
    unfold Output.shown Output.stripsComments
    rw [← h.capture]
    cases hcapture : s.capture with
    | disasm => rw [h.showComments hcapture, h.runApp]
    | jitDump => rfl
    | printInlinees => rfl
  unfold shown
  rw [hshown]

theorem drawn_eq_of_alike (h : s.Alike t) (tools : Tools) (vars : Compiler.Variables) :
    drawn tools s vars = drawn tools t vars := by
  have hwants : wantsPicture s = wantsPicture t := by
    unfold wantsPicture
    rw [h.flowGraph, h.capture]
  unfold drawn
  rw [hwants]
  by_cases hpicture : wantsPicture t = true
  · have hgraph : s.flowGraph = true := by
      rw [← hwants, wantsPicture, Bool.and_eq_true] at hpicture
      exact hpicture.1
    have hprogram : graphProgram s = graphProgram t := by
      unfold graphProgram
      rw [h.graphProgram hgraph]
    rw [if_pos hpicture, if_pos hpicture, hprogram]
  · rw [if_neg hpicture, if_neg hpicture]

theorem run_under (h : s.Alike t) (tools : Tools) (prettifier : Option Prettifier) :
    Execution.run tools host prettifier (j.under s) =
      Execution.run tools host prettifier (j.under t) := by
  have hneeds : needsLoader (j.under s).settings = needsLoader (j.under t).settings := by
    unfold needsLoader Job.under
    dsimp only
    rw [h.runApp, h.crossgen]
  have hdotnet : (j.under s).settings.dotnet = (j.under t).settings.dotnet := h.dotnet
  have hversion : (j.under s).settings.version = (j.under t).settings.version := h.version
  have hsettings : (j.under s).settings.Alike (j.under t).settings := h
  unfold Execution.run attempt
  simp only [hneeds, hdotnet, hversion, vars_under h, invocation_under h,
    shown_eq_of_alike hsettings, drawn_eq_of_alike hsettings]
  rfl

end Execution

/-! ## Runs -/

namespace Order

/-- The order with other settings. -/
def under (o : Order) (s : Settings) : Order :=
  { o with settings := s }

theorem job_under (h : s.Alike t) (o : Order) :
    (o.under s).job = ((o.under t).job).under s ∧ (o.under t).job = ((o.under t).job).under t := by
  refine ⟨?_, rfl⟩
  unfold job Job.under under Settings.defaultOutput
  dsimp only
  rw [h.version]

/-- Settings that differ only where they are inactive make the same run: the same calls and status
messages, the same outcome, and the same files at the end. -/
theorem run_eq_of_differInactive {s t : Settings} (hdiffer : s.DifferInactive t) (tools : Tools)
    (host : Host) (prettifier : Option Prettifier) (clock : Clock) (o : Order) :
    run tools host prettifier clock (o.under s) = run tools host prettifier clock (o.under t) := by
  have h := hdiffer.alike
  obtain ⟨hs, ht⟩ := job_under h o
  have hphases : phases s = phases t := by
    funext output
    unfold phases
    rw [h.capture]
  have hsteps : steps tools host prettifier (o.under s) =
      steps tools host prettifier (o.under t) := by
    have hsame : phases (o.under s).settings = phases (o.under t).settings := hphases
    unfold steps
    rw [hs, Build.run_under h, Execution.run_under h, ← ht, hsame]
    rfl
  unfold run
  rw [hsteps]

/-- A project that is published and dumped, with and without traces of all the modes that are
off. -/
theorem run_eq_of_differInactive_published :
    let s : Settings := { runtimeRoot := "rt", capture := .jitDump, reload := .publish }
    let t : Settings :=
      { s with
        crossgenArgs := some "'", showComments := false, noRestore := true,
        selectedJit := some "\tLibClrJit.SO ", graphvizDot := some "", flowGraphPhase := some "*" }
    let o : Order :=
      { symbol := { qualifiedClass := "App.Program", className := "Program" }
        settings := {}
        project := "App/App.csproj"
        framework := "net8.0" }
    let tools : Tools := fun _ _ files => { files := files, outcome := .ok {} }
    s ≠ t ∧ s.DifferInactive t ∧
      run tools {} none ⟨.zero false, .zero false⟩ (o.under s) =
        run tools {} none ⟨.zero false, .zero false⟩ (o.under t) := by
  intro s t o tools
  have hfields : ∀ f ∈ Field.all,
      s.lookup f = t.lookup f ∨ s.isInactive f = true ∧ t.isInactive f = true := by
    decide +kernel
  have hdiffer : s.DifferInactive t := fun f => hfields f f.mem_all
  exact ⟨by decide, hdiffer, run_eq_of_differInactive hdiffer tools {} none _ o⟩

end Order

end
end JitLens
