import JitLens.Proofs.Loader.Install
import JitLens.Proofs.Run.Endings
/-!
# Failures of a run

Whatever fails in a run, the run leaves an outcome.  What a step foresees ends it with a message,
anything else with a trace.  An outcome that is a success tells that the project was built without
a complaint and executed, and that its picture was made if one was asked for.
-/

namespace JitLens

open Files JitLens.Action

/-! ## What is shown -/

theorem Failure.shown_of_unforeseen {f : Failure} (hf : ∀ kind m, f ≠ .step kind m) :
    f.shown = traceHead ++ f.label ++ ": " ++ f.message ++ "\n" := by
  cases f with
  | step kind m => exact absurd rfl (hf kind m)
  | settings e => rfl
  | fault f => rfl

/-- A result of the build program that shows it failed, and what it has to say: its errors, or
else its output. -/
inductive Build.Complains (result : ToolResult) : String → Prop where
  | errors (herrors : result.errors ≠ "") : Complains result result.errors
  | output (herrors : result.errors = "") (hmark : errorMark <:+: result.output.toList) :
    Complains result result.output

theorem Build.complaint?_eq_some_iff {result : ToolResult} {m : String} :
    complaint? result = some m ↔ Complains result m := by
  unfold complaint?
  by_cases herrors : result.errors = ""
  · rw [if_neg (not_not_intro herrors)]
    by_cases hmark : Text.contains errorMark result.output.toList = true
    · rw [if_pos hmark, Option.some.injEq]
      constructor
      · rintro rfl
        exact .output herrors (Text.contains_iff.1 hmark)
      · intro hcomplains
        cases hcomplains with
        | errors hsome => exact absurd herrors hsome
        | output _ _ => rfl
    · rw [if_neg hmark]
      refine iff_of_false (by simp) ?_
      intro hcomplains
      cases hcomplains with
      | errors hsome => exact hsome herrors
      | output _ hinfix => exact hmark (Text.contains_iff.2 hinfix)
  · rw [if_pos herrors, Option.some.injEq]
    constructor
    · rintro rfl
      exact .errors herrors
    · intro hcomplains
      cases hcomplains with
      | errors _ => rfl
      | output hnone _ => exact absurd hnone herrors

theorem Build.complaint?_eq_none_iff {result : ToolResult} :
    complaint? result = none ↔ result.errors = "" ∧ ¬ errorMark <:+: result.output.toList := by
  rw [← Text.contains_iff, complaint?]
  by_cases herrors : result.errors = ""
  · rw [if_neg (not_not_intro herrors), and_iff_right herrors]
    by_cases hmark : Text.contains errorMark result.output.toList = true
    · rw [if_pos hmark]
      exact iff_of_false (by simp) (not_not_intro hmark)
    · rw [if_neg hmark]
      exact iff_of_true rfl hmark
  · rw [if_pos herrors]
    exact iff_of_false (by simp) (fun hnone => herrors hnone.1)

/-- A picture is accepted if it is a file that is not empty, but a directory at its path passes
for one as well. -/
theorem FlowGraph.stands_iff {b : Bench} {picture : Path} :
    Stands b picture ↔ b.files.isDir b.here picture = true ∨
      ∃ content, b.files.content? b.here picture = some content ∧ content ≠ [] := by
  unfold Stands Tree.holds Tree.isEmptyFile Tree.isDir Tree.content?
  cases b.files.lookAt b.here picture with
  | none => simp
  | some i =>
      cases i with
      | dir => simp
      | file content executable => simp

section

variable {tools : Tools} {host : Host} {prettifier : Option Prettifier} {clock : Clock}
  {o : Order} {b : Bench}

/-! ## Failures of the first step -/

/-- A complaint of the build program ends the first step as its message. -/
theorem Build.attempt_of_complains {result : ToolResult} {m : String}
    (hcancel : b.Uncancelled) (hpassed : ∀ c : Check, c.verdict host b.files b.here o = .passed)
    (houtcome : (tools b.calls (invocation host o.job) b.files).outcome = .ok result)
    (hstill : (called tools (invocation host o.job) b).Uncancelled)
    (hcomplains : Complains result m) :
    ∃ b', (attempt tools host o.job).run.run b = (.error (.step .toolFailed m), b') := by
  obtain ⟨g, hgate⟩ := gate_of_passed hcancel hpassed
  have hcall := run_call_ok (uncancelled_announced host o.job hcancel).not_refuses houtcome
  have hcheck := run_checkCancelled
    (show (called tools (invocation host o.job) (announced host o.job b)).Uncancelled from hstill)
  refine ⟨called tools (invocation host o.job) (announced host o.job b), ?_⟩
  rw [run_attempt_of_gate hgate, run_bind_ok hcall, finish, run_bind_ok hcheck,
    complaint?_eq_some_iff.2 hcomplains]
  rfl

/-! ## Failures of the second step -/

/-- The message for a build program that does not tell its version. -/
def Loader.noVersion (f : Failure) : String :=
  "ERROR in LoaderAppManager.get_path_to_loader: " ++ f.literal

/-- What the call for the version is said to have failed with; a cancellation stays what it is. -/
def Loader.untold (f : Failure) : Failure :=
  if f.isCancelled then f else .step .loaderBuild (noVersion f)

theorem Loader.run_sdkVersion_of_error {dotnet : String} {f : Failure} (hopen : ¬ b.Refuses)
    (houtcome : (tools b.calls (versionCall dotnet) b.files).outcome = .error f) :
    (sdkVersion tools dotnet).run.run b =
      (.error (untold f), called tools (versionCall dotnet) b) := by
  unfold sdkVersion
  apply run_bind_error
  rw [run_tryCatch_error (run_call_error hopen houtcome), untold]
  split <;> rfl

/-- A build program that does not tell its version ends the second step. -/
theorem Execution.attempt_of_noVersion {j : Job} {f : Failure}
    (hcancel : b.Uncancelled) (hneeds : needsLoader j.settings = true)
    (hmissing : Loader.Missing b j.target.folder)
    (houtcome : (tools b.calls (Loader.versionCall j.settings.dotnet) b.files).outcome = .error f)
    (hf : f.isCancelled = false) :
    ∃ b', (attempt tools host prettifier j).run.run b =
      (.error (.step .loaderBuild (Loader.noVersion f)), b') := by
  have hasking : (Loader.asking b).Uncancelled := hcancel
  have hversion := Loader.run_sdkVersion_of_error hasking.not_refuses houtcome
  rw [Loader.untold, if_neg (by simp [hf])] at hversion
  have hload : (load tools j).run.run b =
      (.error (.step .loaderBuild (Loader.noVersion f)),
        called tools (Loader.versionCall j.settings.dotnet) (Loader.asking b)) := by
    rw [load, if_pos hneeds, run_bind_ok (run_get b)]
    exact run_bind_error (Loader.run_install_of_untold hmissing hversion)
  rw [attempt_eq, prepare]
  exact ⟨_, run_bind_error (run_bind_error hload)⟩

/-! ## Runs -/

namespace Order

/-- One of the two steps of a run fails. -/
def FailsWith (tools : Tools) (host : Host) (prettifier : Option Prettifier) (o : Order)
    (b : Bench) (f : Failure) : Prop :=
  o.symbol.isGeneric = false ∧
    ((∃ b', (Build.attempt tools host o.job).run.run b = (.error f, b')) ∨
      ∃ b₁ b', (Build.attempt tools host o.job).run.run b = (.ok (), b₁) ∧
        (Execution.attempt tools host prettifier o.job).run.run b₁ = (.error f, b'))

/-- What a run has done that is a success. -/
structure Accomplished (tools : Tools) (host : Host) (prettifier : Option Prettifier) (o : Order)
    (b : Bench) (r : Outcome × Bench) : Prop where
  /-- The project was built without a complaint. -/
  built : ∃ result, (tools b.calls (Build.invocation host o.job) b.files).outcome = .ok result ∧
    result.errors = "" ∧ ¬ Build.errorMark <:+: result.output.toList
  /-- The call that is instrumented was made and has returned. -/
  executed : ∃ b₁ vars call ready result,
    (Build.attempt tools host o.job).run.run b = (.ok (), b₁) ∧
      (Execution.prepare tools host o.job).run.run b₁ = (.ok (vars, call), ready) ∧
      (tools ready.calls call ready.files).outcome = .ok result ∧
      ready.calls ++ [call] <+: r.2.calls ∧
      r.1.output = Execution.shown o.settings prettifier result
  /-- There is a picture just if a flow graph was asked for. -/
  picture : r.1.picture.isSome = o.settings.flowGraph
  stands : ∀ p, r.1.picture = some p → ∃ path, p = path.text ∧
    (r.2.files.isDir r.2.here path = true ∨
      ∃ content, r.2.files.content? r.2.here path = some content ∧ content ≠ [])

/-- What a run, which leaves an outcome and a bench, makes of failures. -/
structure Contained (tools : Tools) (host : Host) (prettifier : Option Prettifier) (o : Order)
    (b : Bench) (r : Outcome × Bench) : Prop where
  refused : o.symbol.isGeneric = true → r.1.output = "Generic methods are not supported yet."
  /-- A failure that was foreseen is shown as its message. -/
  foreseen : ∀ kind m, FailsWith tools host prettifier o b (.step kind m) → r.1.output = m
  /-- Any other one is shown as a trace. -/
  unforeseen : ∀ f, FailsWith tools host prettifier o b f → (∀ kind m, f ≠ .step kind m) →
    r.1.output = traceHead ++ f.label ++ ": " ++ f.message ++ "\n"
  failed_iff : r.1.success = false ↔
    o.symbol.isGeneric = true ∨ ∃ f, FailsWith tools host prettifier o b f
  no_picture : r.1.success = false → r.1.picture = none
  /-- What the build program complains about is shown as it is. -/
  complaint : b.Uncancelled → (∀ c : Check, c.verdict host b.files b.here o = .passed) →
    ∀ result, (tools b.calls (Build.invocation host o.job) b.files).outcome = .ok result →
    (called tools (Build.invocation host o.job) b).Uncancelled →
    ∀ m, Build.Complains result m → r.1.success = false ∧ r.1.output = m
  /-- What keeps the build program from telling its version is wrapped. -/
  version : o.symbol.isGeneric = false →
    ∀ b₁, (Build.attempt tools host o.job).run.run b = (.ok (), b₁) →
    Execution.needsLoader o.settings = true → Loader.Missing b₁ o.job.target.folder →
    ∀ f, (tools b₁.calls (Loader.versionCall o.settings.dotnet) b₁.files).outcome = .error f →
    f.isCancelled = false → r.1.success = false ∧ r.1.output = Loader.noVersion f
  success : r.1.success = true → Accomplished tools host prettifier o b r
  /-- Phases are listed for dumps of projects that were built. -/
  phases : r.1.phases ≠ [] → o.settings.capture = .jitDump ∧
    ∃ b₁, (Build.attempt tools host o.job).run.run b = (.ok (), b₁)

theorem outcome_of_failsWith {f : Failure} (hfails : FailsWith tools host prettifier o b f) :
    ((run tools host prettifier clock o).run b).1.success = false ∧
      ((run tools host prettifier clock o).run b).1.output = f.shown := by
  obtain ⟨hgeneric, ⟨b', hattempt⟩ | ⟨b₁, b', hbuild, hattempt⟩⟩ := hfails
  · obtain ⟨ws, hrun⟩ := Build.run_error hattempt
    rw [run_of_build_failed hgeneric hrun]
    exact ⟨rfl, rfl⟩
  · obtain ⟨ws, hrun⟩ := Execution.run_error hattempt
    rw [run_of_executed hgeneric (Build.run_ok hbuild) hrun]
    exact ⟨rfl, rfl⟩

theorem failed_iff_failsWith :
    ((run tools host prettifier clock o).run b).1.success = false ↔
      o.symbol.isGeneric = true ∨ ∃ f, FailsWith tools host prettifier o b f := by
  constructor
  · intro hfailed
    have hending := run_ending tools host prettifier clock o b
    generalize (run tools host prettifier clock o).run b = r at *
    cases hending with
    | refused hgeneric => exact .inl hgeneric
    | unbuilt hgeneric hattempt => exact .inr ⟨_, hgeneric, .inl ⟨_, hattempt⟩⟩
    | unexecuted hgeneric hbuild hattempt =>
        exact .inr ⟨_, hgeneric, .inr ⟨_, _, hbuild, hattempt⟩⟩
    | done _ _ hattempt =>
        have hnot := (Execution.attempt_eq_ok hattempt).notFailed
        rw [Outcome.executed, hnot] at hfailed
        cases hfailed
  · rintro (hgeneric | ⟨f, hfails⟩)
    · rw [run_generic hgeneric]
    · exact (outcome_of_failsWith hfails).1

theorem picture_of_failed (hfailed : ((run tools host prettifier clock o).run b).1.success = false) :
    ((run tools host prettifier clock o).run b).1.picture = none := by
  have hending := run_ending tools host prettifier clock o b
  generalize (run tools host prettifier clock o).run b = r at *
  cases hending with
  | refused _ => rfl
  | unbuilt _ _ => rfl
  | unexecuted _ _ _ => rfl
  | done _ _ hattempt =>
      have hnot := (Execution.attempt_eq_ok hattempt).notFailed
      rw [Outcome.executed, hnot] at hfailed
      cases hfailed

theorem wantsPicture_of_passed
    (hpassed : Check.rules.verdict host b.files b.here o = .passed) :
    Execution.wantsPicture o.settings = o.settings.flowGraph := by
  unfold Execution.wantsPicture
  cases hgraph : o.settings.flowGraph with
  | false => rfl
  | true =>
      rw [Check.capture_of_passed hpassed hgraph]
      rfl

theorem accomplished_of_success
    (hsuccess : ((run tools host prettifier clock o).run b).1.success = true) :
    Accomplished tools host prettifier o b ((run tools host prettifier clock o).run b) := by
  have hending := run_ending tools host prettifier clock o b
  generalize (run tools host prettifier clock o).run b = r at *
  cases hending with
  | refused _ => cases hsuccess
  | unbuilt _ _ => cases hsuccess
  | unexecuted _ _ _ => cases hsuccess
  | done _ hbuild hattempt =>
      have hbuilt := Build.attempt_eq_ok hbuild
      have hexecuted := Execution.attempt_eq_ok hattempt
      obtain ⟨result, houtcome, hcomplaint⟩ := hbuilt.result
      obtain ⟨vars, call, ready, last, hprepare, hlast, hcalls, houtput⟩ := hexecuted.made
      have hwants := wantsPicture_of_passed (hbuilt.checks .rules (by decide))
      exact {
        built := ⟨result, houtcome, Build.complaint?_eq_none_iff.1 hcomplaint⟩
        executed := ⟨_, vars, call, ready, last, hbuild, hprepare, hlast, hcalls, houtput⟩
        picture := hexecuted.picture.trans hwants
        stands := by
          intro p hp
          obtain ⟨path, hpath, hstands⟩ := hexecuted.stands p hp
          exact ⟨path, hpath, FlowGraph.stands_iff.1 hstands⟩ }

theorem built_of_phases (hphases : ((run tools host prettifier clock o).run b).1.phases ≠ []) :
    o.settings.capture = .jitDump ∧
      ∃ b₁, (Build.attempt tools host o.job).run.run b = (.ok (), b₁) := by
  have hcapture : ∀ output, phases o.settings output ≠ [] → o.settings.capture = .jitDump := by
    intro output hsome
    unfold phases at hsome
    split at hsome
    · assumption
    · exact absurd rfl hsome
  have hending := run_ending tools host prettifier clock o b
  generalize (run tools host prettifier clock o).run b = r at *
  cases hending with
  | refused _ => exact absurd rfl hphases
  | unbuilt _ _ => exact absurd rfl hphases
  | unexecuted _ hbuild _ => exact ⟨hcapture _ hphases, _, hbuild⟩
  | done _ hbuild _ => exact ⟨hcapture _ hphases, _, hbuild⟩

theorem run_contained (tools : Tools) (host : Host) (prettifier : Option Prettifier)
    (clock : Clock) (o : Order) (b : Bench) :
    Contained tools host prettifier o b ((run tools host prettifier clock o).run b) where
  refused hgeneric := by rw [run_generic hgeneric]
  foreseen _ _ hfails := (outcome_of_failsWith hfails).2
  unforeseen f hfails hf := by
    rw [(outcome_of_failsWith hfails).2, Failure.shown_of_unforeseen hf]
  failed_iff := failed_iff_failsWith
  no_picture := picture_of_failed
  complaint hcancel hpassed _ houtcome hstill m hcomplains := by
    have hgeneric := Check.isGeneric_of_passed (hpassed .symbol)
    have hattempt := Build.attempt_of_complains hcancel hpassed houtcome hstill hcomplains
    exact outcome_of_failsWith ⟨hgeneric, .inl hattempt⟩
  version hgeneric b₁ hbuild hneeds hmissing f houtcome hf := by
    have hstill := (Build.attempt_eq_ok hbuild).still
    obtain ⟨b', hattempt⟩ := Execution.attempt_of_noVersion hstill hneeds hmissing houtcome hf
    exact outcome_of_failsWith ⟨hgeneric, .inr ⟨b₁, b', hbuild, hattempt⟩⟩
  success := accomplished_of_success
  phases := built_of_phases

end Order
end

/-! ## A directory for a picture -/

namespace Order

/-- A checkout that is built, and a program that draws flow graphs. -/
def drawingBench : Bench where
  files := ⟨[
    ("rt", .dir [("artifacts", .dir [("bin", .dir [
      ("coreclr", .dir [("linux.x64.Checked", .dir [])]),
      ("runtime", .dir [("net8.0-linux-Release-x64", .dir [])])])])]),
    ("dot", .file [] true), ("tmp", .dir [])]⟩
  here := []
  temporary := ⟨.root, ["tmp"]⟩

def drawingOrder : Order where
  symbol := { qualifiedClass := "App.Program", className := "Program", method := some "Main" }
  settings := {
    runtimeRoot := "rt", arch := some "x64", capture := .jitDump, runApp := true,
    flowGraph := true, graphvizDot := some "dot" }
  project := "App/App.csproj"
  framework := "net8.0"

/-- Tools of which the first builds, the second leaves a drawing, and the third a directory where
the picture belongs. -/
def folderTools : Tools := fun calls _ files =>
  match calls.length with
  | 0 => { files := files, outcome := .ok {} }
  | 1 => {
      files := files.putFile ["tmp", "jitscope-fg-1.dot"] (Text.encode FlowGraph.mark) false
      outcome := .ok {} }
  | _ => { files := files.putDir ["tmp", "jitscope-fg-2.png"], outcome := .ok {} }

/-- A run succeeds with a directory in the place of its picture. -/
theorem success_with_folder :
    let r := (run folderTools {} none ⟨.zero false, .zero false⟩ drawingOrder).run drawingBench
    r.1.success = true ∧ r.1.picture = some "/tmp/jitscope-fg-2.png" ∧
      r.2.files.isDir r.2.here (Path.ofString "/tmp/jitscope-fg-2.png") = true := by
  decide +kernel

end Order
end JitLens
