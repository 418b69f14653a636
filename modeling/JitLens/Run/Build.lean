import JitLens.Bench
import JitLens.Run.Job
import JitLens.Run.Rules
import JitLens.Compiler.Checkout
/-!
# Building a project

The first step of a run.  A gate is passed before any tool is called: it checks the settings and
looks for the builds that the run relies on.  Then the project is built into its output directory;
if it is published there, the local runtime is laid over it.
-/

namespace JitLens

open Files

namespace Build

/-- What a line of the build program contains if the code has an error. -/
def errorMark : List Char := ": error".toList

/-- What the build program has to say if it failed: its errors, or else its output if that shows
an error in the code. -/
def complaint? (result : ToolResult) : Option String :=
  if result.errors ≠ "" then some result.errors
  else if Text.contains errorMark result.output.toList then some result.output
  else none

/-- The runtime identifier that a project is built for. -/
def identifier (host : Host) (s : Settings) : String :=
  Host.runtimeIdentifier host.os (s.targetArch host)

/-- What a run relies on and the gate has found. -/
structure Gate where
  /-- The directory of the compiler. -/
  compiler : Path
  deriving DecidableEq, Repr

/-- Passes the gate of a job or fails. -/
def gate (host : Host) (j : Job) : Action Gate := do
  let b ← get
  if !j.settings.customRuntime then
    Action.stop .configuration
      "Only custom locally-built runtimes are supported at the moment :("
  let compiler ← Action.ofExcept id
    (Compiler.findCompiler b.files b.here host j.settings none).require
  Action.checkCancelled
  let broken ← Action.ofExcept (fun e => .fault (.digits e))
    (j.settings.brokenRule? b.files b.here j.framework)
  if let some rule := broken then
    Action.stop .configuration rule.message
  if Text.blankString j.project then
    Action.stop .configuration "Unable to find project directory path"
  if j.settings.reload = .build then
    let pack ← Action.ofExcept (fun e => .fault (.pattern e))
      (Compiler.findPack b.files b.here host j.settings none)
    let _ ← Action.ofExcept id pack.require
  return ⟨compiler⟩

/-- Properties of the project that keep warnings from getting in the way. -/
def quiet : List String := ["/p:WarningLevel=0", "/p:TreatWarningsAsErrors=false"]

/-- The arguments that publish a project. -/
def publishArgs (identifier output : String) : List String :=
  ["publish", "-r", identifier, "-c", "Release", "-o", output, "--self-contained", "true",
    "/p:PublishTrimmed=false", "/p:PublishSingleFile=false"] ++ quiet

/-- The arguments that build a project. -/
def buildArgs (noRestore : Bool) (output : String) : List String :=
  ["build", "-c", "Release", "-o", output] ++ quiet ++
    if noRestore then ["--no-restore", "--no-dependencies", "--nologo"] else []

/-- Variables that make a build faster. -/
def fasterBuild : Table String := [("DOTNET_TC_QuickJitForLoops", "1")]

/-- The directory of the project of a job. -/
def projectFolder (j : Job) : Path :=
  (Path.ofString j.project).parent

/-- The call that builds the project of a job. -/
def invocation (host : Host) (j : Job) : Invocation :=
  match j.settings.reload with
  | .publish => {
      executable := j.settings.dotnet
      args := publishArgs (identifier host j.settings) j.output
      directory := some (projectFolder j).text }
  | .build => {
      executable := j.settings.dotnet
      args := buildArgs j.settings.noRestore j.output
      vars := some fasterBuild
      directory := some (projectFolder j).text }

/-- What is reported about the call. -/
def status (host : Host) (j : Job) : String :=
  match j.settings.reload with
  | .publish => "dotnet publish -r " ++ identifier host j.settings ++ " -c Release -o ..."
  | .build => "dotnet build -c Release -o ..."

/-- The message for an output directory that was not published. -/
def notPublished (host : Host) (j : Job) (folder : Path) : String :=
  "Something went wrong, " ++ folder.text ++ " doesn't exist after 'dotnet publish -r " ++
    identifier host j.settings ++ " -c Release' step"

/-- Lays the local runtime over a published project. -/
def layRuntime (host : Host) (j : Job) (compiler : Path) : Action Unit := do
  Action.report "Copying files from locally built CoreCLR"
  let folder := Target.outputFolder j.project j.output
  let b ← get
  if !b.files.isDir b.here folder then Action.stop .artifact (notPublished host j folder)
  else
    Action.ofFiles (b.files.openDir b.here compiler)
    let (errors, files) := b.files.overlay b.here compiler folder
    set { b with files := files }
    if errors.isEmpty then return () else Action.fail (.fault (.copy errors))

/-- Builds the project of a job or fails. -/
def attempt (tools : Tools) (host : Host) (j : Job) : Action Unit := do
  let passed ← gate host j
  Action.report (status host j)
  let result ← Action.call tools (invocation host j)
  Action.checkCancelled
  if let some complaint := complaint? result then
    Action.stop .toolFailed complaint
  if j.settings.reload = .publish then
    layRuntime host j passed.compiler
  Action.checkCancelled

/-- What a step shows for a failure: its message if it was foreseen, or else its trace, and then
it is also put on record as a warning. -/
def shownFailure (warning : Failure → Warning) (f : Failure) : StateM Bench String := do
  match f with
  | .step _ message => return message
  | f =>
    modify fun b => { b with warnings := b.warnings ++ [warning f] }
    return f.trace

/-- Builds the project of a job: nothing, or what is shown for its failure. -/
def run (tools : Tools) (host : Host) (j : Job) : StateM Bench (Option String) := do
  match ← (attempt tools host j).run with
  | .ok () => return none
  | .error f => return some (← shownFailure .buildFailed f)

end Build
end JitLens
