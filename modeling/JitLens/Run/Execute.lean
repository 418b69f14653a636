import JitLens.FlowGraph
import JitLens.Loader
import JitLens.Output
import JitLens.Run.Build
import JitLens.Compiler.Crossgen
/-!
# Executing a project

The second step of a run.  The project that was built is executed by the instrumented runtime,
through the loader, as it is, or through the ahead-of-time compiler, and its output is made ready
to be shown, with a picture of the flow graph if one is asked for.
-/

namespace JitLens

open Files

/-- What the second step of a run leaves. -/
structure Execution where
  failed : Bool
  output : String
  picture : Option String := none
  deriving DecidableEq, Repr

namespace Execution

def needsLoader (s : Settings) : Bool :=
  !s.runApp && !s.crossgenSelected

/-- An error text, or a general one if there is none. -/
def errorOr (general : String) : Option String → String
  | some e => if e = "" then general else e
  | none => general

/-- The arguments of a program that runs the project. -/
def runArgs (s : Settings) (t : Target) : List String :=
  if s.runApp then [t.assembly ++ ".dll"]
  else [Loader.program ++ ".dll", t.assembly ++ ".dll", t.hostType, t.method]

/-- The variables for a job or the failure to derive them. -/
def vars (host : Host) (j : Job) : Action Compiler.Variables := do
  match ← Compiler.Variables.forRun host j.settings j.target.method j.target.filter with
  | .ok vars => return vars
  | .error reason =>
    Action.stop .configuration (errorOr "Unable to derive environment variables" reason)

/-- The call of the ahead-of-time compiler for a job. -/
def crossgenCall (host : Host) (j : Job) (vars : Compiler.Variables) : Action Invocation := do
  let b ← get
  let t := j.target
  match ← Action.ofExcept .fault
      (Compiler.Crossgen.call b.files b.here host j.settings t.assembly t.folder vars) with
  | .error reason => Action.stop .runtimeNotFound (errorOr "crossgen2 was not found" reason)
  | .ok call =>
    return {
      executable := call.program.text
      args := call.args
      vars := some call.vars
      directory := some t.folder.text }

def runCall (host : Host) (j : Job) (vars : Compiler.Variables) : Action Invocation := do
  let b ← get
  let executable ←
    if j.settings.reload = .publish then pure j.settings.dotnet
    else do
      let compiler ← Action.ofExcept id
        (Compiler.findCompiler b.files b.here host j.settings none).require
      pure (Compiler.corerunProgram compiler host.os).text
  return {
    executable := executable
    args := runArgs j.settings j.target
    vars := some vars
    directory := some j.target.folder.text }

/-- The call that is instrumented. -/
def invocation (host : Host) (j : Job) (vars : Compiler.Variables) : Action Invocation := do
  if j.settings.crossgenSelected then
    let call ← crossgenCall host j vars
    Action.report "Executing crossgen2..."
    return call
  else
    Action.report ("Executing " ++ Loader.program ++ "...")
    runCall host j vars

/-- The output of a call as it is shown; errors are shown behind it. -/
def shown (s : Settings) (prettifier : Option Prettifier) (result : ToolResult) : String :=
  if result.errors = "" then Output.shown s prettifier result.output
  else result.output ++ "\nERROR:\n" ++ result.errors

/-- Whether a picture of the flow graph is made. -/
def wantsPicture (s : Settings) : Bool :=
  s.flowGraph && s.capture == .jitDump

/-- The program that draws flow graphs. -/
def graphProgram (s : Settings) : String :=
  errorOr "dot" s.graphvizDot

/-- Makes the picture of the flow graph if one is asked for. -/
def drawn (tools : Tools) (s : Settings) (vars : Compiler.Variables) :
    Action (Option String) := do
  if wantsPicture s then
    let file := (Table.get? vars Compiler.Variables.dumpGraphFile).getD ""
    match ← FlowGraph.render tools file (graphProgram s) with
    | .ok path => return some path.text
    | .error complaint => Action.stop .artifact complaint
  else return none

/-- Executes the project of a job or fails. -/
def attempt (tools : Tools) (host : Host) (prettifier : Option Prettifier) (j : Job) :
    Action Execution := do
  if needsLoader j.settings then
    let root := Loader.defaultRoot (← get).temporary
    let _ ← Loader.install tools j.settings.dotnet root j.target.folder j.framework
      j.settings.version
  let vars ← vars host j
  let call ← invocation host j vars
  let result ← Action.call tools call
  Action.checkCancelled
  let output := shown j.settings prettifier result
  let picture ← drawn tools j.settings vars
  return { failed := false, output := output, picture := picture }

/-- Executes the project of a job; a failure is shown as its output. -/
def run (tools : Tools) (host : Host) (prettifier : Option Prettifier) (j : Job) :
    StateM Bench Execution := do
  match ← (attempt tools host prettifier j).run with
  | .ok execution => return execution
  | .error f => return { failed := true, output := ← Build.shownFailure .executionFailed f }

end Execution
end JitLens
