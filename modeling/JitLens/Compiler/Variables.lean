import JitLens.Bench
import JitLens.Compiler.Checkout
import JitLens.Text.Lines
/-!
# Variables of a run

The runtime is told by variables what to print.  They come in layers, each over those before it:
those that follow from the settings, those that the user has written down, and those of the flow
graph.
-/

namespace JitLens.Compiler

open Files

/-- Variables and their values, in order. -/
abbrev Variables := Table String

namespace Variables

/-- The variable that names the methods to print. -/
def captureName : CaptureMode → String
  | .disasm => "DOTNET_JitDisasm"
  | .jitDump => "DOTNET_JitDump"
  | .printInlinees => "DOTNET_JitPrintInlinedMethods"

/-- The variable with the name of another compiler. -/
def altJitName : String := "DOTNET_AltJitName"

/-- The variable with the methods for another compiler. -/
def altJit : String := "DOTNET_AltJit"

/-- The variable that switches profiles. -/
def tieredPgo : String := "DOTNET_TieredPGO"

/-- The variable with the library pack. -/
def coreLibraries : String := "CORE_LIBRARIES"

/-- The variable that switches tiers. -/
def tieredCompilation : String := "DOTNET_TieredCompilation"

/-- The variable with the methods to draw. -/
def dumpGraph : String := "DOTNET_JitDumpFg"

/-- The variable that asks for a drawing. -/
def dumpGraphDot : String := "DOTNET_JitDumpFgDot"

/-- The variable with the phase to draw. -/
def dumpGraphPhase : String := "DOTNET_JitDumpFgPhase"

/-- The variable with the file to draw to. -/
def dumpGraphFile : String := "DOTNET_JitDumpFgFile"

/-- A switch as the value of a variable. -/
def switch (b : Bool) : String :=
  if b then "1" else "0"

/-- The variables that follow from the settings, for the methods that the filter names. -/
def derived (s : Settings) (filter : String) (pack : Option Path) : Variables :=
  let vars := Table.put [] (captureName s.capture) filter
  let vars := match s.alternateJit? with
    | some jit => Table.put (Table.put vars altJitName jit) altJit filter
    | none => vars
  let vars := Table.put vars tieredPgo (switch s.pgo)
  let vars := match pack with
    | some p => Table.put vars coreLibraries p.text
    | none => vars
  Table.put vars tieredCompilation (switch s.tieredJit)

/-- The variable and the value of a line that has exactly one equal sign. -/
def assignment? (line : List Char) : Option (String × String) :=
  match Text.splitOn '=' line with
  | [name, value] => some (String.ofList (Text.trim name), String.ofList (Text.trim value))
  | _ => none

/-- The variables that the user has written down, one on a line. -/
def assignments (text : Option String) : List (String × String) :=
  match text with
  | some t => (Text.lines t.toList).filterMap assignment?
  | none => []

/-- The variables with those of the user over them. -/
def withUser (vars : Variables) (text : Option String) : Variables :=
  Table.putAll vars (assignments text)

/-- The variables with those of the flow graph over them. -/
def withGraph (vars : Variables) (s : Settings) (filter : String) (file : Path) : Variables :=
  let phase := Text.trimmed (s.flowGraphPhase.getD "")
  Table.putAll vars [(dumpGraph, filter), (dumpGraphDot, "1"), (dumpGraphPhase, phase),
    (dumpGraphFile, file.text)]

/-- Why there are no variables for a run; a cause need not be known. -/
def refusal? (s : Settings) (method : String) (pack : Found) : Option (Option String) :=
  if s.reload = .build ∧ pack.path?.isNone then some pack.error
  else if s.flowGraph ∧ method = "*" then
    some (some "Flowgraph for classes (all methods) is not supported yet.")
  else none

/-- All variables of a run; the file is that of the flow graph, if there is one. -/
def all (s : Settings) (filter : String) (pack : Found) (file : Option Path) : Variables :=
  let pack := if s.reload = .build then pack.path? else none
  let vars := withUser (derived s filter pack) s.customVars
  match file with
  | some f => withGraph vars s filter f
  | none => vars

/-- The variables of a run, given the library pack, or why there are none. -/
def prepare (s : Settings) (method filter : String) (pack : Found) :
    Action (Except (Option String) Variables) := do
  match refusal? s method pack with
  | some reason => return .error reason
  | none =>
    if s.flowGraph then
      let file ← Action.temporaryFile ""
      return .ok (all s filter pack (some file))
    else return .ok (all s filter pack none)

/-- The library pack that the variables of a run need. -/
def packFor (host : Host) (s : Settings) : Action Found := do
  if s.reload = .publish then return {}
  else
    let b ← get
    Action.ofExcept (fun e => .fault (.pattern e)) (findPack b.files b.here host s none)

/-- The variables of a run, or why there are none. -/
def forRun (host : Host) (s : Settings) (method filter : String) :
    Action (Except (Option String) Variables) := do
  prepare s method filter (← packFor host s)

end Variables
end JitLens.Compiler
