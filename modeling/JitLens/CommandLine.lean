import JitLens.CommandLine.Arguments
import JitLens.Decimal.Shortest
import JitLens.Json.Printer
import JitLens.Run
import JitLens.Settings.Overrides
import JitLens.Settings.Store
/-!
# The command line

A command line changes and saves settings, lists the compilers that can be selected, or runs the
tool for a symbol and prints what came out.
-/

namespace JitLens.CommandLine

open Decimal Files

/-- What a command leaves: its exit code and what it prints on either stream. -/
structure Transcript where
  exit : Nat
  out : String := ""
  err : String := ""
  deriving DecidableEq, Repr

/-- The name of the program. -/
def program : String := "jitscope-disasm"

def linesText (lines : List String) : String :=
  String.join (lines.map (· ++ "\n"))

namespace Transcript

def misuse (e : UsageError) : Transcript :=
  ⟨2, "", linesText [program ++ ": error: " ++ e.message]⟩

/-- The transcript of a command that was given something bad. -/
def refused (reason : String) : Transcript :=
  ⟨1, "", linesText ["Error: " ++ reason]⟩

/-- The transcript with lines printed before all others on the stream for errors. -/
def behind (lines : List String) (t : Transcript) : Transcript :=
  { t with err := linesText lines ++ t.err }

end Transcript

/-- How the program is used. -/
def usage : Transcript :=
  ⟨0, linesText ["usage: " ++ program ++ " [options] [project] [symbol]"], ""⟩

/-- The settings of a command, or why they are refused. -/
def settings (e : Environment) (a : Arguments) : Action (Except String Settings) :=
  tryCatch
    (do
      let s ← Settings.load e (a.settings.map Path.ofString)
      if a.overrides.isEmpty then return .ok s
      match Settings.parseOverrides a.overrides with
      | .error (.badValue bad) => Action.fail (.fault (.badValue bad))
      | .error err => return .error err.message
      | .ok changes =>
        match s.applyAll changes with
        | .ok s => return .ok s
        | .error err => return .error err.message)
    fun f => if f.isBadInput then return .error f.message else throw f

/-- A line for a compiler that can be selected, with a star if it is. -/
def jitLine (s : Settings) (jit : String) : String :=
  (if s.selectedJit = some jit then "* " else "  ") ++ jit

/-- Lists the compilers that can be selected. -/
def listJits (host : Host) (s : Settings) : Action Transcript := do
  let b ← get
  match Compiler.offeredJits b.files b.here host s with
  | [] => return ⟨1, "", linesText ["No local runtime build found"]⟩
  | jits => return ⟨0, linesText (jits.map (jitLine s)), ""⟩

/-- A symbol with what the options say about it. -/
def adjusted (a : Arguments) (s : Symbol) : Symbol :=
  let s := if a.genericMethod then { s with isGeneric := true } else s
  match a.className with
  | some name => if name = "" then s else { s with className := name }
  | none => s

/-- The order that a command comes down to. -/
def order (a : Arguments) (s : Settings) (project : String) (symbol : Symbol) : Order where
  symbol := adjusted a symbol
  settings := s
  project := project
  framework := a.framework
  output := a.outputDir

/-- An outcome as data. -/
def outcomeValue (o : Outcome) : Value :=
  .map [
    (.text "success", .bool o.success), (.text "output", .text o.output),
    (.text "flowgraph_png_path", (o.picture.map Value.text).getD .null),
    (.text "phases", .list (o.phases.map .text)), (.text "elapsed_seconds", .float o.elapsed)]

def exitCode (o : Outcome) : Nat :=
  if o.success then 0 else 1

/-- What is printed for an outcome. -/
def shown (a : Arguments) (o : Outcome) : Transcript :=
  if a.json then ⟨exitCode o, linesText [Json.write .indented (outcomeValue o)], ""⟩
  else {
    exit := exitCode o
    out := linesText (o.output :: if a.listPhases then o.phases else [])
    err := linesText ((o.picture.map fun p => "Flow graph: " ++ p).toList ++
      ["Disasm took " ++ oneDecimal o.elapsed ++ " s."]) }

/-- Runs the tool for a symbol; what it reports is printed before all else. -/
def runOrder (tools : Tools) (host : Host) (clock : Clock) (a : Arguments) (o : Order) :
    Action Transcript := do
  let before := (← get).statuses.length
  let outcome ← o.run tools host none clock
  let reported := (← get).statuses.drop before
  return (shown a outcome).behind reported

def runSymbol (tools : Tools) (host : Host) (clock : Clock) (a : Arguments) (s : Settings)
    (project symbol : String) : Action Transcript :=
  match Symbol.parse symbol a.localFunction with
  | .error e => return .refused e.message
  | .ok parsed => runOrder tools host clock a (order a s project parsed)

/-- A text that is there and not empty. -/
def filled? (s : Option String) : Option String :=
  s.filter (· ≠ "")

/-- Runs what is asked for beside the settings. -/
def perform (tools : Tools) (host : Host) (clock : Clock) (a : Arguments) (s : Settings) :
    Action Transcript :=
  if a.listJits then listJits host s
  else
    match filled? a.project, filled? a.symbol with
    | some project, some symbol => runSymbol tools host clock a s project symbol
    | _, _ => return .misuse .incomplete

/-- Saves the settings if that is asked for, and says what is printed about it. -/
def saved (e : Environment) (a : Arguments) (s : Settings) : Action (List String) := do
  if a.save then
    let path ← s.save e (a.settings.map Path.ofString)
    return ["Saved settings to " ++ path.text]
  else return []

def runArguments (tools : Tools) (host : Host) (e : Environment) (clock : Clock)
    (a : Arguments) : Action Transcript := do
  match ← settings e a with
  | .error reason => return .refused reason
  | .ok s =>
    let lines ← saved e a s
    return (← perform tools host clock a s).behind lines

def run (tools : Tools) (host : Host) (e : Environment) (clock : Clock) (argv : List String) :
    Action Transcript :=
  match Arguments.read argv with
  | .error .help => return usage
  | .error (.misuse err) => return .misuse err
  | .ok a => runArguments tools host e clock a

end JitLens.CommandLine
