import JitLens.Files.Access
import JitLens.Shell.Printing
import JitLens.Shell.Script
import JitLens.Table
/-!
# The machine that scripts run on

What a script can see and change: files, variables, arguments, its streams, and the time that it
has spent asleep.

Only the command line and test runs use this module; see `JitLens.Shell.Tools`.
-/

namespace JitLens.Shell

open Files
open Text (Bytes)

/-- Where a stream leads. -/
inductive Sink where
  | out
  | err
  | file (l : Location)
  | nowhere
  deriving DecidableEq, Repr

/-- A machine on which a script runs. -/
structure Machine where
  files : Tree
  here : Location
  vars : Table String
  /-- Names of variables that programs are given. -/
  exported : List String
  /-- The name of the script. -/
  name : String
  args : List String
  /-- Parts of the script that have a name. -/
  functions : List (String × Command) := []
  /-- Whether the script ends at the first command that fails. -/
  stopsAtFailure : Bool := false
  /-- What is still run when the script ends. -/
  atExit : Option String := none
  /-- The exit code of the last command. -/
  status : Nat := 0
  input : Bytes := []
  outTo : Sink := .out
  errTo : Sink := .err
  /-- What was written, last byte first. -/
  out : Bytes := []
  err : Bytes := []
  /-- Milliseconds spent asleep. -/
  slept : Nat := 0

/-- How a command ends. -/
inductive Flow where
  | next
  /-- The script ends. -/
  | exit
  | killed (signal : Nat)
  | leaveLoop
  | nextRound
  | leaveFunction
  deriving DecidableEq, Repr

/-- A part of a script as an action on a machine. -/
abbrev Act := StateM Machine

namespace Machine

/-- The machine after bytes were written to where a stream leads. -/
def write (m : Machine) (sink : Sink) (bytes : Bytes) : Machine :=
  match sink with
  | .out => { m with out := bytes.reverse ++ m.out }
  | .err => { m with err := bytes.reverse ++ m.err }
  | .nowhere => m
  | .file l =>
    match m.files.look l with
    | some (.file content executable) =>
      { m with files := m.files.putFile l (content ++ bytes) executable }
    | _ => m

/-- The value of a variable. -/
def value? (m : Machine) (name : String) : Option String :=
  Table.get? m.vars name

/-- The machine with a variable set. -/
def set (m : Machine) (name value : String) : Machine :=
  { m with vars := Table.put m.vars name value }

/-- The number of the process, which scripts can ask for. -/
def process : String := "4242"

/-- The value of a parameter, if it is set. -/
def parameter? (m : Machine) (name : String) : Option String :=
  match name.toList with
  | ['@'] => some (String.intercalate " " m.args)
  | ['*'] => some (String.intercalate " " m.args)
  | ['#'] => some (toString m.args.length)
  | ['?'] => some (toString m.status)
  | ['$'] => some process
  | ['-'] => some ""
  | ['!'] => some ""
  | ['0'] => some m.name
  | c :: cs =>
    if Text.isDigit c then m.args[Text.numberOf 10 (c :: cs) - 1]? else m.value? name
  | [] => none

/-- The variables that programs are given. -/
def environment (m : Machine) : Table String :=
  m.vars.filter fun (k, _) => m.exported.contains k

end Machine

/-- Writes to the stream for results. -/
def say (bytes : Bytes) : Act Unit :=
  modify fun m => m.write m.outTo bytes

/-- Writes a line to the stream for errors. -/
def complain (line : String) : Act Unit :=
  modify fun m => m.write m.errTo (Text.encode (line ++ "\n").toList)

/-- Writes an error of a script to the stream for errors. -/
def complainAt (line : Nat) (message : String) : Act Unit := do
  complain ((← get).name ++ ": " ++ toString line ++ ": " ++ message)

/-- Sets the exit code of a command that goes on. -/
def finish (status : Nat) : Act Flow := do
  modify fun m => { m with status := status }
  return .next

end JitLens.Shell
