import JitLens.Bench
import JitLens.Shell.Interpreter
/-!
# Scripts as tools

Tools that are scripts in a tree of files, run on a machine of their own.  A run that is cancelled
while a tool is asleep stops the tool, at the next of the moments at which that is looked at.

The shell and its utilities stand for programs of the system on which the commands run.  They serve
the command line and test runs, which need tools that do something.  The theory takes tools as
functions of any kind, and no theorem depends on the modules of the shell.
-/

namespace JitLens.Shell

open Files

/-- What a tool leaves. -/
structure Ended where
  files : Tree
  outcome : Except Fault ToolResult
  /-- Milliseconds spent asleep. -/
  slept : Nat := 0

/-- What a machine leaves when its script has ended. -/
def ended (flow : Flow) (m : Machine) : Ended where
  files := m.files
  outcome := .ok {
    output := String.ofList (Text.decodeLossy m.out.reverse)
    errors := String.ofList (Text.decodeLossy m.err.reverse)
    exitCode := match flow with
      | .killed signal => -signal
      | _ => m.status }
  slept := m.slept

def startFolder (t : Tree) (here : Location) (directory : Option String) :
    Except FileError Location :=
  match directory.filter (· ≠ "") with
  | none => .ok here
  | some d =>
    match t.locate here (pathOf d) with
    | .error e => .error ⟨e, d, none⟩
    | .ok l =>
      match t.look l with
      | some .dir => .ok l
      | some (.file _ _) => .error ⟨.notDirectory, d, none⟩
      | none => .error ⟨.noEntry, d, none⟩

/-- What a program does, or why it cannot be started. -/
def programOf (t : Tree) (here : Location) (name : String) (args : List String) :
    Except FileError (Act Flow) :=
  let refuse (e : Errno) : Except FileError (Act Flow) := .error ⟨e, name, none⟩
  if isShell name then .ok (runShell mostSteps name args)
  else if let some act := program? (utilityName name) then
    .ok do finish (← act args)
  else if name = "" then refuse .denied
  else if !name.toList.contains '/' then refuse .noEntry
  else
    match t.locate here (pathOf name) with
    | .error e => refuse e
    | .ok l =>
      match t.look l with
      | none => refuse .noEntry
      | some (.file content true) =>
        match scriptOf? content with
        | some script => .ok (runProgram mostSteps script name args)
        | none =>
          refuse (if content.take 2 = [0x23, 0x21] then .noEntry else .notProgram)
      | some _ => refuse .denied

/-- The texts that are handed to the system to start a tool. -/
def handedOver (i : Invocation) : List String :=
  i.executable :: i.args ++ i.directory.toList ++
    (i.vars.getD []).flatMap fun (name, value) => [name, value]

/-- What is wrong with a call before anything is started. -/
def callFault? (i : Invocation) : Option Fault :=
  if (i.vars.getD []).any fun (name, _) => name.toList.contains '=' then
    some (.foreign "ValueError" "illegal environment variable name")
  else if (handedOver i).any holdsNull then
    some (.file ⟨.nullCharacter, i.executable, none⟩)
  else none

/-- Runs what a tool does, from the folder that it starts in. -/
def perform (vars : Table String) (folder : Location) (i : Invocation) (t : Tree)
    (act : Act Flow) : Ended :=
  let vars := Table.putAll vars (i.vars.getD [])
  let (flow, m) := act.run {
    files := t
    here := folder
    vars := vars
    exported := vars.map Prod.fst
    name := i.executable
    args := i.args }
  ended flow m

/-- Runs a tool. -/
def start (vars : Table String) (here : Location) (i : Invocation) (t : Tree) : Ended :=
  let refuse (f : Fault) : Ended := { files := t, outcome := .error f }
  match callFault? i with
  | some fault => refuse fault
  | none =>
    match startFolder t here i.directory with
    | .error e => refuse (.file e)
    | .ok folder =>
      match programOf t folder i.executable i.args with
      | .error e => refuse (.file e)
      | .ok act => perform vars folder i t act

/-- A request to cancel that is made some time after a tool was started. -/
structure LateCancel where
  milliseconds : Nat
  message : Option String := none

/-- The moment at which a late request is noticed: requests are looked for every tenth of a
second. -/
def LateCancel.noticed (c : LateCancel) : Nat :=
  100 * max 1 ((c.milliseconds + 99) / 100)

/-- Tools that are scripts. -/
def tools (vars : Table String) (here : Location) (late : Option LateCancel) : Tools :=
  fun _ i t =>
    let e := start vars here i t
    let done : Reaction := {
      files := e.files
      outcome := e.outcome.mapError .fault }
    match late with
    | none => done
    | some c =>
      if e.slept ≤ c.noticed then done
      else { done with
        cancel := some c.message
        outcome := .error (.step .cancelled (({} : Token).cancel c.message).message) }

end JitLens.Shell
