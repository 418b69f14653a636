import JitLens.Failure
import JitLens.Value
/-!
# The bench

What a run works on and leaves behind: the files, the numbers drawn for temporary files, the
request to cancel, and the record of calls, status messages and warnings.  Tools are functions of
the calls before, the call at hand and the files; `call` is the only way to reach them.
-/

namespace JitLens

open Files

/-- A request to cancel that may be made while a run goes on. -/
structure Token where
  cancelled : Bool := false
  message : String := "The operation was canceled."
  deriving DecidableEq, Repr

/-- The token after a request, whose message counts unless it is empty. -/
def Token.cancel (t : Token) (message : Option String) : Token :=
  match message with
  | some m => if m = "" then { t with cancelled := true } else ⟨true, m⟩
  | none => { t with cancelled := true }

/-- A call of a tool. -/
structure Invocation where
  executable : String
  args : List String
  /-- Variables that go over those of the process. -/
  vars : Option (Table String) := none
  directory : Option String := none
  deriving DecidableEq, Repr

/-- What a tool leaves when it has ended. -/
structure ToolResult where
  output : String := ""
  errors : String := ""
  exitCode : Int := 0
  deriving DecidableEq, Repr

/-- What a call of a tool does. -/
structure Reaction where
  files : Tree
  /-- A request to cancel that is made during the call, with its message. -/
  cancel : Option (Option String) := none
  outcome : Except Failure ToolResult

/-- Tools, by the calls before, the call and the files. -/
abbrev Tools := List Invocation → Invocation → Tree → Reaction

/-- A message about something that did not stop a run. -/
inductive Warning where
  | unknownSetting (key : Value)
  | buildFailed (f : Failure)
  | executionFailed (f : Failure)

/-- A failure with its label. -/
def Failure.labelled (f : Failure) : String :=
  f.label ++ ": " ++ f.message

/-- A warning in words. -/
def Warning.text : Warning → String
  | .unknownSetting key => "Ignoring unknown setting '" ++ key.display ++ "'"
  | .buildFailed f => "Build step failed | " ++ f.labelled
  | .executionFailed f => "Execution step failed | " ++ f.labelled

/-- What a run works on and leaves behind. -/
structure Bench where
  files : Tree
  /-- The working directory. -/
  here : Location
  /-- The directory for temporary files. -/
  temporary : Path
  /-- The number of the last temporary file. -/
  drawn : Nat := 0
  token : Option Token := none
  /-- Whether the tools heed a request to cancel: after it they do not start. -/
  heeded : Bool := true
  calls : List Invocation := []
  statuses : List String := []
  warnings : List Warning := []

/-- The name of the temporary file with a number. -/
def numberedName (stem ending : String) (n : Nat) : String :=
  stem ++ toString n ++ ending

/-- The path of the temporary file with a number. -/
def numbered (folder : Path) (stem ending : String) (n : Nat) : Path :=
  folder.entry (numberedName stem ending n)

/-- The number of the next temporary file in a directory: the first one not drawn yet under whose
name nothing stands.  More names than the directory has entries cannot all be taken. -/
def Bench.freeNumber (b : Bench) (folder : Path) (stem ending : String) : Nat :=
  b.files.firstFree b.here (numbered folder stem ending) (b.files.sizeAt b.here folder)
    (b.drawn + 1)

abbrev Action := ExceptT Failure (StateM Bench)

namespace Action

def fail {α : Type} (f : Failure) : Action α :=
  throw f

/-- The action that fails in a foreseen way. -/
def stop {α : Type} (kind : StepKind) (message : String) : Action α :=
  throw (.step kind message)

/-- The result of a computation that may end in a fault. -/
def ofExcept {ε α : Type} (wrap : ε → Failure) : Except ε α → Action α
  | .ok a => pure a
  | .error e => throw (wrap e)

/-- The result of an operation on files. -/
def ofFiles {α : Type} (r : Except FileError α) : Action α :=
  ofExcept (fun e => .fault (.file e)) r

/-- Looks something up in the files, from the working directory. -/
def look {α : Type} (f : Tree → Location → Path → α) (p : Path) : Action α := do
  let b ← get
  return f b.files b.here p

/-- Changes the files by an operation that may be refused. -/
def change (f : Tree → Location → Except FileError Tree) : Action Unit := do
  let b ← get
  let files ← ofFiles (f b.files b.here)
  set { b with files := files }

/-- Makes a directory and the directories on the way to it, of which some may be there even if it
fails. -/
def makeDirs (p : Path) : Action Unit := do
  let b ← get
  match b.files.makeDirs b.here p with
  | .ok files => set { b with files := files }
  | .error e =>
    set { b with files := b.files.partDirs b.here p }
    fail (.fault (.file e))

/-- Reports what is going on. -/
def report (status : String) : Action Unit :=
  modify fun b => { b with statuses := b.statuses ++ [status] }

/-- Records a warning. -/
def warn (w : Warning) : Action Unit :=
  modify fun b => { b with warnings := b.warnings ++ [w] }

/-- Fails if the run was cancelled. -/
def checkCancelled : Action Unit := do
  match (← get).token with
  | some t => if t.cancelled then stop .cancelled t.message else pure ()
  | none => pure ()

/-- Draws the path of the next temporary file in a directory. -/
def draw (folder : Path) (stem ending : String) : Action Path := do
  let b ← get
  let n := b.freeNumber folder stem ending
  set { b with drawn := n }
  return numbered folder stem ending n

/-- Makes a temporary file in a directory.  Its name starts and ends as given, with a number between;
names that are taken are passed over, so that no file is written over. -/
def makeTemporary (folder : Path) (stem ending : String) (content : Text.Bytes) :
    Action Path := do
  let p ← draw folder stem ending
  change fun t here => t.create here p content
  return p

/-- Makes the empty temporary file of a flow graph. -/
def temporaryFile (ending : String) : Action Path := do
  makeTemporary (← get).temporary "jitscope-fg-" ending []

/-- Calls a tool, which does not start if it heeds a request to cancel. -/
def call (tools : Tools) (i : Invocation) : Action ToolResult := do
  if (← get).heeded then checkCancelled
  let b ← get
  let r := tools b.calls i b.files
  let token := match r.cancel with
    | some message => b.token.map (·.cancel message)
    | none => b.token
  set { b with files := r.files, calls := b.calls ++ [i], token := token }
  ofExcept id r.outcome

end Action
end JitLens
