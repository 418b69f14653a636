import JitLens.CommandLine
import JitLens.Json.Reader
import JitLens.Shell.Tools
/-!
# Workspaces

What a command runs in: files, a working directory, variables, a host and a clock.  A workspace is
described by a JSON object, each part of which may be left out:

* `directory` is the working directory, the root if it is left out;
* `files` lists entries, each a list of a path, the text of the file, and whether the file is a
  program; a path alone is a directory;
* `variables` is an object of texts;
* `platform` and `machine` say what the host is;
* `clock` is a list of what the clock shows at the start and at the end of a run.

Programs are scripts.  `Workspace.run` is a whole run, from a command line to what it prints.  Like
the shell for the scripts it serves the command line and test runs only.
-/

namespace JitLens

open Decimal Files

/-- What a command runs in. -/
structure Workspace where
  files : Tree := Tree.empty
  /-- The working directory. -/
  here : Location := []
  vars : Table String := []
  host : Host := {}
  clock : Clock := ⟨.zero false, .zero false⟩

/-- What is wrong with the description of a workspace. -/
inductive WorkspaceError where
  | notJson (position : Nat)
  | notObject
  /-- A part that does not have its form. -/
  | malformed (part : String)
  /-- An entry that cannot be put where it belongs. -/
  | misplaced (e : FileError)
  deriving DecidableEq, Repr

/-- The error in words. -/
def WorkspaceError.message : WorkspaceError → String
  | .notJson position => "The workspace is no JSON text, see character " ++ toString position
  | .notObject => "The workspace is no JSON object"
  | .malformed part => "The " ++ part ++ " of the workspace cannot be read"
  | .misplaced e => e.message

namespace Workspace

def text? : Value → Option String
  | .text s => some s
  | _ => none

def number? : Value → Option Binary64
  | .int n => some (.ofInt n)
  | .float x => some x
  | _ => none

/-- A value as variables. -/
def vars? : Value → Option (Table String)
  | .map entries =>
    entries.mapM fun (name, value) => do
      let name ← text? name
      let value ← text? value
      return (name, value)
  | _ => none

/-- A value as what a clock shows. -/
def clock? : Value → Option Clock
  | .list [start, stop] => do
    let start ← number? start
    let stop ← number? stop
    return ⟨start, stop⟩
  | _ => none

/-- A part of a description that may be left out, as it is read by `read?`. -/
def part {α : Type} (read? : Value → Option α) (default : α) (entries : List (Value × Value))
    (name : String) : Except WorkspaceError α :=
  match entries.find? fun (key, _) => key.sameKey (.text name) with
  | none => .ok default
  | some (_, value) =>
    match read? value with
    | some a => .ok a
    | none => .error (.malformed name)

/-- What is to be put at a path. -/
structure Placement where
  path : Path
  item : Item
  deriving DecidableEq, Repr

/-- A value as something to be put at a path. -/
def placement? : Value → Option Placement
  | .list [.text p] => some ⟨.ofString p, .dir⟩
  | .list [.text p, .text s] => some ⟨.ofString p, .file (Text.encode s.toList) false⟩
  | .list [.text p, .text s, .bool executable] =>
    some ⟨.ofString p, .file (Text.encode s.toList) executable⟩
  | _ => none

/-- A value as a list of things to be put at paths. -/
def placements? : Value → Option (List Placement)
  | .list items => items.mapM placement?
  | _ => none

/-- A tree with something put at a path, as seen from a working directory; directories on the way
to it are made. -/
def place (here : Location) (t : Tree) (p : Placement) : Except FileError Tree :=
  match p.item with
  | .dir => t.makeDirs here p.path
  | .file content executable => do
    let t ← t.makeDirs here p.path.parent
    let t ← t.write here p.path content
    match t.locate here p.path with
    | .ok l => return t.putFile l content executable
    | .error e => throw ⟨e, p.path.text, none⟩

/-- A tree with the directories for temporary files and for work. -/
def ground (directory : Path) : Except FileError Tree := do
  let t ← Tree.empty.makeDirs [] (.ofString "/tmp")
  t.makeDirs [] directory

/-- Reads the parts of a description. -/
def ofEntries (entries : List (Value × Value)) : Except WorkspaceError Workspace := do
  let directory ← part text? "/" entries "directory"
  let placements ← part placements? [] entries "files"
  let vars ← part vars? [] entries "variables"
  let platform ← part text? ({} : Host).platform entries "platform"
  let machine ← part text? ({} : Host).machine entries "machine"
  let clock ← part clock? ({} : Workspace).clock entries "clock"
  let here := Path.fold (Path.ofString directory).parts
  let files ← (do
    let t ← ground ⟨.root, here⟩
    placements.foldlM (place here) t).mapError .misplaced
  return { files, here, vars, host := ⟨platform, machine⟩, clock }

/-- Reads the description of a workspace; a blank one leaves out all parts. -/
def read (description : List Char) : Except WorkspaceError Workspace :=
  if Text.allBlank description then ofEntries []
  else
    match Json.read description with
    | .error e => .error (.notJson e.position)
    | .ok (.map entries) => ofEntries entries
    | .ok _ => .error .notObject

/-- The environment that a command finds. -/
def environment (w : Workspace) : Environment where
  vars := w.vars
  defaultSettings :=
    ((Path.ofString ((Table.get? w.vars "HOME").getD "/")).child ".jitscope").child
      "settings.yaml"

/-- The bench that a command starts with. -/
def bench (w : Workspace) : Bench where
  files := w.files
  here := w.here
  temporary := .ofString "/tmp"

/-- Warnings as lines before what was printed. -/
def withWarnings (warnings : List Warning) (t : CommandLine.Transcript) :
    CommandLine.Transcript :=
  t.behind (warnings.map Warning.text)

def run (w : Workspace) (argv : List String) : CommandLine.Transcript :=
  let tools := Shell.tools w.vars w.here none
  let (result, b) := (CommandLine.run tools w.host w.environment w.clock argv).run.run w.bench
  withWarnings b.warnings <|
    match result with
    | .ok t => t
    | .error f => .refused f.labelled

def runDescribed (description : String) (argv : List String) : CommandLine.Transcript :=
  match read description.toList with
  | .ok w => w.run argv
  | .error e => .refused e.message

end Workspace
end JitLens
