import JitLens.Bench
import JitLens.Settings.Change
import JitLens.Yaml.Document
import JitLens.Yaml.Printer
/-!
# Settings files

Settings are kept in a file, as a mapping of their fields in the order of their names.  Variables
of the environment go over what the file says.  A file is written whole: first under a temporary
name beside it, then moved into its place.
-/

namespace JitLens

open Files

/-- What the process that runs the tool is given from outside. -/
structure Environment where
  vars : Table String := []
  /-- The settings file that is used if no other one is named. -/
  defaultSettings : Path
  /-- Home directories of known users. -/
  homes : Table String := []

namespace Environment

/-- The value of a variable that is not empty. -/
def filled? (e : Environment) (name : String) : Option String :=
  (Table.get? e.vars name).filter (· ≠ "")

/-- The home directory that a tilde with a user name, or alone, stands for. -/
def home? (e : Environment) (user : String) : Option String :=
  if user = "" then Table.get? e.vars "HOME" else Table.get? e.homes user

/-- A path with a tilde at its start replaced by a home directory. -/
def expand (e : Environment) (p : Path) : Except Fault Path :=
  match p.isAbsolute, p.parts with
  | false, first :: rest =>
    match first.toList with
    | '~' :: user =>
      match e.home? (String.ofList user) with
      | some home =>
        let h := Path.ofString (if home = "" then "/" else home)
        .ok ⟨h.anchor, h.parts ++ rest⟩
      | none => .error .homeUnknown
    | _ => .ok p
  | _, _ => .ok p

/-- The settings file: the one that a variable names, or the default one. -/
def settingsPath (e : Environment) : Except Fault Path :=
  match e.filled? "JITSCOPE_SETTINGS_PATH" with
  | some named => e.expand (Path.ofString named)
  | none => .ok e.defaultSettings

end Environment

namespace Settings

/-- Variables and the fields that they go over. -/
def overriddenBy : List (String × (String → Change)) := [
  ("JITSCOPE_RUNTIME_ROOT", .text .runtimeRoot),
  ("JITSCOPE_DOTNET_CLI", .text .dotnet),
  ("JITSCOPE_GRAPHVIZ_DOT", fun v => .optional .graphvizDot (some v)),
  ("JITSCOPE_ARCH", fun v => .optional .arch (some v))]

/-- The settings with the variables of the environment put over them. -/
def withEnvironment (s : Settings) (e : Environment) : Settings :=
  overriddenBy.foldl
    (fun s (name, change) =>
      match e.filled? name with
      | some v => s.update (change v)
      | none => s)
    s

/-- The fields in the order of their names. -/
def sortedFields : List Field := [
  .optional .arch, .capture, .optional .crossgenArgs, .text .version, .optional .customVars,
  .text .dotnet, .flag .flowGraph, .optional .flowGraphPhase, .optional .graphvizDot,
  .text .runtimeRoot, .reload, .flag .runApp, .optional .selectedJit, .flag .showComments,
  .flag .customRuntime, .flag .noRestore, .flag .pgo, .flag .tieredJit]

/-- The text of a file with the settings. -/
def document (s : Settings) : List Char :=
  Yaml.write (sortedFields.map fun f => (f.name, (s.lookup f).leaf))

/-- The entries of a settings file. -/
def readEntries (path : Path) (content : Text.Bytes) :
    Except Failure (List (Value × Value)) :=
  match Text.decode content with
  | .error e => .error (.fault (.notText e))
  | .ok text =>
    match Yaml.read (Text.unifyLineEnds text) with
    | .error (.malformed fault) => .error (.settings (.malformed path.text fault))
    | .error (.badValue e) => .error (.fault (.badValue e))
    | .ok .null => .ok []
    | .ok (.map entries) => .ok entries
    | .ok v => .error (.settings (.notMapping path.text v.kindName))

/-- The settings in the content of a file, with a warning for every key that is no field. -/
def ofContent (path : Path) (content : Text.Bytes) : Action Settings := do
  let entries ← Action.ofExcept id (readEntries path content)
  let (unknown, result) := ofEntries entries
  for key in unknown do
    Action.warn (.unknownSetting key)
  match result with
  | .ok s => return s
  | .error e => Action.fail (.settings (.invalid path.text e.message))

/-- Loads the settings from a file, or the defaults if there is none, without the variables of the
environment. -/
def loadFile (path : Path) : Action Settings := do
  if ← Action.look Tree.holds path then
    let content ← Action.ofFiles (← Action.look Tree.read path)
    ofContent path content
  else return {}

/-- The path given or else that of the environment. -/
def pathOr (e : Environment) : Option Path → Action Path
  | some p => pure p
  | none => Action.ofExcept .fault e.settingsPath

/-- Loads the settings with the variables of the environment put over them. -/
def load (e : Environment) (path : Option Path) : Action Settings := do
  let s ← loadFile (← pathOr e path)
  return s.withEnvironment e

/-- Saves the settings to a file and returns its path. -/
def save (e : Environment) (s : Settings) (path : Option Path) : Action Path := do
  let path ← pathOr e path
  let folder := path.parent
  Action.makeDirs folder
  let here := (← get).here
  let whole : Path :=
    if folder.isAbsolute then ⟨folder.anchor, Path.fold folder.parts⟩
    else ⟨.root, Path.fold (here ++ folder.parts)⟩
  let temporary ← Action.makeTemporary whole (path.name ++ ".") ".tmp" (Text.encode s.document)
  let b ← get
  match b.files.move b.here temporary path with
  | .ok files =>
    set { b with files := files }
    return path
  | .error err =>
    set { b with files := b.files.removeFile b.here temporary }
    Action.fail (.fault (.file err))

end Settings
end JitLens
