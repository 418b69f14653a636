import JitLens.Files.Copy
import JitLens.Files.Pattern
import JitLens.Text.Words
import JitLens.Yaml.Fault
/-!
# Failures

A step fails in a way that it foresees, with a message for the user, or through a fault of what it
relies on: files, texts, tools.  A settings file can be at fault too.
-/

namespace JitLens

open Files

/-- The ways in which a step foresees that it may fail. -/
inductive StepKind where
  | configuration
  | runtimeNotFound
  | toolFailed
  | artifact
  | loaderBuild
  | cancelled
  | other
  deriving DecidableEq, Repr

/-- The label of a foreseen failure. -/
def StepKind.label : StepKind → String
  | .configuration => "ConfigurationError"
  | .runtimeNotFound => "RuntimeNotFoundError"
  | .toolFailed => "ToolFailedError"
  | .artifact => "ArtifactError"
  | .loaderBuild => "LoaderBuildError"
  | .cancelled => "OperationCancelled"
  | .other => "JitScopeError"

/-- A fault of what a step relies on. -/
inductive Fault where
  | file (e : FileError)
  | copy (errors : List CopyError)
  | sameFile (source target : Path)
  | notText (e : Text.DecodeError)
  | words (e : Text.WordsError)
  | pattern (e : PatternError)
  | digits (e : Text.DigitsError)
  | badValue (e : Yaml.BadValue)
  | homeUnknown
  /-- A fault inside a tool, with the label and the message that it gives itself. -/
  | foreign (label message : String)

/-- What the output of a step starts with if something that it did not foresee ended it. -/
def traceHead : String := "Traceback (most recent call last):\n"

namespace Fault

def label : Fault → String
  | .file e => e.errno.label
  | .copy _ => "Error"
  | .sameFile _ _ => "SameFileError"
  | .notText _ => "UnicodeDecodeError"
  | .words _ => "ValueError"
  | .pattern _ => "ValueError"
  | .digits _ => "ValueError"
  | .badValue e => e.label
  | .homeUnknown => "RuntimeError"
  | .foreign label _ => label

/-- A path in the words of a fault. -/
def pathText (p : Path) : String :=
  "PosixPath(" ++ Text.quoted p.text ++ ")"

/-- A fault in words; a missing key is named in quotes. -/
def message : Fault → String
  | .file e => e.message
  | .copy errors => "[" ++ String.intercalate ", " (errors.map CopyError.text) ++ "]"
  | .sameFile source target =>
    pathText source ++ " and " ++ pathText target ++ " are the same file"
  | .notText e => e.message
  | .words e => e.message
  | .pattern e => e.message
  | .digits e => e.message
  | .badValue e => e.message
  | .homeUnknown => "Could not determine home directory."
  | .foreign label message => if label = "KeyError" then Text.quoted message else message

def literal : Fault → String
  | .file e => e.literal
  | .foreign label message => label ++ "(" ++ Text.quoted message ++ ")"
  | f => f.label ++ "(" ++ Text.quoted f.message ++ ")"

/-- Whether the fault is in what was given to be read. -/
def isBadInput : Fault → Bool
  | .notText _ | .words _ | .pattern _ | .digits _ => true
  | .file e => e.errno == .nullCharacter
  | .badValue e => e.label == "ValueError"
  | .foreign label _ => label == "ValueError"
  | _ => false

/-- A fault as the output of a step that it ended. -/
def trace (f : Fault) : String :=
  traceHead ++ f.label ++ ": " ++ f.message ++ "\n"

end Fault

/-- Why a settings file cannot be used. -/
inductive SettingsFault where
  | malformed (path : String) (fault : Yaml.Fault)
  | notMapping (path kind : String)
  | invalid (path reason : String)

/-- A settings fault in words. -/
def SettingsFault.message : SettingsFault → String
  | .malformed path fault => "Invalid YAML in " ++ path ++ ": " ++ fault.text
  | .notMapping path kind =>
    "Settings file " ++ path ++ " must contain a mapping, got " ++ kind
  | .invalid path reason => "Invalid settings in " ++ path ++ ": " ++ reason

/-- Why an action failed. -/
inductive Failure where
  | step (kind : StepKind) (message : String)
  | settings (e : SettingsFault)
  | fault (f : Fault)

namespace Failure

def label : Failure → String
  | .step kind _ => kind.label
  | .settings _ => "SettingsError"
  | .fault f => f.label

/-- A failure in words. -/
def message : Failure → String
  | .step _ message => message
  | .settings e => e.message
  | .fault f => f.message

def literal : Failure → String
  | .step kind message => kind.label ++ "(" ++ Text.quoted message ++ ")"
  | .settings e => "SettingsError(" ++ Text.quoted e.message ++ ")"
  | .fault f => f.literal

/-- A failure as the output of a step that it ended and that did not foresee it. -/
def trace (f : Failure) : String :=
  traceHead ++ f.label ++ ": " ++ f.message ++ "\n"

/-- Whether an action failed because of what it was given to read. -/
def isBadInput : Failure → Bool
  | .settings _ => true
  | .fault f => f.isBadInput
  | .step _ _ => false

/-- Whether an action failed because it was cancelled. -/
def isCancelled : Failure → Bool
  | .step .cancelled _ => true
  | _ => false

end Failure
end JitLens
