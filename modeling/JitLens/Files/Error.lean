import JitLens.Text.Quoted
/-!
# Errors of the file system

The ways in which an operation on files is refused, each with its number, its wording, and the
paths that it names.  A path that holds a null character is refused before it is looked up, and
that refusal has neither a number nor a path.
-/

namespace JitLens.Files

/-- Why an operation was refused. -/
inductive Errno where
  | noEntry
  | notProgram
  | denied
  | busy
  | alreadyExists
  | notDirectory
  | isDirectory
  /-- A null character in a path. -/
  | nullCharacter
  deriving DecidableEq, Repr

namespace Errno

/-- The number of the error. -/
def code : Errno → Nat
  | .noEntry => 2
  | .notProgram => 8
  | .denied => 13
  | .busy => 16
  | .alreadyExists => 17
  | .notDirectory => 20
  | .isDirectory => 21
  | .nullCharacter => 0

/-- The error in words. -/
def text : Errno → String
  | .noEntry => "No such file or directory"
  | .notProgram => "Exec format error"
  | .denied => "Permission denied"
  | .busy => "Device or resource busy"
  | .alreadyExists => "File exists"
  | .notDirectory => "Not a directory"
  | .isDirectory => "Is a directory"
  | .nullCharacter => "embedded null byte"

/-- The label under which the error is reported. -/
def label : Errno → String
  | .noEntry => "FileNotFoundError"
  | .notProgram => "OSError"
  | .denied => "PermissionError"
  | .busy => "OSError"
  | .alreadyExists => "FileExistsError"
  | .notDirectory => "NotADirectoryError"
  | .isDirectory => "IsADirectoryError"
  | .nullCharacter => "ValueError"

end Errno

/-- A refused operation with the path it was for, and a second one if it was for two. -/
structure FileError where
  errno : Errno
  path : String
  target : Option String := none
  deriving DecidableEq, Repr

/-- The error in words. -/
def FileError.message (e : FileError) : String :=
  if e.errno = .nullCharacter then e.errno.text
  else
    "[Errno " ++ toString e.errno.code ++ "] " ++ e.errno.text ++ ": " ++ Text.quoted e.path ++
      match e.target with
      | none => ""
      | some t => " -> " ++ Text.quoted t

def FileError.literal (e : FileError) : String :=
  e.errno.label ++ "(" ++
    (if e.errno = .nullCharacter then "" else toString e.errno.code ++ ", ") ++
    Text.quoted e.errno.text ++ ")"

end JitLens.Files
