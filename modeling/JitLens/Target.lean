import JitLens.Files.Path
import JitLens.Symbol
/-!
# Targets of a run

What the compiler is asked to print for a symbol, and under which names the loader finds the
compiled project.
-/

namespace JitLens

open Files

/-- The names that a run goes by. -/
structure Target where
  /-- The directory with the compiled project. -/
  folder : Path
  /-- The compiled project, without its extension. -/
  assembly : String
  hostType : String
  /-- The method that the loader prepares; a star stands for all. -/
  method : String
  /-- The methods that the compiler prints. -/
  filter : String
  deriving DecidableEq, Repr

namespace Target

/-- The output directory, as seen from the directory of the project. -/
def outputFolder (project output : String) : Path :=
  let output := Path.ofString output
  if output.isAbsolute then output else (Path.ofString project).parent.join output

/-- Whether a class holds the statements of a program that are in no class. -/
def holdsTopLevel (qualified : String) : Bool :=
  Text.endsWith ['>', '$'] qualified.toList

/-- The method that the loader prepares and the methods that the compiler prints. -/
def methodAndFilter (s : Symbol) : String × String :=
  match s.method with
  | none => ("*", s.className ++ ":*")
  | some m =>
    if s.isLocal then ("*", "*" ++ s.className ++ ":*")
    else if holdsTopLevel s.qualifiedClass then
      (m, "<" ++ s.className ++ ">g__" ++ m ++ "*")
    else (m, "*" ++ s.className ++ ":" ++ m)

def of (s : Symbol) (project output : String) : Target :=
  let (method, filter) := methodAndFilter s
  ⟨outputFolder project output, (Path.ofString project).stem, s.qualifiedClass, method, filter⟩

end Target
end JitLens
