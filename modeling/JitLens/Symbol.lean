import JitLens.Text.Blank
import JitLens.Text.Lines
import JitLens.Text.Search
/-!
# Symbols

What a run looks at: a class, or one method of it.
-/

namespace JitLens

/-- A class or a method of it. -/
structure Symbol where
  /-- The class with its namespaces. -/
  qualifiedClass : String
  className : String
  method : Option String := none
  /-- A function inside of a method, whose compiled name is not known. -/
  isLocal : Bool := false
  isGeneric : Bool := false
  deriving DecidableEq, Repr

/-- A text that names no class. -/
structure SymbolError where
  text : String
  deriving DecidableEq, Repr

/-- The error in words. -/
def SymbolError.message (e : SymbolError) : String :=
  "Symbol '" ++ e.text ++ "' has no type name"

namespace Symbol

/-- What is behind the last dot of a class name. -/
def simpleName (qualified : String) : String :=
  String.ofList ((Text.splitOn '.' qualified.toList).getLast?.getD [])

/-- The text without blanks around it, unless nothing is left. -/
def nonEmpty? (cs : List Char) : Option String :=
  let trimmed := Text.trim cs
  if trimmed.isEmpty then none else some (String.ofList trimmed)

/-- Reads a class, or a class and a method with two colons between them. -/
def parse (text : String) (isLocal : Bool) : Except SymbolError Symbol :=
  let (before, method) := match Text.cutAt [':', ':'] text.toList with
    | some (before, behind) => (before, nonEmpty? behind)
    | none => (text.toList, none)
  match nonEmpty? before with
  | none => .error ⟨text⟩
  | some qualified => .ok ⟨qualified, simpleName qualified, method, isLocal, false⟩

end Symbol
end JitLens
