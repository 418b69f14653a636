import JitLens.Text.Blank
import JitLens.Text.Digit
import JitLens.Text.Lowercase
import JitLens.Text.Search
/-!
# Target frameworks

A project is built for a framework such as `net8.0` or `net10.0-windows`.  The frameworks that a
run can handle are told by their major version.
-/

namespace JitLens.Framework

/-- A framework name without blanks around it and in lower case. -/
def normalize (name : String) : String :=
  Text.trimmed (Text.lowered name)

/-- The least major version that is supported. -/
def leastMajor : Nat := 5

/-- Whether a character is a decimal digit of some script. -/
def isDecimal (c : Char) : Bool :=
  (Text.decimalValue? c).isSome

/-- The digits of the major version: those between `net` and a dot with a digit behind it. -/
def majorDigits? (name : List Char) : Option (List Char) :=
  match Text.stripLeading ['n', 'e', 't'] name with
  | none => none
  | some rest =>
    match rest.takeWhile isDecimal, rest.dropWhile isDecimal with
    | [], _ => none
    | digits, '.' :: minor :: _ => if isDecimal minor then some digits else none
    | _, _ => none

/-- Whether a run can handle a framework. -/
def isSupported (name : String) : Except Text.DigitsError Bool :=
  match majorDigits? (Text.lower (Text.trim name.toList)) with
  | none => .ok false
  | some digits => (Text.readDecimal digits).map fun major => decide (leastMajor ≤ major)

end JitLens.Framework
