import JitLens.Calendar
import JitLens.Decimal.Shortest
import JitLens.Table
import JitLens.Text.Quoted
import JitLens.Text.Utf8
/-!
# Data values

The values that settings files, request bodies and command-line overrides are read into, before
any field has checked them, and the two ways in which messages show them: as a literal, with
texts in quotes, and as plain text.
-/

namespace JitLens

open Calendar Decimal

/-- A value of a data format. -/
inductive Value where
  | null
  | bool (b : Bool)
  | int (n : Int)
  | float (x : Binary64)
  | text (s : String)
  | bytes (bs : Text.Bytes)
  | date (d : Date)
  | dateTime (t : DateTime)
  | list (items : List Value)
  /-- A list of pairs. -/
  | pairs (entries : List (Value × Value))
  | map (entries : List (Value × Value))
  | set (items : List Value)
  /-- A list or a map inside of which the value stands. -/
  | enclosing (isMap : Bool)
  deriving Repr, Inhabited

namespace Value

/-- Floats in messages: positional from four places behind the point up to sixteen digits. -/
def floatStyle : FloatStyle where
  leastPositional := -4
  firstScientific := 16
  exponentWidth := 2
  infinity := "inf"
  negativeInfinity := "-inf"
  nan := "nan"

/-- A truth value as a literal. -/
def boolLiteral (b : Bool) : String :=
  if b then "True" else "False"

mutual

def literal : Value → String
  | .null => "None"
  | .bool b => boolLiteral b
  | .int n => toString n
  | .float x => floatStyle.write x
  | .text s => Text.quoted s
  | .bytes bs => Text.quotedBytes bs
  | .date d => d.literal
  | .dateTime t => t.literal
  | .list items => "[" ++ String.intercalate ", " (literals items) ++ "]"
  | .pairs entries => "[" ++ String.intercalate ", " (pairLiterals entries) ++ "]"
  | .map entries => "\x7b" ++ String.intercalate ", " (entryLiterals entries) ++ "\x7d"
  | .set items =>
    match literals items with
    | [] => "set()"
    | ls => "\x7b" ++ String.intercalate ", " ls ++ "\x7d"
  | .enclosing isMap => if isMap then "\x7b...\x7d" else "[...]"

def literals : List Value → List String
  | [] => []
  | v :: vs => v.literal :: literals vs

def pairLiterals : List (Value × Value) → List String
  | [] => []
  | (k, v) :: es => ("(" ++ k.literal ++ ", " ++ v.literal ++ ")") :: pairLiterals es

/-- The literals of the entries of a map. -/
def entryLiterals : List (Value × Value) → List String
  | [] => []
  | (k, v) :: es => (k.literal ++ ": " ++ v.literal) :: entryLiterals es

end

/-- A value as plain text. -/
def display : Value → String
  | .text s => s
  | .date d => d.text
  | .dateTime t => t.text
  | v => v.literal

def kindName : Value → String
  | .null => "NoneType"
  | .bool _ => "bool"
  | .int _ => "int"
  | .float _ => "float"
  | .text _ => "str"
  | .bytes _ => "bytes"
  | .date _ => "date"
  | .dateTime _ => "datetime"
  | .list _ => "list"
  | .pairs _ => "list"
  | .map _ => "dict"
  | .set _ => "set"
  | .enclosing isMap => if isMap then "dict" else "list"

/-- Whether a value may be the key of a map. -/
def isKey : Value → Bool
  | .list _ | .pairs _ | .map _ | .set _ | .enclosing _ => false
  | _ => true

/-- The whole number that a number stands for; truth values count as one and zero. -/
def wholeNumber? : Value → Option Int
  | .bool b => some (if b then 1 else 0)
  | .int n => some n
  | .float x => x.toInt?
  | _ => none

/-- Whether two values are the same key of a map: numbers by their value, all else by kind and
content. -/
def sameKey (a b : Value) : Bool :=
  match a, b with
  | .null, .null => true
  | .text s, .text t => s == t
  | .bytes s, .bytes t => s == t
  | .date s, .date t => s == t
  | .dateTime s, .dateTime t => s == t
  | .float x, .float y => x.sameNumber y
  | a, b =>
    match a.wholeNumber?, b.wholeNumber? with
    | some m, some n => m == n
    | _, _ => false

/-- The entries of a map with a key given its value. -/
def putEntry (entries : List (Value × Value)) (key value : Value) : List (Value × Value) :=
  putBy sameKey key value entries

end Value

/-- A value that a setting can have. -/
inductive Leaf where
  | null
  | bool (b : Bool)
  | text (s : String)
  deriving DecidableEq, Repr

/-- The value of a setting as a value of a data format. -/
def Leaf.toValue : Leaf → Value
  | .null => .null
  | .bool b => .bool b
  | .text s => .text s

end JitLens
