import JitLens.Value
import JitLens.Text.Digit
/-!
# Writing JSON

Writes a value as a JSON text in ASCII, on one line or with two spaces of indentation for each
level.  Floats have the text they have in messages, but for the values that are no numbers.
-/

namespace JitLens.Json

open Decimal

/-- Floats in a JSON text. -/
def floatStyle : FloatStyle :=
  { Value.floatStyle with infinity := "Infinity", negativeInfinity := "-Infinity", nan := "NaN" }

def unitEscape (n : Nat) : List Char :=
  '\\' :: 'u' :: Text.hexDigits false 4 n

/-- A character inside a JSON string. -/
def stringChar (c : Char) : List Char :=
  let n := c.toNat
  if c = '"' ∨ c = '\\' then ['\\', c]
  else if c = '\n' then ['\\', 'n']
  else if c = '\r' then ['\\', 'r']
  else if c = '\t' then ['\\', 't']
  else if n = 0x08 then ['\\', 'b']
  else if n = 0x0c then ['\\', 'f']
  else if 0x20 ≤ n ∧ n < 0x7f then [c]
  else if n < 0x10000 then unitEscape n
  else
    let m := n - 0x10000
    unitEscape (0xd800 + m / 0x400) ++ unitEscape (0xdc00 + m % 0x400)

/-- A JSON string. -/
def string (s : String) : String :=
  String.ofList ('"' :: s.toList.flatMap stringChar ++ ['"'])

/-- How the parts of arrays and objects are set apart. -/
inductive Layout where
  | line
  | indented
  deriving DecidableEq

/-- What stands before an item at a depth. -/
def Layout.before (layout : Layout) (depth : Nat) : String :=
  match layout with
  | .line => ""
  | .indented => "\n" ++ String.ofList (List.replicate (2 * depth) ' ')

/-- What stands between items, without the white space of the next one. -/
def Layout.between : Layout → String
  | .line => ", "
  | .indented => ","

/-- Items between brackets, those inside being one level deeper. -/
def bracketed (layout : Layout) (depth : Nat) (opening closing : String) (items : List String) :
    String :=
  if items.isEmpty then opening ++ closing
  else
    opening ++
      String.intercalate layout.between (items.map fun i => layout.before (depth + 1) ++ i) ++
      layout.before depth ++ closing

mutual

def writeAt (layout : Layout) (depth : Nat) : Value → String
  | .null => "null"
  | .bool b => if b then "true" else "false"
  | .int n => toString n
  | .float x => floatStyle.write x
  | .text s => string s
  | .list items => bracketed layout depth "[" "]" (writeItems layout (depth + 1) items)
  | .map entries =>
    bracketed layout depth "\x7b" "\x7d" (writeMembers layout (depth + 1) entries)
  | v => string v.literal

/-- Writes the items of an array. -/
def writeItems (layout : Layout) (depth : Nat) : List Value → List String
  | [] => []
  | v :: vs => writeAt layout depth v :: writeItems layout depth vs

/-- Writes the members of an object. -/
def writeMembers (layout : Layout) (depth : Nat) : List (Value × Value) → List String
  | [] => []
  | (k, v) :: es =>
    (string k.display ++ ": " ++ writeAt layout depth v) :: writeMembers layout depth es

end

def write (layout : Layout) (v : Value) : String :=
  writeAt layout 0 v

end JitLens.Json
