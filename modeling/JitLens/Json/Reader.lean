import JitLens.Value
import JitLens.Text.Digit
/-!
# Reading JSON

Reads a JSON text into a value.  Whole numbers stay whole and numbers with a point or an
exponent are floats; the words for the values that are no numbers are accepted.  A name that is
repeated in an object keeps its first place and its last value.  Values may stand inside each other
up to a limit.  An error says what was expected and at which character.
-/

namespace JitLens.Json

open Decimal

/-- What is wrong with a JSON text. -/
inductive Fault where
  | value
  | extraData
  | name
  | colon
  | comma
  | unterminated
  | controlCharacter
  | escape
  | unicodeEscape
  | tooLong (e : Text.DigitsError)
  | tooDeep
  deriving DecidableEq, Repr

/-- An error and the count of characters before it. -/
structure Error where
  fault : Fault
  position : Nat
  deriving DecidableEq, Repr

/-- What is left of a text, and how much was read before it. -/
structure Cursor where
  position : Nat
  rest : List Char

/-- A cursor behind one more character. -/
def Cursor.next (position : Nat) (rest : List Char) : Cursor :=
  ⟨position + 1, rest⟩

/-- White space between the parts of a JSON text. -/
def isSpace (c : Char) : Bool :=
  c == ' ' || c == '\t' || c == '\n' || c == '\r'

/-- The cursor behind the white space. -/
def skipSpaces (cur : Cursor) : Cursor :=
  let spaces := cur.rest.takeWhile isSpace
  ⟨cur.position + spaces.length, cur.rest.drop spaces.length⟩

/-- The character that a one-letter escape stands for. -/
def escaped? : Char → Option Char
  | '"' => some '"'
  | '\\' => some '\\'
  | '/' => some '/'
  | 'b' => some '\x08'
  | 'f' => some '\x0c'
  | 'n' => some '\n'
  | 'r' => some '\r'
  | 't' => some '\t'
  | _ => none

/-- The number of four hexadecimal digits, with what is behind them. -/
def fourHex? (cs : List Char) : Option (Nat × List Char) :=
  let ds := cs.take 4
  if ds.length = 4 then (Text.number? 16 ds).map (·, cs.drop 4) else none

/-- Whether a number is the first half of a pair that stands for one character. -/
def isHighHalf (n : Nat) : Bool := 0xd800 ≤ n && n < 0xdc00

/-- Whether a number is the second half of a pair. -/
def isLowHalf (n : Nat) : Bool := 0xdc00 ≤ n && n < 0xe000

/-- The second half of a pair at the front of a text. -/
def lowHalf? : List Char → Option (Nat × List Char)
  | '\\' :: 'u' :: cs => (fourHex? cs).filter fun (n, _) => isLowHalf n
  | _ => none

/-- The character of a code point; a lone half of a pair is the replacement character. -/
def charOf (n : Nat) : Char :=
  if isHighHalf n || isLowHalf n then '\ufffd' else Char.ofNat n

/-- The characters of a string up to its closing quote; `start` is where it opens. -/
def readString (start : Nat) : Nat → Cursor → Except Error (List Char × Cursor)
  | 0, _ => .error ⟨.unterminated, start⟩
  | fuel + 1, ⟨p, cs⟩ =>
    let more (c : Char) (cur : Cursor) :=
      (readString start fuel cur).map fun (s, after) => (c :: s, after)
    match cs with
    | [] => .error ⟨.unterminated, start⟩
    | '"' :: cs => .ok ([], .next p cs)
    | ['\\'] => .error ⟨.unterminated, start⟩
    | '\\' :: 'u' :: cs =>
      if cs.length ≤ 4 then .error ⟨.unicodeEscape, p + 1⟩
      else match fourHex? cs with
        | none => .error ⟨.unicodeEscape, p + 1⟩
        | some (n, after) =>
          if isHighHalf n then
            match lowHalf? after with
            | some (m, after) =>
              more (Char.ofNat (0x10000 + (n - 0xd800) * 0x400 + (m - 0xdc00))) ⟨p + 12, after⟩
            | none => more '\ufffd' ⟨p + 6, after⟩
          else more (charOf n) ⟨p + 6, after⟩
    | '\\' :: c :: cs =>
      match escaped? c with
      | some d => more d ⟨p + 2, cs⟩
      | none => .error ⟨.escape, p⟩
    | c :: cs =>
      if c.toNat < 0x20 then .error ⟨.controlCharacter, p⟩ else more c (.next p cs)

/-- The whole part of a number: a zero, or digits that start with another one. -/
def wholePart (cs : List Char) : List Char :=
  match cs with
  | '0' :: _ => ['0']
  | cs => cs.takeWhile Text.isDigit

/-- The digits behind a point, if there are any. -/
def fractionPart : List Char → List Char
  | '.' :: cs => cs.takeWhile Text.isDigit
  | _ => []

/-- The exponent at the front of a text, with the count of its characters. -/
def exponentPart (cs : List Char) : Option (Int × Nat) :=
  match cs with
  | c :: cs =>
    if c == 'e' || c == 'E' then
      let (sign, size, cs) : Int × Nat × List Char := match cs with
        | '+' :: cs => (1, 2, cs)
        | '-' :: cs => (-1, 2, cs)
        | cs => (1, 1, cs)
      let ds := cs.takeWhile Text.isDigit
      if ds.isEmpty then none else some (sign * Text.numberOf 10 ds, size + ds.length)
    else none
  | [] => none

def readNumber? (cur : Cursor) : Option (Except Error (Value × Cursor)) :=
  let (negative, body) := match cur.rest with
    | '-' :: cs => (true, cs)
    | cs => (false, cs)
  let whole := wholePart body
  if whole.isEmpty then none
  else
    let signSize := if negative then 1 else 0
    let afterWhole := body.drop whole.length
    let fraction := fractionPart afterWhole
    let fractionSize := if fraction.isEmpty then 0 else fraction.length + 1
    let afterFraction := afterWhole.drop fractionSize
    let finish (v : Value) (size : Nat) : Option (Except Error (Value × Cursor)) :=
      some (.ok (v, ⟨cur.position + size, cur.rest.drop size⟩))
    let size := signSize + whole.length + fractionSize
    let digits := Text.numberOf 10 (whole ++ fraction)
    match exponentPart afterFraction with
    | some (e, exponentSize) =>
      finish (.float (.ofDecimal negative digits (e - fraction.length))) (size + exponentSize)
    | none =>
      if fraction.isEmpty then
        if Text.mostDigits < whole.length then
          some (.error ⟨.tooLong ⟨whole.length⟩, cur.position⟩)
        else finish (.int (Binary64.signed negative digits)) size
      else finish (.float (.ofDecimal negative digits (-fraction.length))) size

/-- The words of JSON and the values they stand for. -/
def words : List (List Char × Value) := [
  ("null".toList, .null), ("true".toList, .bool true), ("false".toList, .bool false),
  ("NaN".toList, .float .nan), ("Infinity".toList, .float (.infinity false)),
  ("-Infinity".toList, .float (.infinity true))]

def readWord? (cur : Cursor) : Option (Value × Cursor) :=
  (words.find? fun (w, _) => w.isPrefixOf cur.rest).map fun (w, v) =>
    (v, ⟨cur.position + w.length, cur.rest.drop w.length⟩)

/-- How deep values may stand inside each other. -/
def mostDepth : Nat := 950

mutual

/-- Reads a value that may hold others up to a depth. -/
def readValue : Nat → Nat → Cursor → Except Error (Value × Cursor)
  | 0, _, cur => .error ⟨.value, cur.position⟩
  | _, 0, cur => .error ⟨.tooDeep, cur.position⟩
  | fuel + 1, depth + 1, cur =>
    match cur.rest with
    | '"' :: cs =>
      (readString cur.position (cs.length + 1) (.next cur.position cs)).map fun (s, after) =>
        (.text (String.ofList s), after)
    | '\x7b' :: cs =>
      let inside := skipSpaces (.next cur.position cs)
      match inside.rest with
      | '\x7d' :: cs => .ok (.map [], .next inside.position cs)
      | _ => (readMembers fuel depth [] inside).map fun (es, after) => (.map es, after)
    | '[' :: cs =>
      let inside := skipSpaces (.next cur.position cs)
      match inside.rest with
      | ']' :: cs => .ok (.list [], .next inside.position cs)
      | _ => (readItems fuel depth inside).map fun (vs, after) => (.list vs, after)
    | _ =>
      match readWord? cur with
      | some found => .ok found
      | none =>
        match readNumber? cur with
        | some found => found
        | none => .error ⟨.value, cur.position⟩

/-- Reads the items of an array up to its end. -/
def readItems : Nat → Nat → Cursor → Except Error (List Value × Cursor)
  | 0, _, cur => .error ⟨.value, cur.position⟩
  | fuel + 1, depth, cur => do
    let (v, after) ← readValue fuel depth cur
    let after := skipSpaces after
    match after.rest with
    | ']' :: cs => .ok ([v], .next after.position cs)
    | ',' :: cs =>
      let (vs, after) ← readItems fuel depth (skipSpaces (.next after.position cs))
      .ok (v :: vs, after)
    | _ => .error ⟨.comma, after.position⟩

/-- Reads the members of an object up to its end, behind those already read. -/
def readMembers : Nat → Nat → List (Value × Value) → Cursor →
    Except Error (List (Value × Value) × Cursor)
  | 0, _, _, cur => .error ⟨.value, cur.position⟩
  | fuel + 1, depth, before, cur =>
    match cur.rest with
    | '"' :: cs => do
      let (name, after) ← readString cur.position (cs.length + 1) (.next cur.position cs)
      let after := skipSpaces after
      match after.rest with
      | ':' :: cs =>
        let (v, after) ← readValue fuel depth (skipSpaces (.next after.position cs))
        let entries := Value.putEntry before (.text (String.ofList name)) v
        let after := skipSpaces after
        match after.rest with
        | '\x7d' :: cs => .ok (entries, .next after.position cs)
        | ',' :: cs => readMembers fuel depth entries (skipSpaces (.next after.position cs))
        | _ => .error ⟨.comma, after.position⟩
      | _ => .error ⟨.colon, after.position⟩
    | _ => .error ⟨.name, cur.position⟩

end

/-- Reads a text that holds one value and white space. -/
def read (cs : List Char) : Except Error Value := do
  let (v, after) ← readValue (2 * cs.length + 2) mostDepth (skipSpaces ⟨0, cs⟩)
  let after := skipSpaces after
  if after.rest.isEmpty then .ok v else .error ⟨.extraData, after.position⟩

end JitLens.Json
