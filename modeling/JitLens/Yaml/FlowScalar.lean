import JitLens.Yaml.Chars
import JitLens.Yaml.Fault
/-!
# Quoted and plain scalars

Reads the scalars that stand inside of lines: in single quotes, in double quotes with escapes,
and plain.  All of them may go on over several lines, which folds their line breaks.
-/

namespace JitLens.Yaml

/-- A result with more characters in front of its text. -/
def emit (cs : List Char) :
    Except ReadError (List Char × List Char) → Except ReadError (List Char × List Char)
  | .ok (text, rest) => .ok (cs ++ text, rest)
  | .error e => .error e

/-- A scalar that is read as malformed. -/
def refuse {α : Type} (fault : Fault) : Except ReadError α :=
  .error (.malformed fault)

/-- Reads up to the closing single quote, behind a gap.  A quote that is written twice stands for
itself. -/
def singleQuoted (gap : Gap) : List Char → Except ReadError (List Char × List Char)
  | [] => refuse .unclosedQuote
  | '\'' :: '\'' :: cs => emit (gap.text ++ ['\'']) (singleQuoted .none cs)
  | '\'' :: cs => .ok (gap.text, cs)
  | c :: cs =>
    if isBlank c then singleQuoted (gap.addBlank c) cs
    else if isBreak c then
      if atMarker cs then refuse .markerInQuote else singleQuoted (gap.addBreak c) cs
    else emit (gap.text ++ [c]) (singleQuoted .none cs)

/-- The character that a one-letter escape stands for. -/
def escapeChar? : Char → Option Char
  | '0' => some '\x00'
  | 'a' => some '\x07'
  | 'b' => some '\x08'
  | 't' => some '\t'
  | '\t' => some '\t'
  | 'n' => some '\n'
  | 'v' => some '\x0b'
  | 'f' => some '\x0c'
  | 'r' => some '\r'
  | 'e' => some '\x1b'
  | ' ' => some ' '
  | '"' => some '"'
  | '\\' => some '\\'
  | '/' => some '/'
  | 'N' => some '\x85'
  | '_' => some '\xa0'
  | 'L' => some '\u2028'
  | 'P' => some '\u2029'
  | _ => none

/-- The count of hexadecimal digits behind the letter of an escape. -/
def escapeWidth? : Char → Option Nat
  | 'x' => some 2
  | 'u' => some 4
  | 'U' => some 8
  | _ => none

/-- The character with a given code point. -/
def charOfCode (n : Nat) : Except ReadError Char :=
  if 0x110000 ≤ n then .error (.badValue .codePoint)
  else if n.isValidChar then .ok (Char.ofNat n)
  else .ok '\ufffd'

/-- Reads an escape behind its backslash: the character and how much was read. -/
def readEscape : List Char → Except ReadError (Char × Nat)
  | [] => refuse .escape
  | c :: cs =>
    match escapeChar? c with
    | some d => .ok (d, 1)
    | none =>
      match escapeWidth? c with
      | none => refuse .escape
      | some width =>
        let ds := cs.take width
        match if ds.length = width then Text.number? 16 ds else none with
        | none => refuse .escape
        | some n => (charOfCode n).map (·, width + 1)

/-- Whether a text goes on with a line break. -/
def startsWithBreak : List Char → Bool
  | c :: _ => isBreak c
  | [] => false

/-- Reads up to the closing double quote, behind a gap; `skip` characters belong to an escape
that is already read. -/
def doubleQuoted (gap : Gap) : Nat → List Char → Except ReadError (List Char × List Char)
  | _, [] => refuse .unclosedQuote
  | skip + 1, _ :: cs => doubleQuoted gap skip cs
  | 0, c :: cs =>
    if c = '"' then .ok (gap.text, cs)
    else if c = '\\' then
      if startsWithBreak cs then
        if atMarker (cs.drop 1) then refuse .markerInQuote
        else emit gap.text (doubleQuoted (.continued []) 1 cs)
      else
        match readEscape cs with
        | .ok (d, size) => emit (gap.text ++ [d]) (doubleQuoted .none size cs)
        | .error e => .error e
    else if isBlank c then doubleQuoted (gap.addBlank c) 0 cs
    else if isBreak c then
      if atMarker cs then refuse .markerInQuote else doubleQuoted (gap.addBreak c) 0 cs
    else emit (gap.text ++ [c]) (doubleQuoted .none 0 cs)

/-- A plain scalar, what follows it, and whether a line break was passed behind it. -/
structure Plain where
  text : List Char
  rest : List Char
  crossed : Bool
  deriving DecidableEq, Repr

/-- Where a plain scalar is being read: inside a word, behind spaces, or behind a line break and
at a column. -/
inductive PlainState where
  | word
  | spaces (count : Nat)
  | line (gap : Gap) (column : Nat)
  deriving DecidableEq, Repr

namespace PlainState

/-- What a gap before the next word stands for. -/
def text : PlainState → List Char
  | .word => []
  | .spaces count => List.replicate count ' '
  | .line gap _ => gap.text

/-- Whether a line break was passed since the last word. -/
def crossed : PlainState → Bool
  | .line _ _ => true
  | _ => false

/-- Whether the scalar goes on here with a word, as far as comments and indentation tell. -/
def goesOn (inFlow : Bool) (indent : Nat) (c : Char) : PlainState → Bool
  | .word => true
  | .spaces _ => c ≠ '#'
  | .line _ column => c ≠ '#' && (inFlow || indent ≤ column)

end PlainState

/-- Whether a colon ends a word of a plain scalar, given what follows it. -/
def colonEnds (inFlow : Bool) (cs : List Char) : Bool :=
  endsWord cs || (inFlow && (cs.take 1).any isFlowIndicator)

/-- Whether a character ends a word of a plain scalar, given what follows it. -/
def endsPlainWord (inFlow : Bool) (c : Char) (cs : List Char) : Bool :=
  c == '\t' || (c == ':' && colonEnds inFlow cs) || (inFlow && (isFlowIndicator c || c == '?'))

def plainFrom (inFlow : Bool) (indent : Nat) : PlainState → List Char → Plain
  | st, [] => ⟨[], [], st.crossed⟩
  | st, c :: cs =>
    if c = ' ' then
      match st with
      | .word => plainFrom inFlow indent (.spaces 1) cs
      | .spaces count => plainFrom inFlow indent (.spaces (count + 1)) cs
      | .line gap column => plainFrom inFlow indent (.line gap (column + 1)) cs
    else if isBreak c then
      let gap := match st with
        | .line gap _ => gap
        | _ => .none
      if atMarker cs then ⟨[], cs, true⟩
      else plainFrom inFlow indent (.line (gap.addBreak c) 0) cs
    else if endsPlainWord inFlow c cs || !st.goesOn inFlow indent c then ⟨[], c :: cs, st.crossed⟩
    else
      let more := plainFrom inFlow indent .word cs
      { more with text := st.text ++ c :: more.text }

end JitLens.Yaml
