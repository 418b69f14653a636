import JitLens.Value
import JitLens.Text.Blank
import JitLens.Text.Lines
import JitLens.Text.Lowercase
import JitLens.Yaml.Fault
/-!
# Types of scalars

A plain scalar without a tag has the type that its text looks like: a truth value, a number, a
date, nothing, or else a text.  The readers turn the text of a scalar of a known type into a
value.
-/

namespace JitLens.Yaml

open Decimal Calendar

/-- Types of nodes. -/
inductive Tag where
  | null
  | bool
  | int
  | float
  | binary
  | timestamp
  | text
  | sequence
  | mapping
  | set
  | orderedMap
  | pairs
  | merge
  | defaultValue
  | unknown
  deriving DecidableEq, Repr

/-- What the names of the standard types start with. -/
def standardTags : String := "tag:yaml.org,2002:"

/-- The standard types by the ends of their names. -/
def tagNames : List (String × Tag) := [
  ("null", .null), ("bool", .bool), ("int", .int), ("float", .float), ("binary", .binary),
  ("timestamp", .timestamp), ("str", .text), ("seq", .sequence), ("map", .mapping), ("set", .set),
  ("omap", .orderedMap), ("pairs", .pairs), ("merge", .merge), ("value", .defaultValue)]

/-- The type with a full name. -/
def Tag.ofName (name : String) : Tag :=
  ((tagNames.find? fun (n, _) => standardTags ++ n == name).map Prod.snd).getD .unknown

/-- A text without a sign at its front. -/
def dropSign : List Char → List Char
  | c :: cs => if c = '+' ∨ c = '-' then cs else c :: cs
  | [] => []

/-- Whether a text has characters and all of them satisfy a test. -/
def someAll (test : Char → Bool) (cs : List Char) : Bool :=
  !cs.isEmpty && cs.all test

/-- A digit or an underscore. -/
def isSpacedDigit (c : Char) : Bool :=
  Text.isDigit c || c == '_'

/-- A digit, then digits and underscores. -/
def isSpacedNumber : List Char → Bool
  | c :: cs => Text.isDigit c && cs.all isSpacedDigit
  | [] => false

/-- A number below sixty of one or two digits. -/
def isSixtieth : List Char → Bool
  | [c] => Text.isDigit c
  | [c, d] => '0' ≤ c && c ≤ '5' && Text.isDigit d
  | _ => false

/-- The words for truth values, in three spellings each. -/
def truthWords : List String := [
  "yes", "Yes", "YES", "no", "No", "NO", "true", "True", "TRUE", "false", "False", "FALSE",
  "on", "On", "ON", "off", "Off", "OFF"]

/-- The words for nothing. -/
def nullWords : List String := ["", "~", "null", "Null", "NULL"]

/-- Whether a text looks like a whole number. -/
def looksInt (cs : List Char) : Bool :=
  match dropSign cs with
  | ['0'] => true
  | '0' :: 'b' :: ds => someAll (fun c => c == '0' || c == '1' || c == '_') ds
  | '0' :: 'x' :: ds => someAll (fun c => (Text.digitValue? 16 c).isSome || c == '_') ds
  | '0' :: ds => someAll (fun c => (Text.digitValue? 8 c).isSome || c == '_') ds
  | body =>
    match Text.splitOn ':' body with
    | [] => false
    | first :: rest => isSpacedNumber first && rest.all isSixtieth

/-- Whether a text is an exponent with its sign, or nothing. -/
def isSignedExponent : List Char → Bool
  | [] => true
  | e :: sign :: ds =>
    (e == 'e' || e == 'E') && (sign == '+' || sign == '-') && someAll Text.isDigit ds
  | _ => false

/-- Whether a text looks like a number with a point. -/
def looksFloat (cs : List Char) : Bool :=
  let body := dropSign cs
  let whole := body.takeWhile (· ≠ '.')
  match body.drop whole.length with
  | [] => false
  | _ :: behind =>
    let fraction := behind.takeWhile isSpacedDigit
    let exponent := behind.drop fraction.length
    if whole.isEmpty then
      ["inf", "Inf", "INF"].contains (String.ofList behind) ||
        (body.length == cs.length &&
          (["nan", "NaN", "NAN"].contains (String.ofList behind) ||
            (isSpacedNumber fraction && isSignedExponent exponent)))
    else
      match Text.splitOn ':' whole with
      | [number] => isSpacedNumber number && isSignedExponent exponent
      | number :: rest => isSpacedNumber number && rest.all isSixtieth && exponent.isEmpty
      | [] => false

/-- A time of day as it is written. -/
structure ClockText where
  hour : List Char
  minute : List Char
  second : List Char
  fraction : List Char
  /-- Nothing, universal time, or a sign with hours and minutes. -/
  zone : Option (Option (Bool × List Char × List Char))

/-- A date and perhaps a time of day as they are written. -/
structure TimestampText where
  year : List Char
  month : List Char
  day : List Char
  clock : Option ClockText

/-- Digits at the front of a text, at least `low` and at most `high`. -/
def digits? (low high : Nat) (cs : List Char) : Option (List Char × List Char) :=
  let ds := (cs.take high).takeWhile Text.isDigit
  if low ≤ ds.length then some (ds, cs.drop ds.length) else none

/-- What is behind a character at the front of a text. -/
def behind? (c : Char) : List Char → Option (List Char)
  | d :: cs => if d = c then some cs else none
  | [] => none

/-- A space or a tab. -/
def isTimeBlank (c : Char) : Bool := c == ' ' || c == '\t'

/-- The offset at the end of a time. -/
def zone? (cs : List Char) : Option (Option (Option (Bool × List Char × List Char))) :=
  match cs.dropWhile isTimeBlank with
  | [] => if cs.isEmpty then some none else none
  | ['Z'] => some (some none)
  | sign :: rest => do
    if sign ≠ '+' ∧ sign ≠ '-' then none
    let (hours, rest) ← digits? 1 2 rest
    match rest with
    | [] => some (some (some (sign == '-', hours, [])))
    | ':' :: rest =>
      let (minutes, rest) ← digits? 2 2 rest
      if rest.isEmpty then some (some (some (sign == '-', hours, minutes))) else none
    | _ => none

/-- The time of day behind a date. -/
def clock? (cs : List Char) : Option ClockText := do
  let rest ← match cs with
    | c :: rest =>
      if c = 'T' ∨ c = 't' then some rest
      else if isTimeBlank c then some (rest.dropWhile isTimeBlank) else none
    | [] => none
  let (hour, rest) ← digits? 1 2 rest
  let rest ← behind? ':' rest
  let (minute, rest) ← digits? 2 2 rest
  let rest ← behind? ':' rest
  let (second, rest) ← digits? 2 2 rest
  let (fraction, rest) := match rest with
    | '.' :: rest =>
      let ds := rest.takeWhile Text.isDigit
      (ds, rest.drop ds.length)
    | rest => ([], rest)
  let zone ← zone? rest
  some ⟨hour, minute, second, fraction, zone⟩

/-- The parts of a date with or without a time. -/
def timestamp? (cs : List Char) : Option TimestampText := do
  let (year, rest) ← digits? 4 4 cs
  let rest ← behind? '-' rest
  let (month, rest) ← digits? 1 2 rest
  let rest ← behind? '-' rest
  let (day, rest) ← digits? 1 2 rest
  if rest.isEmpty then some ⟨year, month, day, none⟩
  else
    let clock ← clock? rest
    some ⟨year, month, day, some clock⟩

/-- Whether a text looks like a date; a date alone has two digits for month and day. -/
def looksTimestamp (cs : List Char) : Bool :=
  match timestamp? cs with
  | some t => t.clock.isSome || (t.month.length == 2 && t.day.length == 2)
  | none => false

/-- The type that a plain text looks like. -/
def implicitTag (s : String) : Tag :=
  let cs := s.toList
  if truthWords.contains s then .bool
  else if looksFloat cs then .float
  else if looksInt cs then .int
  else if s = "<<" then .merge
  else if nullWords.contains s then .null
  else if looksTimestamp cs then .timestamp
  else if s = "=" then .defaultValue
  else if s = "!" ∨ s = "&" ∨ s = "*" then .unknown
  else .text

/-- A scalar whose text does not hold a value of its type. -/
def bad {α : Type} (e : BadValue) : Except ReadError α :=
  .error (.badValue e)

/-- The text without underscores. -/
def dropUnderscores (cs : List Char) : List Char :=
  cs.filter (· ≠ '_')

/-- Reads a truth value. -/
def readBool (s : String) : Except ReadError Value :=
  let word := Text.lowered s
  if ["yes", "true", "on"].contains word then .ok (.bool true)
  else if ["no", "false", "off"].contains word then .ok (.bool false)
  else bad (.truthWord word)

/-- The letters that mark the base of a number behind a zero. -/
def baseMarks (base : Nat) : List Char :=
  match base with
  | 2 => ['b', 'B']
  | 8 => ['o', 'O']
  | 16 => ['x', 'X']
  | _ => []

/-- The digits of a number without the mark of its base. -/
def dropBaseMark (base : Nat) : List Char → List Char
  | '0' :: c :: cs => if (baseMarks base).contains c && !cs.isEmpty then cs else '0' :: c :: cs
  | cs => cs

/-- A digit of any script as the digit of the same value. -/
def plainDigit (c : Char) : Char :=
  match Text.decimalValue? c with
  | some n => Char.ofNat (0x30 + n)
  | none => c

/-- A whole number with an optional sign in a base, with blanks around it. -/
def wholeNumber (base : Nat) (cs : List Char) : Except ReadError Int :=
  let body := Text.trim cs
  let digits := dropBaseMark base ((dropSign body).map plainDigit)
  match Text.number? base digits with
  | some n =>
    if base = 10 ∧ Text.mostDigits < digits.length then bad (.tooLong ⟨digits.length⟩)
    else .ok (if body.head? = some '-' then -n else n)
  | none => bad (.digits base (String.ofList cs))

/-- Numbers to the base of sixty, greatest place first. -/
def baseSixty (parts : List Int) : Int :=
  parts.foldl (fun n d => n * 60 + d) 0

/-- Reads a whole number without underscores and sign. -/
def readMagnitude (cs : List Char) : Except ReadError Int :=
  match cs with
  | ['0'] => .ok 0
  | '0' :: 'b' :: ds => wholeNumber 2 ds
  | '0' :: 'x' :: ds => wholeNumber 16 ds
  | '0' :: _ => wholeNumber 8 cs
  | [] => bad .emptyNumber
  | _ =>
    if cs.contains ':' then
      ((Text.splitOn ':' cs).mapM (wholeNumber 10)).map baseSixty
    else wholeNumber 10 cs

/-- Reads a whole number. -/
def readInt (s : String) : Except ReadError Value :=
  let cs := dropUnderscores s.toList
  (readMagnitude (dropSign cs)).map fun n =>
    .int (if cs.head? = some '-' then -n else n)

/-- The exponent of a decimal, or zero if there is none. -/
def exponent? : List Char → Option Int
  | [] => some 0
  | e :: cs =>
    if e = 'e' ∨ e = 'E' then
      (Text.number? 10 (dropSign cs)).map fun n => if cs.head? = some '-' then -(n : Int) else n
    else none

/-- Reads a decimal without a sign. -/
def decimal? (cs : List Char) : Option Binary64 :=
  let whole := cs.takeWhile Text.isDigit
  let rest := cs.drop whole.length
  let (fraction, rest) := match rest with
    | '.' :: rest =>
      let ds := rest.takeWhile Text.isDigit
      (ds, rest.drop ds.length)
    | rest => ([], rest)
  if whole.isEmpty && fraction.isEmpty then none
  else (exponent? rest).map fun e =>
    .ofDecimal false (Text.numberOf 10 (whole ++ fraction)) (e - fraction.length)

/-- Reads a decimal with an optional sign, with blanks around it. -/
def readDecimal (cs : List Char) : Except ReadError Binary64 :=
  let body := (Text.trim cs).map plainDigit
  let magnitude := dropSign body
  let word := String.ofList magnitude
  let value :=
    if word = "inf" ∨ word = "infinity" then some (.infinity false)
    else if word = "nan" then some .nan
    else decimal? magnitude
  match value with
  | some x => .ok (if body.head? = some '-' then x.neg else x)
  | none => bad (.decimal (String.ofList cs))

/-- Decimals to the base of sixty, greatest place first. -/
def baseSixtyFloat (parts : List Binary64) : Binary64 :=
  (parts.reverse.foldl
    (fun (sum, place) d => (Binary64.add sum (Binary64.mul d (.ofInt place)), place * 60))
    (Binary64.zero false, (1 : Int))).1

/-- Reads a floating point number. -/
def readFloat (s : String) : Except ReadError Value :=
  let cs := Text.lower (dropUnderscores s.toList)
  let body := dropSign cs
  let signed (x : Binary64) : Value := .float (if cs.head? = some '-' then x.neg else x)
  if cs.isEmpty then bad .emptyNumber
  else if body = ['.', 'i', 'n', 'f'] then .ok (signed (.infinity false))
  else if body = ['.', 'n', 'a', 'n'] then .ok (.float .nan)
  else if body.contains ':' then
    ((Text.splitOn ':' body).mapM readDecimal).map fun parts => signed (baseSixtyFloat parts)
  else (readDecimal body).map signed

/-- The offset of a time in minutes. -/
def offsetOf (zone : Option (Option (Bool × List Char × List Char))) :
    Except RangeError (Option Int) :=
  match zone with
  | none => .ok none
  | some none => .ok (some 0)
  | some (some (negative, hours, minutes)) =>
    let n := Text.numberOf 10 hours * 60 + Text.numberOf 10 minutes
    let offset := Binary64.signed negative n
    if 1440 ≤ n then .error (.offset offset) else .ok (some offset)

/-- Reads a date or a time. -/
def readTimestamp (s : String) : Except ReadError Value :=
  match timestamp? s.toList with
  | none => bad .timestamp
  | some t =>
    let number := Text.numberOf 10
    let value : Except RangeError Value := do
      match t.clock with
      | none =>
        let date ← date? (number t.year) (number t.month) (number t.day)
        .ok (.date date)
      | some clock =>
        let offset ← offsetOf clock.zone
        let date ← date? (number t.year) (number t.month) (number t.day)
        let micro := number ((clock.fraction.take 6) ++
          List.replicate (6 - clock.fraction.length) '0')
        let time ← dateTime? date (number clock.hour) (number clock.minute)
          (number clock.second) micro offset
        .ok (.dateTime time)
    value.mapError fun e => .badValue (.date e)

/-- The six bits of a character of encoded bytes. -/
def sextet? (c : Char) : Option Nat :=
  if 'A' ≤ c ∧ c ≤ 'Z' then some (c.toNat - 0x41)
  else if 'a' ≤ c ∧ c ≤ 'z' then some (c.toNat - 0x61 + 26)
  else if '0' ≤ c ∧ c ≤ '9' then some (c.toNat - 0x30 + 52)
  else if c = '+' then some 62
  else if c = '/' then some 63
  else none

/-- Decodes bytes of four characters for three bytes; other characters are passed over.  The
place inside the four and the bits left over from the character before are carried along. -/
def decodeSextets (place bits pads : Nat) : List Char → Option Text.Bytes
  | [] => if place = 0 then some [] else none
  | c :: cs =>
    if c = '=' then
      if 2 ≤ place ∧ 4 ≤ place + pads + 1 then some []
      else decodeSextets place bits (if 2 ≤ place then pads + 1 else pads) cs
    else
      match sextet? c with
      | none => decodeSextets place bits pads cs
      | some v =>
        match place with
        | 0 => decodeSextets 1 v 0 cs
        | 1 => (decodeSextets 2 (v % 16) 0 cs).map (UInt8.ofNat (bits * 4 + v / 16) :: ·)
        | 2 => (decodeSextets 3 (v % 4) 0 cs).map (UInt8.ofNat (bits * 16 + v / 4) :: ·)
        | _ => (decodeSextets 0 0 0 cs).map (UInt8.ofNat (bits * 64 + v) :: ·)

/-- Reads encoded bytes. -/
def readBinary (s : String) : Except ReadError Value :=
  let cs := s.toList
  if cs.all fun c => c.toNat < 0x80 then
    match decodeSextets 0 0 0 cs with
    | some bs => .ok (.bytes bs)
    | none => .error (.malformed .encodedBytes)
  else .error (.malformed .encodedBytes)

/-- Reads a scalar of a type. -/
def readScalar (tag : Tag) (s : String) : Except ReadError Value :=
  match tag with
  | .null => .ok .null
  | .bool => readBool s
  | .int => readInt s
  | .float => readFloat s
  | .binary => readBinary s
  | .timestamp => readTimestamp s
  | .text => .ok (.text s)
  | .sequence | .mapping | .set | .orderedMap | .pairs => .error (.malformed .wrongKind)
  | .merge | .defaultValue | .unknown => .error (.malformed .unknownTag)

end JitLens.Yaml
