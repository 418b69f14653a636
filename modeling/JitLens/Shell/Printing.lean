import JitLens.Text.Digit
import JitLens.Text.Utf8
/-!
# Printing

What the commands `echo` and `printf` of a script write.

Only the command line and test runs use this module; see `JitLens.Shell.Tools`.
-/

namespace JitLens.Shell

open Text (Bytes)

/-- The character of an escape of one letter. -/
def escapeLetter? : Char → Option Nat
  | 'a' => some 7
  | 'b' => some 8
  | 'f' => some 12
  | 'n' => some 10
  | 'r' => some 13
  | 't' => some 9
  | 'v' => some 11
  | '\\' => some 92
  | _ => none

/-- An octal digit. -/
def isOctal (c : Char) : Bool :=
  '0' ≤ c && c ≤ '7'

/-- The byte of at most three octal digits, and how many they are. -/
def octalByte (cs : List Char) : UInt8 × Nat :=
  let ds := (cs.take 3).takeWhile isOctal
  (UInt8.ofNat (Text.numberOf 8 ds), ds.length)

/-- A text with its escapes, octal ones behind a zero, and whether it goes on at its end; `skip`
characters of an escape are still to be passed over. -/
def unescape : Nat → List Char → Bytes × Bool
  | _, [] => ([], true)
  | skip + 1, _ :: cs => unescape skip cs
  | 0, c :: cs =>
    let go (bytes : Bytes) (skip : Nat) : Bytes × Bool :=
      let (rest, more) := unescape skip cs
      (bytes ++ rest, more)
    if c = '\\' then
      match cs with
      | 'c' :: _ => ([], false)
      | '0' :: ds =>
        let (b, n) := octalByte ds
        go [b] (n + 1)
      | d :: _ =>
        match escapeLetter? d with
        | some n => go [UInt8.ofNat n] 1
        | none => go [0x5c] 0
      | [] => ([0x5c], true)
    else go (Text.encodeChar c) 0

/-- What `echo` writes for its arguments. -/
def echoed (args : List String) : Bytes :=
  let (ends, args) := match args with
    | "-n" :: args => (false, args)
    | args => (true, args)
  let (bytes, more) := unescape 0 (String.intercalate " " args).toList
  if ends && more then bytes ++ [10] else bytes

/-- How a value is set into its place. -/
structure Field where
  left : Bool := false
  zeros : Bool := false
  sign : Bool := false
  width : Nat := 0
  precision : Option Nat := none

/-- A text set into its place. -/
def Field.set (f : Field) (bytes : Bytes) : Bytes :=
  let gap := f.width - bytes.length
  if f.left then bytes ++ List.replicate gap 0x20
  else if f.zeros then
    match bytes with
    | 0x2d :: rest => 0x2d :: List.replicate gap 0x30 ++ rest
    | bytes => List.replicate gap 0x30 ++ bytes
  else List.replicate gap 0x20 ++ bytes

/-- Reads how a value is set into its place. -/
def readField (cs : List Char) : Field × List Char :=
  let flags := cs.takeWhile fun c => ['-', '0', '+', ' ', '#'].contains c
  let cs := cs.drop flags.length
  let width := cs.takeWhile Text.isDigit
  let cs := cs.drop width.length
  let (precision, cs) := match cs with
    | '.' :: cs =>
      let ds := cs.takeWhile Text.isDigit
      (some (Text.numberOf 10 ds), cs.drop ds.length)
    | cs => (none, cs)
  ({ left := flags.contains '-'
     zeros := flags.contains '0'
     sign := flags.contains '+'
     width := Text.numberOf 10 width
     precision := precision }, cs)

/-- The whole number that an argument stands for; a text that is none counts as zero. -/
def argumentNumber (s : String) : Int :=
  match s.toList with
  | '-' :: cs => -(Text.numberOf 10 (cs.takeWhile Text.isDigit) : Int)
  | '+' :: cs => Text.numberOf 10 (cs.takeWhile Text.isDigit)
  | '0' :: 'x' :: cs => Text.numberOf 16 cs
  | ['\'', c] => c.toNat
  | cs => Text.numberOf 10 (cs.takeWhile Text.isDigit)

def numberBytes (base : Nat) (n : Nat) : Bytes :=
  Text.encode (Nat.toDigits base n)

/-- A value in the form of a letter. -/
def formatted (f : Field) (letter : Char) (arg : String) : Bytes :=
  let n := argumentNumber arg
  match letter with
  | 's' =>
    let bytes := Text.encode arg.toList
    f.set (match f.precision with
      | some p => bytes.take p
      | none => bytes)
  | 'b' => f.set (unescape 0 arg.toList).1
  | 'c' => f.set ((Text.encode arg.toList).take 1)
  | 'x' => f.set (numberBytes 16 n.toNat)
  | 'X' => f.set ((numberBytes 16 n.toNat).map fun b => if 0x61 ≤ b then b - 0x20 else b)
  | 'o' => f.set (numberBytes 8 n.toNat)
  | _ =>
    let lead : Bytes := if f.sign && 0 ≤ n then [0x2b] else []
    f.set (lead ++ Text.encode (toString n).toList)

/-- One pass over a format: what is written, the arguments that are left, and whether any was
taken. -/
def formatPass : Nat → List Char → List String → Bool → Bytes × List String × Bool
  | 0, _, args, taken => ([], args, taken)
  | fuel + 1, cs, args, taken =>
    let go (bytes : Bytes) (rest : List Char) (args : List String) (taken : Bool) :
        Bytes × List String × Bool :=
      let (more, args, taken) := formatPass fuel rest args taken
      (bytes ++ more, args, taken)
    match cs with
    | [] => ([], args, taken)
    | '%' :: '%' :: rest => go [0x25] rest args taken
    | '%' :: rest =>
      match readField rest with
      | (f, letter :: rest) =>
        go (formatted f letter (args.headD "")) rest (args.drop 1) true
      | (_, []) => ([0x25], args, taken)
    | '\\' :: c :: rest =>
      if isOctal c then
        let (b, n) := octalByte (c :: rest)
        go [b] ((c :: rest).drop n) args taken
      else
        match escapeLetter? c with
        | some n => go [UInt8.ofNat n] rest args taken
        | none =>
          go (if c = '"' then [0x22] else 0x5c :: Text.encodeChar c) rest args taken
    | c :: rest => go (Text.encodeChar c) rest args taken

/-- What `printf` writes: the format is used again as long as there are arguments for it. -/
def printed : Nat → List Char → List String → Bytes
  | 0, _, _ => []
  | fuel + 1, format, args =>
    let (bytes, rest, taken) := formatPass (format.length + 1) format args false
    if taken && !rest.isEmpty then bytes ++ printed fuel format rest else bytes

end JitLens.Shell
