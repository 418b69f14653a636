import JitLens.Yaml.Chars
import JitLens.Yaml.Scalar
/-!
# Writing mappings

Writes a mapping from names to scalars, one entry on a line.  A text is written plain if it reads
back as the same text, else in single quotes if it is of printable ASCII and line feeds, else in
double quotes with escapes.  Lines that grow past their width go on behind a space on the next
line.
-/

namespace JitLens.Yaml

namespace Printer

/-- Column behind which a line is broken. -/
def width : Nat := 80

/-- Column at which a scalar goes on. -/
def indent : Nat := 2

/-- The break of a line inside a scalar. -/
def lineBreak : List Char := '\n' :: List.replicate indent ' '

/-- Printable ASCII. -/
def isPlainChar (c : Char) : Bool :=
  0x20 ≤ c.toNat && c.toNat ≤ 0x7e

/-- Characters that a plain text does not start with. -/
def isLeadingIndicator (c : Char) : Bool :=
  "#,[]\x7b\x7d&*!|>'\"%@\x60".toList.contains c

/-- Whether a plain text may start with these characters. -/
def mayStart : List Char → Bool
  | [] => true
  | c :: cs =>
    !isLeadingIndicator c && !((c == '?' || c == ':' || c == '-') && endsWord cs)

/-- Whether a colon before a space or a hash behind one stands in the text behind its first
character; `blank` tells whether a space stands before it. -/
def hasIndicator (blank : Bool) : List Char → Bool
  | [] => false
  | c :: cs => (c == ':' && endsWord cs) || (c == '#' && blank) || hasIndicator (isBlank c) cs

/-- Whether a text starts like a document marker. -/
def startsLikeMarker : List Char → Bool
  | '-' :: '-' :: '-' :: _ => true
  | '.' :: '.' :: '.' :: _ => true
  | _ => false

/-- Whether a text is written plain. -/
def isPlain (s : String) : Bool :=
  let cs := s.toList
  implicitTag s == .text && cs.all isPlainChar && cs.head? != some ' ' &&
    cs.getLast? != some ' ' && mayStart cs && !startsLikeMarker cs &&
    !hasIndicator false (cs.drop 1)

/-- Whether a space and a line feed stand next to each other. -/
def hasBlankAtBreak : List Char → Bool
  | a :: b :: cs =>
    (a == ' ' && b == '\n') || (a == '\n' && b == ' ') || hasBlankAtBreak (b :: cs)
  | _ => false

/-- Whether a text may be written in single quotes. -/
def isSingle (cs : List Char) : Bool :=
  cs.all (fun c => c == '\n' || isPlainChar c) && !hasBlankAtBreak cs

/-- Whether the line is broken at a single space between two words. -/
def breaksAt (column spaces : Nat) : Bool :=
  spaces == 1 && width < column

/-- Writes a plain text from a column on; `spaces` of them are still to be written. -/
def plainText (column spaces : Nat) : List Char → List Char
  | [] => List.replicate spaces ' '
  | c :: cs =>
    if c = ' ' then plainText column (spaces + 1) cs
    else if breaksAt column spaces then lineBreak ++ c :: plainText (indent + 1) 0 cs
    else List.replicate spaces ' ' ++ c :: plainText (column + spaces + 1) 0 cs

/-- A character inside single quotes. -/
def singleChar (c : Char) : List Char :=
  if c = '\'' then ['\'', '\''] else [c]

/-- White space inside single quotes that is still to be written. -/
inductive SingleGap where
  | none
  | spaces (count : Nat) (leading : Bool)
  | breaks (count : Nat)

/-- Writes a text inside single quotes from a column on. -/
def singleText (column : Nat) (leading : Bool) : SingleGap → List Char → List Char
  | .none, [] => []
  | .spaces count _, [] => List.replicate count ' '
  | .breaks count, [] => List.replicate count '\n' ++ lineBreak
  | gap, c :: cs =>
    if c = ' ' then
      match gap with
      | .spaces count lead => singleText column false (.spaces (count + 1) lead) cs
      | .none => singleText column false (.spaces 1 leading) cs
      | .breaks count =>
        List.replicate count '\n' ++ lineBreak ++ singleText indent false (.spaces 1 false) cs
    else if c = '\n' then
      match gap with
      | .breaks count => singleText column false (.breaks (count + 1)) cs
      | .none => singleText column false (.breaks 1) cs
      | .spaces count _ =>
        List.replicate count ' ' ++ singleText (column + count) false (.breaks 1) cs
    else
      let written := singleChar c
      match gap with
      | .none => written ++ singleText (column + written.length) false .none cs
      | .spaces count lead =>
        if breaksAt column count && !lead then
          lineBreak ++ written ++ singleText (indent + written.length) false .none cs
        else
          List.replicate count ' ' ++ written ++
            singleText (column + count + written.length) false .none cs
      | .breaks count =>
        List.replicate count '\n' ++ lineBreak ++ written ++
          singleText (indent + written.length) false .none cs

/-- The letter that escapes a character, if there is one. -/
def escapeLetter? (c : Char) : Option Char :=
  match c.toNat with
  | 0x00 => some '0'
  | 0x07 => some 'a'
  | 0x08 => some 'b'
  | 0x09 => some 't'
  | 0x0a => some 'n'
  | 0x0b => some 'v'
  | 0x0c => some 'f'
  | 0x0d => some 'r'
  | 0x1b => some 'e'
  | 0x22 => some '"'
  | 0x5c => some '\\'
  | 0x85 => some 'N'
  | 0xa0 => some '_'
  | 0x2028 => some 'L'
  | 0x2029 => some 'P'
  | _ => none

/-- Whether a character is escaped inside double quotes. -/
def isEscaped (c : Char) : Bool :=
  c == '"' || c == '\\' || !isPlainChar c

/-- A character inside double quotes that is escaped. -/
def escape (c : Char) : List Char :=
  match escapeLetter? c with
  | some letter => ['\\', letter]
  | none =>
    let n := c.toNat
    if n ≤ 0xff then '\\' :: 'x' :: Text.hexDigits true 2 n
    else if n ≤ 0xffff then '\\' :: 'u' :: Text.hexDigits true 4 n
    else '\\' :: 'U' :: Text.hexDigits true 8 n

/-- The break of a line inside double quotes, before a text; a space at its front is escaped. -/
def doubleBreak (cs : List Char) : List Char :=
  '\\' :: lineBreak ++ (if cs.head? = some ' ' then ['\\'] else [])

/-- Writes a text inside double quotes from a column on; `first` tells whether nothing was written
yet and `behindEscape` whether an escape was. -/
def doubleText (column : Nat) (first behindEscape : Bool) : List Char → List Char
  | [] => []
  | c :: cs =>
    let inside := !first && !cs.isEmpty
    if isEscaped c then
      let written := escape c
      let column := column + written.length
      if inside && width < column - 1 then
        let broken := doubleBreak cs
        written ++ broken ++ doubleText (indent + (broken.length - indent - 2)) false true cs
      else written ++ doubleText column false true cs
    else if inside && (c == ' ' || behindEscape) && width < column then
      let broken := doubleBreak (c :: cs)
      broken ++ c :: doubleText (indent + (broken.length - indent - 2) + 1) false false cs
    else c :: doubleText (column + 1) false false cs

/-- Writes a scalar from a column on, with the space before it. -/
def scalar (column : Nat) : Leaf → List Char
  | .null => " null".toList
  | .bool b => if b then " true".toList else " false".toList
  | .text s =>
    let cs := s.toList
    if isPlain s then ' ' :: plainText (column + 1) 0 cs
    else if isSingle cs then ' ' :: '\'' :: singleText (column + 2) true .none cs ++ ['\'']
    else ' ' :: '"' :: doubleText (column + 2) true false cs ++ ['"']

/-- Writes an entry as a line. -/
def entry (name : String) (leaf : Leaf) : List Char :=
  let key := name.toList
  key ++ ':' :: scalar (key.length + 1) leaf ++ ['\n']

end Printer

/-- Writes a mapping whose names are plain words, in the order given. -/
def write (entries : List (String × Leaf)) : List Char :=
  entries.flatMap fun (name, leaf) => Printer.entry name leaf

end JitLens.Yaml
