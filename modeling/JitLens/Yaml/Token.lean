import JitLens.Yaml.BlockScalar
import JitLens.Text.Utf8
/-!
# Tokens

The tokens of a settings text and the small pieces that are read in one go: directives, names of
anchors, and tags.
-/

namespace JitLens.Yaml

/-- A directive before a document. -/
inductive Directive where
  | version (major : Nat)
  | tag (handle lead : String)
  | other
  deriving DecidableEq, Repr

/-- A token; the ends of block collections are tokens too. -/
inductive Token where
  | directive (d : Directive)
  | documentStart
  | documentEnd
  | blockSequenceStart
  | blockMappingStart
  | blockEnd
  | flowSequenceStart
  | flowSequenceEnd
  | flowMappingStart
  | flowMappingEnd
  | blockEntry
  | flowEntry
  | key
  | value
  | reference (name : String)
  | anchor (name : String)
  | tag (handle : Option String) (rest : String)
  | scalar (text : String) (plain : Bool)
  deriving DecidableEq, Repr

/-- Results of reading. -/
abbrev Read (α : Type) := Except ReadError α

/-- The name behind the mark of an anchor or an alias. -/
def anchorName (cs : List Char) : Read (String × List Char) :=
  let name := cs.takeWhile isNameChar
  let rest := cs.drop name.length
  let ends := endsWord rest || (match rest with
    | c :: _ => "?:,]\x7d%@\x60".toList.contains c
    | [] => true)
  if name.isEmpty || !ends then refuse .anchorName else .ok (String.ofList name, rest)

/-- Characters of tags as they are written. -/
def isTagChar (c : Char) : Bool :=
  isNameChar c || ";/?:@&=+$,.!~*'()[]".toList.contains c

/-- The bytes of escapes at the front of a text; `none` if an escape has no two digits. -/
def tagEscapes : Nat → List Char → Option (Text.Bytes × List Char)
  | fuel + 1, '%' :: a :: b :: cs =>
    match Text.number? 16 [a, b] with
    | none => none
    | some n => (tagEscapes fuel cs).map fun (bs, rest) => (UInt8.ofNat n :: bs, rest)
  | _, '%' :: _ => none
  | _, cs => some ([], cs)

/-- Reads the characters of a tag. -/
def tagText : Nat → List Char → Read (List Char × List Char)
  | 0, cs => .ok ([], cs)
  | fuel + 1, cs =>
    match cs with
    | '%' :: _ =>
      match tagEscapes cs.length cs with
      | none => refuse .tag
      | some (bs, rest) =>
        match Text.decode bs with
        | .error _ => refuse .tag
        | .ok decoded => emit decoded (tagText fuel rest)
    | c :: rest => if isTagChar c then emit [c] (tagText fuel rest) else .ok ([], cs)
    | [] => .ok ([], [])

/-- The characters of a tag, of which there has to be one. -/
def tagSuffix (cs : List Char) : Read (String × List Char) := do
  let (text, rest) ← tagText (cs.length + 1) cs
  if text.isEmpty then refuse .tag
  else .ok (String.ofList text, rest)

/-- The handle of a tag, from its exclamation mark on. -/
def tagHandle : List Char → Read (String × List Char)
  | '!' :: cs =>
    match cs with
    | ' ' :: _ => .ok ("!", cs)
    | _ =>
      let name := cs.takeWhile isNameChar
      match cs.drop name.length with
      | '!' :: rest => .ok (String.ofList ('!' :: name ++ ['!']), rest)
      | _ => refuse .tag
  | _ => refuse .tag

/-- Whether a second exclamation mark stands in the word. -/
def hasHandle (cs : List Char) : Bool :=
  (cs.takeWhile fun c => c != ' ' && !isBreak c).contains '!'

/-- Reads a tag behind its exclamation mark. -/
def readTag (cs : List Char) : Read (Token × List Char) := do
  let (token, rest) ← (match cs with
    | '<' :: inside => do
      let (suffix, rest) ← tagSuffix inside
      match rest with
      | '>' :: rest => .ok (.tag none suffix, rest)
      | _ => refuse .tag
    | _ =>
      if endsWord cs then .ok (.tag none "!", cs)
      else if hasHandle cs then do
        let (handle, rest) ← tagHandle ('!' :: cs)
        let (suffix, rest) ← tagSuffix rest
        .ok (.tag (some handle) suffix, rest)
      else do
        let (suffix, rest) ← tagSuffix cs
        .ok (.tag (some "!") suffix, rest) : Read (Token × List Char))
  if endsField rest then .ok (token, rest) else refuse .tag

/-- Reads a version number. -/
def readVersion (cs : List Char) : Read (Directive × List Char) :=
  let cs := cs.dropWhile (· = ' ')
  let major := cs.takeWhile Text.isDigit
  match cs.drop major.length with
  | '.' :: rest =>
    let minor := rest.takeWhile Text.isDigit
    let rest := rest.drop minor.length
    if major.isEmpty || minor.isEmpty || !endsField rest then refuse .directive
    else .ok (.version (Text.numberOf 10 major), rest)
  | _ => refuse .directive

/-- Reads the handle and the leading text that a directive gives it. -/
def readTagDirective (cs : List Char) : Read (Directive × List Char) := do
  let (handle, rest) ← tagHandle (cs.dropWhile (· = ' '))
  match rest with
  | ' ' :: _ =>
    let (lead, rest) ← tagSuffix (rest.dropWhile (· = ' '))
    if endsField rest then .ok (.tag handle lead, rest) else refuse .directive
  | _ => refuse .directive

/-- Reads a directive behind its percent sign, with its line. -/
def readDirective (cs : List Char) : Read (Directive × List Char) := do
  let name := cs.takeWhile isNameChar
  let rest := cs.drop name.length
  if name.isEmpty || !endsField rest then refuse .directive
  else
    let (directive, rest) ← (
      if name = ['Y', 'A', 'M', 'L'] then readVersion rest
      else if name = ['T', 'A', 'G'] then readTagDirective rest
      else .ok (.other, rest.dropWhile fun c => !isBreak c) : Read (Directive × List Char))
    match restOfLine? rest with
    | some rest => .ok (directive, dropBreak rest)
    | none => refuse .directive

end JitLens.Yaml
