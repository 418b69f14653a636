import JitLens.Yaml.Token
/-!
# Cutting a text into tokens

A text is read from left to right.  Indentation opens and closes block collections.  A scalar or
a collection may turn out to be a key only when the colon behind it is met; the places of such
keys are remembered, and the key token is put in front of them then.
-/

namespace JitLens.Yaml

/-- A place where a key may have started. -/
structure PendingKey where
  /-- Count of the tokens before it. -/
  tokens : Nat
  required : Bool
  index : Nat
  line : Nat
  column : Nat
  deriving DecidableEq, Repr

/-- A text that is being cut. -/
structure Lexer where
  rest : List Char
  index : Nat := 0
  line : Nat := 0
  column : Nat := 0
  /-- Count of the open flow collections. -/
  flow : Nat := 0
  /-- Columns of the open block collections, innermost first. -/
  indents : List Nat := []
  /-- Whether a key may start here. -/
  keyAllowed : Bool := true
  /-- The pending key of each open flow collection and of the block, innermost first. -/
  keys : List (Option PendingKey) := [none]
  /-- The tokens so far, last one first. -/
  tokens : List Token := []
  deriving Repr

namespace Lexer

/-- How many characters may lie between the start of a key and its colon. -/
def keyReach : Nat := 1024

/-- The position behind one more character; the byte order mark takes no column. -/
def advance (l : Lexer) (c : Char) : Lexer :=
  if isBreak c then { l with index := l.index + 1, line := l.line + 1, column := 0 }
  else if c = '\ufeff' then { l with index := l.index + 1 }
  else { l with index := l.index + 1, column := l.column + 1 }

/-- Moves on to what is left of the text. -/
def moveTo (l : Lexer) (rest : List Char) : Lexer :=
  let passed := l.rest.take (l.rest.length - rest.length)
  { passed.foldl advance l with rest := rest }

/-- Adds a token. -/
def push (l : Lexer) (t : Token) : Lexer :=
  { l with tokens := t :: l.tokens }

/-- Puts tokens in front of those that came behind the first `count` ones. -/
def insertAt (l : Lexer) (count : Nat) (ts : List Token) : Lexer :=
  let behind := l.tokens.length - count
  { l with tokens := l.tokens.take behind ++ ts.reverse ++ l.tokens.drop behind }

/-- Whether the innermost block collection is indented less than a column. -/
def deeper (l : Lexer) (column : Nat) : Bool :=
  match l.indents with
  | [] => true
  | i :: _ => i < column

/-- Opens a block collection at a column that is deeper than the innermost one. -/
def openBlock (l : Lexer) (column : Nat) : Lexer :=
  { l with indents := column :: l.indents }

/-- Closes the block collections whose columns do not satisfy a test. -/
def closeBlocks (stays : Nat → Bool) (l : Lexer) : Lexer :=
  let closed := l.indents.takeWhile fun i => !stays i
  { l with
    indents := l.indents.drop closed.length
    tokens := List.replicate closed.length .blockEnd ++ l.tokens }

/-- Closes the block collections that are indented more than the current column. -/
def unwind (l : Lexer) : Lexer :=
  if l.flow = 0 then l.closeBlocks (· ≤ l.column) else l

/-- Closes all block collections. -/
def unwindAll (l : Lexer) : Lexer :=
  if l.flow = 0 then l.closeBlocks fun _ => false else l

/-- Forgets a key that cannot have a colon any more, which is a fault if it needs one. -/
def dropKey : Option PendingKey → Read Unit
  | some k => if k.required then refuse .missingColon else .ok ()
  | none => .ok ()

/-- Forgets the pending keys that lie on another line or too far back. -/
def dropStale (l : Lexer) : Read Lexer := do
  let stale (k : PendingKey) : Bool := k.line != l.line || keyReach < l.index - k.index
  if l.keys.any fun k => k.any fun k => stale k && k.required then refuse .missingColon
  else .ok { l with keys := l.keys.map fun k => k.filter fun k => !stale k }

/-- Forgets the pending key of the innermost collection. -/
def removeKey (l : Lexer) : Read Lexer := do
  dropKey (l.keys.head?.join)
  .ok { l with keys := none :: l.keys.drop 1 }

/-- Remembers that a key may start here. -/
def saveKey (l : Lexer) : Read Lexer :=
  if l.keyAllowed then do
    let required := l.flow = 0 && l.indents.head? == some l.column
    let l ← l.removeKey
    let key : PendingKey := ⟨l.tokens.length, required, l.index, l.line, l.column⟩
    .ok { l with keys := some key :: l.keys.drop 1 }
  else .ok l

/-- The text behind spaces, comments and line breaks, and whether a line break was passed. -/
def skipGap (inComment : Bool) : List Char → List Char × Bool
  | [] => ([], false)
  | c :: cs =>
    if isBreak c then ((skipGap false cs).1, true)
    else if inComment then skipGap true cs
    else if c = ' ' then skipGap false cs
    else if c = '#' then skipGap true cs
    else (c :: cs, false)

/-- Moves on to the next token. -/
def toToken (l : Lexer) : Lexer :=
  let start := match l.index, l.rest with
    | 0, '\ufeff' :: cs => cs
    | _, cs => cs
  let (rest, crossed) := skipGap false start
  let moved := l.moveTo rest
  if crossed && l.flow = 0 then { moved with keyAllowed := true } else moved

/-- Adds a token of some characters that stands for nothing else. -/
def take (l : Lexer) (count : Nat) (t : Token) : Lexer :=
  (l.moveTo (l.rest.drop count)).push t

/-- A directive at the start of a line. -/
def directive (l : Lexer) (cs : List Char) : Read Lexer := do
  let l ← l.unwindAll.removeKey
  let (d, rest) ← readDirective cs
  .ok ({ l with keyAllowed := false }.moveTo rest |>.push (.directive d))

/-- A document marker. -/
def marker (l : Lexer) (t : Token) : Read Lexer := do
  let l ← l.unwindAll.removeKey
  .ok ({ l with keyAllowed := false }.take 3 t)

/-- The start of a flow collection. -/
def flowStart (l : Lexer) (t : Token) : Read Lexer := do
  let l ← l.saveKey
  .ok ({ l with flow := l.flow + 1, keys := none :: l.keys, keyAllowed := true }.take 1 t)

/-- The end of a flow collection. -/
def flowEnd (l : Lexer) (t : Token) : Read Lexer :=
  if l.flow = 0 then refuse .flowEnd
  else do
    let l ← l.removeKey
    .ok ({ l with flow := l.flow - 1, keys := l.keys.drop 1, keyAllowed := false }.take 1 t)

/-- A comma between the items of a flow collection. -/
def flowEntry (l : Lexer) : Read Lexer := do
  let l ← { l with keyAllowed := true }.removeKey
  .ok (l.take 1 .flowEntry)

/-- Opens a block collection here, if it is deeper, with its token. -/
def openHere (l : Lexer) (t : Token) : Lexer :=
  if l.deeper l.column then (l.openBlock l.column).push t else l

/-- The dash before an entry of a sequence. -/
def blockEntry (l : Lexer) : Read Lexer :=
  if l.flow = 0 && !l.keyAllowed then refuse .entryHere
  else do
    let l := if l.flow = 0 then l.openHere .blockSequenceStart else l
    let l ← { l with keyAllowed := true }.removeKey
    .ok (l.take 1 .blockEntry)

/-- The question mark before a key. -/
def explicitKey (l : Lexer) : Read Lexer :=
  if l.flow = 0 && !l.keyAllowed then refuse .keyHere
  else do
    let l := if l.flow = 0 then l.openHere .blockMappingStart else l
    let l ← { l with keyAllowed := l.flow = 0 }.removeKey
    .ok (l.take 1 .key)

/-- The colon behind a key. -/
def colon (l : Lexer) : Read Lexer :=
  match l.keys.head?.join with
  | some key =>
    let l := { l with keys := none :: l.keys.drop 1, keyAllowed := false }
    let l :=
      if l.flow = 0 && l.deeper key.column then
        (l.openBlock key.column).insertAt key.tokens [.blockMappingStart, .key]
      else l.insertAt key.tokens [.key]
    .ok (l.take 1 .value)
  | none =>
    if l.flow = 0 && !l.keyAllowed then refuse .valueHere
    else do
      let l := if l.flow = 0 then l.openHere .blockMappingStart else l
      let l ← { l with keyAllowed := l.flow = 0 }.removeKey
      .ok (l.take 1 .value)

/-- A token that may start a key, read from the text behind its first character. -/
def keyable (l : Lexer) (read : List Char → Read (Token × List Char)) (cs : List Char) :
    Read Lexer := do
  let l ← l.saveKey
  let (t, rest) ← read cs
  .ok ({ l with keyAllowed := false }.moveTo rest |>.push t)

/-- A scalar between quotes as a token. -/
def quotedToken (read : List Char → Read (List Char × List Char)) (cs : List Char) :
    Read (Token × List Char) :=
  (read cs).map fun (text, rest) => (.scalar (String.ofList text) false, rest)

/-- A block scalar. -/
def block (l : Lexer) (folded : Bool) (cs : List Char) : Read Lexer := do
  let l ← { l with keyAllowed := true }.removeKey
  let outer := match l.indents with
    | [] => 0
    | i :: _ => i + 1
  let (text, rest) ← blockScalar folded outer cs
  .ok (l.moveTo rest |>.push (.scalar (String.ofList text) false))

/-- A plain scalar. -/
def plain (l : Lexer) : Read Lexer := do
  let l ← l.saveKey
  let indent := match l.indents with
    | [] => 0
    | i :: _ => i + 1
  let p := plainFrom (l.flow ≠ 0) indent .word l.rest
  .ok ({ l with keyAllowed := p.crossed }.moveTo p.rest |>.push
    (.scalar (String.ofList p.text) true))

/-- Characters that never start a plain scalar. -/
def isIndicator (c : Char) : Bool :=
  "-?:,[]\x7b\x7d#&*!|>'\"%@\x60".toList.contains c

/-- Whether a plain scalar starts with a character, given what follows it. -/
def startsPlain (l : Lexer) (c : Char) (cs : List Char) : Bool :=
  (!isIndicator c && !isBlank c && !isBreak c) ||
    (!endsWord cs && (c == '-' || (l.flow = 0 && (c == '?' || c == ':'))))

/-- Reads one token at the given character. -/
def readToken (l : Lexer) (c : Char) (cs : List Char) : Read Lexer :=
  if l.column = 0 && c = '%' then l.directive cs
  else if l.column = 0 && atDocumentStart (c :: cs) then l.marker .documentStart
  else if l.column = 0 && atDocumentEnd (c :: cs) then l.marker .documentEnd
  else if c = '[' then l.flowStart .flowSequenceStart
  else if c = '\x7b' then l.flowStart .flowMappingStart
  else if c = ']' then l.flowEnd .flowSequenceEnd
  else if c = '\x7d' then l.flowEnd .flowMappingEnd
  else if c = ',' then l.flowEntry
  else if c = '-' && endsWord cs then l.blockEntry
  else if c = '?' && (l.flow ≠ 0 || endsWord cs) then l.explicitKey
  else if c = ':' && (l.flow ≠ 0 || endsWord cs) then l.colon
  else if c = '*' then l.keyable (fun cs => (anchorName cs).map fun (n, r) => (.reference n, r)) cs
  else if c = '&' then l.keyable (fun cs => (anchorName cs).map fun (n, r) => (.anchor n, r)) cs
  else if c = '!' then l.keyable readTag cs
  else if c = '|' && l.flow = 0 then l.block false cs
  else if c = '>' && l.flow = 0 then l.block true cs
  else if c = '\'' then l.keyable (quotedToken (singleQuoted .none)) cs
  else if c = '"' then l.keyable (quotedToken (doubleQuoted .none 0)) cs
  else if l.startsPlain c cs then l.plain
  else refuse .tokenStart

/-- Moves on to the next token and reads it; at the end of the text all that is open in the block
is closed. -/
def step (l : Lexer) : Read (Lexer × Bool) := do
  let l ← l.toToken.dropStale
  let l := l.unwind
  match l.rest with
  | [] => do
    let l ← l.unwindAll.removeKey
    .ok (l, true)
  | c :: cs => do
    let l ← l.readToken c cs
    .ok (l, false)

/-- Reads tokens up to the end of the text. -/
def run : Nat → Lexer → Read Lexer
  | 0, _ => refuse .depth
  | fuel + 1, l => do
    let (l, done) ← l.step
    if done then .ok l else run fuel l

end Lexer

/-- The tokens of a text. -/
def tokens (cs : List Char) : Read (List Token) := do
  if !cs.all isAllowed then refuse .unprintable
  else
    let text := unifyBreaks cs
    let l ← Lexer.run (text.length + 2) { rest := text }
    .ok l.tokens.reverse

end JitLens.Yaml
