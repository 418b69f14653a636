import JitLens.Text.Blank
/-!
# Words of a script

A word of a script is made of pieces: text, quoted or not, and what is filled in when the script
runs, which is the value of a parameter, the result of a sum, or the output of a command.

Only the command line and test runs use this module; see `JitLens.Shell.Tools`.
-/

namespace JitLens.Shell

/-- What a parameter is replaced by; most ways ask whether it is set, or set and not empty. -/
inductive Use (α : Type) where
  | value
  | length
  /-- Other text if it is not set. -/
  | orElse (orEmpty : Bool) (other : α)
  /-- Other text if it is set. -/
  | andThen (orEmpty : Bool) (other : α)
  /-- Other text, which it is then set to, if it is not set. -/
  | orSet (orEmpty : Bool) (other : α)
  /-- The value without the part at its front, or at its end, that fits a pattern. -/
  | cut (fromFront longest : Bool) (pattern : α)

/-- A piece of a word. -/
inductive Piece where
  | text (quoted : Bool) (cs : List Char)
  | parameter (quoted : Bool) (name : String) (use : Use (List Piece))
  | sum (quoted : Bool) (inside : List Piece)
  | output (quoted : Bool) (script : List Char)

/-- A word of a script. -/
abbrev Word := List Piece

instance : Inhabited Piece := ⟨.text false []⟩

/-- Why a script cannot be read. -/
inductive ScriptError where
  | openQuote
  | openBrace
  | openParenthesis
  | unexpected (token : String)
  deriving DecidableEq, Repr

def ScriptError.message : ScriptError → String
  | .openQuote => "Syntax error: Unterminated quoted string"
  | .openBrace => "Syntax error: Missing '\x7d'"
  | .openParenthesis => "Syntax error: Missing '))'"
  | .unexpected token => "Syntax error: " ++ token ++ " unexpected"

/-- Characters that end a word. -/
def endsWord (c : Char) : Bool :=
  [' ', '\t', '\n', ';', '&', '|', '<', '>', '(', ')'].contains c

/-- Characters that a name may start with. -/
def startsName (c : Char) : Bool :=
  ('a' ≤ c && c ≤ 'z') || ('A' ≤ c && c ≤ 'Z') || c == '_'

/-- Characters of a name. -/
def isNameChar (c : Char) : Bool :=
  startsName c || ('0' ≤ c && c ≤ '9')

/-- Parameters with a name of one character that is no letter. -/
def isSpecial (c : Char) : Bool :=
  ['@', '*', '#', '?', '$', '!', '-'].contains c || ('0' ≤ c && c ≤ '9')

/-- A piece behind a piece of text is put before others; text of one kind is run together. -/
def addText (quoted : Bool) (cs : List Char) : List Piece → List Piece
  | .text q ds :: rest => if q = quoted then .text q (cs ++ ds) :: rest
      else .text quoted cs :: .text q ds :: rest
  | rest => .text quoted cs :: rest

/-- What stands before the closing mark of a nested text, and what behind it; `depth` opening marks
are still to be closed, and quoted text is passed over. -/
def nested (opening closing : Char) : Nat → Nat → List Char → Option (List Char × List Char)
  | 0, _, _ => none
  | _, _, [] => none
  | fuel + 1, depth, c :: cs =>
    let step (taken : List Char) (depth : Nat) (rest : List Char) :
        Option (List Char × List Char) :=
      (nested opening closing fuel depth rest).map fun (a, b) => (taken ++ a, b)
    if c = '\\' then
      match cs with
      | d :: cs => step [c, d] depth cs
      | [] => none
    else if c = '\'' then
      let inside := cs.takeWhile (· ≠ '\'')
      match cs.drop inside.length with
      | _ :: rest => step (c :: inside ++ ['\'']) depth rest
      | [] => none
    else if c = opening then step [c] (depth + 1) cs
    else if c = closing then
      match depth with
      | 0 => some ([], cs)
      | depth + 1 => step [c] depth cs
    else step [c] depth cs

/-- What stands before an unescaped backquote, and what behind it. -/
def untilBackquote : List Char → Option (List Char × List Char)
  | [] => none
  | '\x60' :: cs => some ([], cs)
  | '\\' :: '\x60' :: cs => (untilBackquote cs).map fun (a, b) => ('\x60' :: a, b)
  | c :: cs => (untilBackquote cs).map fun (a, b) => (c :: a, b)

mutual

/-- Reads what stands behind a dollar sign. -/
def readDollar (quoted : Bool) : Nat → List Char → Except ScriptError (Piece × List Char)
  | 0, _ => .error .openQuote
  | fuel + 1, cs =>
    match cs with
    | '(' :: '(' :: rest =>
      match nested '(' ')' (rest.length + 1) 1 rest with
      | some (inside, rest) => do
        let (pieces, _) ← readQuoted fuel none (inside.dropLast)
        .ok (.sum quoted pieces, rest)
      | none => .error .openParenthesis
    | '(' :: rest =>
      match nested '(' ')' (rest.length + 1) 0 rest with
      | some (inside, rest) => .ok (.output quoted inside, rest)
      | none => .error .openParenthesis
    | '\x7b' :: '#' :: c :: rest =>
      let name := (c :: rest).takeWhile isNameChar
      match name, (c :: rest).drop name.length with
      | [], '\x7d' :: rest => .ok (.parameter quoted "#" .value, rest)
      | _, '\x7d' :: rest => .ok (.parameter quoted (String.ofList name) .length, rest)
      | _, _ => .error .openBrace
    | '\x7b' :: rest =>
      let name := match rest with
        | c :: _ => if startsName c then rest.takeWhile isNameChar else rest.take 1
        | [] => []
      readUse quoted fuel (String.ofList name) (rest.drop name.length)
    | c :: rest =>
      if startsName c then
        let name := cs.takeWhile isNameChar
        .ok (.parameter quoted (String.ofList name) .value, cs.drop name.length)
      else if isSpecial c then .ok (.parameter quoted (String.ofList [c]) .value, rest)
      else .ok (.text quoted ['$'], cs)
    | [] => .ok (.text quoted ['$'], [])

/-- Reads what stands behind the name of a parameter in braces. -/
def readUse (quoted : Bool) : Nat → String → List Char → Except ScriptError (Piece × List Char)
  | 0, _, _ => .error .openBrace
  | fuel + 1, name, cs =>
    let (orEmpty, cs) := match cs with
      | ':' :: cs => (true, cs)
      | cs => (false, cs)
    let other (make : List Piece → Use (List Piece)) (rest : List Char) :
        Except ScriptError (Piece × List Char) :=
      match nested '\x7b' '\x7d' (rest.length + 1) 0 rest with
      | some (inside, rest) => do
        let (pieces, _) ← if quoted then readQuoted fuel none inside
          else readPieces fuel true inside
        .ok (.parameter quoted name (make pieces), rest)
      | none => .error .openBrace
    let cut (fromFront longest : Bool) (rest : List Char) :
        Except ScriptError (Piece × List Char) :=
      match nested '\x7b' '\x7d' (rest.length + 1) 0 rest with
      | some (inside, rest) => do
        let (pieces, _) ← readPieces fuel true inside
        .ok (.parameter quoted name (.cut fromFront longest pieces), rest)
      | none => .error .openBrace
    match cs with
    | '\x7d' :: rest => .ok (.parameter quoted name .value, rest)
    | '%' :: '%' :: rest => cut false true rest
    | '%' :: rest => cut false false rest
    | '#' :: '#' :: rest => cut true true rest
    | '#' :: rest => cut true false rest
    | '-' :: rest => other (.orElse orEmpty) rest
    | '+' :: rest => other (.andThen orEmpty) rest
    | '=' :: rest => other (.orSet orEmpty) rest
    | _ => .error .openBrace

/-- Reads text between double quotes up to the closing one, or up to the end if there is none. -/
def readQuoted : Nat → Option Char → List Char → Except ScriptError (List Piece × List Char)
  | 0, _, _ => .error .openQuote
  | fuel + 1, closing, cs =>
    match cs with
    | [] => if closing.isNone then .ok ([], []) else .error .openQuote
    | c :: rest =>
      if closing = some c then .ok ([], rest)
      else if c = '\\' then
        match rest with
        | [] => .error .openQuote
        | '\n' :: rest => readQuoted fuel closing rest
        | d :: rest => do
          let taken := if ['$', '\x60', '"', '\\'].contains d then [d] else [c, d]
          let (ps, after) ← readQuoted fuel closing rest
          .ok (addText true taken ps, after)
      else if c = '$' then do
        let (p, rest) ← readDollar true fuel rest
        let (ps, after) ← readQuoted fuel closing rest
        .ok (p :: ps, after)
      else if c = '\x60' then
        match untilBackquote rest with
        | none => .error .openQuote
        | some (inside, rest) => do
          let (ps, after) ← readQuoted fuel closing rest
          .ok (.output true inside :: ps, after)
      else do
        let (ps, after) ← readQuoted fuel closing rest
        .ok (addText true [c] ps, after)

/-- Reads the pieces of a word; inside of braces all characters belong to it. -/
def readPieces : Nat → Bool → List Char → Except ScriptError (List Piece × List Char)
  | 0, _, _ => .error .openQuote
  | fuel + 1, inBraces, cs =>
    match cs with
    | [] => .ok ([], [])
    | c :: rest =>
      if endsWord c && !inBraces then .ok ([], cs)
      else if c = '\\' then
        match rest with
        | [] => .ok ([.text true ['\\']], [])
        | '\n' :: rest => readPieces fuel inBraces rest
        | d :: rest => do
          let (ps, after) ← readPieces fuel inBraces rest
          .ok (addText true [d] ps, after)
      else if c = '\'' then
        let inside := rest.takeWhile (· ≠ '\'')
        match rest.drop inside.length with
        | [] => .error .openQuote
        | _ :: rest => do
          let (ps, after) ← readPieces fuel inBraces rest
          .ok (addText true inside ps, after)
      else if c = '"' then do
        let (qs, rest) ← readQuoted fuel (some '"') rest
        let (ps, after) ← readPieces fuel inBraces rest
        .ok (.text true [] :: qs ++ ps, after)
      else if c = '$' then do
        let (p, rest) ← readDollar false fuel rest
        let (ps, after) ← readPieces fuel inBraces rest
        .ok (p :: ps, after)
      else if c = '\x60' then
        match untilBackquote rest with
        | none => .error .openQuote
        | some (inside, rest) => do
          let (ps, after) ← readPieces fuel inBraces rest
          .ok (.output false inside :: ps, after)
      else do
        let (ps, after) ← readPieces fuel inBraces rest
        .ok (addText false [c] ps, after)

end

def readWord (cs : List Char) : Except ScriptError (Word × List Char) :=
  readPieces (2 * cs.length + 2) false cs

end JitLens.Shell
