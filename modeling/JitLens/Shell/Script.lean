import JitLens.Shell.Word
import JitLens.Text.Digit
import JitLens.Text.Lines
import JitLens.Text.Search
/-!
# Scripts

A script is read in two steps: its text is cut into tokens, which are words and operators, and
the tokens are put together to commands.  Text that a command is to read may stand in the lines
below it, up to a line that ends it.

Only the command line and test runs use this module; see `JitLens.Shell.Tools`.
-/

namespace JitLens.Shell

/-- Where a stream leads to or comes from. -/
inductive Target where
  | write (append : Bool) (file : Word)
  | read (file : Word)
  /-- Text that stands in the script. -/
  | text (content : Word)
  /-- Where another stream, given by its number, leads to; a hyphen closes the stream. -/
  | same (stream : Word)

/-- A stream, by its number, and where it leads to. -/
structure Redirect where
  stream : Nat
  target : Target

/-- A command of a script. -/
inductive Command where
  | simple (line : Nat) (assignments : List (String × Word)) (words : List Word)
      (redirects : List Redirect)
  | sequence (commands : List Command)
  /-- The second command is run if the first one succeeds, or if it fails. -/
  | chain (onSuccess : Bool) (first second : Command)
  | pipe (first second : Command)
  | negation (c : Command)
  /-- The body is run as long as the condition succeeds, or as long as it fails. -/
  | loop (onSuccess : Bool) (condition body : Command)
  | choice (condition thenBody elseBody : Command)
  | forEach (name : String) (words : Option (List Word)) (body : Command)
  /-- The first branch with a pattern that the subject fits is run. -/
  | select (subject : Word) (branches : List (List Word × Command))
  /-- The body gets a name under which it can be run. -/
  | define (name : String) (body : Command)
  /-- Commands with streams of their own, and perhaps with variables of their own. -/
  | group (apart : Bool) (body : Command) (redirects : List Redirect)
  | background (c : Command)

instance : Inhabited Command := ⟨.sequence []⟩

/-- A token, with the line that it is in. -/
inductive Lexeme where
  | word (line : Nat) (w : Word)
  | op (s : String)
  | redirect (stream : Option Nat) (op : String)
  | here (stream : Option Nat) (content : Word)

/-- The operators that end a command, longer ones first. -/
def operators : List String := [";;", "&&", "||", ";", "&", "|", "(", ")", "\n"]

/-- The operators that lead a stream elsewhere, longer ones first. -/
def redirections : List String := ["<<-", "<<", ">>", ">&", "<&", ">|", ">", "<"]

/-- The operator of a list that a text starts with, and what stands behind it. -/
def operator? (ops : List String) (cs : List Char) : Option (String × List Char) :=
  ops.findSome? fun op => (Text.stripLeading op.toList cs).map (op, ·)

/-- A count of line ends. -/
def lineEnds (cs : List Char) : Nat :=
  cs.count '\n'

/-- The text of a word as it stands, and whether a part of it is quoted. -/
def markOf : Word → List Char × Bool
  | [] => ([], false)
  | .text quoted cs :: rest =>
    let (more, anyQuoted) := markOf rest
    (cs ++ more, quoted || anyQuoted)
  | _ :: rest => markOf rest

/-- The lines before the one that ends them, and those behind it. -/
def linesUntil (mark : List Char) (strip : Bool) :
    List (List Char) → List (List Char) × List (List Char)
  | [] => ([], [])
  | l :: ls =>
    let l := if strip then l.dropWhile (· = '\t') else l
    if l = mark then ([], ls)
    else
      let (inside, behind) := linesUntil mark strip ls
      (l :: inside, behind)

/-- The text below a line up to the one that ends it, and the script without that text. -/
def takeBelow (mark : List Char) (strip : Bool) (cs : List Char) : List Char × List Char :=
  match Text.cutAt ['\n'] cs with
  | none => ([], cs)
  | some (line, below) =>
    let (inside, behind) := linesUntil mark strip (Text.splitOn '\n' below)
    (inside.flatMap (· ++ ['\n']), line ++ '\n' :: Text.joinWith '\n' behind)

/-- Text that stands in a script, behind the operator that leads it to a stream, and what is left
of the script. -/
def readBelow (strip : Bool) (cs : List Char) : Except ScriptError (Word × List Char) := do
  let (w, rest) ← readWord (cs.dropWhile fun c => c == ' ' || c == '\t')
  let (mark, quoted) := markOf w
  let (body, rest) := takeBelow mark strip rest
  if quoted then .ok ([.text true body], rest)
  else
    let (pieces, _) ← readQuoted (2 * body.length + 2) none body
    .ok (pieces, rest)

def tokens : Nat → Nat → List Char → Except ScriptError (List Lexeme)
  | 0, _, _ => .ok []
  | fuel + 1, line, cs =>
    match cs with
    | [] => .ok []
    | ' ' :: rest => tokens fuel line rest
    | '\t' :: rest => tokens fuel line rest
    | '\\' :: '\n' :: rest => tokens fuel (line + 1) rest
    | '#' :: rest => tokens fuel line (rest.dropWhile (· ≠ '\n'))
    | _ =>
      let digits := cs.takeWhile Text.isDigit
      match operator? redirections (cs.drop digits.length) with
      | some (op, rest) =>
        if op = "<<" ∨ op = "<<-" then do
          let (content, rest) ← readBelow (op = "<<-") rest
          .ok (.here (Text.number? 10 digits) content :: (← tokens fuel line rest))
        else (tokens fuel line rest).map (.redirect (Text.number? 10 digits) op :: ·)
      | none =>
        match operator? operators cs with
        | some (op, rest) =>
          (tokens fuel (line + lineEnds op.toList) rest).map (.op op :: ·)
        | none => do
          let (w, rest) ← readWord cs
          let after := line + lineEnds (cs.take (cs.length - rest.length))
          .ok (.word line w :: (← tokens fuel after rest))

/-- The text of a word that has no quotes and nothing to fill in. -/
def bare? : Word → Option String
  | [.text false cs] => some (String.ofList cs)
  | _ => none

/-- The name and the value of a word that sets a variable. -/
def assignment? : Word → Option (String × Word)
  | .text false cs :: rest =>
    match Text.cutAt ['='] cs with
    | some (c :: name, value) =>
      if startsName c && name.all isNameChar then
        some (String.ofList (c :: name),
          if value.isEmpty then rest else .text false value :: rest)
      else none
    | _ => none
  | _ => none

/-- Words that stand for no command of their own. -/
def keywords : List String :=
  ["then", "else", "elif", "fi", "do", "done", "esac", "\x7d"]

/-- The keyword that tokens start with, if it ends a list of commands. -/
def endOf? : List Lexeme → Option String
  | .word _ w :: _ => (bare? w).filter keywords.contains
  | .op ")" :: _ => some ")"
  | .op ";;" :: _ => some ";;"
  | [] => some ""
  | _ => none

/-- A token in messages. -/
def Lexeme.text : Lexeme → String
  | .word _ w => "\"" ++ (bare? w).getD "word" ++ "\""
  | .op "\n" => "newline"
  | .op s => "\"" ++ s ++ "\""
  | .redirect _ _ => "redirection"
  | .here _ _ => "redirection"

/-- The first of the tokens in messages. -/
def firstText : List Lexeme → String
  | t :: _ => t.text
  | [] => "end of file"

/-- The tokens behind a keyword. -/
def expect (keyword : String) : List Lexeme → Except ScriptError (List Lexeme)
  | .word line w :: rest =>
    if bare? w = some keyword then .ok rest else .error (.unexpected (Lexeme.word line w).text)
  | .op s :: rest => if s = keyword then .ok rest else .error (.unexpected (Lexeme.op s).text)
  | ts => .error (.unexpected (firstText ts))

/-- The tokens behind line ends. -/
def skipLines (ts : List Lexeme) : List Lexeme :=
  ts.dropWhile fun t => t matches .op "\n"

/-- The tokens behind line ends and semicolons. -/
def skipEnds (ts : List Lexeme) : List Lexeme :=
  ts.dropWhile fun t => (t matches .op "\n") || (t matches .op ";")

/-- The redirection of an operator and the word behind it. -/
def redirectOf (stream : Option Nat) (op : String) (w : Word) : Redirect :=
  match op with
  | ">>" => ⟨stream.getD 1, .write true w⟩
  | ">&" => ⟨stream.getD 1, .same w⟩
  | "<&" => ⟨stream.getD 0, .same w⟩
  | "<" => ⟨stream.getD 0, .read w⟩
  | _ => ⟨stream.getD 1, .write false w⟩

/-- Redirections behind a command. -/
def redirects : List Lexeme → List Redirect × List Lexeme
  | .redirect n op :: .word _ w :: ts =>
    let (rs, ts) := redirects ts
    (redirectOf n op w :: rs, ts)
  | .here n w :: ts =>
    let (rs, ts) := redirects ts
    (⟨n.getD 0, .text w⟩ :: rs, ts)
  | ts => ([], ts)

/-- The parts of a simple command. -/
structure Simple where
  assignments : List (String × Word) := []
  words : List Word := []
  redirects : List Redirect := []

/-- The parts of a simple command, behind those that are read already. -/
def simple (s : Simple) : List Lexeme → Except ScriptError (Simple × List Lexeme)
  | .redirect n op :: .word _ w :: ts =>
    simple { s with redirects := s.redirects ++ [redirectOf n op w] } ts
  | .redirect _ _ :: ts => .error (.unexpected (firstText ts))
  | .here n w :: ts => simple { s with redirects := s.redirects ++ [⟨n.getD 0, .text w⟩] } ts
  | .word _ w :: ts =>
    match s.words.isEmpty, assignment? w with
    | true, some a => simple { s with assignments := s.assignments ++ [a] } ts
    | _, _ => simple { s with words := s.words ++ [w] } ts
  | ts => .ok (s, ts)

/-- The words up to the end of a line. -/
def wordsToEnd : List Lexeme → List Word × List Lexeme
  | .word _ w :: ts =>
    let (ws, ts) := wordsToEnd ts
    (w :: ws, ts)
  | ts => ([], ts)

/-- The patterns of a branch, with bars between them. -/
def patternsOf : List Lexeme → List Word × List Lexeme
  | .word _ w :: .op "|" :: ts =>
    let (ws, ts) := patternsOf ts
    (w :: ws, ts)
  | .word _ w :: ts => ([w], ts)
  | ts => ([], ts)

mutual

/-- Reads commands up to a token that ends them. -/
def readList : Nat → List Lexeme → Except ScriptError (List Command × List Lexeme)
  | 0, ts => .error (.unexpected (firstText ts))
  | fuel + 1, ts =>
    let ts := skipEnds ts
    if (endOf? ts).isSome then .ok ([], ts)
    else do
      let (c, ts) ← readChain fuel ts
      match ts with
      | .op "&" :: ts => do
        let (cs, ts) ← readList fuel ts
        .ok (.background c :: cs, ts)
      | .op ";" :: ts => do
        let (cs, ts) ← readList fuel ts
        .ok (c :: cs, ts)
      | .op "\n" :: ts => do
        let (cs, ts) ← readList fuel ts
        .ok (c :: cs, ts)
      | ts =>
        if (endOf? ts).isSome then .ok ([c], ts) else .error (.unexpected (firstText ts))

/-- Reads commands that are linked by their success or failure. -/
def readChain : Nat → List Lexeme → Except ScriptError (Command × List Lexeme)
  | 0, ts => .error (.unexpected (firstText ts))
  | fuel + 1, ts => do
    let (c, ts) ← readPipe fuel ts
    readLinks fuel c ts

def readLinks : Nat → Command → List Lexeme → Except ScriptError (Command × List Lexeme)
  | 0, _, ts => .error (.unexpected (firstText ts))
  | fuel + 1, c, ts =>
    match ts with
    | .op "&&" :: ts => do
      let (d, ts) ← readPipe fuel (skipLines ts)
      readLinks fuel (.chain true c d) ts
    | .op "||" :: ts => do
      let (d, ts) ← readPipe fuel (skipLines ts)
      readLinks fuel (.chain false c d) ts
    | ts => .ok (c, ts)

/-- Reads commands each of which reads what the one before it writes. -/
def readPipe : Nat → List Lexeme → Except ScriptError (Command × List Lexeme)
  | 0, ts => .error (.unexpected (firstText ts))
  | fuel + 1, ts =>
    match ts with
    | .word line w :: rest =>
      if bare? w = some "!" then do
        let (c, ts) ← readPipe fuel rest
        .ok (.negation c, ts)
      else readPipeline fuel (.word line w :: rest)
    | ts => readPipeline fuel ts

/-- Reads commands each of which reads what the one before it writes, behind an exclamation mark. -/
def readPipeline : Nat → List Lexeme → Except ScriptError (Command × List Lexeme)
  | 0, ts => .error (.unexpected (firstText ts))
  | fuel + 1, ts => do
    let (c, ts) ← readCommand fuel ts
    match ts with
    | .op "|" :: ts => do
      let (d, ts) ← readPipeline fuel (skipLines ts)
      .ok (.pipe c d, ts)
    | ts => .ok (c, ts)

/-- Reads the branches of a choice behind its first keyword. -/
def readChoice : Nat → List Lexeme → Except ScriptError (Command × List Lexeme)
  | 0, ts => .error (.unexpected (firstText ts))
  | fuel + 1, ts => do
    let (condition, ts) ← readList fuel ts
    let ts ← expect "then" ts
    let (thenBody, ts) ← readList fuel ts
    match endOf? ts with
    | some "elif" => do
      let (elseBody, ts) ← readChoice fuel (ts.drop 1)
      .ok (.choice (.sequence condition) (.sequence thenBody) elseBody, ts)
    | some "else" => do
      let (elseBody, ts) ← readList fuel (ts.drop 1)
      let ts ← expect "fi" ts
      .ok (.choice (.sequence condition) (.sequence thenBody) (.sequence elseBody), ts)
    | _ => do
      let ts ← expect "fi" ts
      .ok (.choice (.sequence condition) (.sequence thenBody) (.sequence []), ts)

/-- Reads the branches of a selection up to its end. -/
def readBranches : Nat → List Lexeme →
    Except ScriptError (List (List Word × Command) × List Lexeme)
  | 0, ts => .error (.unexpected (firstText ts))
  | fuel + 1, ts =>
    let ts := skipLines ts
    if endOf? ts = some "esac" then .ok ([], ts.drop 1)
    else do
      let ts := match ts with
        | .op "(" :: ts => ts
        | ts => ts
      let (patterns, ts) := patternsOf ts
      let (body, ts) ← readList fuel (← expect ")" ts)
      match ts with
      | .op ";;" :: ts => do
        let (branches, ts) ← readBranches fuel ts
        .ok ((patterns, .sequence body) :: branches, ts)
      | ts => do
        let ts ← expect "esac" ts
        .ok ([(patterns, .sequence body)], ts)

def readCommand : Nat → List Lexeme → Except ScriptError (Command × List Lexeme)
  | 0, ts => .error (.unexpected (firstText ts))
  | fuel + 1, ts =>
    let compound (c : Command) (ts : List Lexeme) : Except ScriptError (Command × List Lexeme) :=
      match redirects ts with
      | ([], ts) => .ok (c, ts)
      | (rs, ts) => .ok (.group false c rs, ts)
    match ts with
    | .op "(" :: ts => do
      let (cs, ts) ← readList fuel ts
      let ts ← expect ")" ts
      let (rs, ts) := redirects ts
      .ok (.group true (.sequence cs) rs, ts)
    | .word line w :: rest =>
      match bare? w with
      | some "\x7b" => do
        let (cs, ts) ← readList fuel rest
        compound (.sequence cs) (← expect "\x7d" ts)
      | some "if" => do
        let (c, ts) ← readChoice fuel rest
        compound c ts
      | some "while" => do
        let (condition, ts) ← readList fuel rest
        let (body, ts) ← readList fuel (← expect "do" ts)
        compound (.loop true (.sequence condition) (.sequence body)) (← expect "done" ts)
      | some "until" => do
        let (condition, ts) ← readList fuel rest
        let (body, ts) ← readList fuel (← expect "do" ts)
        compound (.loop false (.sequence condition) (.sequence body)) (← expect "done" ts)
      | some "case" =>
        match rest with
        | .word _ subject :: rest => do
          let (branches, ts) ← readBranches fuel (← expect "in" (skipLines rest))
          compound (.select subject branches) ts
        | ts => .error (.unexpected (firstText ts))
      | some "for" =>
        match rest with
        | .word _ v :: rest => do
          let name := (bare? v).getD ""
          let (ws, ts) := match skipLines rest with
            | .word l w :: ts =>
              if bare? w = some "in" then
                let (ws, ts) := wordsToEnd ts
                (some ws, ts)
              else (none, .word l w :: ts)
            | ts => (none, ts)
          let (body, ts) ← readList fuel (← expect "do" (skipEnds ts))
          compound (.forEach name ws (.sequence body)) (← expect "done" ts)
        | ts => .error (.unexpected (firstText ts))
      | _ =>
        if (endOf? ts).isSome then .error (.unexpected (firstText ts))
        else
          match bare? w, rest with
          | some name, .op "(" :: .op ")" :: rest => do
            let (body, ts) ← readCommand fuel (skipLines rest)
            .ok (.define name body, ts)
          | _, _ => do
            let (s, ts) ← simple {} ts
            .ok (.simple line s.assignments s.words s.redirects, ts)
    | .redirect _ _ :: _ => do
      let (s, ts) ← simple {} ts
      .ok (.simple 1 s.assignments s.words s.redirects, ts)
    | .here _ _ :: _ => do
      let (s, ts) ← simple {} ts
      .ok (.simple 1 s.assignments s.words s.redirects, ts)
    | ts => .error (.unexpected (firstText ts))

end

def readScript (cs : List Char) : Except ScriptError Command := do
  let ts ← tokens (2 * cs.length + 2) 1 cs
  let (commands, rest) ← readList (8 * ts.length + 8) ts
  if rest.isEmpty then .ok (.sequence commands) else .error (.unexpected (firstText rest))

end JitLens.Shell
