import JitLens.Yaml.FlowScalar
/-!
# Block scalars

Reads the scalars that are set off by their indentation, literal ones that keep their line breaks
and folded ones that join lines with spaces.  The header tells the indentation, if it is not that
of the first line, and what happens to the line breaks at the end.
-/

namespace JitLens.Yaml

/-- What happens to the line breaks at the end of a block scalar. -/
inductive Chomping where
  | strip
  | clip
  | keep
  deriving DecidableEq, Repr

/-- The header of a block scalar. -/
structure BlockHeader where
  chomping : Chomping
  indent : Option Nat
  deriving DecidableEq, Repr

/-- The chomping that a character asks for. -/
def chomping? : Char → Option Chomping
  | '+' => some .keep
  | '-' => some .strip
  | _ => none

/-- The indentation that a digit asks for; zero is none. -/
def indentation? (c : Char) : Option Nat :=
  if '1' ≤ c && c ≤ '9' then some (c.toNat - 0x30) else none

/-- The two indicators of a header, in either order, and what follows them. -/
def blockIndicators (cs : List Char) : BlockHeader × List Char :=
  match cs with
  | [] => (⟨.clip, none⟩, [])
  | c :: rest =>
    match chomping? c with
    | some chomping =>
      match rest with
      | d :: after =>
        match indentation? d with
        | some n => (⟨chomping, some n⟩, after)
        | none => (⟨chomping, none⟩, rest)
      | [] => (⟨chomping, none⟩, [])
    | none =>
      match indentation? c with
      | some n =>
        match rest with
        | d :: after =>
          match chomping? d with
          | some chomping => (⟨chomping, some n⟩, after)
          | none => (⟨.clip, some n⟩, rest)
        | [] => (⟨.clip, some n⟩, [])
      | none => (⟨.clip, none⟩, c :: rest)

/-- What is left of a line that may only hold spaces and a comment; the rest starts with the
line break or is empty. -/
def restOfLine? (cs : List Char) : Option (List Char) :=
  match cs.dropWhile (· = ' ') with
  | [] => some []
  | c :: rest =>
    if c = '#' then some (rest.dropWhile fun d => !isBreak d)
    else if isBreak c then some (c :: rest)
    else none

/-- The text without a line break at its front. -/
def dropBreak : List Char → List Char
  | [] => []
  | c :: cs => if isBreak c then cs else c :: cs

/-- The header of a block scalar and what follows its line. -/
def blockHeader (cs : List Char) : Except ReadError (BlockHeader × List Char) :=
  let (header, rest) := blockIndicators cs
  if !endsField rest then refuse .blockHeader
  else
    match restOfLine? rest with
    | some rest => .ok (header, dropBreak rest)
    | none => refuse .blockHeader

/-- White space before a line of a block: the breaks of the empty lines, the greatest and the
last column that was reached, and the rest. -/
structure Margin where
  breaks : List Char
  greatest : Nat
  column : Nat
  rest : List Char
  deriving DecidableEq, Repr

/-- The white space before the first line, whatever its indentation. -/
def firstMargin (column : Nat) : List Char → Margin
  | [] => ⟨[], 0, column, []⟩
  | c :: cs =>
    if c = ' ' then
      let m := firstMargin (column + 1) cs
      { m with greatest := max (column + 1) m.greatest }
    else if isBreak c then
      let m := firstMargin 0 cs
      { m with breaks := c :: m.breaks }
    else ⟨[], 0, column, c :: cs⟩

/-- The white space before a line, with no more spaces than the indentation. -/
def nextMargin (indent column : Nat) : List Char → Margin
  | [] => ⟨[], 0, column, []⟩
  | c :: cs =>
    if c = ' ' ∧ column < indent then nextMargin indent (column + 1) cs
    else if isBreak c then
      let m := nextMargin indent 0 cs
      { m with breaks := c :: m.breaks }
    else ⟨[], 0, column, c :: cs⟩

/-- Whether a line starts with more than its indentation. -/
def startsBlank : List Char → Bool
  | c :: _ => isBlank c
  | [] => false

/-- What stands between two lines of a block: the break of the first one and the breaks of the
empty lines. -/
def betweenLines (folded : Bool) (line : List Char) (ending : List Char) (m : Margin) :
    List Char :=
  if folded && ending == ['\n'] && !startsBlank line && !startsBlank m.rest then
    (if m.breaks.isEmpty then [' '] else []) ++ m.breaks
  else ending ++ m.breaks

/-- The breaks at the end of a block. -/
def chomped (chomping : Chomping) (ending : List Char) (m : Margin) : List Char :=
  match chomping with
  | .strip => []
  | .clip => ending
  | .keep => ending ++ m.breaks

/-- Reads the lines of a block behind a margin. -/
def blockLines (folded : Bool) (chomping : Chomping) (indent : Nat) :
    Nat → Margin → List Char × List Char
  | 0, m => ([], m.rest)
  | fuel + 1, m =>
    let line := m.rest.takeWhile fun c => !isBreak c
    let after := m.rest.drop line.length
    let ending := after.take 1
    let next := nextMargin indent 0 (after.drop 1)
    if next.column = indent ∧ next.rest ≠ [] then
      let (text, rest) := blockLines folded chomping indent fuel next
      (line ++ betweenLines folded line ending next ++ text, rest)
    else (line ++ chomped chomping ending next, next.rest)

/-- Reads a block scalar behind its indicator; `outer` is the least indentation of its lines. -/
def blockScalar (folded : Bool) (outer : Nat) (cs : List Char) :
    Except ReadError (List Char × List Char) := do
  let (header, rest) ← blockHeader cs
  let least := max outer 1
  let (indent, margin) := match header.indent with
    | some n => (least + n - 1, nextMargin (least + n - 1) 0 rest)
    | none =>
      let m := firstMargin 0 rest
      (max least m.greatest, m)
  if margin.column = indent ∧ margin.rest ≠ [] then
    let (text, after) := blockLines folded header.chomping indent (rest.length + 1) margin
    .ok (margin.breaks ++ text, after)
  else
    .ok (if header.chomping = .keep then margin.breaks else [], margin.rest)

end JitLens.Yaml
