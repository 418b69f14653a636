import JitLens.Files.Access
import JitLens.Text.Search
/-!
# Name patterns

Patterns for names, with `*` for any run of characters, `?` for one character and brackets for
one of several, and patterns for paths, one for each component.  A component of two stars stands
for any directories on the way.
-/

namespace JitLens.Files

/-- A piece of a name pattern. -/
inductive Piece where
  | run
  | one
  | oneOf (negated : Bool) (ranges : List (Char × Char))
  | char (c : Char)
  deriving DecidableEq, Repr

/-- Whether a piece stands for a character. -/
def Piece.accepts : Piece → Char → Bool
  | .run, _ => true
  | .one, _ => true
  | .oneOf negated ranges, c => negated != ranges.any fun (low, high) => low ≤ c && c ≤ high
  | .char d, c => c == d

/-- The endings of a text, the text itself and the empty one among them. -/
def endings {α : Type} : List α → List (List α)
  | [] => [[]]
  | c :: cs => (c :: cs) :: endings cs

/-- Whether a whole name fits the pieces. -/
def fits : List Piece → List Char → Bool
  | [], cs => cs.isEmpty
  | .run :: ps, cs => (endings cs).any (fits ps)
  | _ :: _, [] => false
  | p :: ps, c :: cs => p.accepts c && fits ps cs

/-- The ranges between brackets; a hyphen between two characters makes a range of them, and a
range that runs backwards holds nothing. -/
def rangesOf : List Char → List (Char × Char)
  | [] => []
  | low :: '-' :: high :: cs =>
    if low ≤ high then (low, high) :: rangesOf cs else rangesOf cs
  | c :: cs => (c, c) :: rangesOf cs

/-- What stands between brackets and behind them; a closing bracket right at the start belongs
to the inside. -/
def bracket? (cs : List Char) : Option (List Char × List Char) :=
  let (mark, cs) := match cs with
    | '!' :: cs => (['!'], cs)
    | cs => ([], cs)
  let (first, cs) := match cs with
    | ']' :: cs => ([']'], cs)
    | cs => ([], cs)
  (Text.cutAt [']'] cs).map fun (inside, behind) => (mark ++ first ++ inside, behind)

/-- The piece for what stands between brackets. -/
def bracketPiece : List Char → Piece
  | '!' :: cs => .oneOf true (rangesOf cs)
  | cs => .oneOf false (rangesOf cs)

/-- The pieces of a name pattern; `skip` characters belong to a bracket that is already read. -/
def piecesFrom : Nat → List Char → List Piece
  | _, [] => []
  | skip + 1, _ :: cs => piecesFrom skip cs
  | 0, '*' :: cs => .run :: piecesFrom 0 cs
  | 0, '?' :: cs => .one :: piecesFrom 0 cs
  | 0, '[' :: cs =>
    match bracket? cs with
    | some (inside, _) => bracketPiece inside :: piecesFrom (inside.length + 1) cs
    | none => .char '[' :: piecesFrom 0 cs
  | 0, c :: cs => .char c :: piecesFrom 0 cs

/-- The pieces of a name pattern. -/
def pieces (cs : List Char) : List Piece :=
  piecesFrom 0 cs

/-- A component of a path pattern. -/
inductive PatternPart where
  | anyDirs
  | wild (pieces : List Piece)
  | exactly (name : String)
  /-- The end of a pattern that only directories fit. -/
  | onlyDir
  deriving DecidableEq, Repr

/-- A pattern with two stars inside a longer component. -/
structure PatternError where
  deriving DecidableEq, Repr

/-- The error in words. -/
def PatternError.message (_ : PatternError) : String :=
  "Invalid pattern: '**' can only be an entire path component"

/-- Reads one component of a path pattern. -/
def partOf (s : String) : Except PatternError PatternPart :=
  let cs := s.toList
  if s = "**" then .ok .anyDirs
  else if Text.contains ['*', '*'] cs then .error ⟨⟩
  else if cs.any fun c => c == '*' || c == '?' || c == '[' then .ok (.wild (pieces cs))
  else .ok (.exactly s)

/-- Reads a relative path pattern. -/
def patternOf (s : String) : Except PatternError (List PatternPart) := do
  let parts ← (Path.ofString s).parts.mapM partOf
  .ok (if s.toList.getLast? = some '/' then parts ++ [.onlyDir] else parts)

namespace Tree

/-- The directories below a directory, itself first, as paths. -/
def dirsBelow (t : Tree) (here : Location) (p : Path) : List Path :=
  match t.locate here p with
  | .error _ => []
  | .ok l =>
    match t.entry? l with
    | some e =>
      let below := (e.listing []).filterMap fun (loc, item) =>
        if item == .dir then some loc else none
      p :: below.map fun loc => ⟨p.anchor, p.parts ++ loc⟩
    | none => []

/-- The paths below a directory that fit a pattern. -/
def select (t : Tree) (here : Location) : List PatternPart → Path → List Path
  | [], p => [p]
  | .onlyDir :: _, p => [p]
  | part :: rest, p =>
    let wanted (q : Path) : Bool := if rest.isEmpty then t.holds here q else t.isDir here q
    match part with
    | .anyDirs => ((t.dirsBelow here p).flatMap (t.select here rest)).eraseDups
    | .exactly name =>
      let q : Path := ⟨p.anchor, p.parts ++ [name]⟩
      if wanted q then t.select here rest q else []
    | .wild ps =>
      let found := (t.namesAt here p).filter fun n => fits ps n.toList
      let paths := found.map fun n => (⟨p.anchor, p.parts ++ [n]⟩ : Path)
      (paths.filter wanted).flatMap (t.select here rest)
    | .onlyDir => [p]

end Tree
end JitLens.Files
