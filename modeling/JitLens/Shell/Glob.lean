import JitLens.Files.Pattern
/-!
# Patterns of a script

A word of a script that was not quoted may be a pattern for names.  Quoted characters stand for
themselves in it.  A pattern that no file fits stands for itself.

Only the command line and test runs use this module; see `JitLens.Shell.Tools`.
-/

namespace JitLens.Shell

open Files

/-- A character of a word, and whether it was quoted. -/
structure Glyph where
  quoted : Bool
  char : Char
  deriving DecidableEq, Repr

/-- The text of a word. -/
def glyphText (gs : List Glyph) : List Char :=
  gs.map Glyph.char

/-- Whether a character makes a pattern of its word. -/
def Glyph.isWild (g : Glyph) : Bool :=
  !g.quoted && (g.char == '*' || g.char == '?' || g.char == '[')

/-- The pieces of a pattern: runs of characters that were not quoted are read as patterns. -/
def piecesOfRun : List Glyph → List Char → List Files.Piece
  | [], run => pieces run
  | ⟨true, c⟩ :: gs, run => pieces run ++ .char c :: piecesOfRun gs []
  | ⟨false, c⟩ :: gs, run => piecesOfRun gs (run ++ [c])

/-- The pieces of a pattern. -/
def piecesOfGlyphs (gs : List Glyph) : List Files.Piece :=
  piecesOfRun gs []

/-- The lengths of the parts of a text, in the order in which they are tried. -/
def lengths (longest : Bool) (n : Nat) : List Nat :=
  let all := List.range (n + 1)
  if longest then all.reverse else all

/-- A text without the part at its front, or at its end, that fits a pattern. -/
def cutFitting (fromFront longest : Bool) (ps : List Files.Piece) (cs : List Char) : List Char :=
  let part (n : Nat) : List Char :=
    if fromFront then cs.take n else cs.drop (cs.length - n)
  match (lengths longest cs.length).find? fun n => fits ps (part n) with
  | some n => if fromFront then cs.drop n else cs.take (cs.length - n)
  | none => cs

/-- The components of a word that is a path. -/
def components : List Glyph → List (List Glyph)
  | [] => [[]]
  | g :: gs =>
    if g.char = '/' then [] :: components gs
    else
      match components gs with
      | [] => [[g]]
      | c :: cs => (g :: c) :: cs

/-- The names in a directory that fit a component; hidden ones have to be asked for. -/
def fittingNames (t : Tree) (here : Location) (folder : String) (component : List Glyph) :
    List String :=
  let hidden := (component.head?.map Glyph.char) == some '.'
  (t.namesAt here (Path.ofString folder)).filter fun n =>
    (hidden || n.toList.head? != some '.') && fits (piecesOfGlyphs component) n.toList

/-- The paths that fit components, behind the text of a path. -/
def expandFrom (t : Tree) (here : Location) : String → List (List Glyph) → List String
  | done, [] => [done]
  | done, [c] =>
    if c.any Glyph.isWild then (fittingNames t here done c).map (done ++ ·)
    else
      let path := done ++ String.ofList (glyphText c)
      if t.holds here (Path.ofString path) then [path] else []
  | done, c :: cs =>
    if c.any Glyph.isWild then
      ((fittingNames t here done c).map fun n => done ++ n ++ "/").flatMap fun path =>
        expandFrom t here path cs
    else expandFrom t here (done ++ String.ofList (glyphText c) ++ "/") cs

/-- A word with a tilde at its start replaced by the home directory. -/
def withHome (home : Option String) (gs : List Glyph) : List Glyph :=
  match home, gs with
  | some h, ⟨false, '~'⟩ :: rest =>
    if rest.isEmpty || (rest.head?.map Glyph.char) == some '/' then
      h.toList.map (Glyph.mk true) ++ rest
    else gs
  | _, _ => gs

/-- The words that a word stands for: the files that fit it if it is a pattern, or itself. -/
def expandGlyphs (t : Tree) (here : Location) (home : Option String) (gs : List Glyph) :
    List String :=
  let gs := withHome home gs
  let text := String.ofList (glyphText gs)
  if gs.any Glyph.isWild then
    match expandFrom t here "" (components gs) with
    | [] => [text]
    | paths => paths
  else [text]

end JitLens.Shell
