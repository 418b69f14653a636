import JitLens.Text.Lines
/-!
# Paths

A path is an anchor and a list of components.  Reading a path drops empty components and single
dots and keeps double dots; of two leading slashes both are kept, of three or more one.
-/

namespace JitLens.Files

/-- Where a path starts. -/
inductive Anchor where
  | relative
  | root
  | doubleRoot
  deriving DecidableEq, Repr

def Anchor.text : Anchor → String
  | .relative => ""
  | .root => "/"
  | .doubleRoot => "//"

/-- Whether a name holds a null character, which no file has in its name. -/
def holdsNull (name : String) : Bool :=
  name.toList.contains '\x00'

/-- A path without empty components and single dots. -/
structure Path where
  anchor : Anchor
  parts : List String
  deriving DecidableEq, Repr

namespace Path

/-- The anchor that a text starts with. -/
def anchorOf : List Char → Anchor
  | '/' :: '/' :: '/' :: _ => .root
  | '/' :: '/' :: _ => .doubleRoot
  | '/' :: _ => .root
  | _ => .relative

/-- The components of a text that count. -/
def partsOf (cs : List Char) : List String :=
  ((Text.splitOn '/' cs).map String.ofList).filter fun p => p != "" && p != "."

/-- Reads a path. -/
def ofString (s : String) : Path :=
  ⟨anchorOf s.toList, partsOf s.toList⟩

def text (p : Path) : String :=
  match p.anchor, p.parts with
  | .relative, [] => "."
  | anchor, parts => anchor.text ++ String.intercalate "/" parts

/-- Whether the path does not depend on a working directory. -/
def isAbsolute (p : Path) : Bool :=
  p.anchor != .relative

/-- The second path as seen from the first. -/
def join (p q : Path) : Path :=
  if q.isAbsolute then q else ⟨p.anchor, p.parts ++ q.parts⟩

/-- A text read as a path and seen from another path. -/
def child (p : Path) (s : String) : Path :=
  p.join (ofString s)

/-- The path of a name in the directory at a path. -/
def entry (p : Path) (n : String) : Path :=
  ⟨p.anchor, p.parts ++ [n]⟩

/-- The path without its last component. -/
def parent (p : Path) : Path :=
  ⟨p.anchor, p.parts.dropLast⟩

/-- The last component. -/
def name (p : Path) : String :=
  p.parts.getLast?.getD ""

/-- A name without its last extension; a dot at either end of the name starts none. -/
def stemOf (name : List Char) : List Char :=
  let extension := name.reverse.takeWhile (· ≠ '.')
  let before := name.take (name.length - extension.length - 1)
  if extension.isEmpty || before.isEmpty then name else before

/-- The last component without its extension. -/
def stem (p : Path) : String :=
  String.ofList (stemOf p.name.toList)

/-- The components with each double dot taking back the one before it. -/
def fold (parts : List String) : List String :=
  (parts.foldl (fun done p => if p = ".." then done.drop 1 else p :: done) []).reverse

theorem isAbsolute_join (p q : Path) :
    (p.join q).isAbsolute = (p.isAbsolute || q.isAbsolute) := by
  cases h : q.isAbsolute with
  | true => simp [join, h]
  | false =>
    simp only [join, h, Bool.or_false]
    rfl

end Path
end JitLens.Files
