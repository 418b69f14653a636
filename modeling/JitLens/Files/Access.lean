import JitLens.Files.Error
import JitLens.Files.Path
import JitLens.Files.Tree
/-!
# Access to files by path

Operations on a tree that name their files by paths, relative ones as seen from a working
directory.  A path is followed name by name: each name on the way has to be a directory that is
there, and a double dot goes back to the directory before it.
-/

namespace JitLens.Files.Tree

open Text (Bytes)

/-- Follows names from a location; the last name need not be there. -/
def walk (t : Tree) : Location → List String → Except Errno Location
  | l, [] => .ok l
  | l, n :: ns =>
    match t.look l with
    | none => .error .noEntry
    | some (.file _ _) => .error .notDirectory
    | some .dir => t.walk (if n = ".." then l.dropLast else l ++ [n]) ns

/-- The location that a path leads to from a working directory. -/
def locate (t : Tree) (here : Location) (p : Path) : Except Errno Location :=
  if p.parts.any holdsNull then .error .nullCharacter
  else t.walk (if p.isAbsolute then [] else here) p.parts

/-- What stands at a path, if it leads anywhere. -/
def lookAt (t : Tree) (here : Location) (p : Path) : Option Item :=
  match t.locate here p with
  | .ok l => t.look l
  | .error _ => none

/-- Whether a path leads to a file or a directory. -/
def holds (t : Tree) (here : Location) (p : Path) : Bool :=
  (t.lookAt here p).isSome

/-- Whether a path leads to a directory. -/
def isDir (t : Tree) (here : Location) (p : Path) : Bool :=
  t.lookAt here p == some .dir

/-- The content of the file that a path leads to. -/
def content? (t : Tree) (here : Location) (p : Path) : Option Bytes :=
  match t.lookAt here p with
  | some (.file content _) => some content
  | _ => none

/-- Whether a path leads to a file. -/
def isFile (t : Tree) (here : Location) (p : Path) : Bool :=
  (t.content? here p).isSome

def isEmptyFile (t : Tree) (here : Location) (p : Path) : Bool :=
  t.content? here p == some []

/-- The names in the directory that a path leads to. -/
def namesAt (t : Tree) (here : Location) (p : Path) : List String :=
  match t.locate here p with
  | .ok l => t.names l
  | .error _ => []

/-- The number of entries in the directory that a path leads to. -/
def sizeAt (t : Tree) (here : Location) (p : Path) : Nat :=
  match t.locate here p with
  | .ok l => t.size l
  | .error _ => 0

/-- The first number from `n` on whose path leads to nothing, or the one behind `tries` numbers
whose paths lead somewhere. -/
def firstFree (t : Tree) (here : Location) (path : Nat → Path) : (tries : Nat) → (n : Nat) → Nat
  | 0, n => n
  | tries + 1, n =>
    if t.holds here (path n) then t.firstFree here path tries (n + 1) else n

def read (t : Tree) (here : Location) (p : Path) : Except FileError Bytes :=
  match t.locate here p with
  | .error e => .error ⟨e, p.text, none⟩
  | .ok l =>
    match t.look l with
    | none => .error ⟨.noEntry, p.text, none⟩
    | some .dir => .error ⟨.isDirectory, p.text, none⟩
    | some (.file content _) => .ok content

/-- Opens a directory to go through it. -/
def openDir (t : Tree) (here : Location) (p : Path) : Except FileError Unit :=
  match t.locate here p with
  | .error e => .error ⟨e, p.text, none⟩
  | .ok l =>
    match t.look l with
    | none => .error ⟨.noEntry, p.text, none⟩
    | some (.file _ _) => .error ⟨.notDirectory, p.text, none⟩
    | some .dir => .ok ()

/-- Writes a file; one that is there keeps its permission. -/
def write (t : Tree) (here : Location) (p : Path) (content : Bytes) : Except FileError Tree :=
  match t.locate here p with
  | .error e => .error ⟨e, p.text, none⟩
  | .ok l =>
    match t.look l with
    | none => .ok (t.putFile l content false)
    | some .dir => .error ⟨.isDirectory, p.text, none⟩
    | some (.file _ executable) => .ok (t.putFile l content executable)

/-- Makes a file where nothing stands. -/
def create (t : Tree) (here : Location) (p : Path) (content : Bytes) : Except FileError Tree :=
  match t.locate here p with
  | .error e => .error ⟨e, p.text, none⟩
  | .ok l =>
    match t.look l with
    | none => .ok (t.putFile l content false)
    | some _ => .error ⟨.alreadyExists, p.text, none⟩

/-- Makes a directory where nothing stands. -/
def makeDir (t : Tree) (here : Location) (p : Path) : Except FileError Tree :=
  match t.locate here p with
  | .error e => .error ⟨e, p.text, none⟩
  | .ok l =>
    match t.look l with
    | none => .ok (t.putDir l)
    | some _ => .error ⟨.alreadyExists, p.text, none⟩

/-- Makes a directory and the directories on the way to it, its names given last one first;
directories that are there are left alone. -/
def makeDirsFrom (here : Location) (anchor : Anchor) : List String → Tree → Except FileError Tree
  | [], t => .ok t
  | n :: ns, t =>
    let p : Path := ⟨anchor, (n :: ns).reverse⟩
    match t.makeDir here p with
    | .ok t => .ok t
    | .error e =>
      if e.errno = .noEntry then
        match makeDirsFrom here anchor ns t with
        | .error e => .error e
        | .ok t =>
          match t.makeDir here p with
          | .ok t => .ok t
          | .error e => if t.isDir here p then .ok t else .error e
      else if t.isDir here p then .ok t
      else .error e

/-- Makes a directory and the directories on the way to it. -/
def makeDirs (t : Tree) (here : Location) (p : Path) : Except FileError Tree :=
  makeDirsFrom here p.anchor p.parts.reverse t

/-- What is there once `makeDirsFrom` has failed: the directories on the way that were made before
stay. -/
def partDirsFrom (here : Location) (anchor : Anchor) : List String → Tree → Tree
  | [], t => t
  | n :: ns, t =>
    match t.makeDir here ⟨anchor, (n :: ns).reverse⟩ with
    | .ok t => t
    | .error e =>
      if e.errno = .noEntry then
        match makeDirsFrom here anchor ns t with
        | .ok t => t
        | .error _ => partDirsFrom here anchor ns t
      else t

/-- What is there once `makeDirs` has failed. -/
def partDirs (t : Tree) (here : Location) (p : Path) : Tree :=
  partDirsFrom here p.anchor p.parts.reverse t

/-- Removes a file, if it is there. -/
def removeFile (t : Tree) (here : Location) (p : Path) : Tree :=
  match t.locate here p with
  | .ok l => if t.isFile here p then t.remove l else t
  | .error _ => t

/-- Removes the file that a path leads to; it may be missing already. -/
def discard (t : Tree) (here : Location) (p : Path) : Except FileError Tree :=
  match t.locate here p with
  | .error .noEntry => .ok t
  | .error e => .error ⟨e, p.text, none⟩
  | .ok l =>
    match t.look l with
    | none => .ok t
    | some .dir => .error ⟨.isDirectory, p.text, none⟩
    | some (.file _ _) => .ok (t.remove l)

/-- Moves a file onto a path, in place of the file that is there. -/
def move (t : Tree) (here : Location) (source target : Path) : Except FileError Tree :=
  let refuse (e : Errno) : Except FileError Tree := .error ⟨e, source.text, some target.text⟩
  if target.name = "" ∨ target.name = ".." then refuse .busy
  else
    match t.locate here source, t.locate here target with
    | .error e, _ => refuse e
    | _, .error e => refuse e
    | .ok origin, .ok goal =>
      match t.look origin, t.look goal with
      | some (.file _ _), some .dir => refuse .isDirectory
      | some (.file content executable), _ =>
        .ok ((t.remove origin).putFile goal content executable)
      | _, _ => refuse .noEntry

end JitLens.Files.Tree
