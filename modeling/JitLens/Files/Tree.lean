import JitLens.Table
import JitLens.Text.Utf8
/-!
# File trees

A tree of directories and files, and its entries by location.  A location is the list of names
on the way from the root.  `look` is the view of a tree that its operations are described by:
what stands at a location.
-/

namespace JitLens.Files

open Text (Bytes)

/-- A file or a directory. -/
inductive Entry where
  | file (content : Bytes) (executable : Bool)
  | dir (children : List (String × Entry))
  deriving Repr, Inhabited

/-- The names on the way from the root. -/
abbrev Location := List String

/-- What stands at a location, without what stands below it. -/
inductive Item where
  | file (content : Bytes) (executable : Bool)
  | dir
  deriving DecidableEq, Repr

namespace Entry

/-- The entry without what stands below it. -/
def item : Entry → Item
  | .file content executable => .file content executable
  | .dir _ => .dir

/-- The entry of a name among the children of a directory. -/
def child? (children : List (String × Entry)) (name : String) : Option Entry :=
  Table.get? children name

def putChild (children : List (String × Entry)) (name : String) (entry : Entry) :
    List (String × Entry) :=
  Table.put children name entry

/-- The children without a name. -/
def dropChild (children : List (String × Entry)) (name : String) : List (String × Entry) :=
  children.filter fun (n, _) => n != name

def get? : Entry → Location → Option Entry
  | e, [] => some e
  | .file _ _, _ :: _ => none
  | .dir children, n :: ns =>
    match child? children n with
    | some e => e.get? ns
    | none => none

/-- The entry with another one at a location; nothing changes if the location has no parent. -/
def put (new : Entry) : Entry → Location → Entry
  | _, [] => new
  | .file content executable, _ :: _ => .file content executable
  | .dir children, [n] => .dir (putChild children n new)
  | .dir children, n :: m :: ns =>
    match child? children n with
    | some e => .dir (putChild children n (put new e (m :: ns)))
    | none => .dir children

/-- The entry without what stands at a location. -/
def remove : Entry → Location → Entry
  | e, [] => e
  | .file content executable, _ :: _ => .file content executable
  | .dir children, [n] => .dir (dropChild children n)
  | .dir children, n :: m :: ns =>
    match child? children n with
    | some e => .dir (putChild children n (remove e (m :: ns)))
    | none => .dir children

mutual

/-- Every location below an entry that stands at `base`, with what stands there. -/
def listing (base : Location) : Entry → List (Location × Item)
  | .file _ _ => []
  | .dir children => listingAll base children

/-- The locations of children and of everything below them. -/
def listingAll (base : Location) : List (String × Entry) → List (Location × Item)
  | [] => []
  | (n, e) :: rest => (base ++ [n], e.item) :: listing (base ++ [n]) e ++ listingAll base rest

end

end Entry

/-- A tree: the children of its root. -/
structure Tree where
  children : List (String × Entry)
  deriving Repr, Inhabited

namespace Tree

/-- The tree with nothing below its root. -/
def empty : Tree := ⟨[]⟩

def root (t : Tree) : Entry := .dir t.children

/-- A tree with the given root; a file is no root. -/
def ofRoot : Entry → Tree
  | .dir children => ⟨children⟩
  | .file _ _ => empty

def entry? (t : Tree) (l : Location) : Option Entry :=
  t.root.get? l

/-- What stands at a location. -/
def look (t : Tree) (l : Location) : Option Item :=
  (t.entry? l).map Entry.item

/-- The tree with an entry at a location below the root. -/
def put (t : Tree) (l : Location) (e : Entry) : Tree :=
  if l = [] then t else ofRoot (Entry.put e t.root l)

def putFile (t : Tree) (l : Location) (content : Bytes) (executable : Bool) : Tree :=
  t.put l (.file content executable)

/-- The tree with an empty directory at a location. -/
def putDir (t : Tree) (l : Location) : Tree :=
  t.put l (.dir [])

/-- The tree without what stands at a location below the root. -/
def remove (t : Tree) (l : Location) : Tree :=
  ofRoot (t.root.remove l)

/-- The number of entries in a directory. -/
def size (t : Tree) (l : Location) : Nat :=
  match t.entry? l with
  | some (.dir children) => children.length
  | _ => 0

/-- The names in a directory, in order and each once. -/
def names (t : Tree) (l : Location) : List String :=
  match t.entry? l with
  | some (.dir children) =>
    let sorted := (children.map Prod.fst).mergeSort (fun a b => decide (a ≤ b))
    sorted.eraseDups
  | _ => []

end Tree

namespace Entry

@[simp] theorem child?_putChild (children : List (String × Entry)) (n : String) (e : Entry)
    (m : String) :
    child? (putChild children n e) m = if n = m then some e else child? children m :=
  Table.get?_put children n e m

theorem child?_dropChild (children : List (String × Entry)) (n m : String) :
    child? (dropChild children n) m = if n = m then none else child? children m := by
  induction children with
  | nil => simp [dropChild, child?]
  | cons c rest ih =>
    obtain ⟨k, e⟩ := c
    simp only [dropChild, child?] at ih ⊢
    by_cases hk : k = n
    · subst hk
      by_cases hm : k = m <;> simp_all [Table.get?]
    · have : (k != n) = true := by simpa using hk
      simp only [List.filter_cons, this, if_true, Table.get?]
      by_cases hm : k = m
      · subst hm
        simp [Ne.symm hk]
      · simp [hm, ih]

@[simp] theorem get?_nil (e : Entry) : e.get? [] = some e := by
  cases e <;> rfl

end Entry
end JitLens.Files
