import JitLens.Files.Access
/-!
# Copying files and directories

A file is copied with its content, or, as part of a directory, with its permission too.  A
directory is laid over another one: its files take the place of files of the same name, its
directories are gone into, and all else of the other directory stays.  What cannot be copied is
passed over and reported at the end.
-/

namespace JitLens.Files

/-- A file or a directory that could not be copied. -/
structure CopyError where
  source : String
  target : String
  cause : FileError
  deriving DecidableEq, Repr

/-- The error in words. -/
def CopyError.text (e : CopyError) : String :=
  "(" ++ Text.quoted e.source ++ ", " ++ Text.quoted e.target ++ ", " ++
    Text.quoted e.cause.message ++ ")"

namespace Entry

/-- Puts a file under a name among children; a directory of that name takes it inside. -/
def layFile (source target : String) (file : Entry) (name : String)
    (children : List (String × Entry)) : List CopyError × List (String × Entry) :=
  match child? children name with
  | some (.dir inner) =>
    match child? inner name with
    | some (.dir _) => ([⟨source, target, ⟨.isDirectory, target ++ "/" ++ name, none⟩⟩], children)
    | _ => ([], putChild children name (.dir (putChild inner name file)))
  | _ => ([], putChild children name file)

mutual

/-- Lays one entry over the entry of its name among children. -/
def layOver (source target : String) (entry : Entry) (name : String)
    (children : List (String × Entry)) : List CopyError × List (String × Entry) :=
  match entry with
  | .file content executable => layFile source target (.file content executable) name children
  | .dir inner =>
    match child? children name with
    | some (.file _ _) => ([⟨source, target, ⟨.alreadyExists, target, none⟩⟩], children)
    | some (.dir below) =>
      let (errors, result) := layAll source target [] inner below
      (errors, putChild children name (.dir result))
    | none =>
      let (errors, result) := layAll source target [] inner []
      (errors, putChild children name (.dir result))

/-- Lays the entries of a directory over the children of another one, but for those whose names were
seen before. -/
def layAll (source target : String) (seen : List String) (entries : List (String × Entry))
    (children : List (String × Entry)) : List CopyError × List (String × Entry) :=
  match entries with
  | [] => ([], children)
  | (name, entry) :: rest =>
    if name ∈ seen then layAll source target seen rest children
    else
      let (errors, result) :=
        layOver (source ++ "/" ++ name) (target ++ "/" ++ name) entry name children
      let (more, result) := layAll source target (name :: seen) rest result
      (errors ++ more, result)

end

end Entry

namespace Tree

/-- Lays a directory over another one that is there. -/
def overlay (t : Tree) (here : Location) (source target : Path) : List CopyError × Tree :=
  match t.locate here source, t.locate here target with
  | .ok origin, .ok goal =>
    match t.entry? origin, t.entry? goal with
    | some (.dir entries), some (.dir children) =>
      let (errors, result) := Entry.layAll source.text target.text [] entries children
      (errors, if goal = [] then ⟨result⟩ else t.put goal (.dir result))
    | _, _ => ([], t)
  | _, _ => ([], t)

/-- Why a file was not copied. -/
inductive CopyRefusal where
  | file (e : FileError)
  | same (source target : Path)
  deriving DecidableEq, Repr

/-- Copies the content of a file. -/
def copyFile (t : Tree) (here : Location) (source target : Path) : Except CopyRefusal Tree :=
  match t.read here source with
  | .error e => .error (.file e)
  | .ok content =>
    match t.locate here source, t.locate here target with
    | .ok origin, .ok goal =>
      if origin = goal then .error (.same source target)
      else (t.write here target content).mapError .file
    | _, _ => (t.write here target content).mapError .file

end Tree
end JitLens.Files
