import JitLens.CommandLine.Options
import JitLens.Framework
/-!
# Words of a command line

Each argument is an option, perhaps with a value attached, an option that is not known, or a plain
word.  A double dash marks all behind it as plain.  A long option may be cut short as long as it
stays the only one; a short option may have its value, or more short options, right behind it.
-/

namespace JitLens.CommandLine

/-- A value that is attached to an option. -/
structure Attached where
  /-- Whether an equal sign stands before it. -/
  byEqual : Bool
  value : List Char
  deriving DecidableEq, Repr

/-- An option as it is used. -/
structure Use where
  option : Opt
  /-- Whether the spelling has a single dash. -/
  isShort : Bool
  attached : Option Attached := none
  deriving DecidableEq, Repr

/-- A word of a command line. -/
inductive Word where
  | plain (s : String)
  /-- The double dash. -/
  | mark
  | use (u : Use)
  | unknown (s : String)
  deriving DecidableEq, Repr

/-- Whether a spelling has a single dash. -/
def isShort (spelling : List Char) : Bool :=
  !Text.startsWith ['-', '-'] spelling

/-- The spellings that a long option with an attached value may be cut short from. -/
def longCandidates (cs : List Char) : List (String × Use) :=
  let (name, attached) : List Char × Option Attached :=
    match Text.cutAt ['='] cs with
    | some (name, value) => (name, some ⟨true, value⟩)
    | none => (cs, none)
  Opt.spellings.filterMap fun (s, o) =>
    if Text.startsWith name s.toList then some (s, ⟨o, isShort s.toList, attached⟩) else none

/-- The short option that a word starts with, or a spelling that it may be cut short from. -/
def shortCandidates (cs : List Char) : List (String × Use) :=
  Opt.spellings.filterMap fun (s, o) =>
    if s.toList = cs.take 2 then some (s, ⟨o, true, some ⟨false, cs.drop 2⟩⟩)
    else if Text.startsWith cs s.toList then some (s, ⟨o, isShort s.toList, none⟩)
    else none

/-- The uses that a word with a dash at its start may stand for. -/
def candidates (cs : List Char) : List (String × Use) :=
  if isShort cs then shortCandidates cs else longCandidates cs

/-- The text without a line end at its end. -/
def dropLineEnd (cs : List Char) : List Char :=
  if cs.getLast? = some '\n' then cs.dropLast else cs

/-- Whether a word is a negative number. -/
def isNegative : List Char → Bool
  | '-' :: cs =>
    let body := dropLineEnd cs
    match body.dropWhile Framework.isDecimal with
    | [] => !body.isEmpty
    | '.' :: fraction => !fraction.isEmpty && fraction.all Framework.isDecimal
    | _ => false
  | _ => false

/-- The use of an option whose whole spelling stands in a word, alone or before an equal sign. -/
def exactUse? (cs : List Char) : Option Use :=
  match Opt.ofSpelling? (String.ofList cs) with
  | some o => some ⟨o, isShort cs, none⟩
  | none =>
    match Text.cutAt ['='] cs with
    | some (name, value) =>
      (Opt.ofSpelling? (String.ofList name)).map fun o => ⟨o, isShort name, some ⟨true, value⟩⟩
    | none => none

/-- The word that stands behind no double dash. -/
def Word.of (s : String) : Except UsageError Word :=
  match s.toList with
  | '-' :: c :: cs =>
    match exactUse? ('-' :: c :: cs) with
    | some u => .ok (.use u)
    | none =>
      match candidates ('-' :: c :: cs) with
      | [(_, u)] => .ok (.use u)
      | [] =>
        .ok (if isNegative ('-' :: c :: cs) || cs.contains ' ' || c == ' ' then .plain s
          else .unknown s)
      | several => .error (.ambiguous s (several.map Prod.fst))
  | _ => .ok (.plain s)

/-- The words of a command line. -/
def words : List String → Except UsageError (List Word)
  | [] => .ok []
  | s :: rest =>
    if s = "--" then .ok (.mark :: rest.map .plain)
    else do
      let w ← Word.of s
      let ws ← words rest
      return w :: ws

end JitLens.CommandLine
