import JitLens.CommandLine.Word
/-!
# Arguments

What the words of a command line say.  The first run of plain words names the project and the
symbol; plain words behind it, and options that are not known, are strays, which are reported when
all else is in order.
-/

namespace JitLens.CommandLine

/-- What a command line says. -/
structure Arguments where
  project : Option String := none
  symbol : Option String := none
  className : Option String := none
  localFunction : Bool := false
  genericMethod : Bool := false
  framework : String := "net8.0"
  outputDir : Option String := none
  settings : Option String := none
  overrides : List String := []
  save : Bool := false
  listJits : Bool := false
  listPhases : Bool := false
  json : Bool := false
  verbose : Bool := false
  deriving DecidableEq, Repr

namespace Arguments

def switchOn (a : Arguments) : Switch → Arguments
  | .localFunction => { a with localFunction := true }
  | .genericMethod => { a with genericMethod := true }
  | .save => { a with save := true }
  | .listJits => { a with listJits := true }
  | .listPhases => { a with listPhases := true }
  | .json => { a with json := true }
  | .verbose => { a with verbose := true }

/-- The arguments with a value for an option; overrides are collected. -/
def fill (a : Arguments) (value : String) : Slot → Arguments
  | .className => { a with className := some value }
  | .framework => { a with framework := value }
  | .outputDir => { a with outputDir := some value }
  | .settings => { a with settings := some value }
  | .override => { a with overrides := a.overrides ++ [value] }

end Arguments

/-- Why no arguments come out of a command line. -/
inductive Halt where
  | help
  | misuse (e : UsageError)
  deriving DecidableEq, Repr

/-- What one word with options comes down to. -/
structure Cluster where
  /-- Options in order, with their values. -/
  taken : List (Opt × Option String) := []
  /-- An option at the end that still waits for its value. -/
  waiting : Option Slot := none
  /-- What is no option. -/
  stray : Option String := none
  deriving DecidableEq, Repr

namespace Cluster

/-- The cluster with an option before all others. -/
def behind (o : Opt) (c : Cluster) : Cluster :=
  { c with taken := (o, none) :: c.taken }

/-- The cluster of an option that takes no value and what is attached to its short spelling:
further options, each by its letter. -/
def ofLetters (o : Opt) (byEqual : Bool) : List Char → Except UsageError Cluster
  | [] => .error (.strayValue o "")
  | c :: cs =>
    if byEqual || c == '-' then .error (.strayValue o (String.ofList (c :: cs)))
    else
      match Opt.ofSpelling? (String.ofList ['-', c]) with
      | none => .ok { taken := [(o, none)], stray := some (String.ofList ('-' :: c :: cs)) }
      | some (.slot s) =>
        match cs with
        | [] => .ok { taken := [(o, none)], waiting := some s }
        | '=' :: value => .ok { taken := [(o, none), (.slot s, some (String.ofList value))] }
        | value => .ok { taken := [(o, none), (.slot s, some (String.ofList value))] }
      | some p =>
        match cs with
        | [] => .ok { taken := [(o, none), (p, none)] }
        | '=' :: value => (ofLetters p true value).map (behind o)
        | d :: ds => (ofLetters p false (d :: ds)).map (behind o)

def ofUse (u : Use) : Except UsageError Cluster :=
  match u.option, u.attached with
  | .slot s, none => .ok { waiting := some s }
  | .slot s, some a => .ok { taken := [(.slot s, some (String.ofList a.value))] }
  | o, none => .ok { taken := [(o, none)] }
  | o, some a =>
    if u.isShort then ofLetters o a.byEqual a.value
    else .error (.strayValue o (String.ofList a.value))

end Cluster

/-- Which plain words are still expected. -/
inductive Expected where
  | project
  | symbol
  /-- A double dash right behind the symbol is passed over. -/
  | dash
  | nothing
  deriving DecidableEq, Repr

/-- How far the words have been read. -/
structure Reading where
  arguments : Arguments := {}
  expected : Expected := .project
  strays : List String := []
  deriving DecidableEq, Repr

namespace Reading

/-- The reading with a stray word. -/
def addStray (r : Reading) (s : String) : Reading :=
  { r with strays := r.strays ++ [s] }

/-- The reading behind a plain word; a double dash names no symbol. -/
def plain (r : Reading) (s : String) : Reading :=
  match r.expected with
  | .project =>
    { r with arguments := { r.arguments with project := some s }, expected := .symbol }
  | .symbol =>
    let named := if s = "--" then none else some s
    { r with arguments := { r.arguments with symbol := named }, expected := .dash }
  | _ => { r.addStray s with expected := .nothing }

/-- The reading behind a double dash. -/
def mark (r : Reading) : Reading :=
  match r.expected with
  | .project => r
  | .symbol => r
  | .dash => { r with expected := .nothing }
  | .nothing => r.addStray "--"

/-- The reading at an option, which ends a run of plain words. -/
def atOption (r : Reading) : Reading :=
  match r.expected with
  | .project => r
  | _ => { r with expected := .nothing }

/-- The reading behind an option. -/
def take (r : Reading) : Opt × Option String → Except Halt Reading
  | (.help, _) => .error .help
  | (.switch s, _) => .ok { r with arguments := r.arguments.switchOn s }
  | (.slot s, some value) => .ok { r with arguments := r.arguments.fill value s }
  | (.slot s, none) => .error (.misuse (.missingValue (.slot s)))

/-- The reading behind a cluster and the value that it waited for. -/
def takeCluster (r : Reading) (c : Cluster) (value : Option String) : Except Halt Reading := do
  let waited := match c.waiting with
    | some s => [(Opt.slot s, value)]
    | none => []
  let r := r.atOption
  let r := match c.stray with
    | some s => r.addStray s
    | none => r
  (c.taken ++ waited).foldlM take r

def read (r : Reading) : List Word → Except Halt Reading
  | [] => .ok r
  | .plain s :: ws => (r.plain s).read ws
  | .mark :: ws => r.mark.read ws
  | .unknown s :: ws => (r.atOption.addStray s).read ws
  | .use u :: ws =>
    match Cluster.ofUse u with
    | .error e => .error (.misuse e)
    | .ok c =>
      match c.waiting with
      | none =>
        match r.takeCluster c none with
        | .ok r => r.read ws
        | .error h => .error h
      | some s =>
        match ws with
        | .plain value :: ws =>
          match r.takeCluster c (some value) with
          | .ok r => r.read ws
          | .error h => .error h
        | _ => .error (.misuse (.missingValue (.slot s)))

end Reading

namespace Arguments

/-- Reads the arguments of a command line. -/
def read (argv : List String) : Except Halt Arguments := do
  let ws ← (words argv).mapError .misuse
  let r ← Reading.read {} ws
  if r.strays.isEmpty then .ok r.arguments else .error (.misuse (.unrecognized r.strays))

end Arguments
end JitLens.CommandLine
