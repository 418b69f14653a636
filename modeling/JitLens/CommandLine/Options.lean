import JitLens.Text.Quoted
/-!
# Options

The options of the command line with their spellings, and what can be wrong with their use.
-/

namespace JitLens.CommandLine

/-- Options that are on or off. -/
inductive Switch where
  | localFunction
  | genericMethod
  | save
  | listJits
  | listPhases
  | json
  | verbose
  deriving DecidableEq, Repr

/-- Options that take a value. -/
inductive Slot where
  | className
  | framework
  | outputDir
  | settings
  | override
  deriving DecidableEq, Repr

/-- An option. -/
inductive Opt where
  | help
  | switch (s : Switch)
  | slot (s : Slot)
  deriving DecidableEq, Repr

namespace Opt

/-- The spellings of the options, in order. -/
def spellings : List (String × Opt) := [
  ("-h", .help), ("--help", .help), ("--class-name", .slot .className),
  ("--local-function", .switch .localFunction), ("--generic-method", .switch .genericMethod),
  ("--framework", .slot .framework), ("-f", .slot .framework),
  ("--output-dir", .slot .outputDir), ("-o", .slot .outputDir), ("--settings", .slot .settings),
  ("--set", .slot .override), ("--save", .switch .save), ("--list-jits", .switch .listJits),
  ("--list-phases", .switch .listPhases), ("--json", .switch .json),
  ("--verbose", .switch .verbose), ("-v", .switch .verbose)]

def ofSpelling? (s : String) : Option Opt :=
  spellings.lookup s

/-- The option in messages: all its spellings. -/
def label (o : Opt) : String :=
  String.intercalate "/" ((spellings.filter fun (_, p) => p == o).map Prod.fst)

end Opt

/-- What can be wrong with a command line. -/
inductive UsageError where
  | ambiguous (word : String) (spellings : List String)
  | missingValue (o : Opt)
  | strayValue (o : Opt) (value : String)
  | unrecognized (words : List String)
  | incomplete
  deriving DecidableEq, Repr

/-- The error in words. -/
def UsageError.message : UsageError → String
  | .ambiguous word spellings =>
    "ambiguous option: " ++ word ++ " could match " ++ String.intercalate ", " spellings
  | .missingValue o => "argument " ++ o.label ++ ": expected one argument"
  | .strayValue o value =>
    "argument " ++ o.label ++ ": ignored explicit argument " ++ Text.quoted value
  | .unrecognized words => "unrecognized arguments: " ++ String.intercalate " " words
  | .incomplete => "project and symbol are required"

end JitLens.CommandLine
