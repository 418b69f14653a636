import JitLens.Settings.Change
import JitLens.Text.Search
import JitLens.Yaml.Document
/-!
# Overrides

Changes to the settings as they are given on a command line, each a name and a value with an equal
sign between them.  The value of a text field is taken as it is; other values are read like those
of a settings file.
-/

namespace JitLens

/-- Why items of a command line are no overrides. -/
inductive OverrideError where
  | noPair (item : String)
  | malformed (key : String) (fault : Yaml.Fault)
  | badValue (e : Yaml.BadValue)

namespace OverrideError

def label : OverrideError → String
  | .badValue e => e.label
  | _ => "ValueError"

/-- The error in words. -/
def message : OverrideError → String
  | .noPair item => "Expected key=value, got '" ++ item ++ "'"
  | .malformed key fault => "Invalid value for " ++ key ++ ": " ++ fault.text
  | .badValue e => e.message

end OverrideError

namespace Settings

/-- The value of an item for a field. -/
def overrideValue (key : String) (value : List Char) : Except OverrideError Value :=
  if Text.allBlank value then .ok .null
  else if (Field.ofName? key).any Field.isText then .ok (.text (String.ofList value))
  else
    match Yaml.read value with
    | .ok v => .ok v
    | .error (.malformed fault) => .error (.malformed key fault)
    | .error (.badValue e) => .error (.badValue e)

/-- Reads an item. -/
def parseOverride (item : String) : Except OverrideError (String × Value) :=
  match Text.cutAt ['='] item.toList with
  | none => .error (.noPair item)
  | some (before, behind) =>
    let key := String.ofList (Text.trim before)
    if key = "" then .error (.noPair item)
    else (overrideValue key behind).map (key, ·)

/-- Reads items; a key that is repeated keeps its first place and its last value. -/
def parseOverrides (items : List String) : Except OverrideError (Table Value) :=
  (items.mapM parseOverride).map Table.ofList

end Settings
end JitLens
