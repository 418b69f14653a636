import JitLens.Settings.Basic
import JitLens.Value
/-!
# Fields of the settings

Every field has a name, under which files, requests and the command line know it, and a kind that
says which values it takes.  A value that was checked for its field is a `Change`.
-/

namespace JitLens

/-- Fields that are switched on and off. -/
inductive Flag where
  | showComments
  | runApp
  | noRestore
  | tieredJit
  | pgo
  | customRuntime
  | flowGraph
  deriving DecidableEq, Repr

/-- Fields that always hold a text. -/
inductive RequiredText where
  | runtimeRoot
  | version
  | dotnet
  deriving DecidableEq, Repr

/-- Fields that may hold a text. -/
inductive OptionalText where
  | customVars
  | crossgenArgs
  | selectedJit
  | graphvizDot
  | flowGraphPhase
  | arch
  deriving DecidableEq, Repr

/-- A field of the settings. -/
inductive Field where
  | capture
  | reload
  | flag (f : Flag)
  | text (f : RequiredText)
  | optional (f : OptionalText)
  deriving DecidableEq, Repr

/-- A field with a value that it takes. -/
inductive Change where
  | capture (mode : CaptureMode)
  | reload (strategy : ReloadStrategy)
  | flag (f : Flag) (b : Bool)
  | text (f : RequiredText) (s : String)
  | optional (f : OptionalText) (s : Option String)
  deriving DecidableEq, Repr

namespace Field

/-- The fields, in the order of the settings. -/
def all : List Field := [
  .text .runtimeRoot, .capture, .optional .customVars, .optional .crossgenArgs,
  .flag .showComments, .text .version, .reload, .flag .runApp, .flag .noRestore,
  .flag .tieredJit, .flag .pgo, .flag .customRuntime, .optional .selectedJit,
  .optional .graphvizDot, .flag .flowGraph, .optional .flowGraphPhase, .optional .arch,
  .text .dotnet]

def name : Field → String
  | .text .runtimeRoot => "path_to_local_coreclr"
  | .capture => "capture_mode"
  | .optional .customVars => "custom_env_vars"
  | .optional .crossgenArgs => "crossgen2_args"
  | .flag .showComments => "show_asm_comments"
  | .text .version => "current_version"
  | .reload => "reload_strategy"
  | .flag .runApp => "run_app_mode"
  | .flag .noRestore => "use_no_restore_flag"
  | .flag .tieredJit => "use_tiered_jit"
  | .flag .pgo => "use_pgo"
  | .flag .customRuntime => "use_custom_runtime"
  | .optional .selectedJit => "selected_custom_jit"
  | .optional .graphvizDot => "graphviz_dot_path"
  | .flag .flowGraph => "fg_enable"
  | .optional .flowGraphPhase => "fg_phase"
  | .optional .arch => "arch"
  | .text .dotnet => "dotnet_cli"

def ofName? (s : String) : Option Field :=
  all.find? fun f => f.name == s

/-- Whether a field holds free text. -/
def isText : Field → Bool
  | .text _ | .optional _ => true
  | _ => false

theorem mem_all (f : Field) : f ∈ all := by
  cases f with
  | flag f => cases f <;> decide
  | text f => cases f <;> decide
  | optional f => cases f <;> decide
  | _ => decide

/-- Every field is found under its name. -/
theorem ofName?_name (f : Field) : ofName? f.name = some f := by
  cases f with
  | flag f => cases f <;> decide
  | text f => cases f <;> decide
  | optional f => cases f <;> decide
  | _ => decide

end Field

/-- Why a field does not take a value. -/
inductive ChangeError where
  | unknownField (name : String)
  | notFlag (name : String) (value : Value)
  | notText (name : String) (value : Value)
  | notMode (value : Value)
  | notStrategy (value : Value)

/-- The error in words. -/
def ChangeError.message : ChangeError → String
  | .unknownField name => "Unknown setting: " ++ name
  | .notFlag name value =>
    "Setting '" ++ name ++ "' expects true or false, got " ++ value.literal
  | .notText name value => "Setting '" ++ name ++ "' expects a string, got " ++ value.literal
  | .notMode value => value.literal ++ " is not a valid CaptureMode"
  | .notStrategy value => value.literal ++ " is not a valid ReloadStrategy"

namespace Field

/-- The change that gives a field a value, if it takes the value. -/
def check (f : Field) (value : Value) : Except ChangeError Change :=
  match f, value with
  | .capture, .text s =>
    match CaptureMode.ofName? s with
    | some mode => .ok (.capture mode)
    | none => .error (.notMode value)
  | .capture, _ => .error (.notMode value)
  | .reload, .text s =>
    match ReloadStrategy.ofName? s with
    | some strategy => .ok (.reload strategy)
    | none => .error (.notStrategy value)
  | .reload, _ => .error (.notStrategy value)
  | .flag f, .bool b => .ok (.flag f b)
  | .flag f, _ => .error (.notFlag (Field.flag f).name value)
  | .text f, .text s => .ok (.text f s)
  | .text f, _ => .error (.notText (Field.text f).name value)
  | .optional f, .null => .ok (.optional f none)
  | .optional f, .text s => .ok (.optional f (some s))
  | .optional f, _ => .error (.notText (Field.optional f).name value)

end Field

namespace Change

/-- The change of the field with a name, if there is one and it takes the value. -/
def check (name : String) (value : Value) : Except ChangeError Change :=
  match Field.ofName? name with
  | some f => f.check value
  | none => .error (.unknownField name)

def field : Change → Field
  | .capture _ => .capture
  | .reload _ => .reload
  | .flag f _ => .flag f
  | .text f _ => .text f
  | .optional f _ => .optional f

/-- The new value, modes and strategies by their names. -/
def leaf : Change → Leaf
  | .capture mode => .text mode.name
  | .reload strategy => .text strategy.name
  | .flag _ b => .bool b
  | .text _ s => .text s
  | .optional _ none => .null
  | .optional _ (some s) => .text s

/-- The new value as data. -/
def value (c : Change) : Value :=
  c.leaf.toValue

/-- The value of a change is accepted for its field, and gives the change again. -/
theorem check_value (c : Change) : c.field.check c.value = .ok c := by
  cases c with
  | capture mode => simp [field, value, leaf, Leaf.toValue, Field.check, CaptureMode.ofName?_name]
  | reload strategy =>
    simp [field, value, leaf, Leaf.toValue, Field.check, ReloadStrategy.ofName?_name]
  | optional f s => cases s <;> rfl
  | _ => rfl

end Change

namespace Settings

/-- The value of a field, as a change to it. -/
def lookup (s : Settings) : Field → Change
  | .capture => .capture s.capture
  | .reload => .reload s.reload
  | .flag .showComments => .flag .showComments s.showComments
  | .flag .runApp => .flag .runApp s.runApp
  | .flag .noRestore => .flag .noRestore s.noRestore
  | .flag .tieredJit => .flag .tieredJit s.tieredJit
  | .flag .pgo => .flag .pgo s.pgo
  | .flag .customRuntime => .flag .customRuntime s.customRuntime
  | .flag .flowGraph => .flag .flowGraph s.flowGraph
  | .text .runtimeRoot => .text .runtimeRoot s.runtimeRoot
  | .text .version => .text .version s.version
  | .text .dotnet => .text .dotnet s.dotnet
  | .optional .customVars => .optional .customVars s.customVars
  | .optional .crossgenArgs => .optional .crossgenArgs s.crossgenArgs
  | .optional .selectedJit => .optional .selectedJit s.selectedJit
  | .optional .graphvizDot => .optional .graphvizDot s.graphvizDot
  | .optional .flowGraphPhase => .optional .flowGraphPhase s.flowGraphPhase
  | .optional .arch => .optional .arch s.arch

/-- The settings with one field changed and all others as they are. -/
def update (s : Settings) : Change → Settings
  | .capture mode => { s with capture := mode }
  | .reload strategy => { s with reload := strategy }
  | .flag .showComments b => { s with showComments := b }
  | .flag .runApp b => { s with runApp := b }
  | .flag .noRestore b => { s with noRestore := b }
  | .flag .tieredJit b => { s with tieredJit := b }
  | .flag .pgo b => { s with pgo := b }
  | .flag .customRuntime b => { s with customRuntime := b }
  | .flag .flowGraph b => { s with flowGraph := b }
  | .text .runtimeRoot t => { s with runtimeRoot := t }
  | .text .version t => { s with version := t }
  | .text .dotnet t => { s with dotnet := t }
  | .optional .customVars t => { s with customVars := t }
  | .optional .crossgenArgs t => { s with crossgenArgs := t }
  | .optional .selectedJit t => { s with selectedJit := t }
  | .optional .graphvizDot t => { s with graphvizDot := t }
  | .optional .flowGraphPhase t => { s with flowGraphPhase := t }
  | .optional .arch t => { s with arch := t }

/-- The settings as data, in the order of their fields. -/
def toTable (s : Settings) : Table Value :=
  Field.all.map fun f => (f.name, (s.lookup f).value)

/-- A changed field has its new value. -/
theorem lookup_update_self (s : Settings) (c : Change) : (s.update c).lookup c.field = c := by
  cases c with
  | flag f b => cases f <;> rfl
  | text f t => cases f <;> rfl
  | optional f t => cases f <;> rfl
  | _ => rfl

end Settings
end JitLens
