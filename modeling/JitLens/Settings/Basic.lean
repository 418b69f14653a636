import JitLens.Host
/-!
# Settings

The settings of a run, and what follows from them for the choice of output, compiler and target.
-/

namespace JitLens

/-- What the compiler prints. -/
inductive CaptureMode where
  | disasm
  | jitDump
  | printInlinees
  deriving DecidableEq, Repr

namespace CaptureMode

def name : CaptureMode → String
  | .disasm => "disasm"
  | .jitDump => "jit_dump"
  | .printInlinees => "print_inlinees"

def ofName? (s : String) : Option CaptureMode :=
  [disasm, jitDump, printInlinees].find? fun m => m.name == s

theorem ofName?_name (m : CaptureMode) : ofName? m.name = some m := by
  cases m <;> decide

end CaptureMode

/-- How the project is built before a run. -/
inductive ReloadStrategy where
  | build
  | publish
  deriving DecidableEq, Repr

namespace ReloadStrategy

def name : ReloadStrategy → String
  | .build => "build"
  | .publish => "publish"

def ofName? (s : String) : Option ReloadStrategy :=
  [build, publish].find? fun r => r.name == s

theorem ofName?_name (r : ReloadStrategy) : ofName? r.name = some r := by
  cases r <;> decide

end ReloadStrategy

/-- The settings of a run. -/
structure Settings where
  /-- Root of a local build of the runtime. -/
  runtimeRoot : String := ""
  capture : CaptureMode := .disasm
  /-- Lines of variables that go over the derived ones. -/
  customVars : Option String := none
  /-- More arguments for the ahead-of-time compiler. -/
  crossgenArgs : Option String := none
  showComments : Bool := true
  /-- Version of the tool, which keeps its caches and outputs apart. -/
  version : String := "0.0.0"
  reload : ReloadStrategy := .build
  /-- Whether the project itself is run and not the loader. -/
  runApp : Bool := false
  noRestore : Bool := false
  tieredJit : Bool := false
  pgo : Bool := false
  customRuntime : Bool := true
  selectedJit : Option String := none
  /-- Program that draws flow graphs. -/
  graphvizDot : Option String := none
  flowGraph : Bool := false
  /-- Phase of the compiler after which the flow graph is written. -/
  flowGraphPhase : Option String := none
  arch : Option String := none
  /-- Program that builds projects. -/
  dotnet : String := "dotnet"
  deriving DecidableEq, Repr

/-- The name of the default compiler. -/
def defaultJit : String := "clrjit.dll"

/-- The name under which the ahead-of-time compiler is offered. -/
def crossgenJit : String := "crossgen2.dll (R2R)"

/-- File names of the default compiler on each system. -/
def defaultJitNames : List String := [defaultJit, "libclrjit.so", "libclrjit.dylib"]

/-- Whether a name is one of the default compiler, whatever its case and the blanks around it. -/
def isDefaultJit (name : String) : Bool :=
  defaultJitNames.contains (Text.lowered (Text.trimmed name))

/-- Whether a name selects the ahead-of-time compiler. -/
def isCrossgen (name : String) : Bool :=
  Text.startsWith ['c', 'r', 'o', 's', 's', 'g', 'e', 'n'] name.toList

namespace Settings

/-- Whether the ahead-of-time compiler is selected. -/
def crossgenSelected (s : Settings) : Bool :=
  match s.selectedJit with
  | some name => isCrossgen name
  | none => false

/-- The compiler that replaces the default one, if such a one is selected. -/
def alternateJit? (s : Settings) : Option String :=
  s.selectedJit.filter fun name =>
    !Text.blankString name && !isCrossgen name && !isDefaultJit name

/-- The architecture that a run is for. -/
def targetArch (s : Settings) (host : Host) : String :=
  match s.arch with
  | none => host.architecture
  | some a => if a = "" then host.architecture else Host.normalizeArchitecture a

end Settings
end JitLens
