import JitLens.Files.Access
import JitLens.Framework
import JitLens.Settings.Basic
/-!
# Rules for a run

Settings may ask for what a run cannot do.  The rules are checked before any tool is called, and
the first one that is broken is reported.
-/

namespace JitLens

open Files

/-- A rule that the settings of a run can break. -/
inductive RunRule where
  | knownFramework
  | runAfterBuild
  | onePhase
  | graphProgram
  | graphFromDump
  | crossgenNoProfile
  | crossgenNoRun
  | crossgenNoTiers
  | crossgenNoGraph
  deriving DecidableEq, Repr

namespace RunRule

/-- What the user is told about a broken rule. -/
def message : RunRule → String
  | .knownFramework =>
    "Only net5.0 (and later) apps are supported.\n" ++
      "Make sure <TargetFramework>net5.0</TargetFramework> is set in your csproj."
  | .runAfterBuild =>
    "\"Run current app\" mode only works with \"dotnet build\" reload strategy, see Options tab."
  | .onePhase => "* as a phase name is not supported yet."
  | .graphProgram =>
    "Graphvis is not installed or path to dot.exe is incorrect, see 'Settings' tab.\n" ++
      "Graphvis can be installed from https://graphviz.org/download/"
  | .graphFromDump => "Either disable flowgraphs in the 'Flowgraph' tab or enable JitDump."
  | .crossgenNoProfile => "PGO has no effect on R2R'd code (yet)."
  | .crossgenNoRun => "Run mode is not supported for crossgen"
  | .crossgenNoTiers => "TieredJIT has no effect on R2R'd code."
  | .crossgenNoGraph => "Flowgraphs are not tested with crossgen2 yet"

/-- All rules, in the order in which they are checked. -/
def all : List RunRule := [
  .knownFramework, .runAfterBuild, .onePhase, .graphProgram, .graphFromDump, .crossgenNoProfile,
  .crossgenNoRun, .crossgenNoTiers, .crossgenNoGraph]

/-- Whether settings break a rule, given whether the framework is supported and whether the
program that draws flow graphs is there. -/
def isBroken (s : Settings) (framework graphProgram : Bool) : RunRule → Bool
  | .knownFramework => !framework
  | .runAfterBuild => s.runApp && s.reload == .publish
  | .onePhase => s.flowGraph && Text.trimmed (s.flowGraphPhase.getD "") == "*"
  | .graphProgram => s.flowGraph && !graphProgram
  | .graphFromDump => s.flowGraph && s.capture != .jitDump
  | .crossgenNoProfile => s.crossgenSelected && s.pgo
  | .crossgenNoRun => s.crossgenSelected && s.runApp
  | .crossgenNoTiers => s.crossgenSelected && s.tieredJit
  | .crossgenNoGraph => s.crossgenSelected && s.flowGraph

def firstBroken? (s : Settings) (framework graphProgram : Bool) : Option RunRule :=
  all.find? (isBroken s framework graphProgram)

end RunRule

namespace Settings

/-- Whether the program that draws flow graphs is named and there. -/
def hasGraphProgram (s : Settings) (t : Tree) (here : Location) : Bool :=
  match s.graphvizDot with
  | some dot => !Text.blankString dot && t.isFile here (Path.ofString dot)
  | none => false

/-- The first rule that the settings break for a run with a framework. -/
def brokenRule? (s : Settings) (t : Tree) (here : Location) (framework : String) :
    Except Text.DigitsError (Option RunRule) :=
  (Framework.isSupported framework).map fun supported =>
    RunRule.firstBroken? s supported (s.hasGraphProgram t here)

end Settings
end JitLens
