import JitLens.Decimal.Binary64
import JitLens.Run.Execute
/-!
# Runs

A run builds the project of a job and executes it, one step after the other, and is timed by a
clock that is read at its start and at its end.
-/

namespace JitLens

open Decimal Files

/-- What a run leaves. -/
structure Outcome where
  success : Bool
  output : String
  picture : Option String := none
  phases : List String := []
  /-- The seconds that the run took, with one place behind the point. -/
  elapsed : Binary64 := .zero false

/-- What a clock shows at the start and at the end of a run. -/
structure Clock where
  start : Binary64
  stop : Binary64

/-- The seconds between start and end, to one place behind the point. -/
def Clock.elapsed (c : Clock) : Binary64 :=
  (c.stop.sub c.start).roundTenths

/-- What a run is asked for. -/
structure Order where
  symbol : Symbol
  settings : Settings
  /-- The file of the project. -/
  project : String
  framework : String
  /-- The output directory, if not the default one. -/
  output : Option String := none

namespace Settings

/-- The output directory for a version of the tool, as seen from the directory of a project. -/
def defaultOutput (s : Settings) : Path :=
  ((Path.ofString "bin").child "Release").child ("jitscope-v" ++ s.version)

end Settings

namespace Order

/-- The job that an order comes down to. -/
def job (o : Order) : Job where
  symbol := o.symbol
  settings := o.settings
  project := o.project
  framework := Framework.normalize o.framework
  output := o.output.getD o.settings.defaultOutput.text

def phases (s : Settings) (output : String) : List String :=
  if s.capture = .jitDump then Output.phases output else []

/-- Runs the two steps of an order; the time is not taken yet. -/
def steps (tools : Tools) (host : Host) (prettifier : Option Prettifier) (o : Order) :
    StateM Bench Outcome := do
  if o.symbol.isGeneric then
    return { success := false, output := "Generic methods are not supported yet." }
  match ← Build.run tools host o.job with
  | some complaint => return { success := false, output := complaint }
  | none =>
    let e ← Execution.run tools host prettifier o.job
    return {
      success := !e.failed
      output := e.output
      picture := e.picture
      phases := phases o.settings e.output }

def run (tools : Tools) (host : Host) (prettifier : Option Prettifier) (clock : Clock)
    (o : Order) : StateM Bench Outcome := do
  let outcome ← steps tools host prettifier o
  return { outcome with elapsed := clock.elapsed }

end Order
end JitLens
