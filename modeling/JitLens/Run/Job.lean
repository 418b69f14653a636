import JitLens.Settings.Basic
import JitLens.Symbol
import JitLens.Target
/-!
# Jobs

What a run is asked to do.
-/

namespace JitLens

open Files

/-- A symbol of a project, and how the project is built and run. -/
structure Job where
  symbol : Symbol
  settings : Settings
  /-- The file of the project. -/
  project : String
  framework : String
  /-- The output directory, as seen from the directory of the project. -/
  output : String
  deriving DecidableEq, Repr

/-- The names that the run of a job goes by. -/
def Job.target (j : Job) : Target :=
  .of j.symbol j.project j.output

end JitLens
