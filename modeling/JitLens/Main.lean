import JitLens.Workspace
/-!
# The program

Runs the command line that the program is given in the workspace that is described on standard
input, and ends with its exit code.
-/

open JitLens

/-- Runs a command line in the workspace on standard input. -/
def main (argv : List String) : IO UInt32 := do
  let description ← (← IO.getStdin).readToEnd
  let transcript := Workspace.runDescribed description argv
  (← IO.getStdout).putStr transcript.out
  (← IO.getStderr).putStr transcript.err
  return UInt32.ofNat transcript.exit
