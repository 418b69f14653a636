import JitLens.Settings.Basic
import JitLens.Text.Lines
import JitLens.Text.Search
/-!
# Output of the compiler

What is done with the output of a run: disassembly may be made prettier, and the phases that a
dump goes through are listed.
-/

namespace JitLens

/-- Makes disassembly prettier, with or without its comments. -/
abbrev Prettifier := Bool → String → String

namespace Output

/-- Whether the comments are taken out of disassembly. -/
def stripsComments (s : Settings) : Bool :=
  !s.showComments && !s.runApp

/-- The output as it is shown; only disassembly is made prettier. -/
def shown (s : Settings) (prettifier : Option Prettifier) (output : String) : String :=
  match s.capture, prettifier with
  | .disasm, some prettify => prettify (stripsComments s) output
  | _, _ => output

/-- What a line that announces a phase starts with. -/
def phaseMark : List Char := "*************** Starting PHASE ".toList

/-- The text without the carriage returns at its end. -/
def dropReturns (cs : List Char) : List Char :=
  (cs.reverse.dropWhile (· = '\r')).reverse

/-- The phase that a line announces. -/
def phase? (line : List Char) : Option String :=
  (Text.stripLeading phaseMark line).map fun rest => String.ofList (dropReturns rest)

/-- The phases that a dump announces. -/
def phases (output : String) : List String :=
  (Text.splitOn '\n' output.toList).filterMap phase?

end Output
end JitLens
