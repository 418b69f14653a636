import JitLens.Bench
/-!
# Flow graphs

The compiler adds a drawing of the flow graph to a file each time it goes through the phase in
question.  Of these drawings the last one is kept and turned into a picture.
-/

namespace JitLens.FlowGraph

open Files

/-- What the first line of a drawing starts with. -/
def mark : List Char := "digraph FlowGraph".toList

/-- Whether a drawing starts with a line. -/
def isStart (line : List Char) : Bool :=
  Text.startsWith mark line

/-- The count of the drawings in lines. -/
def count (lines : List (List Char)) : Nat :=
  lines.countP isStart

/-- The lines from the last drawing on; all of them if there is no drawing. -/
def fromLast : List (List Char) → List (List Char)
  | [] => []
  | l :: ls => if count ls = 0 then l :: ls else fromLast ls

/-- The lines of a file of drawings. -/
def linesOf (content : Text.Bytes) : List (List Char) :=
  Text.lines (Text.unifyLineEnds (Text.decodeLossy content))

/-- Lines as the content of a file. -/
def contentOf (lines : List (List Char)) : Text.Bytes :=
  Text.encode (Text.joinWith '\n' lines ++ ['\n'])

/-- The content of a file of drawings with only the last one kept. -/
def trimmed (content : Text.Bytes) : Text.Bytes :=
  let lines := linesOf content
  if 1 < count lines then contentOf (fromLast lines) else content

/-- Keeps the last drawing of a file and returns how many there were. -/
def keepLast (file : Path) : Action Nat := do
  let content ← Action.ofFiles (← Action.look Tree.read file)
  let n := count (linesOf content)
  if 1 < n then
    Action.change fun t here => t.write here file (trimmed content)
  return n

/-- The file of drawings for the name that the compiler is given. -/
def dotFile (name : String) : Path :=
  Path.ofString (name ++ ".dot")

/-- The message for a file of drawings that is missing or empty. -/
def noDrawing (file : Path) (complaint : String) : String :=
  "Oops, JitDumpFgFile ('" ++ file.text ++ "') " ++ complaint ++ " :(\nInvalid Phase name?"

/-- The call that turns a drawing into a picture. -/
def drawCall (program : String) (file picture : Path) : Invocation where
  executable := program
  args := ["-Tpng", "-o" ++ picture.text, "-Kdot", file.text]

/-- The message for a picture that was not made. -/
def noPicture (result : ToolResult) : String :=
  "Graphvis failed:\n" ++ result.output ++ "\n\n" ++ result.errors

/-- Turns the last drawing of a file into a picture: its path, or why there is none. -/
def render (tools : Tools) (name program : String) : Action (Except String Path) := do
  let file := dotFile name
  let b ← get
  if !b.files.holds b.here file then return .error (noDrawing file "doesn't exist")
  else if b.files.isEmptyFile b.here file then return .error (noDrawing file "file is empty")
  else
    let _ ← keepLast file
    Action.checkCancelled
    let picture ← Action.temporaryFile ".png"
    let result ← Action.call tools (drawCall program file picture)
    Action.checkCancelled
    let b ← get
    if !b.files.holds b.here picture || b.files.isEmptyFile b.here picture then
      Action.change fun t here => t.discard here picture
      return .error (noPicture result)
    else return .ok picture

end JitLens.FlowGraph
