import JitLens.Text.Digit
/-!
# Characters of the settings format

Classes of characters that the format tells apart.  Before a text is cut into tokens its line
breaks are unified, so that a break is a line feed, a line separator or a paragraph separator.
-/

namespace JitLens.Yaml

/-- Characters that a text may hold. -/
def isAllowed (c : Char) : Bool :=
  let n := c.toNat
  n == 0x09 || n == 0x0a || n == 0x0d || (0x20 ≤ n && n ≤ 0x7e) || n == 0x85 ||
    (0xa0 ≤ n && n ≤ 0xfffd) || 0x10000 ≤ n

/-- The text with every line break of one line written as one line feed; the line and the
paragraph separator stay. -/
def unifyBreaks : List Char → List Char
  | [] => []
  | '\r' :: '\n' :: cs => '\n' :: unifyBreaks cs
  | c :: cs => (if c = '\r' ∨ c = '\x85' then '\n' else c) :: unifyBreaks cs

/-- A unified line break. -/
def isBreak (c : Char) : Bool :=
  c == '\n' || c == '\u2028' || c == '\u2029'

/-- A space or a tab. -/
def isBlank (c : Char) : Bool :=
  c == ' ' || c == '\t'

/-- Whether a text ends or goes on with white space. -/
def endsWord : List Char → Bool
  | [] => true
  | c :: _ => isBlank c || isBreak c

/-- Whether a text ends or goes on with a space or a break. -/
def endsField : List Char → Bool
  | [] => true
  | c :: _ => c == ' ' || isBreak c

/-- Characters of names. -/
def isNameChar (c : Char) : Bool :=
  ('0' ≤ c && c ≤ '9') || ('A' ≤ c && c ≤ 'Z') || ('a' ≤ c && c ≤ 'z') || c == '-' || c == '_'

/-- Characters that separate the parts of flow collections. -/
def isFlowIndicator (c : Char) : Bool :=
  c == ',' || c == '[' || c == ']' || c == '\x7b' || c == '\x7d'

/-- Whether a line starts with three dashes as a document marker. -/
def atDocumentStart : List Char → Bool
  | '-' :: '-' :: '-' :: cs => endsWord cs
  | _ => false

/-- Whether a line starts with three dots as a document marker. -/
def atDocumentEnd : List Char → Bool
  | '.' :: '.' :: '.' :: cs => endsWord cs
  | _ => false

/-- Whether a line starts with a document marker. -/
def atMarker (cs : List Char) : Bool :=
  atDocumentStart cs || atDocumentEnd cs

/-- White space inside a scalar that is not yet known to belong to it. -/
inductive Gap where
  | none
  | blanks (cs : List Char)
  /-- A first break and the breaks of the empty lines behind it. -/
  | folded (first : Char) (more : List Char)
  /-- The breaks behind a break that is escaped. -/
  | continued (more : List Char)
  deriving DecidableEq, Repr

namespace Gap

/-- What the gap stands for in the scalar: blanks are kept, a single line feed is a space, and
of several breaks a first line feed is dropped. -/
def text : Gap → List Char
  | .none => []
  | .blanks cs => cs
  | .folded first more =>
    if first ≠ '\n' then first :: more else if more.isEmpty then [' '] else more
  | .continued more => more

/-- The gap with one more blank; blanks at the start of a line do not count. -/
def addBlank (c : Char) : Gap → Gap
  | .none => .blanks [c]
  | .blanks cs => .blanks (cs ++ [c])
  | g => g

/-- The gap with one more break; blanks before it do not count. -/
def addBreak (c : Char) : Gap → Gap
  | .none => .folded c []
  | .blanks _ => .folded c []
  | .folded first more => .folded first (more ++ [c])
  | .continued more => .continued (more ++ [c])

end Gap
end JitLens.Yaml
