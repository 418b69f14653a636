import JitLens.Text.Lines
/-!
# Words of a command line

Words are written one behind the other with spaces between them, and in single quotes unless all
their characters are safe.  Reading takes quotes and backslashes away: single quotes keep all
that is between them, double quotes all but backslashes before a double quote or a backslash.
-/

namespace JitLens.Text

/-- Characters that need no quotes. -/
def isSafe (c : Char) : Bool :=
  ('a' ≤ c && c ≤ 'z') || ('A' ≤ c && c ≤ 'Z') || ('0' ≤ c && c ≤ '9') ||
    "_@%+=:,./-".toList.contains c

/-- A character inside single quotes; a single quote is put between double quotes outside of
them. -/
def wordChar (c : Char) : List Char :=
  if c = '\'' then ['\'', '"', '\'', '"', '\''] else [c]

def writeWord (cs : List Char) : List Char :=
  if !cs.isEmpty && cs.all isSafe then cs else '\'' :: cs.flatMap wordChar ++ ['\'']

/-- Writes words with spaces between them. -/
def writeWords (words : List (List Char)) : List Char :=
  joinWith ' ' (words.map writeWord)

/-- Why a command line is not made of words. -/
inductive WordsError where
  | openQuote
  | openEscape
  deriving DecidableEq, Repr

def WordsError.message : WordsError → String
  | .openQuote => "No closing quotation"
  | .openEscape => "No escaped character"

/-- Characters between words. -/
def isWordGap (c : Char) : Bool :=
  c == ' ' || c == '\t' || c == '\r' || c == '\n'

/-- Where a command line is being read, with the word so far. -/
inductive WordState where
  | gap
  | word (cs : List Char)
  | escape (cs : List Char)
  | single (cs : List Char)
  | double (cs : List Char)
  | doubleEscape (cs : List Char)
  deriving DecidableEq, Repr

/-- The state behind a character outside of quotes, with the word so far. -/
def outside (cs : List Char) (c : Char) : WordState :=
  if c = '\\' then .escape cs
  else if c = '\'' then .single cs
  else if c = '"' then .double cs
  else .word (cs ++ [c])

def readWordsFrom : WordState → List Char → Except WordsError (List (List Char))
  | .gap, [] => .ok []
  | .word w, [] => .ok [w]
  | .escape _, [] => .error .openEscape
  | .doubleEscape _, [] => .error .openEscape
  | .single _, [] => .error .openQuote
  | .double _, [] => .error .openQuote
  | .gap, c :: cs => readWordsFrom (if isWordGap c then .gap else outside [] c) cs
  | .word w, c :: cs =>
    if isWordGap c then (readWordsFrom .gap cs).map (w :: ·) else readWordsFrom (outside w c) cs
  | .escape w, c :: cs => readWordsFrom (.word (w ++ [c])) cs
  | .single w, c :: cs => readWordsFrom (if c = '\'' then .word w else .single (w ++ [c])) cs
  | .double w, c :: cs =>
    readWordsFrom
      (if c = '"' then .word w else if c = '\\' then .doubleEscape w else .double (w ++ [c])) cs
  | .doubleEscape w, c :: cs =>
    readWordsFrom (.double (if c = '"' ∨ c = '\\' then w ++ [c] else w ++ ['\\', c])) cs

/-- Reads the words of a command line. -/
def readWords (cs : List Char) : Except WordsError (List (List Char)) :=
  readWordsFrom .gap cs

/-- A program and its arguments as a command line. -/
def commandLine (words : List String) : String :=
  String.ofList (writeWords (words.map String.toList))

end JitLens.Text
