/-!
# Blank characters and trimming

The characters that trimming removes: the white space of every script together with the four
information separators.  Trimming works on lists of characters; the functions on strings are
thin wrappers.
-/

namespace JitLens.Text

/-- Characters that count as white space at the ends of a text. -/
def isBlank (c : Char) : Bool :=
  let n := c.toNat
  (0x09 ≤ n && n ≤ 0x0d) || (0x1c ≤ n && n ≤ 0x20) || n == 0x85 || n == 0xa0 || n == 0x1680 ||
    (0x2000 ≤ n && n ≤ 0x200a) || n == 0x2028 || n == 0x2029 || n == 0x202f || n == 0x205f ||
    n == 0x3000

/-- The text without the blanks at its end. -/
def trimEnd (cs : List Char) : List Char :=
  (cs.reverse.dropWhile isBlank).reverse

/-- The text without the blanks at either end. -/
def trim (cs : List Char) : List Char :=
  trimEnd (cs.dropWhile isBlank)

/-- A text of blanks only; the empty text is one. -/
def allBlank (cs : List Char) : Bool :=
  cs.all isBlank

/-- A string without the blanks at either end. -/
def trimmed (s : String) : String :=
  String.ofList (trim s.toList)

/-- A string of blanks only; the empty string is one. -/
def blankString (s : String) : Bool :=
  allBlank s.toList

@[simp] theorem trim_nil : trim [] = [] := rfl

theorem dropWhile_eq_nil_of_allBlank {cs : List Char} (h : allBlank cs = true) :
    cs.dropWhile isBlank = [] := by
  induction cs with
  | nil => rfl
  | cons c cs ih =>
    simp only [allBlank, List.all_cons, Bool.and_eq_true] at h
    simp only [List.dropWhile_cons, h.1, if_true]
    exact ih h.2

/-- A blank text trims to nothing. -/
theorem trim_eq_nil_of_allBlank {cs : List Char} (h : allBlank cs = true) : trim cs = [] := by
  simp [trim, trimEnd, dropWhile_eq_nil_of_allBlank h]

end JitLens.Text
