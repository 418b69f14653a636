/-!
# Lines of a text

A text is cut at every character that ends a line: line feed, carriage return, vertical tab,
form feed, the file, group and record separators, next line, and the line and paragraph
separators.  A carriage return and the line feed behind it end one line together.  What stands
behind the last line end is a line only if it is not empty.
-/

namespace JitLens.Text

/-- Characters that end a line. -/
def endsLine (c : Char) : Bool :=
  let n := c.toNat
  (0x0a ≤ n && n ≤ 0x0d) || (0x1c ≤ n && n ≤ 0x1e) || n == 0x85 || n == 0x2028 || n == 0x2029

/-- The lines of a text, without their line ends. -/
def lines : List Char → List (List Char)
  | [] => []
  | '\r' :: '\n' :: cs => [] :: lines cs
  | c :: cs =>
    if endsLine c then [] :: lines cs
    else match lines cs with
      | [] => [[c]]
      | l :: ls => (c :: l) :: ls

/-- The text with a carriage return, alone or before a line feed, read as a line feed. -/
def unifyLineEnds : List Char → List Char
  | [] => []
  | '\r' :: '\n' :: cs => '\n' :: unifyLineEnds cs
  | '\r' :: cs => '\n' :: unifyLineEnds cs
  | c :: cs => c :: unifyLineEnds cs

/-- The pieces of a text between the occurrences of one character; never an empty list. -/
def splitOn (sep : Char) : List Char → List (List Char)
  | [] => [[]]
  | c :: cs =>
    if c = sep then [] :: splitOn sep cs
    else match splitOn sep cs with
      | [] => [[c]]
      | l :: ls => (c :: l) :: ls

/-- The pieces with one character between them. -/
def joinWith (sep : Char) : List (List Char) → List Char
  | [] => []
  | [l] => l
  | l :: ls => l ++ sep :: joinWith sep ls

theorem splitOn_ne_nil (sep : Char) (cs : List Char) : splitOn sep cs ≠ [] := by
  cases cs with
  | nil => simp [splitOn]
  | cons c cs =>
    simp only [splitOn]
    split
    · simp
    · split <;> simp

/-- Cutting at a character loses nothing but its occurrences. -/
theorem joinWith_splitOn (sep : Char) (cs : List Char) : joinWith sep (splitOn sep cs) = cs := by
  induction cs with
  | nil => rfl
  | cons c cs ih =>
    simp only [splitOn]
    cases h : splitOn sep cs with
    | nil => exact absurd h (splitOn_ne_nil sep cs)
    | cons l ls =>
      rw [h] at ih
      split
      · rename_i hc
        subst hc
        simp [joinWith, ih]
      · cases ls with
        | nil => simp_all [joinWith]
        | cons m ms => simp_all [joinWith]

theorem splitOn_of_not_mem {sep : Char} {cs : List Char} (h : sep ∉ cs) :
    splitOn sep cs = [cs] := by
  induction cs with
  | nil => rfl
  | cons c cs ih =>
    rw [List.mem_cons, not_or] at h
    simp [splitOn, Ne.symm h.1, ih h.2]

theorem splitOn_append {sep : Char} {cs : List Char} (h : sep ∉ cs) (rest : List Char) :
    splitOn sep (cs ++ sep :: rest) = cs :: splitOn sep rest := by
  induction cs with
  | nil => simp [splitOn]
  | cons c cs ih =>
    rw [List.mem_cons, not_or] at h
    simp [splitOn, Ne.symm h.1, ih h.2]

/-- A text is cut at an occurrence of the character into the pieces on both sides of it. -/
theorem splitOn_append_cons (sep : Char) (cs ds : List Char) :
    splitOn sep (cs ++ sep :: ds) = splitOn sep cs ++ splitOn sep ds := by
  induction cs with
  | nil => simp [splitOn]
  | cons c cs ih =>
    rw [List.cons_append, splitOn, splitOn, ih]
    split
    · rfl
    · cases hsplit : splitOn sep cs with
      | nil => exact absurd hsplit (splitOn_ne_nil sep cs)
      | cons l ls => rfl

/-- No piece has the character that a text was cut at. -/
theorem not_mem_of_mem_splitOn {sep : Char} {cs l : List Char} (hl : l ∈ splitOn sep cs) :
    sep ∉ l := by
  induction cs generalizing l with
  | nil => simp_all [splitOn]
  | cons c cs ih =>
    simp only [splitOn] at hl
    split at hl
    · rcases List.mem_cons.1 hl with rfl | hl
      · simp
      · exact ih hl
    · rename_i hc
      split at hl
      · simp_all [Ne.symm hc]
      · rename_i m ms hsplit
        rw [hsplit] at ih
        rcases List.mem_cons.1 hl with rfl | hl
        · simp [Ne.symm hc, ih (List.mem_cons_self ..)]
        · exact ih (List.mem_cons_of_mem _ hl)

/-- A text has two pieces if the character stands in it once. -/
theorem splitOn_eq_pair_iff {sep : Char} {cs left right : List Char} :
    splitOn sep cs = [left, right] ↔ cs = left ++ sep :: right ∧ sep ∉ left ∧ sep ∉ right := by
  constructor
  · intro h
    have hjoin := joinWith_splitOn sep cs
    have hleft : left ∈ splitOn sep cs := by simp [h]
    have hright : right ∈ splitOn sep cs := by simp [h]
    rw [h] at hjoin
    exact ⟨hjoin.symm, not_mem_of_mem_splitOn hleft, not_mem_of_mem_splitOn hright⟩
  · rintro ⟨rfl, hleft, hright⟩
    rw [splitOn_append hleft, splitOn_of_not_mem hright]

end JitLens.Text
