import JitLens.Proofs.Text.Lines
import JitLens.Text.Blank
import JitLens.Text.Words
/-!
# Words read back

Words that are written on a command line are read from it again, whatever characters are in them.
A written word takes the reader from a gap to the end of the word, so that the space behind it is
what ends it.
-/

namespace JitLens.Text

/-! ## Safe characters -/

theorem isWordGap_of_isSafe {c : Char} (hc : isSafe c = true) : isWordGap c = false := by
  rw [Bool.eq_false_iff]
  intro hgap
  simp only [isWordGap, Bool.or_eq_true, beq_iff_eq] at hgap
  rcases hgap with ((rfl | rfl) | rfl) | rfl <;> exact absurd hc (by decide)

theorem outside_of_isSafe {c : Char} (hc : isSafe c = true) (w : List Char) :
    outside w c = .word (w ++ [c]) := by
  have hbackslash : c ≠ '\\' := by
    rintro rfl
    exact absurd hc (by decide)
  have hsingle : c ≠ '\'' := by
    rintro rfl
    exact absurd hc (by decide)
  have hdouble : c ≠ '"' := by
    rintro rfl
    exact absurd hc (by decide)
  rw [outside, if_neg hbackslash, if_neg hsingle, if_neg hdouble]

theorem isBlank_of_isSafe {c : Char} (hc : isSafe c = true) : isBlank c = false := by
  have hrange : 0x21 ≤ c.toNat ∧ c.toNat ≤ 0x7a := by
    simp only [isSafe, Bool.or_eq_true, Bool.and_eq_true, decide_eq_true_eq,
      List.contains_iff_mem] at hc
    rcases hc with ((⟨hfirst, hlast⟩ | ⟨hfirst, hlast⟩) | ⟨hfirst, hlast⟩) | hmem
    · exact ⟨Nat.le_trans (by decide) hfirst, Nat.le_trans hlast (by decide)⟩
    · exact ⟨Nat.le_trans (by decide) hfirst, Nat.le_trans hlast (by decide)⟩
    · exact ⟨Nat.le_trans (by decide) hfirst, Nat.le_trans hlast (by decide)⟩
    · have hrest : ("_@%+=:,./-".toList.all fun d =>
          decide (0x21 ≤ d.toNat ∧ d.toNat ≤ 0x7a)) = true := by decide
      exact of_decide_eq_true (List.all_eq_true.1 hrest c hmem)
  simp only [isBlank, Bool.or_eq_false_iff, Bool.and_eq_false_iff, decide_eq_false_iff_not,
    beq_eq_false_iff_ne]
  omega

/-! ## One word -/

/-- Safe characters go on with a word as they are. -/
theorem readWordsFrom_safe {cs : List Char} (hcs : ∀ c ∈ cs, isSafe c = true)
    (w rest : List Char) :
    readWordsFrom (.word w) (cs ++ rest) = readWordsFrom (.word (w ++ cs)) rest := by
  induction cs generalizing w with
  | nil => simp
  | cons c cs ih =>
      have hc : isSafe c = true := hcs c List.mem_cons_self
      rw [List.cons_append, readWordsFrom, if_neg (by simp [isWordGap_of_isSafe hc]),
        outside_of_isSafe hc, ih fun d hd => hcs d (List.mem_cons_of_mem _ hd)]
      simp

/-- A single quote among single quotes takes four steps: out of them, into double quotes, back
out, and into single quotes again. -/
theorem readWordsFrom_wordChar (c : Char) (w rest : List Char) :
    readWordsFrom (.single w) (wordChar c ++ rest) = readWordsFrom (.single (w ++ [c])) rest := by
  by_cases hc : c = '\''
  · subst hc
    rfl
  · rw [wordChar, if_neg hc, List.singleton_append, readWordsFrom, if_neg hc]

theorem readWordsFrom_wordChars (w cs rest : List Char) :
    readWordsFrom (.single w) (cs.flatMap wordChar ++ rest) =
      readWordsFrom (.single (w ++ cs)) rest := by
  induction cs generalizing w with
  | nil => simp
  | cons c cs ih =>
      rw [List.flatMap_cons, List.append_assoc, readWordsFrom_wordChar, ih]
      simp

/-- A written word takes the reader from a gap to the end of the word. -/
theorem readWordsFrom_writeWord (w rest : List Char) :
    readWordsFrom .gap (writeWord w ++ rest) = readWordsFrom (.word w) rest := by
  unfold writeWord
  split
  · next hsafe =>
    rw [Bool.and_eq_true, List.all_eq_true] at hsafe
    obtain ⟨hne, hall⟩ := hsafe
    obtain ⟨c, cs, rfl⟩ := List.exists_cons_of_ne_nil (show w ≠ [] by simpa using hne)
    have hc : isSafe c = true := hall c List.mem_cons_self
    rw [List.cons_append, readWordsFrom, if_neg (by simp [isWordGap_of_isSafe hc]),
      outside_of_isSafe hc, List.nil_append,
      readWordsFrom_safe fun d hd => hall d (List.mem_cons_of_mem _ hd)]
    rfl
  · have hopen : readWordsFrom .gap ('\'' :: w.flatMap wordChar ++ ['\''] ++ rest) =
        readWordsFrom (.single []) (w.flatMap wordChar ++ ('\'' :: rest)) := by
      simp [readWordsFrom, isWordGap, outside]
    rw [hopen, readWordsFrom_wordChars, readWordsFrom, if_pos rfl, List.nil_append]

/-- Written words are never blank, not even the empty one. -/
theorem exists_mem_writeWord (w : List Char) : ∃ c ∈ writeWord w, isBlank c = false := by
  unfold writeWord
  split
  · next hsafe =>
    rw [Bool.and_eq_true, List.all_eq_true] at hsafe
    obtain ⟨c, cs, rfl⟩ := List.exists_cons_of_ne_nil (show w ≠ [] by simpa using hsafe.1)
    exact ⟨c, List.mem_cons_self, isBlank_of_isSafe (hsafe.2 c List.mem_cons_self)⟩
  · exact ⟨'\'', by simp, by decide⟩

/-! ## All words -/

/-- Words that were written are read back. -/
theorem readWords_writeWords (words : List (List Char)) :
    readWords (writeWords words) = .ok words := by
  unfold readWords writeWords
  induction words with
  | nil => rfl
  | cons w words ih =>
      by_cases hlast : words = []
      · subst hlast
        have hword := readWordsFrom_writeWord w []
        rwa [List.append_nil] at hword
      · rw [List.map_cons, joinWith_cons (by simpa using hlast), readWordsFrom_writeWord,
          readWordsFrom, if_pos (by decide), ih]
        rfl

theorem toList_commandLine (words : List String) :
    (commandLine words).toList = writeWords (words.map String.toList) :=
  String.toList_ofList

/-- The words of a command line are those that it was made of. -/
theorem readWords_commandLine (words : List String) :
    (readWords (commandLine words).toList).map (List.map String.ofList) = .ok words := by
  rw [toList_commandLine, readWords_writeWords]
  simp [Except.map]

/-- A command line is blank only if there is no word on it. -/
theorem eq_nil_of_blank_commandLine {words : List String}
    (hblank : blankString (commandLine words) = true) : words = [] := by
  cases words with
  | nil => rfl
  | cons w words =>
      obtain ⟨c, hc, hhead⟩ := exists_mem_writeWord w.toList
      have hmem : c ∈ (commandLine (w :: words)).toList := by
        rw [toList_commandLine, writeWords, List.map_cons, List.map_cons]
        by_cases hlast : words = []
        · subst hlast
          exact hc
        · rw [joinWith_cons (by simpa using hlast)]
          exact List.mem_append_left _ hc
      rw [blankString, allBlank, List.all_eq_true] at hblank
      rw [hblank c hmem] at hhead
      cases hhead

end JitLens.Text
