import JitLens.Yaml.Lexer
import JitLens.Proofs.Yaml.Chars
/-!
# Positions of the lexer

Moving on changes the position of a lexer and nothing else.  Inside a line the index and the
column grow together; behind a line feed the column is zero.
-/

namespace JitLens.Yaml.Lexer

open Printer

/-- The lexer at another position. -/
def placed (l : Lexer) (index line column : Nat) (rest : List Char) : Lexer :=
  { l with index := index, line := line, column := column, rest := rest }

theorem advance_eq (l : Lexer) (c : Char) :
    ∃ index line column, l.advance c = l.placed index line column l.rest := by
  unfold advance
  split
  · exact ⟨_, _, _, rfl⟩
  · split
    · exact ⟨_, _, l.column, rfl⟩
    · exact ⟨_, l.line, _, rfl⟩

theorem foldl_advance_eq (l : Lexer) (cs : List Char) :
    ∃ index line column, cs.foldl advance l = l.placed index line column l.rest := by
  induction cs generalizing l with
  | nil => exact ⟨l.index, l.line, l.column, rfl⟩
  | cons c cs ih =>
      obtain ⟨i, n, k, hc⟩ := advance_eq l c
      obtain ⟨i', n', k', hcs⟩ := ih (l.advance c)
      refine ⟨i', n', k', ?_⟩
      rw [List.foldl_cons, hcs, hc]
      rfl

theorem moveTo_append {l : Lexer} (passed rest : List Char) (h : l.rest = passed ++ rest) :
    l.moveTo rest = { passed.foldl advance l with rest := rest } := by
  have htake : l.rest.take (l.rest.length - rest.length) = passed := by
    rw [h, List.length_append, Nat.add_sub_cancel, List.take_left]
  simp only [moveTo, htake]

theorem moveTo_self (l : Lexer) : l.moveTo l.rest = l := by
  rw [moveTo_append [] l.rest rfl]
  rfl

/-- Moving on changes the position only. -/
theorem exists_moveTo {l : Lexer} (passed rest : List Char) (h : l.rest = passed ++ rest) :
    ∃ index line column, l.moveTo rest = l.placed index line column rest := by
  obtain ⟨i, n, k, hfold⟩ := foldl_advance_eq l passed
  refine ⟨i, n, k, ?_⟩
  rw [moveTo_append _ _ h, hfold]
  rfl

theorem foldl_advance_word (l : Lexer) {cs : List Char}
    (hcs : ∀ c ∈ cs, isPlainChar c = true) :
    cs.foldl advance l =
      l.placed (l.index + cs.length) l.line (l.column + cs.length) l.rest := by
  induction cs generalizing l with
  | nil => rfl
  | cons c cs ih =>
      have hc := hcs c (by simp)
      have hmark : c ≠ '\ufeff' := by
        rintro rfl
        revert hc
        decide
      have hadvance : l.advance c = l.placed (l.index + 1) l.line (l.column + 1) l.rest := by
        simp only [advance, isBreak_eq_false hc, hmark, Bool.false_eq_true, if_false]
        rfl
      rw [List.foldl_cons, ih _ (fun d hd => hcs d (by simp [hd])), hadvance]
      simp only [placed, List.length_cons]
      congr 1 <;> omega

theorem moveTo_word {l : Lexer} (word rest : List Char) (h : l.rest = word ++ rest)
    (hword : ∀ c ∈ word, isPlainChar c = true) :
    l.moveTo rest =
      l.placed (l.index + word.length) l.line (l.column + word.length) rest := by
  rw [moveTo_append _ _ h, foldl_advance_word l hword]
  rfl

theorem moveTo_line {l : Lexer} (line rest : List Char) (h : l.rest = line ++ '\n' :: rest) :
    ∃ index number, l.moveTo rest = l.placed index number 0 rest := by
  have hrest : l.rest = (line ++ ['\n']) ++ rest := by simpa using h
  obtain ⟨i, n, k, hfold⟩ := foldl_advance_eq l line
  refine ⟨i + 1, n + 1, ?_⟩
  rw [moveTo_append _ _ hrest, List.foldl_append, hfold]
  rfl

end JitLens.Yaml.Lexer
