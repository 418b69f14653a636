import JitLens.Yaml.FlowScalar
import JitLens.Proofs.Yaml.Chars
/-!
# Texts in single quotes read back

A text that is written in single quotes, with its lines broken where they grow too long, is read
back as the same text.
-/

namespace JitLens.Yaml

namespace Printer.SingleGap

/-- The white space that is still to be written. -/
def text : SingleGap → List Char
  | .none => []
  | .spaces count _ => List.replicate count ' '
  | .breaks count => List.replicate count '\n'

/-- Whether white space that is still to be written may stand before a text: spaces and breaks do
not meet, and there is a break if any are put off. -/
def Fits : SingleGap → List Char → Prop
  | .none, _ => True
  | .spaces _ _, cs => cs.head? ≠ some '\n'
  | .breaks count, cs => 0 < count ∧ cs.head? ≠ some ' '

end Printer.SingleGap

open Printer

/-- The gap of the reader behind spaces. -/
def gapOfSpaces (count : Nat) : Gap :=
  if count = 0 then .none else .blanks (List.replicate count ' ')

@[simp] theorem gapOfSpaces_text (count : Nat) :
    (gapOfSpaces count).text = List.replicate count ' ' := by
  cases count <;> rfl

theorem addBlank_gapOfSpaces (count : Nat) :
    (gapOfSpaces count).addBlank ' ' = gapOfSpaces (count + 1) := by
  cases count with
  | zero => rfl
  | succ count => simp [gapOfSpaces, Gap.addBlank, List.replicate_succ']

theorem singleQuoted_space (gap : Gap) (cs : List Char) :
    singleQuoted gap (' ' :: cs) = singleQuoted (gap.addBlank ' ') cs := by
  rw [singleQuoted.eq_def]
  simp [isBlank]

theorem singleQuoted_spaces (count : Nat) (cs : List Char) :
    singleQuoted .none (List.replicate count ' ' ++ cs) = singleQuoted (gapOfSpaces count) cs := by
  have hgeneral : ∀ passed, singleQuoted (gapOfSpaces passed) (List.replicate count ' ' ++ cs) =
      singleQuoted (gapOfSpaces (passed + count)) cs := by
    induction count with
    | zero => intro passed; rfl
    | succ count ih =>
        intro passed
        rw [List.replicate_succ, List.cons_append, singleQuoted_space, addBlank_gapOfSpaces, ih]
        congr 2
        omega
  simpa [gapOfSpaces] using hgeneral 0

theorem singleQuoted_newline {c : Char} (gap : Gap) (cs : List Char) (hdash : c ≠ '-')
    (hdot : c ≠ '.') :
    singleQuoted gap ('\n' :: c :: cs) = singleQuoted (gap.addBreak '\n') (c :: cs) := by
  rw [singleQuoted.eq_def]
  simp [isBlank, isBreak, atMarker_eq_false cs hdash hdot]

theorem singleQuoted_newlines (count : Nat) (more cs : List Char) :
    singleQuoted (.folded '\n' more) (List.replicate count '\n' ++ '\n' :: ' ' :: cs) =
      singleQuoted (.folded '\n' (more ++ List.replicate (count + 1) '\n')) (' ' :: cs) := by
  induction count generalizing more with
  | zero => exact singleQuoted_newline _ cs (by decide) (by decide)
  | succ count ih =>
      have hnext : ∃ ds, List.replicate count '\n' ++ '\n' :: ' ' :: cs = '\n' :: ds := by
        cases count with
        | zero => exact ⟨_, rfl⟩
        | succ count => exact ⟨_, rfl⟩
      obtain ⟨ds, hds⟩ := hnext
      rw [List.replicate_succ, List.cons_append, hds,
        singleQuoted_newline _ ds (by decide) (by decide), ← hds, Gap.addBreak, ih]
      simp [List.replicate_succ]

/-- The gap of the reader behind a line break and the breaks before it. -/
theorem singleQuoted_breaks (count : Nat) (cs : List Char) :
    singleQuoted .none (List.replicate count '\n' ++ (lineBreak ++ cs)) =
      singleQuoted (.folded '\n' (List.replicate count '\n')) cs := by
  have hindent : ∀ more, singleQuoted (.folded '\n' more) (' ' :: ' ' :: cs) =
      singleQuoted (.folded '\n' more) cs := by
    intro more
    rw [singleQuoted_space, singleQuoted_space]
    rfl
  have hlineBreak : lineBreak ++ cs = '\n' :: ' ' :: ' ' :: cs := rfl
  rw [hlineBreak]
  cases count with
  | zero =>
      rw [List.replicate_zero, List.nil_append,
        singleQuoted_newline _ _ (by decide) (by decide), Gap.addBreak, hindent]
  | succ count =>
      have hnext : ∃ ds, List.replicate count '\n' ++ '\n' :: ' ' :: ' ' :: cs = '\n' :: ds := by
        cases count with
        | zero => exact ⟨_, rfl⟩
        | succ count => exact ⟨_, rfl⟩
      obtain ⟨ds, hds⟩ := hnext
      rw [List.replicate_succ, List.cons_append, hds,
        singleQuoted_newline _ ds (by decide) (by decide), ← hds, Gap.addBreak,
        singleQuoted_newlines, hindent]
      rfl

theorem singleQuoted_singleChar {c : Char} (gap : Gap) (cs : List Char)
    (hplain : isPlainChar c = true) (hspace : c ≠ ' ') :
    singleQuoted gap (singleChar c ++ cs) = emit (gap.text ++ [c]) (singleQuoted .none cs) := by
  by_cases hquote : c = '\''
  · rw [hquote]
    rfl
  · rw [singleChar, if_neg hquote, List.cons_append, List.nil_append, singleQuoted.eq_def]
    simp [hquote, isBlank_eq_false hplain hspace, isBreak_eq_false hplain]

theorem hasBlankAtBreak_cons {c : Char} {cs : List Char} (h : hasBlankAtBreak (c :: cs) = false) :
    hasBlankAtBreak cs = false ∧ (c = ' ' → cs.head? ≠ some '\n') ∧
      (c = '\n' → cs.head? ≠ some ' ') := by
  cases cs with
  | nil => simp [hasBlankAtBreak]
  | cons d cs =>
      simp only [hasBlankAtBreak, Bool.or_eq_false_iff, Bool.and_eq_false_iff,
        beq_eq_false_iff_ne] at h
      obtain ⟨⟨hfirst, hsecond⟩, hrest⟩ := h
      refine ⟨hrest, fun hc => ?_, fun hc => ?_⟩
      · simpa using hfirst.resolve_left (not_not_intro hc)
      · simpa using hsecond.resolve_left (not_not_intro hc)

/-- Before a character of a word the white space that was put off is written, and it is read as
what it stands for. -/
theorem exists_singleText_cons {c : Char} {cs : List Char} {gap : SingleGap} (column : Nat)
    (leading : Bool) (hplain : isPlainChar c = true) (hspace : c ≠ ' ') (hbreak : c ≠ '\n')
    (hgap : gap.Fits (c :: cs)) :
    ∃ white column',
      singleText column leading gap (c :: cs) =
        white ++ (singleChar c ++ singleText column' false .none cs) ∧
      ∀ rest, singleQuoted .none (white ++ (singleChar c ++ rest)) =
        emit (gap.text ++ [c]) (singleQuoted .none rest) := by
  rw [singleText.eq_def]
  simp only [hspace, hbreak, if_false]
  cases gap with
  | none =>
      refine ⟨[], _, by rw [List.nil_append], fun rest => ?_⟩
      exact singleQuoted_singleChar _ _ hplain hspace
  | spaces count lead =>
      dsimp only
      split
      · next hbreaks =>
        -- The one space that was put off is written as a line break.
        have hone : count = 1 := by
          simp only [breaksAt, Bool.and_eq_true, beq_iff_eq] at hbreaks
          exact hbreaks.1.1
        refine ⟨lineBreak, _, by rw [List.append_assoc], fun rest => ?_⟩
        have hread := singleQuoted_breaks 0 (singleChar c ++ rest)
        rw [List.replicate_zero, List.nil_append] at hread
        rw [hread, singleQuoted_singleChar _ _ hplain hspace, hone]
        rfl
      · refine ⟨List.replicate count ' ', _, by rw [List.append_assoc], fun rest => ?_⟩
        rw [singleQuoted_spaces, singleQuoted_singleChar _ _ hplain hspace, gapOfSpaces_text]
        rfl
  | breaks count =>
      refine ⟨List.replicate count '\n' ++ lineBreak, _, by simp only [List.append_assoc]; rfl,
        fun rest => ?_⟩
      have hcount : 0 < count := hgap.1
      rw [List.append_assoc, singleQuoted_breaks, singleQuoted_singleChar _ _ hplain hspace]
      cases count with
      | zero => omega
      | succ count => rfl

/-- At the end of a text the white space that was put off is written. -/
theorem singleQuoted_singleText_nil {tail : List Char} {gap : SingleGap} (column : Nat)
    (leading : Bool) (hgap : gap.Fits [])
    (hclose : ∀ gap : Gap, singleQuoted gap ('\'' :: tail) = .ok (gap.text, tail)) :
    singleQuoted .none (singleText column leading gap [] ++ '\'' :: tail) =
      .ok (gap.text, tail) := by
  cases gap with
  | none => exact hclose .none
  | spaces count lead =>
      rw [singleText, singleQuoted_spaces, hclose, gapOfSpaces_text]
      rfl
  | breaks count =>
      have hcount : 0 < count := hgap.1
      rw [singleText, List.append_assoc, singleQuoted_breaks, hclose]
      cases count with
      | zero => omega
      | succ count => rfl

/-- Reading what is still to be written of a text in single quotes gives the white space that was
put off and the text. -/
theorem singleQuoted_singleText {cs tail : List Char} {column : Nat} {leading : Bool}
    {gap : SingleGap} (hwritten : ∀ c ∈ cs, IsWritten c) (hblank : hasBlankAtBreak cs = false)
    (hgap : gap.Fits cs) (htail : tail.head? ≠ some '\'') :
    singleQuoted .none (singleText column leading gap cs ++ '\'' :: tail) =
      .ok (gap.text ++ cs, tail) := by
  have hclose : ∀ gap : Gap, singleQuoted gap ('\'' :: tail) = .ok (gap.text, tail) := by
    intro gap
    cases tail with
    | nil => rfl
    | cons c tail =>
        rw [singleQuoted.eq_def]
        simp_all
  induction cs generalizing column leading gap with
  | nil => rw [singleQuoted_singleText_nil column leading hgap hclose, List.append_nil]
  | cons c cs ih =>
      have hwritten' : ∀ d ∈ cs, IsWritten d := fun d hd => hwritten d (by simp [hd])
      obtain ⟨hblank', hspaceNext, hbreakNext⟩ := hasBlankAtBreak_cons hblank
      by_cases hspace : c = ' '
      · -- A space is put off; it cannot meet a break.
        have hnext : ∀ count lead,
            singleQuoted .none
                (singleText column false (.spaces count lead) cs ++ '\'' :: tail) =
              .ok (SingleGap.text (.spaces count lead) ++ cs, tail) :=
          fun _ _ => ih hwritten' hblank' (hspaceNext hspace)
        subst hspace
        rw [singleText.eq_def]
        cases gap with
        | none => exact hnext 1 leading
        | spaces count lead =>
            simp only [if_true]
            rw [hnext]
            simp [SingleGap.text, List.replicate_succ']
        | breaks count => exact absurd rfl hgap.2
      · by_cases hbreak : c = '\n'
        · -- A break is put off; it cannot meet a space.
          have hnext : ∀ count,
              singleQuoted .none
                  (singleText column false (.breaks (count + 1)) cs ++ '\'' :: tail) =
                .ok (SingleGap.text (.breaks (count + 1)) ++ cs, tail) :=
            fun _ => ih hwritten' hblank' ⟨by omega, hbreakNext hbreak⟩
          subst hbreak
          rw [singleText.eq_def]
          cases gap with
          | none => exact hnext 0
          | spaces count lead => exact absurd rfl hgap
          | breaks count =>
              simp only [show '\n' ≠ ' ' by decide, if_false, if_true]
              rw [hnext]
              simp [SingleGap.text, List.replicate_succ']
        · have hplain : isPlainChar c = true := (hwritten c (by simp)).resolve_left hbreak
          obtain ⟨white, column', htext, hread⟩ :=
            exists_singleText_cons column leading hplain hspace hbreak hgap
          have hrest : singleQuoted .none (singleText column' false .none cs ++ '\'' :: tail) =
              .ok (SingleGap.text .none ++ cs, tail) := ih hwritten' hblank' trivial
          rw [htext, List.append_assoc, List.append_assoc, hread, hrest]
          simp [emit, SingleGap.text]

/-- A text that may be written in single quotes is read back, up to the closing quote. -/
theorem singleQuoted_of_isSingle {cs tail : List Char} (column : Nat) (hcs : isSingle cs = true)
    (htail : tail.head? ≠ some '\'') :
    singleQuoted .none (singleText column true .none cs ++ '\'' :: tail) = .ok (cs, tail) := by
  simp only [isSingle, Bool.and_eq_true, Bool.not_eq_true', List.all_eq_true, Bool.or_eq_true,
    beq_iff_eq] at hcs
  exact singleQuoted_singleText hcs.1 hcs.2 trivial htail

end JitLens.Yaml
