import JitLens.Proofs.Yaml.Chars
import JitLens.Yaml.FlowScalar
/-!
# Plain texts read back

A text that is written plain, with its lines broken where they grow too long, is read back as the
same text.
-/

namespace JitLens.Yaml

open Printer

/-- The state of the reader behind spaces in a word. -/
def behindSpaces (count : Nat) : PlainState :=
  if count = 0 then .word else .spaces count

theorem behindSpaces_text (count : Nat) : (behindSpaces count).text = List.replicate count ' ' := by
  cases count <;> rfl

theorem goesOn_behindSpaces {c : Char} {count : Nat} (hc : 0 < count → c ≠ '#') :
    (behindSpaces count).goesOn false 1 c = true := by
  cases count with
  | zero => rfl
  | succ count => simp [behindSpaces, PlainState.goesOn, hc (by omega)]

theorem plainFrom_space (count : Nat) (cs : List Char) :
    plainFrom false 1 (behindSpaces count) (' ' :: cs) =
      plainFrom false 1 (behindSpaces (count + 1)) cs := by
  cases count <;> simp [behindSpaces, plainFrom]

theorem plainFrom_spaces (count : Nat) (cs : List Char) :
    plainFrom false 1 .word (List.replicate count ' ' ++ cs) =
      plainFrom false 1 (behindSpaces count) cs := by
  have hgeneral : ∀ passed, plainFrom false 1 (behindSpaces passed)
      (List.replicate count ' ' ++ cs) = plainFrom false 1 (behindSpaces (passed + count)) cs := by
    induction count with
    | zero => intro passed; rfl
    | succ count ih =>
        intro passed
        rw [List.replicate_succ, List.cons_append, plainFrom_space, ih]
        congr 2
        omega
  simpa [behindSpaces] using hgeneral 0

theorem plainFrom_lineBreak (cs : List Char) :
    plainFrom false 1 .word (lineBreak ++ cs) =
      plainFrom false 1 (.line (.folded '\n' []) 2) cs := by
  rfl

/-- A character of a word goes on with the word, behind whatever was put off before it. -/
theorem plainFrom_cons {c : Char} {cs : List Char} {st : PlainState}
    (hplain : isPlainChar c = true) (hspace : c ≠ ' ') (hcolon : c = ':' → endsWord cs = false)
    (hgoes : st.goesOn false 1 c = true) :
    plainFrom false 1 st (c :: cs) =
      { plainFrom false 1 .word cs with text := st.text ++ c :: (plainFrom false 1 .word cs).text } := by
  have htab : c ≠ '\t' := by
    rintro rfl
    revert hplain
    decide
  have hends : endsPlainWord false c cs = false := by
    by_cases hc : c = ':'
    · simp [endsPlainWord, colonEnds, htab, hcolon hc]
    · simp [endsPlainWord, htab, hc]
  rw [plainFrom.eq_def]
  simp only [hspace, if_false, isBreak_eq_false hplain, Bool.false_eq_true, hends, hgoes,
    Bool.not_true, Bool.or_false]

/-- A word that goes on in a text goes on where the text is written. -/
theorem endsWord_plainText {cs : List Char} (column : Nat) (tail : List Char)
    (hcs : endsWord cs = false) : endsWord (plainText column 0 cs ++ tail) = false := by
  cases cs with
  | nil => simp [endsWord] at hcs
  | cons c cs =>
      have hspace : c ≠ ' ' := by
        rintro rfl
        revert hcs
        simp [endsWord, isBlank]
      simpa [plainText, hspace, breaksAt, endsWord] using hcs

/-- Reading what is still to be written of a plain text gives the spaces that were put off and
the text. -/
theorem plainFrom_plainText {cs tail rest : List Char} {column spaces : Nat}
    (hplain : ∀ c ∈ cs, isPlainChar c = true) (hlast : cs.getLast? ≠ some ' ')
    (hnil : cs = [] → spaces = 0) (hmarks : hasIndicator (decide (0 < spaces)) cs = false)
    (hend : plainFrom false 1 .word tail = ⟨[], rest, true⟩) :
    plainFrom false 1 .word (plainText column spaces cs ++ tail) =
      ⟨List.replicate spaces ' ' ++ cs, rest, true⟩ := by
  induction cs generalizing column spaces with
  | nil => simp [hnil rfl, plainText, hend]
  | cons c cs ih =>
      simp only [hasIndicator, Bool.or_eq_false_iff] at hmarks
      obtain ⟨⟨hcolon, hhash⟩, hmarks⟩ := hmarks
      have hplain' : ∀ d ∈ cs, isPlainChar d = true := fun d hd => hplain d (by simp [hd])
      have hlast' : cs.getLast? ≠ some ' ' := by
        cases cs with
        | nil => simp
        | cons d cs => simpa [List.getLast?_cons_cons] using hlast
      by_cases hspace : c = ' '
      · -- A space is put off.
        have hcs : cs ≠ [] := by
          rintro rfl
          simp [hspace] at hlast
        rw [plainText, if_pos hspace, ih hplain' hlast' (fun h => absurd h hcs) ?_]
        · rw [hspace, List.replicate_succ', List.append_assoc]
          rfl
        · rw [hspace] at hmarks
          simpa [isBlank] using hmarks
      · have hc := hplain c (by simp)
        have hword : ∀ column, plainFrom false 1 .word (plainText column 0 cs ++ tail) =
            ⟨cs, rest, true⟩ := by
          intro column
          have hrest : plainFrom false 1 .word (plainText column 0 cs ++ tail) =
              ⟨List.replicate 0 ' ' ++ cs, rest, true⟩ := ih hplain' hlast' (fun _ => rfl) (by
            rw [isBlank_eq_false hc hspace] at hmarks
            simpa using hmarks)
          simpa using hrest
        have hnext : ∀ column, c = ':' → endsWord (plainText column 0 cs ++ tail) = false := by
          intro column hc
          apply endsWord_plainText
          simpa [hc] using hcolon
        have hnoHash : 0 < spaces → c ≠ '#' := by
          intro hpos heq
          simp [heq, hpos] at hhash
        rw [plainText, if_neg hspace]
        split
        · next hbreak =>
          -- The one space that was put off is written as a line break.
          have hone : spaces = 1 := by
            simp only [breaksAt, Bool.and_eq_true, beq_iff_eq] at hbreak
            exact hbreak.1
          rw [List.append_assoc, plainFrom_lineBreak, List.cons_append,
            plainFrom_cons hc hspace (hnext _) (by simp [PlainState.goesOn, hnoHash (by omega)]),
            hword]
          simp [hone, PlainState.text, Gap.text]
        · rw [List.append_assoc, plainFrom_spaces, List.cons_append,
            plainFrom_cons hc hspace (hnext _) (goesOn_behindSpaces hnoHash), hword,
            behindSpaces_text]

/-- A plain scalar ends with its line if the next line is not indented. -/
theorem plainFrom_lineEnd {tail : List Char}
    (htail : ∀ c ∈ tail.head?, c ≠ ' ' ∧ isBreak c = false ∧ atMarker tail = false) :
    plainFrom false 1 .word ('\n' :: tail) = ⟨[], tail, true⟩ := by
  cases tail with
  | nil => rfl
  | cons c cs =>
      obtain ⟨hspace, hbreak, hmarker⟩ := htail c (by simp)
      have hnewline : isBreak '\n' = true := by decide
      rw [plainFrom.eq_def]
      simp only [show '\n' ≠ ' ' by decide, if_false, hnewline, if_true, hmarker,
        Bool.false_eq_true]
      rw [plainFrom.eq_def]
      simp [hspace, hbreak, PlainState.goesOn, PlainState.crossed]

/-- What a plain text is like, whatever it looks like to the reader of values. -/
structure PlainText (cs : List Char) : Prop where
  ne_nil : cs ≠ []
  plain : ∀ c ∈ cs, isPlainChar c = true
  head : cs.head? ≠ some ' '
  last : cs.getLast? ≠ some ' '
  start : mayStart cs = true
  marks : hasIndicator false (cs.drop 1) = false

theorem PlainText.of_all {cs : List Char} (hcs : cs ≠ [] ∧ cs.all isPlainChar = true ∧
    cs.head? ≠ some ' ' ∧ cs.getLast? ≠ some ' ' ∧ mayStart cs = true ∧
    hasIndicator false (cs.drop 1) = false) : PlainText cs where
  ne_nil := hcs.1
  plain := List.all_eq_true.1 hcs.2.1
  head := hcs.2.2.1
  last := hcs.2.2.2.1
  start := hcs.2.2.2.2.1
  marks := hcs.2.2.2.2.2

theorem PlainText.of_isPlain {s : String} (hs : isPlain s = true) : PlainText s.toList := by
  simp only [isPlain, Bool.and_eq_true, bne_iff_ne, Bool.not_eq_true'] at hs
  obtain ⟨⟨⟨⟨⟨⟨htag, hall⟩, hhead⟩, hlast⟩, hstart⟩, -⟩, hmarks⟩ := hs
  refine ⟨fun hnil => ?_, List.all_eq_true.1 hall, hhead, hlast, hstart, hmarks⟩
  rw [String.toList_eq_nil_iff.1 hnil] at htag
  revert htag
  decide

/-- A plain text is read back, with the rest behind its line. -/
theorem PlainText.plainFrom {cs tail : List Char} (hcs : PlainText cs) (column : Nat)
    (htail : ∀ c ∈ tail.head?, c ≠ ' ' ∧ isBreak c = false ∧ atMarker tail = false) :
    plainFrom false 1 .word (plainText column 0 cs ++ '\n' :: tail) = ⟨cs, tail, true⟩ := by
  refine plainFrom_plainText hcs.plain hcs.last (fun _ => rfl) ?_ (plainFrom_lineEnd htail)
  obtain ⟨-, hall, hhead, -, hstart, hmarks⟩ := hcs
  cases cs with
  | nil => rfl
  | cons c cs =>
      have hc : c ≠ ' ' := by simpa using hhead
      have hblank := isBlank_eq_false (hall c (by simp)) hc
      have hcolon : (c == ':' && endsWord cs) = false := by
        simp only [mayStart, Bool.and_eq_true, Bool.not_eq_true'] at hstart
        by_cases h : c = ':'
        · simpa [h] using hstart.2
        · simp [h]
      simp only [hasIndicator, hcolon, hblank]
      simpa using hmarks

end JitLens.Yaml
