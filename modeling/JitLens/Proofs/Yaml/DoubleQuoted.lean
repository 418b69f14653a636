import JitLens.Yaml.FlowScalar
import JitLens.Proofs.Text.Digit
import JitLens.Proofs.Yaml.Chars
/-!
# Texts in double quotes read back

A text of any characters that is written in double quotes, with escapes and with its lines broken
where they grow too long, is read back as the same text.
-/

namespace JitLens.Yaml

open Printer

/-! ## Escapes -/

theorem eq_ofNat_of_toNat {c : Char} {n : Nat} (hc : c.toNat = n) : c = Char.ofNat n := by
  rw [← hc, Char.ofNat_toNat]

theorem escapeChar?_escapeLetter? {c letter : Char} (h : escapeLetter? c = some letter) :
    escapeChar? letter = some c ∧ isBreak letter = false := by
  unfold escapeLetter? at h
  split at h
  case h_16 => cases h
  all_goals
    next hc =>
    rw [eq_ofNat_of_toNat hc]
    cases h
    decide

theorem charOfCode_toNat (c : Char) : charOfCode c.toNat = .ok c := by
  have hvalid : c.toNat.isValidChar := c.valid
  have hlt : c.toNat < 0x110000 := by
    rcases hvalid with h | h <;> omega
  rw [charOfCode, if_neg (by omega), if_pos hvalid, Char.ofNat_toNat]

theorem readEscape_hexDigits {mark c : Char} {width : Nat} (rest : List Char)
    (hmark : escapeChar? mark = none) (hwidth : escapeWidth? mark = some width) (hpos : 0 < width)
    (hfits : c.toNat < 16 ^ width) :
    readEscape (mark :: (Text.hexDigits true width c.toNat ++ rest)) = .ok (c, width + 1) := by
  have htake : (Text.hexDigits true width c.toNat ++ rest).take width =
      Text.hexDigits true width c.toNat := by
    rw [List.take_append_of_le_length (by simp), List.take_of_length_le (by simp)]
  simp only [readEscape, hmark, hwidth, htake, Text.length_hexDigits, if_true,
    Text.number?_hexDigits hpos hfits, charOfCode_toNat]
  rfl

/-- An escape is read as its character. -/
theorem exists_readEscape_escape (c : Char) :
    ∃ mark digits, escape c = '\\' :: mark :: digits ∧ isBreak mark = false ∧
      ∀ rest, readEscape (mark :: (digits ++ rest)) = .ok (c, digits.length + 1) := by
  have hlt : c.toNat < 16 ^ 8 := by
    have hvalid : c.toNat.isValidChar := c.valid
    rcases hvalid with h | h <;> omega
  unfold escape
  split
  · next letter hletter =>
    obtain ⟨hread, hbreak⟩ := escapeChar?_escapeLetter? hletter
    refine ⟨letter, [], rfl, hbreak, fun rest => ?_⟩
    simp only [readEscape, hread]
    rfl
  · dsimp only
    split
    · refine ⟨'x', _, rfl, by decide, fun rest => ?_⟩
      rw [readEscape_hexDigits rest (by decide) (by decide) (by decide) (by omega),
        Text.length_hexDigits]
    · split
      · refine ⟨'u', _, rfl, by decide, fun rest => ?_⟩
        rw [readEscape_hexDigits rest (by decide) (by decide) (by decide) (by omega),
          Text.length_hexDigits]
      · refine ⟨'U', _, rfl, by decide, fun rest => ?_⟩
        rw [readEscape_hexDigits rest (by decide) (by decide) (by decide) hlt,
          Text.length_hexDigits]

theorem doubleQuoted_skip (gap : Gap) (passed cs : List Char) :
    doubleQuoted gap passed.length (passed ++ cs) = doubleQuoted gap 0 cs := by
  induction passed with
  | nil => rfl
  | cons c passed ih => rw [List.length_cons, List.cons_append, doubleQuoted, ih]

theorem doubleQuoted_escape (gap : Gap) (c : Char) (cs : List Char) :
    doubleQuoted gap 0 (escape c ++ cs) = emit (gap.text ++ [c]) (doubleQuoted .none 0 cs) := by
  obtain ⟨mark, digits, hescape, hbreak, hread⟩ := exists_readEscape_escape c
  have hskip := doubleQuoted_skip .none (mark :: digits) cs
  rw [List.length_cons, List.cons_append] at hskip
  rw [hescape, List.cons_append, List.cons_append, doubleQuoted.eq_def]
  simp only [show '\\' ≠ '"' by decide, if_false, if_true, startsWithBreak, hbreak,
    Bool.false_eq_true, hread, hskip]

/-! ## Characters and line breaks -/

theorem emit_emit (cs ds : List Char) (r : Except ReadError (List Char × List Char)) :
    emit cs (emit ds r) = emit (cs ++ ds) r := by
  cases r with
  | error e => rfl
  | ok p => simp [emit]

theorem doubleQuoted_char {c : Char} (gap : Gap) (cs : List Char) (hc : isEscaped c = false)
    (hspace : c ≠ ' ') :
    doubleQuoted gap 0 (c :: cs) = emit (gap.text ++ [c]) (doubleQuoted .none 0 cs) := by
  simp only [isEscaped, Bool.or_eq_false_iff, beq_eq_false_iff_ne, Bool.not_eq_false'] at hc
  obtain ⟨⟨hquote, hback⟩, hplain⟩ := hc
  rw [doubleQuoted.eq_def]
  simp only [hquote, hback, isBlank_eq_false hplain hspace, isBreak_eq_false hplain, if_false,
    Bool.false_eq_true]

theorem doubleQuoted_space (gap : Gap) (cs : List Char) :
    doubleQuoted gap 0 (' ' :: cs) = doubleQuoted (gap.addBlank ' ') 0 cs := by
  rw [doubleQuoted.eq_def]
  simp [isBlank]

theorem doubleQuoted_lineBreak (gap : Gap) (cs : List Char) :
    doubleQuoted gap 0 ('\\' :: (lineBreak ++ cs)) =
      emit gap.text (doubleQuoted (.continued []) 0 cs) := by
  have hmarker := atMarker_eq_false (' ' :: cs) (show ' ' ≠ '-' by decide)
    (show ' ' ≠ '.' by decide)
  have hindent : doubleQuoted (.continued []) 1 ('\n' :: ' ' :: ' ' :: cs) =
      doubleQuoted (.continued []) 0 cs := by
    rw [doubleQuoted, doubleQuoted_space, doubleQuoted_space]
    rfl
  rw [show lineBreak ++ cs = '\n' :: ' ' :: ' ' :: cs from rfl, doubleQuoted.eq_def]
  simp only [show '\\' ≠ '"' by decide, if_false, if_true, startsWithBreak,
    show isBreak '\n' = true by decide, List.drop_succ_cons, List.drop_zero, hmarker,
    Bool.false_eq_true, hindent]

/-- Behind the break of a line a text goes on, and a space at its front is read as an escape. -/
theorem doubleQuoted_doubleBreak_space {cs : List Char} (gap : Gap) (rest : List Char)
    (hcs : cs.head? = some ' ') :
    doubleQuoted gap 0 (doubleBreak cs ++ ' ' :: rest) =
      emit (gap.text ++ [' ']) (doubleQuoted .none 0 rest) := by
  have hbroken : doubleBreak cs ++ ' ' :: rest = '\\' :: (lineBreak ++ '\\' :: ' ' :: rest) := by
    rw [doubleBreak, if_pos hcs]
    rfl
  have hescaped : doubleQuoted (.continued []) 0 ('\\' :: ' ' :: rest) =
      emit [' '] (doubleQuoted .none 0 rest) := rfl
  rw [hbroken, doubleQuoted_lineBreak, hescaped, emit_emit]

theorem doubleQuoted_doubleBreak {cs : List Char} (gap : Gap) (rest : List Char)
    (hcs : cs.head? ≠ some ' ') :
    doubleQuoted gap 0 (doubleBreak cs ++ rest) =
      emit gap.text (doubleQuoted (.continued []) 0 rest) := by
  have hbroken : doubleBreak cs ++ rest = '\\' :: (lineBreak ++ rest) := by
    rw [doubleBreak, if_neg hcs]
    rfl
  rw [hbroken, doubleQuoted_lineBreak]

theorem columnBehind_le (cs : List Char) :
    indent + ((doubleBreak cs).length - indent - 2) ≤ 3 := by
  unfold doubleBreak
  split <;> decide

theorem doubleText_space {column : Nat} (cs : List Char) (first behindEscape : Bool)
    (hcolumn : column ≤ width) :
    doubleText column first behindEscape (' ' :: cs) =
      ' ' :: doubleText (column + 1) false false cs := by
  have hwidth : decide (width < column) = false := by simpa using hcolumn
  rw [doubleText.eq_def]
  simp [isEscaped, isPlainChar, hwidth]

/-! ## Texts -/

/-- Whether a gap of the reader may stand before a text: behind a line break that is escaped, a
space at the front of the text would be lost. -/
def Gap.MayPrecede : Gap → List Char → Prop
  | .none, _ => True
  | .blanks _, _ => True
  | .folded _ _, _ => False
  | .continued more, cs => more = [] ∧ cs.head? ≠ some ' '

/-- Wherever a text is written inside double quotes, it is read behind the gap before it. -/
def ReadsBack (tail cs : List Char) : Prop :=
  ∀ (column : Nat) (first behindEscape : Bool) (gap : Gap), gap.MayPrecede cs →
    doubleQuoted gap 0 (doubleText column first behindEscape cs ++ '"' :: tail) =
      .ok (gap.text ++ cs, tail)

theorem ReadsBack.nil (tail : List Char) : ReadsBack tail [] := by
  intro column first behindEscape gap _
  rw [doubleText, List.nil_append, doubleQuoted.eq_def]
  simp

theorem ReadsBack.cons_escaped {tail cs : List Char} {c : Char} (hc : isEscaped c = true)
    (hcs : ReadsBack tail cs) (hbehind : ∀ ds, cs = ' ' :: ds → ReadsBack tail ds) :
    ReadsBack tail (c :: cs) := by
  intro column first behindEscape gap _
  rw [doubleText.eq_def]
  simp only [hc, if_true]
  split
  · rw [List.append_assoc, List.append_assoc, doubleQuoted_escape]
    have hcolumn := columnBehind_le cs
    by_cases hhead : cs.head? = some ' '
    · obtain ⟨ds, rfl⟩ := List.head?_eq_some_iff.1 hhead
      rw [doubleText_space ds false true (Nat.le_trans hcolumn (by decide)), List.cons_append,
        doubleQuoted_doubleBreak_space _ _ hhead, hbehind ds rfl _ _ _ .none trivial]
      simp [emit, Gap.text]
    · rw [doubleQuoted_doubleBreak _ _ hhead, hcs _ _ _ (.continued []) ⟨rfl, hhead⟩]
      simp [emit, Gap.text]
  · rw [List.append_assoc, doubleQuoted_escape, hcs _ _ _ .none trivial]
    simp [emit, Gap.text]

theorem ReadsBack.cons_unescaped {tail cs : List Char} {c : Char} (hc : isEscaped c = false)
    (hcs : ReadsBack tail cs) : ReadsBack tail (c :: cs) := by
  intro column first behindEscape gap hgap
  rw [doubleText.eq_def]
  simp only [hc, Bool.false_eq_true, if_false]
  split
  · rw [List.append_assoc, List.cons_append]
    by_cases hspace : c = ' '
    · rw [hspace, doubleQuoted_doubleBreak_space _ _ rfl, hcs _ _ _ .none trivial]
      simp [emit, Gap.text]
    · rw [doubleQuoted_doubleBreak _ _ (by simpa using hspace), doubleQuoted_char _ _ hc hspace,
        hcs _ _ _ .none trivial]
      simp [emit, Gap.text]
  · rw [List.cons_append]
    by_cases hspace : c = ' '
    · -- A space may belong to more blanks, so it is only collected here.
      rw [hspace, doubleQuoted_space]
      cases gap with
      | none => exact hcs _ _ _ (.blanks [' ']) trivial
      | blanks bs =>
          rw [Gap.addBlank, hcs _ _ _ (.blanks (bs ++ [' '])) trivial]
          simp [Gap.text]
      | folded first more => exact hgap.elim
      | continued more => exact absurd (by simp [hspace]) hgap.2
    · rw [doubleQuoted_char _ _ hc hspace, hcs _ _ _ .none trivial]
      simp [emit, Gap.text]

/-- Every text is read back.  The induction also carries the text behind a space, which a line
break before that space needs. -/
theorem readsBack (tail cs : List Char) : ReadsBack tail cs := by
  suffices h : ReadsBack tail cs ∧ ∀ ds, cs = ' ' :: ds → ReadsBack tail ds from h.1
  induction cs with
  | nil => exact ⟨.nil tail, by simp⟩
  | cons c cs ih =>
      obtain ⟨hcs, hbehind⟩ := ih
      constructor
      · by_cases hc : isEscaped c = true
        · exact .cons_escaped hc hcs hbehind
        · exact .cons_unescaped (by simpa using hc) hcs
      · rintro ds heq
        obtain ⟨-, rfl⟩ := List.cons.inj heq
        exact hcs

/-- A text in double quotes is read back, up to the closing quote. -/
theorem doubleQuoted_doubleText (column : Nat) (cs tail : List Char) :
    doubleQuoted .none 0 (doubleText column true false cs ++ '"' :: tail) = .ok (cs, tail) :=
  readsBack tail cs column true false .none trivial

end JitLens.Yaml
