import JitLens.Proofs.Text.Digit
import JitLens.Proofs.Yaml.Chars
/-!
# The characters of a written mapping

Whatever the texts of a mapping are, it is written in printable ASCII and line feeds.
-/

namespace JitLens.Yaml

open Printer

/-- Texts of printable ASCII and line feeds. -/
def AllWritten (cs : List Char) : Prop := ∀ c ∈ cs, IsWritten c

@[simp] theorem isWritten_newline : IsWritten '\n' := .inl rfl

@[simp] theorem isWritten_space : IsWritten ' ' := .inr (by decide)

@[simp] theorem allWritten_nil : AllWritten [] := by
  simp [AllWritten]

@[simp] theorem allWritten_cons (c : Char) (cs : List Char) :
    AllWritten (c :: cs) ↔ IsWritten c ∧ AllWritten cs := by
  simp [AllWritten]

@[simp] theorem allWritten_append (cs ds : List Char) :
    AllWritten (cs ++ ds) ↔ AllWritten cs ∧ AllWritten ds := by
  constructor
  · intro h
    exact ⟨fun c hc => h c (by simp [hc]), fun c hc => h c (by simp [hc])⟩
  · rintro ⟨hcs, hds⟩ c hc
    exact (List.mem_append.1 hc).elim (hcs c) (hds c)

theorem allWritten_replicate {c : Char} (count : Nat) (hc : IsWritten c) :
    AllWritten (List.replicate count c) := by
  intro d hd
  rw [List.eq_of_mem_replicate hd]
  exact hc

@[simp] theorem allWritten_spaces (count : Nat) : AllWritten (List.replicate count ' ') :=
  allWritten_replicate count isWritten_space

@[simp] theorem allWritten_newlines (count : Nat) : AllWritten (List.replicate count '\n') :=
  allWritten_replicate count isWritten_newline

@[simp] theorem allWritten_lineBreak : AllWritten lineBreak := by
  simp [lineBreak, indent]

theorem allWritten_of_plain {cs : List Char} (hcs : ∀ c ∈ cs, isPlainChar c = true) :
    AllWritten cs :=
  fun c hc => .inr (hcs c hc)

theorem allWritten_plainText {cs : List Char} (column spaces : Nat) (hcs : AllWritten cs) :
    AllWritten (plainText column spaces cs) := by
  fun_induction plainText column spaces cs <;> simp_all

theorem allWritten_singleChar {c : Char} (hc : IsWritten c) : AllWritten (singleChar c) := by
  unfold singleChar
  split
  · next hquote => simpa [hquote] using hc
  · simpa using hc

theorem allWritten_singleText {cs : List Char} (column : Nat) (leading : Bool) (gap : SingleGap)
    (hcs : AllWritten cs) : AllWritten (singleText column leading gap cs) := by
  fun_induction singleText column leading gap cs <;> simp_all
  all_goals exact allWritten_singleChar hcs.1

theorem isPlainChar_hexDigit {v : Nat} (hv : v < 16) :
    isPlainChar (Text.hexDigit true v) = true := by
  have hall : ∀ v < 16, isPlainChar (Text.hexDigit true v) = true := by decide
  exact hall v hv

theorem allWritten_hexDigits (width n : Nat) : AllWritten (Text.hexDigits true width n) := by
  induction width generalizing n with
  | zero => exact allWritten_nil
  | succ width ih =>
      have hdigit := isPlainChar_hexDigit (show n % 16 < 16 by omega)
      rw [Text.hexDigits, allWritten_append]
      exact ⟨ih (n / 16), allWritten_of_plain (by simpa using hdigit)⟩

theorem isPlainChar_escapeLetter? {c letter : Char} (h : escapeLetter? c = some letter) :
    isPlainChar letter = true := by
  unfold escapeLetter? at h
  split at h
  case h_16 => cases h
  all_goals
    cases h
    decide

theorem allWritten_escape (c : Char) : AllWritten (escape c) := by
  have hmarks : AllWritten ['\\', 'x', 'u', 'U'] := allWritten_of_plain (List.all_eq_true.1 (by decide))
  simp only [allWritten_cons] at hmarks
  unfold escape
  split
  · next letter hletter =>
    exact allWritten_of_plain (by simp [isPlainChar_escapeLetter? hletter]; decide)
  · dsimp only
    split
    · simp [hmarks, allWritten_hexDigits]
    · split <;> simp [hmarks, allWritten_hexDigits]

theorem allWritten_doubleBreak (cs : List Char) : AllWritten (doubleBreak cs) := by
  have hmark : IsWritten '\\' := .inr (by decide)
  unfold doubleBreak
  split <;> simp [hmark]

theorem isWritten_of_not_isEscaped {c : Char} (hc : isEscaped c = false) : IsWritten c := by
  simp only [isEscaped, Bool.or_eq_false_iff, Bool.not_eq_false'] at hc
  exact .inr hc.2

/-- Texts of any characters are written so inside double quotes. -/
theorem allWritten_doubleText (column : Nat) (first behindEscape : Bool) (cs : List Char) :
    AllWritten (doubleText column first behindEscape cs) := by
  fun_induction doubleText column first behindEscape cs <;>
    simp_all [isWritten_of_not_isEscaped]
  case case2 => exact ⟨allWritten_escape _, allWritten_doubleBreak _⟩
  case case3 => exact allWritten_escape _
  case case4 => exact allWritten_doubleBreak _

theorem allWritten_scalar (column : Nat) (leaf : Leaf) : AllWritten (scalar column leaf) := by
  have hquotes : AllWritten ['\'', '"'] := allWritten_of_plain (List.all_eq_true.1 (by decide))
  simp only [allWritten_cons] at hquotes
  unfold scalar
  split
  · exact allWritten_of_plain (List.all_eq_true.1 (by decide))
  · split <;> exact allWritten_of_plain (List.all_eq_true.1 (by decide))
  · next s =>
    dsimp only
    split
    · next hplain =>
      simp only [isPlain, Bool.and_eq_true, List.all_eq_true] at hplain
      simp [allWritten_plainText, allWritten_of_plain hplain.1.1.1.1.1.2]
    · split
      · next hsingle =>
        have hcs : AllWritten s.toList := by
          simp only [isSingle, Bool.and_eq_true, List.all_eq_true, Bool.or_eq_true,
            beq_iff_eq] at hsingle
          exact hsingle.1
        simp [hquotes, allWritten_singleText, hcs]
      · simp [hquotes, allWritten_doubleText]

end JitLens.Yaml
