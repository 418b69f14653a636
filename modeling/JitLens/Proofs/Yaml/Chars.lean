import JitLens.Yaml.Printer
/-!
# Written characters

What the reader makes of the characters that a mapping is written with: printable ASCII and line
feeds.
-/

namespace JitLens.Yaml

open Printer

/-- Characters that a mapping is written with. -/
def IsWritten (c : Char) : Prop := c = '\n' ∨ isPlainChar c = true

theorem isPlainChar_iff {c : Char} : isPlainChar c = true ↔ 0x20 ≤ c.toNat ∧ c.toNat ≤ 0x7e := by
  simp [isPlainChar]

theorem isBreak_eq_false {c : Char} (hc : isPlainChar c = true) : isBreak c = false := by
  rw [Bool.eq_false_iff]
  intro hbreak
  simp only [isBreak, Bool.or_eq_true, beq_iff_eq] at hbreak
  rcases hbreak with (rfl | rfl) | rfl <;> revert hc <;> decide

theorem isBlank_eq_false {c : Char} (hc : isPlainChar c = true) (hspace : c ≠ ' ') :
    isBlank c = false := by
  have htab : c ≠ '\t' := by
    rintro rfl
    revert hc
    decide
  simp [isBlank, hspace, htab]

theorem isAllowed_of_isWritten {c : Char} (hc : IsWritten c) : isAllowed c = true := by
  rcases hc with rfl | hc
  · decide
  · rw [isPlainChar_iff] at hc
    simp [isAllowed, hc.1, hc.2]

theorem unifyBreaks_eq_self {cs : List Char} (hcs : ∀ c ∈ cs, IsWritten c) :
    unifyBreaks cs = cs := by
  have hother : ∀ c, IsWritten c → c ≠ '\r' ∧ c ≠ '\x85' := by
    rintro c (rfl | hc)
    · decide
    · constructor <;> rintro rfl <;> revert hc <;> decide
  induction cs with
  | nil => rfl
  | cons c cs ih =>
      have hc := hother c (hcs c (by simp))
      have hrest := ih fun d hd => hcs d (by simp [hd])
      rw [unifyBreaks, if_neg (by simp [hc]), hrest]
      rintro cs' rfl
      exact absurd rfl hc.1

theorem atMarker_eq_false {c : Char} (cs : List Char) (hdash : c ≠ '-') (hdot : c ≠ '.') :
    atMarker (c :: cs) = false := by
  have hstart : atDocumentStart (c :: cs) = false := by
    unfold atDocumentStart
    split
    · simp_all
    · rfl
  have hend : atDocumentEnd (c :: cs) = false := by
    unfold atDocumentEnd
    split
    · simp_all
    · rfl
  simp [atMarker, hstart, hend]

end JitLens.Yaml
