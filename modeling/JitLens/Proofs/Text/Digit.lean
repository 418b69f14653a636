import Mathlib.Algebra.Group.Nat.Defs
import JitLens.Text.Digit
/-!
# Hexadecimal digits read back

A number that fits a count of hexadecimal digits is read back from them.
-/

namespace JitLens.Text

theorem digitValue?_hexDigit (upper : Bool) {v : Nat} (hv : v < 16) :
    digitValue? 16 (hexDigit upper v) = some v := by
  have hall : ∀ v < 16, digitValue? 16 (hexDigit upper v) = some v := by
    cases upper <;> decide
  exact hall v hv

@[simp] theorem length_hexDigits (upper : Bool) (width n : Nat) :
    (hexDigits upper width n).length = width := by
  induction width generalizing n with
  | zero => rfl
  | succ width ih => simp [hexDigits, ih]

theorem numberOf_append_digit (base : Nat) (ds : List Char) (d : Char) :
    numberOf base (ds ++ [d]) = numberOf base ds * base + (digitValue? base d).getD 0 := by
  simp [numberOf]

theorem numberOf_hexDigits {upper : Bool} {width n : Nat} (hn : n < 16 ^ width) :
    numberOf 16 (hexDigits upper width n) = n := by
  induction width generalizing n with
  | zero =>
      have hzero : n = 0 := by simpa using hn
      rw [hzero]
      rfl
  | succ width ih =>
      have hdiv : n / 16 < 16 ^ width := by
        rw [Nat.pow_succ] at hn
        omega
      rw [hexDigits, numberOf_append_digit, ih hdiv, digitValue?_hexDigit upper (by omega),
        Option.getD_some]
      omega

theorem digitValue?_of_mem_hexDigits {upper : Bool} {width n : Nat} {d : Char}
    (hd : d ∈ hexDigits upper width n) : (digitValue? 16 d).isSome = true := by
  induction width generalizing n with
  | zero => simp [hexDigits] at hd
  | succ width ih =>
      rw [hexDigits, List.mem_append, List.mem_singleton] at hd
      rcases hd with hd | rfl
      · exact ih hd
      · rw [digitValue?_hexDigit upper (by omega)]
        rfl

/-- A number is read back from its hexadecimal digits, if it fits their count. -/
theorem number?_hexDigits {upper : Bool} {width n : Nat} (hwidth : 0 < width)
    (hn : n < 16 ^ width) : number? 16 (hexDigits upper width n) = some n := by
  have hne : hexDigits upper width n ≠ [] := by
    rw [← List.length_pos_iff, length_hexDigits]
    exact hwidth
  have hall : (hexDigits upper width n).all (fun d => (digitValue? 16 d).isSome) = true := by
    rw [List.all_eq_true]
    intro d hd
    exact digitValue?_of_mem_hexDigits hd
  rw [number?, numberOf_hexDigits hn, hall]
  simp [hne]

end JitLens.Text
