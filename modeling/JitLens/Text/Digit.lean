/-!
# Decimal digits

The decimal digits of every script (Unicode 14) and hexadecimal digits, with the numbers that
runs of digits stand for.
-/

namespace JitLens.Text

/-- The zeros of the scripts; the other nine digits of a script follow its zero. -/
def decimalZeros : List Nat := [
  0x0030, 0x0660, 0x06f0, 0x07c0, 0x0966, 0x09e6, 0x0a66, 0x0ae6, 0x0b66, 0x0be6, 0x0c66,
  0x0ce6, 0x0d66, 0x0de6, 0x0e50, 0x0ed0, 0x0f20, 0x1040, 0x1090, 0x17e0, 0x1810, 0x1946,
  0x19d0, 0x1a80, 0x1a90, 0x1b50, 0x1bb0, 0x1c40, 0x1c50, 0xa620, 0xa8d0, 0xa900, 0xa9d0,
  0xa9f0, 0xaa50, 0xabf0, 0xff10, 0x104a0, 0x10d30, 0x11066, 0x110f0, 0x11136, 0x111d0, 0x112f0,
  0x11450, 0x114d0, 0x11650, 0x116c0, 0x11730, 0x118e0, 0x11950, 0x11c50, 0x11d50, 0x11da0,
  0x16a60, 0x16ac0, 0x16b50, 0x1d7ce, 0x1d7d8, 0x1d7e2, 0x1d7ec, 0x1d7f6, 0x1e140, 0x1e2f0,
  0x1e950, 0x1fbf0]

def decimalValue? (c : Char) : Option Nat :=
  let n := c.toNat
  (decimalZeros.find? fun z => z ≤ n && n ≤ z + 9).map (n - ·)

/-- An ASCII decimal digit. -/
def isDigit (c : Char) : Bool :=
  '0' ≤ c && c ≤ '9'

/-- The value of an ASCII digit in a base of at most sixteen. -/
def digitValue? (base : Nat) (c : Char) : Option Nat :=
  let n := c.toNat
  let v :=
    if '0' ≤ c && c ≤ '9' then some (n - 0x30)
    else if 'a' ≤ c && c ≤ 'f' then some (n - 0x61 + 10)
    else if 'A' ≤ c && c ≤ 'F' then some (n - 0x41 + 10)
    else none
  v.filter (· < base)

/-- The number that digits stand for; characters that are no digits of the base add nothing. -/
def numberOf (base : Nat) (ds : List Char) : Nat :=
  ds.foldl (fun n d => n * base + (digitValue? base d).getD 0) 0

/-- The number that a text of digits of the base stands for; the empty text is no number. -/
def number? (base : Nat) (ds : List Char) : Option Nat :=
  if !ds.isEmpty && ds.all (fun d => (digitValue? base d).isSome) then some (numberOf base ds)
  else none

/-- The greatest count of digits with which a decimal number is read. -/
def mostDigits : Nat := 4300

/-- A decimal number of too many digits. -/
structure DigitsError where
  count : Nat
  deriving DecidableEq, Repr

/-- The error in words. -/
def DigitsError.message (e : DigitsError) : String :=
  "Exceeds the limit (" ++ toString mostDigits ++
    " digits) for integer string conversion: value has " ++ toString e.count ++
    " digits; use sys.set_int_max_str_digits() to increase the limit"

/-- The number that decimal digits of any script stand for, unless there are too many of them. -/
def readDecimal (ds : List Char) : Except DigitsError Nat :=
  if mostDigits < ds.length then .error ⟨ds.length⟩
  else .ok (ds.foldl (fun n d => n * 10 + (decimalValue? d).getD 0) 0)

/-- The hexadecimal digit of a value below sixteen, in the case asked for. -/
def hexDigit (upper : Bool) (v : Nat) : Char :=
  if v < 10 then Char.ofNat (0x30 + v) else Char.ofNat ((if upper then 0x41 else 0x61) + v - 10)

/-- A number in hexadecimal with a fixed count of digits. -/
def hexDigits (upper : Bool) : Nat → Nat → List Char
  | 0, _ => []
  | width + 1, n => hexDigits upper width (n / 16) ++ [hexDigit upper (n % 16)]

end JitLens.Text
