/-!
# Binary floating point of 64 bits

Values are exact: a sign, a mantissa and a power of two.  Every operation works out its exact
result as a quotient of natural numbers and rounds once, to the nearest value, a half to the
even mantissa.
-/

namespace JitLens.Decimal

/-- A floating point value; a finite one is `mantissa * 2 ^ exponent` with its sign. -/
inductive Binary64 where
  | finite (negative : Bool) (mantissa : Nat) (exponent : Int)
  | infinity (negative : Bool)
  | nan
  deriving DecidableEq, Repr

namespace Binary64

/-- Exponent of the smallest positive value. -/
def minExponent : Int := -1074

/-- Exponent of the largest finite values. -/
def maxExponent : Int := 971

/-- Zero with a sign. -/
def zero (negative : Bool) : Binary64 :=
  .finite negative 0 minExponent

/-- The quotient of two numbers rounded to a natural number, a half to the even one. -/
def roundQuotient (num den : Nat) : Nat :=
  let q := num / den
  let r := num % den
  if 2 * r < den then q
  else if den < 2 * r then q + 1
  else if q % 2 = 0 then q else q + 1

/-- The numerator and denominator of `num / den * 2 ^ exponent`. -/
def scale (num den : Nat) (exponent : Int) : Nat × Nat :=
  if 0 ≤ exponent then (num * Nat.pow 2 exponent.toNat, den)
  else (num, den * Nat.pow 2 (-exponent).toNat)

/-- The greatest power of two, as its exponent, that is at most `num / den`, both positive. -/
def binaryOrder (num den : Nat) : Int :=
  let guess : Int := (Nat.log2 num : Int) - (Nat.log2 den : Int)
  let (n, d) := scale num den (-guess)
  if n < d then guess - 1 else guess

/-- The value nearest to `num / den`. -/
def ofRatio (negative : Bool) (num den : Nat) : Binary64 :=
  if num = 0 then zero negative
  else
    let exponent := max (binaryOrder num den - 52) minExponent
    let (n, d) := scale num den (-exponent)
    let m := roundQuotient n d
    let (m, exponent) := if m = Nat.pow 2 53 then (Nat.pow 2 52, exponent + 1) else (m, exponent)
    if maxExponent < exponent then .infinity negative else .finite negative m exponent

/-- The count of decimal digits of a number; zero has none. -/
def digitCount (n : Nat) : Nat :=
  if n = 0 then 0 else (Nat.toDigits 10 n).length

/-- The value nearest to `digits * 10 ^ exponent`. -/
def ofDecimal (negative : Bool) (digits : Nat) (exponent : Int) : Binary64 :=
  let order := (digitCount digits : Int) + exponent
  if digits = 0 ∨ order < -400 then zero negative
  else if 400 < order then .infinity negative
  else if 0 ≤ exponent then ofRatio negative (digits * Nat.pow 10 exponent.toNat) 1
  else ofRatio negative digits (Nat.pow 10 (-exponent).toNat)

/-- The value nearest to a whole number. -/
def ofInt (n : Int) : Binary64 :=
  ofRatio (n < 0) n.natAbs 1

/-- The value with the other sign. -/
def neg : Binary64 → Binary64
  | .finite s m e => .finite (!s) m e
  | .infinity s => .infinity (!s)
  | .nan => .nan

/-- A mantissa with its sign. -/
def signed (negative : Bool) (n : Nat) : Int :=
  if negative then -(n : Int) else n

/-- The value nearest to `n * 2 ^ exponent`; a zero gets the sign given. -/
def ofScaled (zeroSign : Bool) (n exponent : Int) : Binary64 :=
  if n = 0 then zero zeroSign
  else
    let (num, den) := scale n.natAbs 1 exponent
    ofRatio (n < 0) num den

/-- The sum, rounded. -/
def add : Binary64 → Binary64 → Binary64
  | .nan, _ => .nan
  | _, .nan => .nan
  | .infinity s, .infinity t => if s = t then .infinity s else .nan
  | .infinity s, _ => .infinity s
  | _, .infinity t => .infinity t
  | .finite s m e, .finite t n f =>
    let low := min e f
    let sum := signed s (m * Nat.pow 2 (e - low).toNat) + signed t (n * Nat.pow 2 (f - low).toNat)
    ofScaled (s && t) sum low

/-- The difference, rounded. -/
def sub (x y : Binary64) : Binary64 :=
  add x (neg y)

/-- The product, rounded. -/
def mul : Binary64 → Binary64 → Binary64
  | .nan, _ => .nan
  | _, .nan => .nan
  | .infinity s, .infinity t => .infinity (s != t)
  | .infinity s, .finite t m _ => if m = 0 then .nan else .infinity (s != t)
  | .finite s m _, .infinity t => if m = 0 then .nan else .infinity (s != t)
  | .finite s m e, .finite t n f => ofScaled (s != t) (signed (s != t) (m * n)) (e + f)

/-- Whether the value is a whole number, and which. -/
def toInt? : Binary64 → Option Int
  | .finite s m e =>
    let (num, den) := scale m 1 e
    if num % den = 0 then some (signed s (num / den)) else none
  | _ => none

/-- Equality of numbers: the zeros are equal, and so are here the values that are no numbers. -/
def sameNumber : Binary64 → Binary64 → Bool
  | .finite s m e, .finite t n f => (m == 0 && n == 0) || (s == t && m == n && e == f)
  | x, y => x == y

/-- Tenths of a value rounded to whole tenths, a half to the even one. -/
def tenths (mantissa : Nat) (exponent : Int) : Nat :=
  let (num, den) := scale (mantissa * 10) 1 exponent
  roundQuotient num den

/-- The value nearest to the value rounded to one decimal place. -/
def roundTenths : Binary64 → Binary64
  | .finite s m e => ofDecimal s (tenths m e) (-1)
  | x => x

end Binary64
end JitLens.Decimal
