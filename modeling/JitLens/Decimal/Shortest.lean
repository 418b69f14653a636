import JitLens.Decimal.Binary64
/-!
# Shortest decimals

The text of a floating point value: the fewest digits that read back as the value, and of those
the nearest to it.  The digits are found by trying the decimal grids of one, two, and up to
seventeen digits; on each the two neighbours of the value are tested against the interval of
the numbers that round to it.
-/

namespace JitLens.Decimal

/-- A decimal `digits * 10 ^ exponent`. -/
structure Numeral where
  digits : Nat
  exponent : Int
  deriving DecidableEq, Repr

namespace Numeral

/-- The same number with no zero at the end of its digits; at most `fuel` zeros are dropped. -/
def strip : Nat → Numeral → Numeral
  | 0, d => d
  | fuel + 1, d =>
    if d.digits ≠ 0 ∧ d.digits % 10 = 0 then strip fuel ⟨d.digits / 10, d.exponent + 1⟩ else d

end Numeral

namespace Binary64

/-- The greatest power of ten, as its exponent, that is at most `num / den`, both positive. -/
def decimalOrder (num den : Nat) : Int :=
  if den ≤ num then (digitCount (num / den) : Int) - 1
  else -(digitCount ((den + num - 1) / num - 1) : Int)

/-- The numerator and denominator of `num / den * 10 ^ exponent`. -/
def scaleTen (num den : Nat) (exponent : Int) : Nat × Nat :=
  if 0 ≤ exponent then (num * Nat.pow 10 exponent.toNat, den)
  else (num, den * Nat.pow 10 (-exponent).toNat)

/-- Four times the mantissa, and the ends of the interval that rounds to the value, in quarters
of the last place. -/
structure Interval where
  low : Nat
  value : Nat
  high : Nat
  exponent : Int
  closed : Bool

/-- The numbers that round to `mantissa * 2 ^ exponent`. -/
def interval (mantissa : Nat) (exponent : Int) : Interval where
  low :=
    if mantissa = Nat.pow 2 52 ∧ minExponent < exponent then 4 * mantissa - 1
    else 4 * mantissa - 2
  value := 4 * mantissa
  high := 4 * mantissa + 2
  exponent := exponent - 2
  closed := mantissa % 2 = 0

def Interval.holds (i : Interval) (digits : Nat) (exponent : Int) : Bool :=
  let (n, d) := scaleTen digits 1 exponent
  let (n, d) := scale n d (-i.exponent)
  if i.closed then i.low * d ≤ n && n ≤ i.high * d else i.low * d < n && n < i.high * d

/-- The decimal on the grid of `10 ^ exponent` that is nearest to the value and reads back. -/
def onGrid? (i : Interval) (exponent : Int) : Option Nat :=
  let (n, d) := scale i.value 1 i.exponent
  let (n, d) := scaleTen n d (-exponent)
  let below := n / d
  let nearest := roundQuotient n d
  let other := if nearest = below then below + 1 else below
  if i.holds nearest exponent then some nearest
  else if i.holds other exponent then some other
  else none

/-- Tries the grids from coarse to fine; the value has the given decimal order. -/
def shortestFrom (i : Interval) (order : Int) : Nat → Nat → Numeral
  | 0, count =>
    let (n, d) := scale i.value 1 i.exponent
    let exponent := order - count + 1
    let (n, d) := scaleTen n d (-exponent)
    ⟨roundQuotient n d, exponent⟩
  | more + 1, count =>
    match onGrid? i (order - count + 1) with
    | some digits => ⟨digits, order - count + 1⟩
    | none => shortestFrom i order more (count + 1)

/-- The shortest decimal of a positive value. -/
def shortest (mantissa : Nat) (exponent : Int) : Numeral :=
  let (num, den) := scale mantissa 1 exponent
  (shortestFrom (interval mantissa exponent) (decimalOrder num den) 16 1).strip 20

end Binary64

/-- How a floating point value is written. -/
structure FloatStyle where
  /-- Least decimal order that is written without an exponent. -/
  leastPositional : Int
  /-- Decimal order from which on an exponent is written. -/
  firstScientific : Int
  /-- Least count of digits of an exponent. -/
  exponentWidth : Nat
  infinity : String
  negativeInfinity : String
  nan : String

/-- The text of digits with the point behind the digit of order zero. -/
def positional (digits : List Char) (order : Int) : List Char :=
  if order < 0 then
    '0' :: '.' :: List.replicate (-order - 1).toNat '0' ++ digits
  else
    let whole := order.toNat + 1
    let digits := digits ++ List.replicate (whole - digits.length) '0'
    let fraction := digits.drop whole
    digits.take whole ++ '.' :: (if fraction.isEmpty then ['0'] else fraction)

/-- The text of digits with the point behind the first one, and an exponent. -/
def scientific (width : Nat) (digits : List Char) (order : Int) : List Char :=
  let shown := Nat.toDigits 10 order.natAbs
  let fraction := digits.drop 1
  digits.take 1 ++ (if fraction.isEmpty then [] else '.' :: fraction) ++ ['e'] ++
    [if order < 0 then '-' else '+'] ++ List.replicate (width - shown.length) '0' ++ shown

/-- The text of a value: its shortest decimal in the given style. -/
def FloatStyle.write (style : FloatStyle) : Binary64 → String
  | .nan => style.nan
  | .infinity negative => if negative then style.negativeInfinity else style.infinity
  | .finite negative m e =>
    let sign := if negative then ['-'] else []
    if m = 0 then String.ofList (sign ++ ['0', '.', '0'])
    else
      let d := Binary64.shortest m e
      let digits := Nat.toDigits 10 d.digits
      let order := d.exponent + digits.length - 1
      let body :=
        if style.leastPositional ≤ order ∧ order < style.firstScientific then
          positional digits order
        else scientific style.exponentWidth digits order
      String.ofList (sign ++ body)

/-- The text of a value with exactly one decimal place. -/
def oneDecimal : Binary64 → String
  | .nan => "nan"
  | .infinity negative => if negative then "-inf" else "inf"
  | .finite negative m e =>
    let t := Binary64.tenths m e
    (if negative then "-" else "") ++ toString (t / 10) ++ "." ++ toString (t % 10)

end JitLens.Decimal
