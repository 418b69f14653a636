import JitLens.Shell.Word
import JitLens.Text.Digit
import JitLens.Text.Search
/-!
# Sums

Scripts compute with whole numbers.  The operators are those of the language that the systems
below are written in, with the same ranks; division goes toward zero, and a comparison gives one
or zero.

Only the command line and test runs use this module; see `JitLens.Shell.Tools`.
-/

namespace JitLens.Shell

/-- A part of a sum. -/
inductive SumToken where
  | number (n : Int)
  | name (s : String)
  | op (s : String)
  deriving DecidableEq, Repr

/-- Why a sum has no result. -/
inductive SumError where
  | divisionByZero
  | malformed
  deriving DecidableEq, Repr

/-- The error in words. -/
def SumError.message : SumError → String
  | .divisionByZero => "arithmetic expression: division by zero"
  | .malformed => "arithmetic expression: expecting primary"

/-- The operators by rank, those that bind least first. -/
def ranks : List (List String) := [
  ["||"], ["&&"], ["|"], ["^"], ["&"], ["==", "!="], ["<=", ">=", "<", ">"], ["<<", ">>"],
  ["+", "-"], ["*", "/", "%"]]

/-- The operators of sums, longer ones first. -/
def sumOperators : List String := [
  "||", "&&", "==", "!=", "<=", ">=", "<<", ">>", "|", "^", "&", "<", ">", "+", "-", "*", "/",
  "%", "(", ")", "!", "~"]

def sumTokens : Nat → List Char → Except SumError (List SumToken)
  | 0, _ => .error .malformed
  | fuel + 1, cs =>
    match cs with
    | [] => .ok []
    | c :: rest =>
      if Text.isBlank c then sumTokens fuel rest
      else if Text.isDigit c then
        let ds := cs.takeWhile Text.isDigit
        let base := if c = '0' then 8 else 10
        (sumTokens fuel (cs.drop ds.length)).map (.number (Text.numberOf base ds) :: ·)
      else if startsName c then
        let name := cs.takeWhile isNameChar
        (sumTokens fuel (cs.drop name.length)).map (.name (String.ofList name) :: ·)
      else
        match sumOperators.findSome? fun op => (Text.stripLeading op.toList cs).map (op, ·) with
        | some (op, rest) => (sumTokens fuel rest).map (.op op :: ·)
        | none => .error .malformed

/-- A truth value as a number. -/
def truth (b : Bool) : Int :=
  if b then 1 else 0

/-- The result of an operator. -/
def sumResult (op : String) (a b : Int) : Except SumError Int :=
  match op with
  | "||" => .ok (truth (a != 0 || b != 0))
  | "&&" => .ok (truth (a != 0 && b != 0))
  | "==" => .ok (truth (a == b))
  | "!=" => .ok (truth (a != b))
  | "<=" => .ok (truth (a ≤ b))
  | ">=" => .ok (truth (b ≤ a))
  | "<" => .ok (truth (a < b))
  | ">" => .ok (truth (b < a))
  | "<<" => .ok (a * (Nat.pow 2 b.toNat : Nat))
  | ">>" => .ok (Int.fdiv a (Nat.pow 2 b.toNat : Nat))
  | "|" => .ok (a.toNat ||| b.toNat : Nat)
  | "^" => .ok (a.toNat ^^^ b.toNat : Nat)
  | "&" => .ok (a.toNat &&& b.toNat : Nat)
  | "+" => .ok (a + b)
  | "-" => .ok (a - b)
  | "*" => .ok (a * b)
  | "/" => if b = 0 then .error .divisionByZero else .ok (Int.tdiv a b)
  | "%" => if b = 0 then .error .divisionByZero else .ok (Int.tmod a b)
  | _ => .error .malformed

mutual

/-- Computes what binds at least as much as a rank. -/
def sumAt (value : String → Int) : Nat → List (List String) → List SumToken →
    Except SumError (Int × List SumToken)
  | 0, _, _ => .error .malformed
  | fuel + 1, [], ts => sumPrimary value fuel ts
  | fuel + 1, ops :: above, ts => do
    let (a, ts) ← sumAt value fuel above ts
    sumMore value fuel ops above a ts

/-- Goes on with operators of one rank. -/
def sumMore (value : String → Int) : Nat → List String → List (List String) → Int →
    List SumToken → Except SumError (Int × List SumToken)
  | 0, _, _, _, _ => .error .malformed
  | fuel + 1, ops, above, a, ts =>
    match ts with
    | .op op :: rest =>
      if ops.contains op then do
        let (b, ts) ← sumAt value fuel above rest
        sumMore value fuel ops above (← sumResult op a b) ts
      else .ok (a, .op op :: rest)
    | ts => .ok (a, ts)

/-- Computes a number, a name, or what stands between parentheses. -/
def sumPrimary (value : String → Int) : Nat → List SumToken →
    Except SumError (Int × List SumToken)
  | 0, _ => .error .malformed
  | fuel + 1, ts =>
    match ts with
    | .number n :: ts => .ok (n, ts)
    | .name s :: ts => .ok (value s, ts)
    | .op "-" :: ts => (sumPrimary value fuel ts).map fun (a, ts) => (-a, ts)
    | .op "+" :: ts => sumPrimary value fuel ts
    | .op "!" :: ts => (sumPrimary value fuel ts).map fun (a, ts) => (truth (a == 0), ts)
    | .op "~" :: ts => (sumPrimary value fuel ts).map fun (a, ts) => (-a - 1, ts)
    | .op "(" :: ts => do
      let (a, ts) ← sumAt value fuel ranks ts
      match ts with
      | .op ")" :: ts => .ok (a, ts)
      | _ => .error .malformed
    | _ => .error .malformed

end

/-- The result of a sum, given the values of names. -/
def sumOf (value : String → Int) (cs : List Char) : Except SumError Int := do
  let ts ← sumTokens (cs.length + 1) cs
  if ts.isEmpty then .ok 0
  else
    let (a, rest) ← sumAt value (16 * ts.length + 16) ranks ts
    if rest.isEmpty then .ok a else .error .malformed

end JitLens.Shell
