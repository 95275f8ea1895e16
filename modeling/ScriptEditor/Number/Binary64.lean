import ScriptEditor.Number.Digit

/-!
Binary floating-point numbers of 64 bits as exact values: a sign, a whole
significand and a power of two. Reading a decimal rounds to the nearest such
number, a tie to the even significand.
-/

namespace ScriptEditor.Number

/-- A 64-bit floating-point number. A finite one is `significand * 2 ^ exponent`
with its sign; `significand < 2 ^ 53` and `-1074 ≤ exponent ≤ 971`, and the
exponent is the least that allows this. -/
inductive Binary64 where
  | nan
  | infinite (negative : Bool)
  | finite (negative : Bool) (significand : Nat) (exponent : Int)
deriving Repr, DecidableEq

namespace Binary64

/-- A positive or negative zero. -/
def zero (negative : Bool) : Binary64 :=
  .finite negative 0 (-1074)

/-- The quotient of two numbers rounded to the nearest, a tie to even. -/
def divNearestEven (a b : Nat) : Nat :=
  let q := a / b
  let twice := 2 * (a % b)
  if twice < b then q else if b < twice then q + 1 else q + q % 2

/-- The fraction `num / den` divided by `2 ^ e`, as numerator and denominator. -/
def scaled (num den : Nat) (e : Int) : Nat × Nat :=
  if 0 ≤ e then (num, den * Nat.pow 2 e.toNat) else (num * Nat.pow 2 (-e).toNat, den)

/-- The exponent with which the positive fraction `num / den` has a significand
of 53 bits, or the least exponent there is. -/
def exponentFor (num den : Nat) : Int :=
  let guess : Int := (Nat.log2 num : Int) - Nat.log2 den - 52
  let (a, b) := scaled num den guess
  let e := if a < b * Nat.pow 2 52 then guess - 1 else guess
  max e (-1074)

/-- A number with a rounded significand, which has up to 53 bits or is the least number
with one more. -/
def packed (negative : Bool) (m : Nat) (e : Int) : Binary64 :=
  let (m, e) := if m = Nat.pow 2 53 then (Nat.pow 2 52, e + 1) else (m, e)
  if 971 < e then .infinite negative else .finite negative m e

/-- The multiple of `2 ^ e` that is nearest to the fraction `num / den`. -/
def roundedTo (negative : Bool) (num den : Nat) (e : Int) : Binary64 :=
  let (a, b) := scaled num den e
  packed negative (divNearestEven a b) e

/-- The number nearest to the fraction `num / den`. -/
def ofFraction (negative : Bool) (num den : Nat) : Binary64 :=
  if num = 0 then zero negative else roundedTo negative num den (exponentFor num den)

/-- The number nearest to `digits * 10 ^ exponent`. Decimals far outside of the
range are settled by their size alone. -/
def ofDecimal (negative : Bool) (digits : Nat) (exponent : Int) : Binary64 :=
  let size : Int := (Nat.toDigits 10 digits).length + exponent
  if digits = 0 then zero negative
  else if 310 < size then .infinite negative
  else if size < -330 then zero negative
  else if 0 ≤ exponent then ofFraction negative (digits * Nat.pow 10 exponent.toNat) 1
  else ofFraction negative digits (Nat.pow 10 (-exponent).toNat)

/-- The whole part, with the fraction dropped; none for what is not finite. -/
def truncated? : Binary64 → Option Int
  | .finite negative m e =>
    let n := if 0 ≤ e then m * Nat.pow 2 e.toNat else m / Nat.pow 2 (-e).toNat
    some (if negative then -(n : Int) else n)
  | _ => none

/-- Whether the number is finite and has no fraction. -/
def isWhole : Binary64 → Bool
  | .finite _ m e => 0 ≤ e || m % Nat.pow 2 (-e).toNat == 0
  | _ => false

/-- Whether the number is a zero of either sign. -/
def isZero : Binary64 → Bool
  | .finite _ m _ => m == 0
  | _ => false

end Binary64

/-- The digits of an unsigned decimal around its point, and its exponent. -/
structure DecimalParts where
  whole : Text
  fraction : Text
  exponent : Int
deriving Repr, DecidableEq

/-- The number nearest to a decimal that is given by its parts. -/
def DecimalParts.toBinary64 (negative : Bool) (parts : DecimalParts) : Binary64 :=
  let digits := (parts.whole ++ parts.fraction).filterMap asciiDigit?
  Binary64.ofDecimal negative (ofDigits digits) (parts.exponent - parts.fraction.length)

end ScriptEditor.Number
