import ScriptEditor.Number.Binary64

/-!
The shortest decimal form of a floating-point number: the fewest digits that read
back as the same number and, of those, the nearest to it.
-/

namespace ScriptEditor.Number

/-- A decimal `digits * 10 ^ exponent`. -/
structure Scientific where
  digits : Nat
  exponent : Int
deriving Repr, DecidableEq

namespace Binary64

/-- The exact value of a finite number as a fraction. -/
def fraction (m : Nat) (e : Int) : Nat × Nat :=
  if 0 ≤ e then (m * Nat.pow 2 e.toNat, 1) else (m, Nat.pow 2 (-e).toNat)

/-- The exponent of the first digit of a positive fraction in decimal. -/
def leadingExponent (num den : Nat) : Int :=
  let guess : Int := ((Nat.toDigits 10 num).length : Int) - (Nat.toDigits 10 den).length
  let reaches : Bool :=
    if 0 ≤ guess then den * Nat.pow 10 guess.toNat ≤ num
    else den ≤ num * Nat.pow 10 (-guess).toNat
  if reaches then guess else guess - 1

/-- The neighbours of a fraction on the grid of multiples of `10 ^ step` that
read back as `x`, the nearer one first; of two equally near ones, the even one. -/
def gridHits (x : Binary64) (num den : Nat) (step : Int) : List Scientific :=
  let (a, b) :=
    if 0 ≤ step then (num, den * Nat.pow 10 step.toNat) else (num * Nat.pow 10 (-step).toNat, den)
  let low := a / b
  let twice := 2 * (a % b)
  let order :=
    if twice < b || (twice == b && low % 2 == 0) then [low, low + 1] else [low + 1, low]
  (order.map (Scientific.mk · step)).filter fun s => ofDecimal false s.digits s.exponent == x

/-- The first decimal that reads back on finer and finer grids. The last argument
counts the grids that are left of seventeen. -/
def shortestFrom (x : Binary64) (num den : Nat) (leading : Int) : Nat → Scientific
  | 0 => ⟨0, 0⟩
  | fuel + 1 =>
    match gridHits x num den (leading - (16 - fuel)) with
    | s :: _ => s
    | [] => shortestFrom x num den leading fuel

/-- The shortest decimal of a positive finite number. Seventeen digits always
suffice. -/
def shortest (m : Nat) (e : Int) : Scientific :=
  let (num, den) := fraction m e
  shortestFrom (.finite false m e) num den (leadingExponent num den) 17

/-- Exponents of the first digit for which a number is written without an
exponent. -/
def isPositional (leading : Int) : Bool :=
  -4 ≤ leading && leading < 16

/-- A row of digits without the zeros at its end. -/
def withoutFinalZeros (digits : Text) : Text :=
  Text.dropEndWhile (· == '0') digits

/-- The digits of a decimal whose first one has the given exponent, written with
a point and at least one digit on both sides of it, or with an exponent of at
least two digits. -/
def layout (digits : Text) (leading : Int) : Text :=
  if isPositional leading then
    if 0 ≤ leading then
      let n := leading.toNat + 1
      let whole := digits.take n ++ List.replicate (n - digits.length) '0'
      let rest := digits.drop n
      whole ++ '.' :: (if rest.isEmpty then ['0'] else rest)
    else
      '0' :: '.' :: List.replicate ((-leading).toNat - 1) '0' ++ digits
  else
    let mark := if 0 ≤ leading then '+' else '-'
    let size := Text.ofNat leading.natAbs
    let exponent := 'e' :: mark :: (List.replicate (2 - size.length) '0' ++ size)
    match digits with
    | [] => exponent
    | [d] => d :: exponent
    | d :: rest => d :: '.' :: rest ++ exponent

/-- The text of a number. -/
def toText : Binary64 → Text
  | .nan => "nan".toList
  | .infinite negative => if negative then "-inf".toList else "inf".toList
  | .finite negative m e =>
    let body :=
      if m = 0 then "0.0".toList
      else
        let s := shortest m e
        let digits := Text.ofNat s.digits
        layout (withoutFinalZeros digits) (s.exponent + digits.length - 1)
    if negative then '-' :: body else body

end Binary64

end ScriptEditor.Number
