import ScriptEditor.Number.Digit
import ScriptEditor.Number.Range
import ScriptEditor.Text.Quoted

/-!
Whole numbers written as text: an optional sign and decimal digits of any script,
with single underscores allowed between digits and blanks allowed around the
whole. A limit on the number of digits keeps the conversion short.
-/

namespace ScriptEditor.Number

open ScriptEditor.Text (isAsciiBlank isBlank)

/-- Blanks that may surround a number: those of ASCII that separate words or
lines, and every blank beyond ASCII. The information separators are not among
them. -/
def isMargin (c : Char) : Bool :=
  isAsciiBlank c || (0x80 ≤ c.toNat && isBlank c)

/-- Why a text is no whole number. -/
inductive WholeFault where
  | malformed (written : Text)
  | tooLong (digits : Nat)
deriving Repr, DecidableEq

/-- The fault in words. A long text is shown by the beginning of its quoted
form. -/
def WholeFault.message : WholeFault → Text
  | .malformed written =>
    "invalid literal for int() with base 10: ".toList ++ (Text.quoted written).take 200
  | .tooLong digits =>
    "Exceeds the limit (".toList ++ Text.ofNat digitLimit ++
      " digits) for integer string conversion: value has ".toList ++ Text.ofNat digits ++
      " digits; use sys.set_int_max_str_digits() to increase the limit".toList

/-- Whether a row of digits and underscores ends in a digit and has each
underscore right behind a digit. The first argument tells whether the character
before the row was a digit. -/
def wellSpaced : Bool → Text → Bool
  | after, [] => after
  | after, c :: t => if c == '_' then after && wellSpaced false t else wellSpaced true t

/-- Digits and the underscores between them. -/
def isDigitOrSpacer (c : Char) : Bool :=
  (digitValue? c).isSome || c == '_'

/-- Whether the number is negative, and the text after the sign. -/
def splitSign : Text → Bool × Text
  | '+' :: t => (false, t)
  | '-' :: t => (true, t)
  | t => (false, t)

/-- The whole number that a text denotes. A fault of spacing is reported before
an excess of digits, and that before anything wrong behind the digits. -/
def readWhole (written : Text) : Except WholeFault Int :=
  let (negative, body) := splitSign (written.dropWhile isMargin)
  let row := body.takeWhile isDigitOrSpacer
  let digits := row.filterMap digitValue?
  if !wellSpaced false row then .error (.malformed written)
  else if digitLimit < digits.length then .error (.tooLong digits.length)
  else if (body.dropWhile isDigitOrSpacer).any (!isMargin ·) then .error (.malformed written)
  else
    let n : Int := ofDigits digits
    .ok (if negative then -n else n)

end ScriptEditor.Number
