import ScriptEditor.Json.Value
import ScriptEditor.Number.WholeText
import ScriptEditor.Text.Fold

/-! Reading of the JSON data format. Every part is read from the beginning of a
text and gives back what it read and what is left over. Beside the standard
numbers, `NaN` and the two infinities are read; control characters in a string
and characters behind the value are refused. Lists and objects are read down to a
limit of nesting. The fuel of the nested readers is bounded by the length of the
text. -/

namespace ScriptEditor.Json

open ScriptEditor.Number (Binary64 DecimalParts digitLimit ofDigits asciiDigit?)
open ScriptEditor.Text (isAsciiDigit backslash doubleQuote afterWord?)

/-- Blanks between the parts of a value. -/
def isGap (c : Char) : Bool :=
  c == ' ' || c == '\t' || c == '\n' || c == '\r'

def skipGap (t : Text) : Text :=
  t.dropWhile isGap

/-- The value of a digit in base 16. -/
def hexValue? (c : Char) : Option Nat :=
  if '0' ≤ c && c ≤ '9' then some (c.toNat - 48)
  else if 'a' ≤ c && c ≤ 'f' then some (c.toNat - 87)
  else if 'A' ≤ c && c ≤ 'F' then some (c.toNat - 55)
  else none

/-- A unit written as four digits in base 16. -/
def readHex4 : Text → Option (UInt16 × Text)
  | a :: b :: c :: d :: t => do
    let a ← hexValue? a
    let b ← hexValue? b
    let c ← hexValue? c
    let d ← hexValue? d
    some (UInt16.ofNat (((a * 16 + b) * 16 + c) * 16 + d), t)
  | _ => none

/-- The unit of an escape with one letter or mark. -/
def plainEscape? (c : Char) : Option UInt16 :=
  if c == doubleQuote || c == backslash || c == '/' then some (UInt16.ofNat c.toNat)
  else if c == 'b' then some 0x08
  else if c == 'f' then some 0x0C
  else if c == 'n' then some 0x0A
  else if c == 'r' then some 0x0D
  else if c == 't' then some 0x09
  else none

/-- The units of one character or escape of a string. An escape stands for one
unit, so that two of them make up a character beyond U+FFFF. -/
def readUnits : Text → Option (Utf16 × Text)
  | [] => none
  | c :: t =>
    if c == backslash then
      match t with
      | [] => none
      | e :: t' =>
        (if e == 'u' then readHex4 t' else (plainEscape? e).map (·, t')).map fun (u, rest) =>
          ([u], rest)
    else if c.toNat < 32 then none
    else some (Utf16.ofChar c, t)

/-- A string behind its opening quote, up to its closing one. -/
def readStringFuel : Nat → Text → Option (Utf16 × Text)
  | 0, _ => none
  | _ + 1, [] => none
  | fuel + 1, c :: t =>
    if c == doubleQuote then some ([], t)
    else do
      let (units, rest) ← readUnits (c :: t)
      let (s, rest) ← readStringFuel fuel rest
      some (units ++ s, rest)

def readString (t : Text) : Option (Utf16 × Text) :=
  readStringFuel (t.length + 1) t

/-- The digits behind a decimal point, if there are any; else nothing is read. -/
def readFraction : Text → Text × Text
  | [] => ([], [])
  | c :: t =>
    let digits := t.takeWhile isAsciiDigit
    if c == '.' && !digits.isEmpty then (digits, t.dropWhile isAsciiDigit) else ([], c :: t)

/-- An exponent, if there is a complete one; else nothing is read. -/
def readExponent : Text → Option Int × Text
  | [] => (none, [])
  | c :: t =>
    let (negative, body) :=
      match t with
      | '+' :: r => (false, r)
      | '-' :: r => (true, r)
      | _ => (false, t)
    let digits := body.takeWhile isAsciiDigit
    if (c == 'e' || c == 'E') && !digits.isEmpty then
      let n : Int := ofDigits (digits.filterMap asciiDigit?)
      (some (if negative then -n else n), body.dropWhile isAsciiDigit)
    else (none, c :: t)

/-- The whole part of a number: a zero, or digits that do not begin with one. -/
def readWholePart : Text → Text × Text
  | '0' :: t => (['0'], t)
  | t => (t.takeWhile isAsciiDigit, t.dropWhile isAsciiDigit)

/-- A number. One with a fraction or an exponent is a floating-point number; any
other is whole, and refused if it has too many digits. -/
def readNumber (t : Text) : Option (Value × Text) :=
  let (negative, t) :=
    match t with
    | '-' :: r => (true, r)
    | _ => (false, t)
  let (whole, t) := readWholePart t
  let (fraction, t) := readFraction t
  let (exponent, t) := readExponent t
  if whole.isEmpty then none
  else if !fraction.isEmpty || exponent.isSome then
    some (.float (DecimalParts.toBinary64 negative ⟨whole, fraction, exponent.getD 0⟩), t)
  else if digitLimit < whole.length then none
  else
    let n : Int := ofDigits (whole.filterMap asciiDigit?)
    some (.int (if negative then -n else n), t)

/-- The values that are written as a word. -/
def words : List (Text × Value) := [
  ("null".toList, .null),
  ("true".toList, .bool true),
  ("false".toList, .bool false),
  ("NaN".toList, .float .nan),
  ("Infinity".toList, .float (.infinite false)),
  ("-Infinity".toList, .float (.infinite true))]

/-- A value that is written as a word. -/
def readWord (t : Text) : Option (Value × Text) :=
  words.findSome? fun w => (afterWord? id w.1 t).map (w.2, ·)

/-- What can be nested too deep. -/
inductive Nest where
  | list
  | object
deriving Repr, DecidableEq

/-- Why a text denotes no value, or none that can be read. -/
inductive ReadFault where
  | malformed
  | tooDeep (nest : Nest)
deriving Repr, DecidableEq

def Nest.label : Nest → Text
  | .list => "array".toList
  | .object => "object".toList

def ReadFault.message : ReadFault → Text
  | .malformed => "malformed".toList
  | .tooDeep nest =>
    "maximum recursion depth exceeded while decoding a JSON ".toList ++ nest.label ++
      " from a unicode string".toList

/-- How many lists and objects can be inside of each other. -/
def nestingLimit : Nat := 987

/-- What was read, if the text goes on as it has to. -/
def expect {α : Type} : Option α → Except ReadFault α
  | some a => .ok a
  | none => .error .malformed

mutual

/-- A value that may hold lists and objects down to a depth. -/
def readValue : Nat → Nat → Text → Except ReadFault (Value × Text)
  | 0, _, _ => .error .malformed
  | _ + 1, _, [] => .error .malformed
  | fuel + 1, depth, c :: t =>
    if c == doubleQuote then do
      let (s, rest) ← expect (readString t)
      return (.text s, rest)
    else if c == '[' then
      match depth with
      | 0 => .error (.tooDeep .list)
      | depth + 1 =>
        match skipGap t with
        | ']' :: rest => .ok (.list [], rest)
        | t => do
          let (items, rest) ← readItems fuel depth t
          return (.list items, rest)
    else if c == '\x7b' then
      match depth with
      | 0 => .error (.tooDeep .object)
      | depth + 1 =>
        match skipGap t with
        | '\x7d' :: rest => .ok (.object [], rest)
        | t => do
          let (row, rest) ← readFields fuel depth t
          return (.object (Fields.ofRow row), rest)
    else expect ((readWord (c :: t)).orElse fun _ => readNumber (c :: t))

/-- The items of a list up to its closing bracket. -/
def readItems : Nat → Nat → Text → Except ReadFault (List Value × Text)
  | 0, _, _ => .error .malformed
  | fuel + 1, depth, t => do
    let (item, rest) ← readValue fuel depth t
    match skipGap rest with
    | ']' :: rest => return ([item], rest)
    | ',' :: rest =>
      let (items, rest) ← readItems fuel depth (skipGap rest)
      return (item :: items, rest)
    | _ => .error .malformed

/-- The fields of an object up to its closing brace. -/
def readFields : Nat → Nat → Text → Except ReadFault (List (Utf16 × Value) × Text)
  | 0, _, _ => .error .malformed
  | _ + 1, _, [] => .error .malformed
  | fuel + 1, depth, c :: t =>
    if c == doubleQuote then do
      let (key, rest) ← expect (readString t)
      match skipGap rest with
      | ':' :: rest =>
        let (value, rest) ← readValue fuel depth (skipGap rest)
        match skipGap rest with
        | '\x7d' :: rest => return ([(key, value)], rest)
        | ',' :: rest =>
          let (row, rest) ← readFields fuel depth (skipGap rest)
          return ((key, value) :: row, rest)
        | _ => .error .malformed
      | _ => .error .malformed
    else .error .malformed

end

/-- The value that a whole text denotes. -/
def read (t : Text) : Except ReadFault Value := do
  let (value, rest) ← readValue (2 * t.length + 2) nestingLimit (skipGap t)
  if (skipGap rest).isEmpty then return value else .error .malformed

end ScriptEditor.Json
