import ScriptEditor.Script.Vocabulary

/-! Recognisers of the parts of a script that are coloured. A recogniser looks at
one place of a text; scanning asks it at every place from left to right and goes
on behind what it found. Words end where a character begins that is not an ASCII
letter, digit or underscore. -/

namespace ScriptEditor.Highlight

open ScriptEditor.Text (isAsciiBlank isAsciiDigit isIdentStart isIdentChar afterWord? foldCase)

/-- What a recogniser reads at a place: characters that it passes over, and the
characters behind them that get the colour. -/
structure Hit where
  passed : Nat
  coloured : Nat
deriving Repr, DecidableEq

/-- A recogniser is given the character before the place and the text from the
place on. -/
abbrev Recogniser := Option Char → Text → Option Hit

/-- Whether a word begins or ends between two characters. -/
def isBoundary (before after : Option Char) : Bool :=
  before.any isIdentChar != after.any isIdentChar

/-- A whole word of a list, in any case. Of several that could be read the first
in the list counts. -/
def word (words : List Text) : Recogniser := fun before t =>
  if isBoundary before t.head? then
    words.findSome? fun w =>
      match afterWord? foldCase w t with
      | some rest =>
        if isBoundary (t.take w.length).getLast? rest.head? then some ⟨0, w.length⟩ else none
      | none => none
  else none

/-- How many characters a decimal point and the digits behind it take, if there
are any. -/
def fractionLength : Text → Nat
  | '.' :: t =>
    let digits := (t.takeWhile isAsciiDigit).length
    if digits = 0 then 0 else digits + 1
  | _ => 0

/-- How many characters an exponent takes, if there is a complete one. -/
def exponentLength : Text → Nat
  | c :: t =>
    let sign :=
      match t with
      | '+' :: _ => 1
      | '-' :: _ => 1
      | _ => 0
    let digits := ((t.drop sign).takeWhile isAsciiDigit).length
    if (c == 'e' || c == 'E') && digits != 0 then 1 + sign + digits else 0
  | [] => 0

/-- A number that no word goes on from: digits, perhaps a fraction, perhaps an
exponent, and as many of these as lead to the end of a word. -/
def number : Recogniser := fun before t =>
  let whole := (t.takeWhile isAsciiDigit).length
  let rest := t.drop whole
  let fraction := fractionLength rest
  if whole = 0 || before.any isIdentChar then none
  else
    let lengths := [
      whole + fraction + exponentLength (rest.drop fraction),
      whole + fraction,
      whole + exponentLength rest,
      whole]
    (lengths.find? fun n => !(t.drop n).head?.any isIdentChar).map fun n => ⟨0, n⟩

/-- Names are read caselessly, so that letters which fold to ASCII belong to
them. -/
def isNameStart (c : Char) : Bool := isIdentStart (foldCase c)

def isNameChar (c : Char) : Bool := isIdentChar (foldCase c)

/-- A name behind the word that declares it; only the name is coloured. -/
def declaredName : Recogniser := fun before t =>
  if isBoundary before t.head? then
    ["program".toList, "function".toList].findSome? fun w =>
      match afterWord? foldCase w t with
      | some rest =>
        let gap := (rest.takeWhile isAsciiBlank).length
        let name := (rest.drop gap).takeWhile isNameChar
        if gap != 0 && name.head?.any isNameStart then some ⟨w.length + gap, name.length⟩
        else none
      | none => none
  else none

/-- A string in quotes of either kind, up to the end of the text if the second
quote is missing. -/
def string : Recogniser := fun _ t =>
  match t with
  | [] => none
  | q :: rest =>
    if q == Text.singleQuote || q == Text.doubleQuote then
      let inner := (rest.takeWhile (· != q)).length
      some ⟨0, min (inner + 2) (rest.length + 1)⟩
    else none

/-- A stretch of a text, counted in characters. -/
structure Span where
  start : Nat
  length : Nat
deriving Repr, DecidableEq

/-- The coloured stretches that a recogniser finds in the rest of a text. The
numbers are the index of the next character, and how many of the characters ahead
belong to what was found last. -/
def spansFrom (r : Recogniser) : Nat → Nat → Option Char → Text → List Span
  | _, _, _, [] => []
  | i, skip + 1, _, c :: t => spansFrom r (i + 1) skip (some c) t
  | i, 0, before, c :: t =>
    match r before (c :: t) with
    | none => spansFrom r (i + 1) 0 (some c) t
    | some hit =>
      ⟨i + hit.passed, hit.coloured⟩ ::
        spansFrom r (i + 1) (hit.passed + hit.coloured - 1) (some c) t

/-- The coloured stretches that a recogniser finds in a text. -/
def spans (r : Recogniser) (t : Text) : List Span :=
  spansFrom r 0 0 none t

end ScriptEditor.Highlight
