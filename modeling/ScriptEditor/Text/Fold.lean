import ScriptEditor.Text.Basic

/-!
Caseless comparison. The script language does not distinguish capital and small
letters; which letters beyond ASCII agree with an ASCII letter depends on who
compares, so the folding is a parameter of the comparison.
-/

namespace ScriptEditor.Text

/-- Small letters for the capital letters of ASCII. -/
def asciiLower (c : Char) : Char :=
  if 'A' ≤ c && c ≤ 'Z' then Char.ofNat (c.toNat + 32) else c

/-- Simple case folding as far as it reaches ASCII: besides the capital
letters, the long s folds to `s` and the Kelvin sign to `k`. -/
def foldCase (c : Char) : Char :=
  if c == 'ſ' then 's' else if c == '\u212a' then 'k' else asciiLower c

/-- Folding that also takes the dotless small and the dotted capital letter
for an `i`. -/
def foldCaseDotted (c : Char) : Char :=
  if c == 'ı' || c == 'İ' then 'i' else foldCase c

/-- Lower case as far as it reaches ASCII. The dotted capital letter is not
here, since its lower case is an `i` followed by a combining dot. -/
def lowerCase (c : Char) : Char :=
  if c == '\u212a' then 'k' else asciiLower c

/-- What follows a word at the beginning of a text, if the text begins with
it. The word is given in folded letters. -/
def afterWord? (fold : Char → Char) : Text → Text → Option Text
  | [], t => some t
  | w :: ws, c :: t => if fold c == w then afterWord? fold ws t else none
  | _ :: _, [] => none

end ScriptEditor.Text
