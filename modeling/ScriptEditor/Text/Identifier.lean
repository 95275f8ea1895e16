import ScriptEditor.Text.Basic

/-!
Identifiers of the script language and the one that touches a column.
-/

namespace ScriptEditor.Text

def isAsciiLetter (c : Char) : Bool :=
  ('a' ≤ c && c ≤ 'z') || ('A' ≤ c && c ≤ 'Z')

def isAsciiDigit (c : Char) : Bool :=
  '0' ≤ c && c ≤ '9'

/-- An identifier starts with an ASCII letter or an underscore. -/
def isIdentStart (c : Char) : Bool :=
  isAsciiLetter c || c == '_'

/-- An identifier goes on with ASCII letters, digits and underscores. These
are also the word characters of a line that is read as ASCII. -/
def isIdentChar (c : Char) : Bool :=
  isIdentStart c || isAsciiDigit c

/-- A stretch of a text: the index of its first character and its characters. -/
structure Stretch where
  start : Nat
  word : Text
deriving Repr, DecidableEq

/-- The index behind the last character of a stretch. -/
def Stretch.stop (s : Stretch) : Nat :=
  s.start + s.word.length

/-- The identifiers of a text from left to right, each as long as it can be.
The first number is the index of the next character, the second one counts the
characters ahead that belong to the identifier found last. -/
def identifiersFrom : Nat → Nat → Text → List Stretch
  | _, _, [] => []
  | i, taken + 1, _ :: t => identifiersFrom (i + 1) taken t
  | i, 0, c :: t =>
    if isIdentStart c then
      let tail := t.takeWhile isIdentChar
      ⟨i, c :: tail⟩ :: identifiersFrom (i + 1) tail.length t
    else identifiersFrom (i + 1) 0 t

/-- The identifiers of a text from left to right. -/
def identifiers (t : Text) : List Stretch :=
  identifiersFrom 0 0 t

/-- The first identifier that spans a column or ends right before it. -/
def identifierAt? (t : Text) (column : Int) : Option Text :=
  ((identifiers t).find? fun s => s.start ≤ column && column ≤ s.stop).map (·.word)

end ScriptEditor.Text
