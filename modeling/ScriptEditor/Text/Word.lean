import ScriptEditor.Text.Basic

/-!
Words as a cursor passes them when it goes to the left by whole words.
-/

namespace ScriptEditor.Text

/-- Blanks between words. The information separators are not among them. -/
def isWordGap (c : Char) : Bool :=
  isBlank c && !(28 ≤ c.toNat && c.toNat ≤ 31)

/-- Signs that words are set apart by. -/
def wordSeparators : Text :=
  ".,?!@#$:;-<>[]()\x7b\x7d=/+%&^*'\"`~|\\".toList

def isWordSeparator (c : Char) : Bool :=
  wordSeparators.contains c

/-- What is left of a text when a cursor goes from its end to the beginning of the
last word. Blanks behind the word are passed first, and signs that stand together
are one word. -/
def beforeLastWord (t : Text) : Text :=
  let t := dropEndWhile isWordGap t
  if t.getLast?.any isWordSeparator then dropEndWhile isWordSeparator t
  else dropEndWhile (fun c => !isWordGap c && !isWordSeparator c) t

end ScriptEditor.Text
