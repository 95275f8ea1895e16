import ScriptEditor.Script.Comment
import ScriptEditor.Text.Fold
import ScriptEditor.Text.Letter

/-! The role of a line in block structure. It depends on the line's own code
only, never on the lines around it. -/

namespace ScriptEditor.Script

open ScriptEditor.Text (isBlank isWordChar afterWord? foldCaseDotted)

/-- An opener starts a block, a closer ends one, a divider ends one clause of a
block and starts the next, and a plain line does none of this. -/
inductive Role where
  | opener
  | closer
  | divider
  | plain
deriving Repr, DecidableEq

/-- The name of a role in messages. -/
def Role.label : Role → Text
  | .opener => "start".toList
  | .closer => "end".toList
  | .divider => "start_end".toList
  | .plain => "plain".toList

/-- Roles after which the next line is one level deeper. -/
def Role.opens : Role → Bool
  | .opener | .divider => true
  | _ => false

/-- Roles whose own line is one level less deep. -/
def Role.closes : Role → Bool
  | .closer | .divider => true
  | _ => false

/-- The form that the code of a line can have. Words are compared caselessly. -/
inductive Shape where
  /-- It begins with one of these words. -/
  | startsWith (words : List Text)
  /-- It is this word. -/
  | is (word : Text)
  /-- It begins with the first and ends with the last word, in one line. -/
  | spans (first last : Text)
  /-- It begins with two words that have blanks and nothing else between them. -/
  | startsWithPair (first second : Text)
deriving Repr

/-- Whether a word cannot go on here: there is no character, or none of a word. -/
def atWordEnd : Text → Bool
  | [] => true
  | c :: _ => !isWordChar c

/-- What follows a whole word at the beginning of a text. -/
def afterWholeWord? (word t : Text) : Option Text :=
  (afterWord? foldCaseDotted word t).filter atWordEnd

/-- Whether a text is at its end, one line feed apart. -/
def atLineEnd (t : Text) : Bool :=
  t.isEmpty || t == ['\n']

/-- The text without a line feed at its end. -/
def withoutFinalBreak (t : Text) : Text :=
  if t.getLast? == some '\n' then t.dropLast else t

/-- Whether a text ends with a whole word, all of it in one line. The character
before the word has to be there and to be none of a word. -/
def endsWithWord (word t : Text) : Bool :=
  let body := withoutFinalBreak t
  let before := body.take (body.length - word.length)
  let tail := body.drop (body.length - word.length)
  afterWord? foldCaseDotted word tail == some [] && !before.contains '\n' &&
    (before.getLast?.map isWordChar) == some false

/-- Whether a text has a form. -/
def Shape.fits : Shape → Text → Bool
  | .startsWith words, t => words.any fun w => (afterWholeWord? w t).isSome
  | .is word, t => (afterWord? foldCaseDotted word t).any atLineEnd
  | .spans first last, t => (afterWholeWord? first t).any (endsWithWord last)
  | .startsWithPair first second, t =>
    (afterWord? foldCaseDotted first t).any fun rest =>
      rest.head?.any isBlank && (afterWholeWord? second (rest.dropWhile isBlank)).isSome

/-- The forms of lines that are not plain, with their roles. -/
def roleTable : List (Role × Shape) := [
  (.opener, .startsWith ["program".toList, "function".toList, "for".toList, "loop".toList,
    "handle".toList, "exercise".toList]),
  (.opener, .is "declare".toList),
  (.opener, .spans "if".toList "then".toList),
  (.opener, .startsWithPair "arm".toList "device".toList),
  (.divider, .startsWith ["else".toList]),
  (.closer, .startsWith ["end".toList, "next".toList]),
  (.closer, .startsWithPair "readout".toList "device".toList)]

/-- Which entries of the table a text fits, taken as it is. -/
def tableFits (t : Text) : List (Role × Bool) :=
  roleTable.map fun entry => (entry.1, entry.2.fits t)

/-- The role of a statement: that of the first form it has. -/
def Role.ofStatement (code : Text) : Role :=
  ((roleTable.find? fun entry => entry.2.fits code).map (·.1)).getD .plain

/-- The role of a line. -/
def Role.ofLine (mark line : Text) : Role :=
  Role.ofStatement (statement mark line)

end ScriptEditor.Script
