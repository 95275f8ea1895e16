import ScriptEditor.Number.Range
import ScriptEditor.Sequence.Slice

/-! Indentation of a line: the spaces and tabulators it begins with, and the
column they reach. A tabulator goes to the next multiple of the tab width. -/

namespace ScriptEditor.Indent

open ScriptEditor.Text (isIndent)

/-- What cannot be done with a tab width, a line number or a column. -/
inductive Fault where
  | tabWidth (width : Int)
  | outside (line : Int) (count : Nat)
  | noLine
  /-- The number of a line is greater than can be counted. -/
  | uncountableLine
  | noTabStops
  /-- There are more columns than can be counted. -/
  | uncountable
  /-- There are more columns than there is room for. -/
  | noRoom
  /-- What is wrong cannot be told, for a number has too many digits. -/
  | untold
deriving Repr, DecidableEq

def Fault.message : Fault → Text
  | .tabWidth width => "tab width must be positive, got ".toList ++ Text.ofInt width
  | .outside line count =>
    "line ".toList ++ Text.ofInt line ++ " outside document of ".toList ++ Text.ofNat count ++
      " lines".toList
  | .noLine => "list index out of range".toList
  | .noTabStops => "integer modulo by zero".toList
  | .uncountableLine => Number.lengthMessage
  | .uncountable => Number.lengthMessage
  | .noRoom => []
  | .untold => Number.digitsMessage

/-- A fault that is told with a number, which has to be written for that. -/
def Fault.telling (number : Int) (fault : Fault) : Fault :=
  if Number.isWritable number then fault else .untold

/-- The spaces and tabulators at the beginning of a line. -/
def leading (line : Text) : Text :=
  line.takeWhile isIndent

/-- The line without the spaces and tabulators at its beginning. -/
def body (line : Text) : Text :=
  line.dropWhile isIndent

/-- The column after one more space or tabulator. -/
def advance (tabWidth column : Int) (c : Char) : Int :=
  if c == ' ' then column + 1 else column + (tabWidth - column.fmod tabWidth)

/-- The column that the indentation of a line reaches. -/
def width (tabWidth : Int) (line : Text) : Int :=
  (leading line).foldl (advance tabWidth) 0

/-- The column that the indentation of a line reaches, for any number as tab
width. Without a distance between tab stops a tabulator has no column to go to. -/
def measure (tabWidth : Int) (line : Text) : Except Fault Int :=
  if tabWidth = 0 && (leading line).contains '\t' then .error .noTabStops
  else .ok (width tabWidth line)

/-- Indentation up to a column; there is none before the first column. -/
def spaces (column : Int) : Text :=
  List.replicate column.toNat ' '

/-- Why there is no indentation up to a column, if there is none. -/
def spacesFault? (column : Int) : Option Fault :=
  if Number.greatestLength < column then some .uncountable
  else if Number.greatestRoom < column then some .noRoom
  else none

/-- Indentation up to any column. -/
def makeSpaces (column : Int) : Except Fault Text :=
  match spacesFault? column with
  | some fault => .error fault
  | none => .ok (spaces column)

/-- The line indented to a column. A line without a body becomes empty. -/
def place (line : Text) (column : Int) : Text :=
  if (body line).isEmpty then [] else spaces column ++ body line

/-- Why a line cannot be indented to a column, if it cannot. A line without a body
needs no indentation. -/
def placeFault? (line : Text) (column : Int) : Option Fault :=
  if (body line).isEmpty then none else spacesFault? column

/-- The line indented to any column. -/
def makePlaced (line : Text) (column : Int) : Except Fault Text :=
  match placeFault? line column with
  | some fault => .error fault
  | none => .ok (place line column)

/-- The line without one level of indentation: without a tabulator at its
beginning, or else without at most a tab width of spaces. -/
def outdent (tabWidth : Int) (line : Text) : Text :=
  if line.head? == some '\t' then line.tail
  else
    let count : Int := (line.takeWhile (· == ' ')).length
    Sequence.dropSigned (min count tabWidth) line

/-- Where an offset of a line goes when the length of the indentation changes.
Inside of the indentation it goes to its end, behind it stays at its character. -/
def carry (offset before after : Int) : Int :=
  if offset ≤ before then after else offset - before + after

theorem leading_append_body (line : Text) : leading line ++ body line = line :=
  List.takeWhile_append_dropWhile

theorem makeSpaces_eq_ok_iff {column : Int} {t : Text} :
    makeSpaces column = .ok t ↔ spacesFault? column = none ∧ t = spaces column := by
  unfold makeSpaces
  cases spacesFault? column <;> simp [eq_comm]

end ScriptEditor.Indent
