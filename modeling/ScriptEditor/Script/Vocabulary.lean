import ScriptEditor.Text.Fold
import ScriptEditor.Text.Identifier

/-! The words that the script language knows, by category, and the short help
for its built-in functions. -/

namespace ScriptEditor.Script

inductive Category where
  | keyword
  | type
  | builtin
  | constant
deriving Repr, DecidableEq

def Category.label : Category → Text
  | .keyword => "keyword".toList
  | .type => "type".toList
  | .builtin => "builtin".toList
  | .constant => "constant".toList

def Category.all : List Category := [.keyword, .type, .builtin, .constant]

/-- The category with a name. -/
def Category.ofLabel? (t : Text) : Option Category :=
  Category.all.find? fun c => c.label == t

/-- Words that structure a script. -/
def keywords : List Text := [
  "program".toList, "function".toList, "for".toList, "to".toList, "step".toList, "next".toList,
  "loop".toList, "exit".toList, "if".toList, "then".toList, "else".toList, "end".toList,
  "declare".toList, "handle".toList, "exercise".toList, "arm".toList, "readout".toList,
  "device".toList, "return".toList, "and".toList, "or".toList, "not".toList]

/-- Words of declarations. -/
def typeNames : List Text := [
  "numeric".toList, "string".toList, "boolean".toList, "array".toList, "constant".toList]

/-- Words that stand for a value. -/
def constants : List Text := ["true".toList, "false".toList, "pi".toList]

/-- The built-in functions with their help: how they are called, and what they
do. -/
def helpTable : List (Text × Text) := [
  ("abs".toList, "abs(x)\nAbsolute value of a numeric expression.".toList),
  ("sqrt".toList, "sqrt(x)\nSquare root of a non-negative number.".toList),
  ("round".toList, "round(x, digits)\nRound x to the given number of decimal digits.".toList),
  ("int".toList, "int(x)\nInteger part of x, truncated toward zero.".toList),
  ("len".toList, "len(s)\nNumber of characters in a string or elements in an array.".toList),
  ("mid".toList, "mid(s, start, count)\nSubstring of s, start is 1-based.".toList),
  ("left".toList, "left(s, count)\nFirst count characters of s.".toList),
  ("right".toList, "right(s, count)\nLast count characters of s.".toList),
  ("upper".toList, "upper(s)\nCopy of s in upper case.".toList),
  ("lower".toList, "lower(s)\nCopy of s in lower case.".toList),
  ("trim".toList, "trim(s)\nCopy of s without leading and trailing blanks.".toList),
  ("val".toList, "val(s)\nNumeric value of a string, 0 when it is not a number.".toList),
  ("str".toList, "str(x)\nString form of a numeric value.".toList),
  ("print".toList, "print(value, ...)\nWrite values to the output log.".toList),
  ("wait".toList, "wait(ms)\nPause execution for ms milliseconds.".toList),
  ("measure".toList, "measure(channel)\nRead the current value of a device channel.".toList),
  ("setpoint".toList, "setpoint(channel, value)\nDrive a device channel to value.".toList),
  ("timestamp".toList, "timestamp()\nSeconds elapsed since the program started.".toList)]

/-- All words with their categories. -/
def vocabulary : List (Text × Category) :=
  keywords.map (·, .keyword) ++ typeNames.map (·, .type) ++ constants.map (·, .constant) ++
    helpTable.map fun h => (h.1, .builtin)

/-- The category of a word, which is given in small letters. -/
def categoryOf? (word : Text) : Option Category :=
  (vocabulary.find? fun w => w.1 == word).map (·.2)

/-- The help for a word, which is given in small letters. -/
def helpOf? (word : Text) : Option Text :=
  (helpTable.find? fun h => h.1 == word).map (·.2)

/-- Order of texts by their code points. -/
def textLe (s t : Text) : Bool :=
  !List.lex t s fun a b => a.toNat < b.toNat

/-- The words of a category in alphabetic order. -/
def wordsOf (category : Category) : List Text :=
  ((vocabulary.filter fun w => w.2 == category).map (·.1)).mergeSort textLe

/-- The help for a name in any case. -/
def calltip? (name : Text) : Option Text :=
  helpOf? (name.map Text.lowerCase)

/-- The help for the identifier that touches a column. -/
def calltipAt? (line : Text) (column : Int) : Option Text :=
  (Text.identifierAt? line column).bind calltip?

end ScriptEditor.Script
