import ScriptEditor.Text.Basic

/-! The code of a line and its comment. A comment mark inside a quoted string
does not start a comment; a quote without a partner runs to the end of the line. -/

namespace ScriptEditor.Script

open ScriptEditor.Text (singleQuote doubleQuote)

/-- The mark that starts a comment unless another one is chosen. -/
def commentMark : Text := ['#']

/-- Characters that open a string. -/
def isQuote (c : Char) : Bool :=
  c == singleQuote || c == doubleQuote

/-- The code of the rest of a line, read from inside the string that a quote has
opened, or from outside of strings. -/
def codeFrom (mark : Text) : Option Char → Text → Text
  | _, [] => []
  | some q, c :: t => c :: codeFrom mark (if c == q then none else some q) t
  | none, c :: t =>
    if isQuote c then c :: codeFrom mark (some c) t
    else if [c] == mark then []
    else c :: codeFrom mark none t

/-- The line without its comment. The mark is compared with single characters,
so that one of any other length never starts a comment. -/
def codePart (mark line : Text) : Text :=
  codeFrom mark none line

/-- The code of a line without the blanks around it. -/
def statement (mark line : Text) : Text :=
  Text.trim (codePart mark line)

/-- Whether a line has code, so that it is neither blank nor only a comment. -/
def hasCode (mark line : Text) : Bool :=
  !(statement mark line).isEmpty

end ScriptEditor.Script
