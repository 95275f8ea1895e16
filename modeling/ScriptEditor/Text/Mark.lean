import ScriptEditor.Text.Units

/-!
The byte order mark at the beginning of a text. A text that has characters beyond
U+FFFF is handed over in units of four bytes, whose order the mark would tell, and
the mark is taken off on the way. In any other text it is a character like others.
-/

namespace ScriptEditor.Text

/-- The character that marks the order of bytes. -/
def byteOrderMark : Char := '\ufeff'

/-- Whether a text has characters that are two units wide. -/
def hasWide (t : Text) : Bool :=
  t.any fun c => unitWidth c == 2

/-- The text as it arrives where it is handed to. -/
def withoutMark (t : Text) : Text :=
  if t.head? == some byteOrderMark && hasWide t then t.tail else t

end ScriptEditor.Text
