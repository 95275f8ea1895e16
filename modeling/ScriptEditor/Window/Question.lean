import ScriptEditor.Text.Basic

/-! Questions that a window puts to its user, and answers to them. -/

namespace ScriptEditor.Window

/-- A question, or a message that has to be confirmed. -/
inductive Question where
  | warning (title text : Text)
  | critical (title text : Text)
  | openFile (title filter : Text)
  | saveFile (title filter : Text)
  | number (title label : Text) (value least greatest : Int)
deriving Repr, DecidableEq

/-- How the user answers: whether changes may be lost, which file is chosen (none
by an empty name), and which number, if it is confirmed. -/
structure Answers where
  discard : Bool := false
  path : Text := []
  number : Int × Bool := (0, false)
deriving Repr

/-- The kinds of files to choose from. -/
def fileFilter : Text :=
  "Device Scripts (*.dsc);;All Files (*.*)".toList

def askOpen : Question :=
  .openFile "Open File".toList fileFilter

def askSave : Question :=
  .saveFile "Save File As".toList fileFilter

def askDiscard : Question :=
  .warning "Unsaved Changes".toList
    "The document has unsaved changes. Do you want to continue without saving?".toList

def askTabWidth (current : Int) : Question :=
  .number "Tab Width".toList "Columns per level:".toList current 1 16

/-- Tells that a file could not be opened. -/
def tellNotOpened (path message : Text) : Question :=
  .critical "Open File".toList
    ("Could not open ".toList ++ path ++ ":\n".toList ++ message)

/-- Tells that a file could not be saved. -/
def tellNotSaved (path message : Text) : Question :=
  .critical "Save File".toList
    ("Could not save ".toList ++ path ++ ":\n".toList ++ message)

end ScriptEditor.Window
