import ScriptEditor.Window.Action

/-! The start of the program. -/

namespace ScriptEditor.Window

open ScriptEditor.Files (Path Store)

/-- The file in the home directory that holds the preferences. -/
def preferencesName : Text := ".blockpad.json".toList

/-- Opens a window with the preferences from a file. Of the names that the program
is started with, the first is opened and the others are not looked at. -/
def launch (store : Store) (preferencesPath : Path) (names : List Text) :
    Except Fault Outcome := do
  let w ← Window.new store preferencesPath
  match names with
  | [] => return { window := w }
  | name :: _ =>
    let done := w.loadPath (.ofText name)
    match done.fault with
    | some fault => throw fault
    | none => return done

end ScriptEditor.Window
