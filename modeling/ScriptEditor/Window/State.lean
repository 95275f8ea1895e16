import ScriptEditor.Editor.Command
import ScriptEditor.Files.Store
import ScriptEditor.Preferences.Record

/-! The window around an editor: the file that is open, the preferences, and the
status line. -/

namespace ScriptEditor

open ScriptEditor.Appearance (Theme Palette)
open ScriptEditor.Document (Pos)
open ScriptEditor.Files (Path Store)
open ScriptEditor.Json (Value Fields)

/-- A window, together with the files that it sees. -/
structure Window where
  editor : Editor
  preferences : Fields
  preferencesPath : Path
  file : Option Path
  status : Text
  palette : Palette
  store : Store
deriving Repr

namespace Window

/-- Why a window cannot be opened, or why an action fails. -/
inductive Fault where
  | editing (fault : Editor.Fault)
  | loading (fault : Preferences.LoadFault)
  | saving (fault : Preferences.SaveFault)
  | opening (fault : Files.OpenFault)
deriving Repr, DecidableEq

def Fault.message : Fault → Text
  | .editing fault => fault.message
  | .loading fault => fault.message
  | .saving fault => fault.message
  | .opening fault => fault.message

/-- The value of a preference. -/
def preference (w : Window) (key : Utf16) : Value :=
  (w.preferences.get? key).getD .null

/-- The whole number that a preference is. -/
def wholeNumber : Value → Int
  | .int n => n
  | _ => 0

/-- An editor that follows preferences. -/
def editorFor (preferences : Fields) : Except Editor.Fault Editor := do
  let value key := (preferences.get? key).getD .null
  let e ← Editor.create (Theme.ofValue (value Preferences.themeKey))
    (wholeNumber (value Preferences.tabWidthKey))
  let e ← Editor.unlessFault (e.setFontSize (wholeNumber (value Preferences.fontSizeKey)))
  return { e with
    showCalltips := (value Preferences.calltipsKey).isTrue
    calltipTimeout := wholeNumber (value Preferences.timeoutKey)
    wordWrap := (value Preferences.wrapKey).isTrue }

/-- A new window with the preferences from a file. -/
def new (store : Store) (preferencesPath : Path) : Except Fault Window := do
  let (preferences, _) ← (Preferences.load store preferencesPath).mapError .loading
  let editor ← (editorFor preferences).mapError .editing
  return { editor, preferences, preferencesPath, store
           file := none
           status := []
           palette := editor.palette }

/-- The name of the program, followed by that of the open file. -/
def title (w : Window) : Text :=
  match w.file with
  | some p => "BlockPad — ".toList ++ p.name
  | none => "BlockPad".toList

/-- The open file in the status line. -/
def fileLabel (w : Window) : Text :=
  match w.file with
  | some p => p.toText
  | none => "Untitled".toList

/-- A place in the status line, counted from one. -/
def positionMessage (w : Window) (p : Pos) : Text :=
  Text.withoutMark
    (w.fileLabel ++ " — Line ".toList ++ Text.ofNat (p.line + 1) ++ ", Column ".toList ++
      Text.ofNat (p.column + 1))

/-- Takes over what a command did to the editor. A place that was reported is
shown. -/
def follow (w : Window) (done : Editor × Editor.Reaction) : Window :=
  let status := (done.2.reported.map w.positionMessage).getD w.status
  { w with editor := done.1, status }

/-- Carries out a command of the editor. -/
def edit (w : Window) (c : Editor.Command) : Window × Editor.Reaction :=
  let done := w.editor.run c
  (w.follow done, done.2)

/-- Whether the light theme is chosen in the menu. -/
def lightChosen (w : Window) : Bool :=
  Theme.ofValue (w.preference Preferences.themeKey) = .light

/-- Whether word wrap is chosen in the menu. -/
def wrapChosen (w : Window) : Bool :=
  (w.preference Preferences.wrapKey).isTrue

/-- Whether help is chosen in the menu. -/
def calltipsChosen (w : Window) : Bool :=
  (w.preference Preferences.calltipsKey).isTrue

/-- The text of the preferences file, if there is one. -/
def preferencesText? (w : Window) : Option Text :=
  w.store.textAt? w.preferencesPath

end Window

end ScriptEditor
