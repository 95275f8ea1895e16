import ScriptEditor.Window.Question
import ScriptEditor.Window.State

/-! What the menus of a window do. -/

namespace ScriptEditor.Window

open ScriptEditor.Appearance (Theme)
open ScriptEditor.Files (Path)
open ScriptEditor.Json (Value)

inductive Action where
  | newFile
  | openFile
  | loadPath (path : Path)
  | save
  | saveAs
  | close
  | indentSelection
  | indentAll
  | adjustFontSize (delta : Int)
  | resetFontSize
  | setTheme (theme : Theme)
  | toggleWrap
  | toggleCalltips
  | setTabWidth (width : Value)
  | askTabWidth
deriving Repr

/-- What an action leads to: the window, the questions in their order, whether the
action went through, where that is asked for, and why it failed, if it did. -/
structure Outcome where
  window : Window
  asked : List Question := []
  result : Option Bool := none
  fault : Option Fault := none

/-- Goes on with an outcome unless the action failed. -/
def Outcome.andThen (done : Outcome) (f : Window → Window) : Outcome :=
  if done.fault.isSome then done else { done with window := f done.window }

/-- Writes the preferences to their file. If the file system refuses, the status
line says so. -/
def savePreferences (w : Window) : Outcome :=
  match Preferences.save w.store w.preferencesPath w.preferences with
  | .ok store => { window := { w with store } }
  | .error (.opening (.refused cause path)) =>
    let message := Files.OpenFault.message (.refused cause path)
    { window := { w with status := "Settings not saved: ".toList ++ message } }
  | .error fault => { window := w, fault := some (.saving fault) }

/-- Keeps a preference. -/
def prefer (w : Window) (key : Utf16) (value : Value) : Outcome :=
  savePreferences { w with preferences := w.preferences.put key value }

/-- Keeps a preference after a change of the editor that may have failed. -/
def preferAfter (w : Window) (done : Editor × Option Editor.Fault) (key : Utf16)
    (value : Editor → Value) : Outcome :=
  let w := { w with editor := done.1 }
  match done.2 with
  | some fault => { window := w, fault := some (.editing fault) }
  | none => w.prefer key (value done.1)

def setTheme (w : Window) (theme : Theme) : Outcome :=
  (w.prefer Preferences.themeKey (.text (.ofText theme.label))).andThen fun w =>
    { w with editor := { w.editor with theme }, palette := theme.palette }

def setWrap (w : Window) (enabled : Bool) : Outcome :=
  { w with editor := { w.editor with wordWrap := enabled } }.prefer Preferences.wrapKey
    (.bool enabled)

def toggleWrap (w : Window) : Outcome :=
  w.setWrap !w.wrapChosen

def setCalltips (w : Window) (enabled : Bool) : Outcome :=
  { w with editor := { w.editor with showCalltips := enabled } }.prefer Preferences.calltipsKey
    (.bool enabled)

def toggleCalltips (w : Window) : Outcome :=
  w.setCalltips !w.calltipsChosen

/-- Sets the tab width to a positive number, whatever value is given. -/
def setTabWidth (w : Window) (width : Value) : Outcome :=
  w.preferAfter (w.editor.setTabWidth (Preferences.tabWidthOf width)) Preferences.tabWidthKey
    fun e => .int e.tabWidth

/-- Keeps the font size after a change of it. -/
def keepFontSize (w : Window) (done : Editor × Option Editor.Fault) : Outcome :=
  w.preferAfter done Preferences.fontSizeKey fun e => .int e.fontSize

/-- The questions before changes are lost, and whether to go on. -/
def mayDiscard (w : Window) (answers : Answers) : List Question × Bool :=
  if w.editor.isModified then ([askDiscard], answers.discard) else ([], true)

/-- Puts a text into the editor. The place of the cursor is shown before the file
changes. -/
def display (w : Window) (t : Text) (file : Option Path) : Window :=
  { (w.follow (w.editor.run (.load t))) with file }

/-- Tells that a file could not be opened. -/
def notOpened (w : Window) (p : Path) (message : Text) : Outcome :=
  { window := w, asked := [tellNotOpened p.toText message], result := some false }

/-- Opens the file at a path. -/
def loadPath (w : Window) (p : Path) : Outcome :=
  match w.store.read p with
  | .error .nullCharacter => { window := w, fault := some (.opening .nullCharacter) }
  | .error e => w.notOpened p e.message
  | .ok bytes =>
    match Utf8.decode bytes with
    | .error e => w.notOpened p e.message
    | .ok t => { window := w.display (Text.unifyLineEnds t) (some p), result := some true }

def newFile (w : Window) (answers : Answers) : Outcome :=
  let (asked, goOn) := w.mayDiscard answers
  if goOn then { window := w.display [] none, asked } else { window := w, asked }

def openFile (w : Window) (answers : Answers) : Outcome :=
  let (asked, goOn) := w.mayDiscard answers
  if !goOn then { window := w, asked }
  else if answers.path.isEmpty then { window := w, asked := asked ++ [askOpen] }
  else
    let done := w.loadPath (.ofText answers.path)
    { done with asked := asked ++ askOpen :: done.asked, result := none }

/-- Writes the text to the file at a path. -/
def writeTo (w : Window) (p : Path) : Outcome :=
  match w.store.write p (Utf8.encode w.editor.page.text) with
  | .error .nullCharacter => { window := w, fault := some (.opening .nullCharacter) }
  | .error e => { window := w, asked := [tellNotSaved p.toText e.message], result := some false }
  | .ok store => { window := { w with store, editor := w.editor.markSaved }, result := some true }

/-- Saves under a name that is asked for. -/
def saveAs (w : Window) (answers : Answers) : Outcome :=
  if answers.path.isEmpty then { window := w, asked := [askSave] }
  else
    let p := Path.ofText answers.path
    let done := w.writeTo p
    let file := if done.result = some true then some p else w.file
    { done with window := { done.window with file }, asked := askSave :: done.asked, result := none }

/-- Saves under the name of the open file, or under a name that is asked for. -/
def save (w : Window) (answers : Answers) : Outcome :=
  match w.file with
  | none => w.saveAs answers
  | some p => { w.writeTo p with result := none }

/-- Asks whether the window may be closed. -/
def close (w : Window) (answers : Answers) : Outcome :=
  let (asked, goOn) := w.mayDiscard answers
  { window := w, asked, result := some goOn }

/-- What a command of the editor leads to. -/
def ofEdit (done : Window × Editor.Reaction) : Outcome :=
  { window := done.1, fault := done.2.fault.map .editing }

/-- Indents all lines and shows how many of them that changed. -/
def indentAll (w : Window) : Outcome :=
  let done := w.edit .indentAll
  (ofEdit done).andThen fun w =>
    { w with status := "Reindented ".toList ++ Text.ofNat done.2.indented ++ " line(s)".toList }

/-- Sets the tab width to a number that is asked for. -/
def chooseTabWidth (w : Window) (answers : Answers) : Outcome :=
  let asked := [Window.askTabWidth w.editor.tabWidth]
  if answers.number.2 then { w.setTabWidth (.int answers.number.1) with asked }
  else { window := w, asked }

/-- Carries out an action. -/
def act (w : Window) (answers : Answers) : Action → Outcome
  | .newFile => w.newFile answers
  | .openFile => w.openFile answers
  | .loadPath p => w.loadPath p
  | .save => w.save answers
  | .saveAs => w.saveAs answers
  | .close => w.close answers
  | .indentSelection => ofEdit (w.edit .indentSelection)
  | .indentAll => w.indentAll
  | .adjustFontSize delta => w.keepFontSize (w.editor.adjustFontSize delta)
  | .resetFontSize => w.keepFontSize w.editor.resetFontSize
  | .setTheme theme => w.setTheme theme
  | .toggleWrap => w.toggleWrap
  | .toggleCalltips => w.toggleCalltips
  | .setTabWidth width => w.setTabWidth width
  | .askTabWidth => w.chooseTabWidth answers

end ScriptEditor.Window
