import ScriptEditor.Editor.Indenting
import ScriptEditor.Json.Value
import ScriptEditor.Script.Vocabulary
import ScriptEditor.Text.Typed

/-! Commands of the editor and what they give rise to. -/

namespace ScriptEditor.Editor

open ScriptEditor.Document (Page Draft Pos)
open ScriptEditor.Appearance (Theme)

/-- Keys with a meaning of their own. -/
inductive Key where
  | enter
  | tab
  | backtab
  | help
  | space
  | escape
  | backspace
deriving Repr, DecidableEq

inductive Command where
  /-- Puts the cursor, and the anchor if it is to be elsewhere. -/
  | move (cursor : Int × Int) (anchor : Option (Int × Int))
  | selectAll
  /-- Puts in a new text for the whole page. -/
  | load (t : Text)
  /-- Puts in a text in place of the selection. -/
  | insert (t : Text)
  /-- Enters characters one by one, as if by keys. -/
  | type (t : Text)
  | press (key : Key) (ctrl shift : Bool)
  | breakLine
  | indentCurrent
  | indentSelection
  | outdentSelection
  | indentAll
  | undo
  | redo
  /-- Shows the help for the word at the cursor, after setting whether help is
  shown and for how long. -/
  | calltip (enabled : Option Bool) (timeout : Option Int)
  | setTabWidth (width : Int)
  | setFontSize (size : Json.Value)
  | adjustFontSize (delta : Int)
  | resetFontSize
  | wheel (angle : Int) (ctrl : Bool)
  | setTheme (theme : Theme)
  | setWordWrap (enabled : Bool)
deriving Repr

/-- What happens to the help window. -/
inductive Tooltip where
  | shown (t : Text)
  | hidden
deriving Repr, DecidableEq

/-- What a command gives rise to besides the new state. -/
structure Reaction where
  /-- The place of the cursor that was reported last. -/
  reported : Option Pos := none
  tooltips : List Tooltip := []
  /-- After how many milliseconds the help goes away, if it was shown. -/
  timer : Option Int := none
  /-- How many lines were indented. -/
  indented : Nat := 0
  /-- Why the command failed, if it did. -/
  fault : Option Fault := none
deriving Repr

/-- What two commands give rise to one after the other. -/
def Reaction.followedBy (first next : Reaction) : Reaction :=
  { next with
    reported := next.reported.or first.reported
    tooltips := first.tooltips ++ next.tooltips }

/-- Ends a command that worked on a draft. -/
def finish (e : Editor) (d : Draft) : Editor × Reaction :=
  (e.commit d, { reported := e.placeToReport d })

/-- Ends a command that may have been broken off. -/
def finishAttempt (e : Editor) (a : Attempt) : Editor × Reaction :=
  match a.fault with
  | none => finish e a.draft
  | some fault =>
    let (e, reaction) := finish { e with history := e.history.breakOff } a.draft
    (e, { reaction with fault := some (.indent fault) })

/-- Ends a command that worked on a draft by one stroke. -/
def finishStroke (e : Editor) (d : Draft) (stroke : Document.Stroke) : Editor × Reaction :=
  (e.takeOver d (e.history.recordStroke e.page stroke), { reported := e.placeToReport d })

/-- Ends a change of how the editor looks. -/
def finishLook (done : Editor × Option Fault) : Editor × Reaction :=
  (done.1, { fault := done.2 })

/-- Puts in a text in place of the selection. A text within one line that replaces
nothing is a stroke. -/
def insertText (e : Editor) (t : Text) : Editor × Reaction :=
  let d := e.draft.replaceSelection t
  match d.tail with
  | some stroke => if e.page.hasSelection then finish e d else finishStroke e d stroke
  | none => finish e d

/-- Takes out the selected text, or else the character before the cursor. The end
of a line is taken out by a step of its own. -/
def eraseBack (e : Editor) : Editor × Reaction :=
  let q := e.page.cursor
  if e.page.hasSelection then finish e e.draft.eraseSelection
  else
    match e.page.left? q with
    | some p =>
      if p.line = q.line then
        let ink := e.page.inkAt p
        finishStroke e (e.draft.erase p q) (.erased p q ink (ink + (q.column - p.column)))
      else finish e (e.draft.erase p q)
    | none => finish e e.draft

/-- Takes out the selected text, or else the text from the beginning of the last
word on, which is selected with the cursor at its beginning. -/
def eraseWordBack (e : Editor) : Editor × Reaction :=
  let start := if e.page.hasSelection then none else e.page.wordLeft? e.page.cursor
  let page := { e.page with cursor := start.getD e.page.cursor }
  finish e { e.draft with page }.eraseSelection

/-- The least time for which help is shown. -/
def shortestTimeout : Int := 500

/-- Shows the help for the word at the cursor. -/
def showCalltip (e : Editor) : Reaction :=
  let p := e.page.cursor
  match if e.showCalltips then Script.calltipAt? (e.page.lineAt p.line) p.column else none with
  | some t =>
    let timeout := max shortestTimeout e.calltipTimeout
    if Number.fitsWord timeout then { tooltips := [.shown t], timer := some timeout }
    else { fault := some .timer }
  | none => {}

/-- Does what a key stands for. -/
def press (e : Editor) (key : Key) (ctrl shift : Bool) : Editor × Reaction :=
  match key with
  | .help => (e, e.showCalltip)
  | .space =>
    if ctrl && shift then (e, e.showCalltip)
    else if ctrl then (e, {})
    else e.insertText [' ']
  | .escape => (e, { tooltips := [.hidden] })
  | .enter =>
    let (e, reaction) := finishAttempt e e.breakLine
    (e, { reaction with tooltips := [.hidden] })
  | .tab => finishAttempt e e.indentSelection
  | .backtab => finish e e.outdentSelection
  | .backspace =>
    if ctrl && shift then (e, {}) else if ctrl then e.eraseWordBack else e.eraseBack

/-- Enters one character: a line feed by the key that breaks a line, a tabulator
by the key that indents. A character that no key can enter does nothing. -/
def typeChar (e : Editor) (c : Char) : Editor × Reaction :=
  if c == '\n' then e.press .enter false false
  else if c == '\t' then e.press .tab false false
  else if Text.isTypable c then e.insertText [c]
  else (e, {})

/-- Enters characters one by one, up to the first one that fails. -/
def typeText (e : Editor) : Text → Editor × Reaction
  | [] => (e, {})
  | c :: t =>
    let (next, first) := e.typeChar c
    if first.fault.isSome then (next, first)
    else
      let (last, rest) := next.typeText t
      (last, first.followedBy rest)

/-- Takes over a page of the history. -/
def goBackTo (e : Editor) (page : Page) (history : Document.History Page) : Editor × Reaction :=
  let moved := page.cursor != e.page.cursor
  let d := { e.draft with page := page.deselect, touched := true, moved }
  (e.takeOver d history, { reported := e.placeToReport d })

/-- Goes back to the text and the cursor before the last step. -/
def undo (e : Editor) : Editor × Reaction :=
  match e.history.undo? e.page with
  | some (page, history) => e.goBackTo page history
  | none => (e, {})

/-- Goes on to the text and the cursor after the next step. -/
def redo (e : Editor) : Editor × Reaction :=
  match e.history.redo? e.page with
  | some (page, history) => e.goBackTo page history
  | none => (e, {})

/-- Indents all lines, unless one of them cannot be. -/
def indentAllLines (e : Editor) : Editor × Reaction :=
  match e.indentAllFault? with
  | some fault => (e, { fault := some (.indent fault) })
  | none =>
    let (next, reaction) := finish e e.indentAll
    (next, { reaction with indented := e.misplacedCount })

/-- Puts cursor and anchor at the nearest places of the page. -/
def moveTo (e : Editor) (cursor : Int × Int) (anchor : Option (Int × Int)) : Draft :=
  let place (p : Int × Int) := e.page.clamp p.1 p.2
  e.draft.select (place cursor) (place (anchor.getD cursor))

/-- Turns the wheel, which changes the font size while the control key is down. -/
def wheel (e : Editor) (angle : Int) (ctrl : Bool) : Editor × Option Fault :=
  if ctrl && angle != 0 then e.adjustFontSize (if 0 < angle then 1 else -1) else (e, none)

/-- Sets the font size to the whole number that a value is. -/
def setFontSizeTo (e : Editor) (size : Json.Value) : Editor × Option Fault :=
  match Preferences.wholeOf size with
  | .ok n => e.setFontSize n
  | .error fault => (e, some (.conversion fault))

/-- Carries out a command. -/
def run (e : Editor) : Command → Editor × Reaction
  | .move cursor anchor => finish e (e.moveTo cursor anchor)
  | .selectAll =>
    ({ e with page := { e.page with cursor := e.page.finish, anchor := .origin } }, {})
  | .load t => (e.load t, { reported := some .origin })
  | .insert t => e.insertText t
  | .type t => e.typeText t
  | .press key ctrl shift => e.press key ctrl shift
  | .breakLine => finishAttempt e e.breakLine
  | .indentCurrent => finishAttempt e e.indentCurrent
  | .indentSelection => finishAttempt e e.indentSelection
  | .outdentSelection => finish e e.outdentSelection
  | .indentAll => e.indentAllLines
  | .undo => e.undo
  | .redo => e.redo
  | .calltip enabled timeout =>
    let e := { e with
      showCalltips := enabled.getD e.showCalltips
      calltipTimeout := timeout.getD e.calltipTimeout }
    (e, e.showCalltip)
  | .setTabWidth width => finishLook (e.setTabWidth width)
  | .setFontSize size => finishLook (e.setFontSizeTo size)
  | .adjustFontSize delta => finishLook (e.adjustFontSize delta)
  | .resetFontSize => finishLook e.resetFontSize
  | .wheel angle ctrl => finishLook (e.wheel angle ctrl)
  | .setTheme theme => ({ e with theme }, {})
  | .setWordWrap enabled => ({ e with wordWrap := enabled }, {})

end ScriptEditor.Editor
