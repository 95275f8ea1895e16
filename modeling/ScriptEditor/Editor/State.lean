import ScriptEditor.Appearance.Palette
import ScriptEditor.Document.Draft
import ScriptEditor.Highlight.Paint
import ScriptEditor.Indent.Buffer
import ScriptEditor.Preferences.Whole

/-! The state of a text editor: its page with the history, and how it looks. -/

namespace ScriptEditor

open ScriptEditor.Document (Page Draft History Pos linesOf)
open ScriptEditor.Appearance (Theme Palette Colour)

/-- An editor for scripts. -/
structure Editor where
  page : Page
  /-- The stamp for the next character that is written. -/
  written : Nat
  history : History Page
  tabWidth : Int
  fontSize : Int
  theme : Theme
  wordWrap : Bool
  showCalltips : Bool
  calltipTimeout : Int
deriving Repr

namespace Editor

def defaultFontSize : Int := 11

def smallestFontSize : Int := 6

def largestFontSize : Int := 72

/-- Why a command of the editor fails. -/
inductive Fault where
  | indent (fault : Indent.Fault)
  | conversion (fault : Preferences.ConversionFault)
  /-- Tab stops would be further apart than can be measured. -/
  | tabStops
  /-- Help would be shown for longer than can be counted. -/
  | timer
deriving Repr, DecidableEq

def Fault.message : Fault → Text
  | .indent fault => fault.message
  | .conversion fault => fault.message
  | .tabStops =>
    "setTabStopDistance(self, distance: float): argument 1 has unexpected type 'int'".toList
  | .timer => Number.wordMessage

/-- An editor with an empty page. -/
def new (theme : Theme) (tabWidth : Int) : Editor where
  page := .ofText []
  written := 0
  history := .fresh
  tabWidth := tabWidth
  fontSize := defaultFontSize
  theme := theme
  wordWrap := true
  showCalltips := true
  calltipTimeout := 2500

/-- How wide a space is in the font: four thirds of its size. -/
def spaceWidth (e : Editor) : Int :=
  e.fontSize * 4 / 3

/-- Why the tab stops cannot be put, if they cannot. -/
def tabStopsFault? (e : Editor) : Option Fault :=
  if Number.fitsBinary64 (e.spaceWidth * e.tabWidth) then none else some .tabStops

/-- Sets the tab width. A positive number is taken over also if the tab stops then
cannot be put. -/
def setTabWidth (e : Editor) (tabWidth : Int) : Editor × Option Fault :=
  if tabWidth < 1 then (e, some (.indent (.telling tabWidth (.tabWidth tabWidth))))
  else
    let e := { e with tabWidth }
    (e, e.tabStopsFault?)

/-- The font size within its limits. -/
def clampFontSize (size : Int) : Int :=
  max smallestFontSize (min largestFontSize size)

/-- Sets the font size. The tab stops are put anew if it is another one. -/
def setFontSize (e : Editor) (size : Int) : Editor × Option Fault :=
  if clampFontSize size = e.fontSize then (e, none)
  else
    let e := { e with fontSize := clampFontSize size }
    (e, e.tabStopsFault?)

def adjustFontSize (e : Editor) (delta : Int) : Editor × Option Fault :=
  e.setFontSize (e.fontSize + delta)

def resetFontSize (e : Editor) : Editor × Option Fault :=
  e.setFontSize defaultFontSize

/-- What a change leads to that must not fail. -/
def unlessFault (done : Editor × Option Fault) : Except Fault Editor :=
  match done.2 with
  | some fault => .error fault
  | none => .ok done.1

/-- An editor with an empty page for any number as tab width. -/
def create (theme : Theme) (tabWidth : Int) : Except Fault Editor :=
  unlessFault ((new theme tabWidth).setTabWidth tabWidth)

/-- Puts in a new text for the whole page, which has no history and counts as
saved. -/
def load (e : Editor) (t : Text) : Editor :=
  { e with
    page := .ofText t
    written := Document.Ink.after 0 (linesOf t)
    history := e.history.restart }

def isModified (e : Editor) : Bool :=
  e.history.isModified

/-- Takes the text as saved. -/
def markSaved (e : Editor) : Editor :=
  { e with history := e.history.save }

/-- A draft for a command to work on. -/
def draft (e : Editor) : Draft :=
  { page := e.page, written := e.written }

/-- Takes over a draft, with a history that knows of it. -/
def takeOver (e : Editor) (d : Draft) (history : History Page) : Editor :=
  { e with page := d.page, written := d.written, history }

/-- Ends a command: the draft becomes the page, and an edit becomes one step of
the history. -/
def commit (e : Editor) (d : Draft) : Editor :=
  e.takeOver d (if d.edited then e.history.record e.page d.tail else e.history)

/-- The place of the cursor, if it is to be reported after a command. Edits are
reported when their step ends, which it does not any more once a command was broken
off; a cursor that was put elsewhere is reported at once. -/
def placeToReport (e : Editor) (d : Draft) : Option Pos :=
  if d.moved || (d.touched && e.history.frozen.isNone) then some d.page.cursor else none

/-- Why a line cannot be had. -/
inductive LineFault where
  | missing (index : Int)
  | uncountable
deriving Repr, DecidableEq

def LineFault.message : LineFault → Text
  | .missing index => Text.ofInt index
  | .uncountable => Number.wordMessage

/-- The line at a signed index. -/
def line (e : Editor) (index : Int) : Except LineFault Text :=
  if Number.fitsWord (Sequence.fromStart e.page.lines.length index) then
    (Sequence.elementAt e.page.lines index).mapError .missing
  else .error .uncountable

def palette (e : Editor) : Palette :=
  e.theme.palette

/-- The format runs of each line. -/
def runs (e : Editor) : List (List Highlight.Run) :=
  e.page.lines.map (Highlight.runsOf e.palette Script.commentMark)

/-- The greatest extent of anything on the screen. -/
def greatestExtent : Int := 16777215

/-- The height of the gutter beside the lines, when a height is given to the
editor. -/
def gutterHeight (height : Int) : Int :=
  max 0 (min greatestExtent height)

/-- How many digits the widest line number has. -/
def gutterDigits (e : Editor) : Nat :=
  (Text.ofNat (max 1 e.page.lines.length)).length

/-- The line numbers as they are painted beside the lines. -/
def lineNumbers (e : Editor) : List Text :=
  (List.range e.page.lines.length).map fun n => Text.ofNat (n + 1)

end Editor

end ScriptEditor
