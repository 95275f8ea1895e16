import ScriptEditor.Editor.State

/-! The commands that indent lines of the page. Each one is at most one step of
the history. -/

namespace ScriptEditor.Editor

open ScriptEditor.Document (Page Draft Pos)
open ScriptEditor.Script (Role commentMark)

/-- How far a command got with a draft, and why it was broken off, if it was. -/
structure Attempt where
  draft : Draft
  fault : Option Indent.Fault := none
deriving Repr, DecidableEq

/-- The column of a line of a draft by its block structure. -/
def columnIn (tabWidth : Int) (d : Draft) (n : Nat) : Int :=
  Indent.columnAt commentMark tabWidth d.page.lines n

/-- Gives a line of a draft the indentation of its block structure. Nothing is
edited if it has that indentation. -/
def indentLine (tabWidth : Int) (d : Draft) (n : Nat) : Draft :=
  let old := Indent.leading (d.page.lineAt n)
  let new := Indent.spaces (columnIn tabWidth d n)
  if old = new then d else d.replace ⟨n, 0⟩ ⟨n, old.length⟩ new

/-- Indents lines of a draft one after the other, up to the first one whose column
is too far to the right. -/
def indentLines (tabWidth : Int) : Draft → List Nat → Attempt
  | d, [] => { draft := d }
  | d, n :: rest =>
    match Indent.spacesFault? (columnIn tabWidth d n) with
    | some fault => ⟨d, some fault⟩
    | none => indentLines tabWidth (indentLine tabWidth d n) rest

/-- Goes on with an attempt unless it was broken off. -/
def Attempt.andThen (a : Attempt) (f : Draft → Attempt) : Attempt :=
  if a.fault.isSome then a else f a.draft

/-- Indents the line of the cursor. The cursor stays at its character, or goes to
the end of the indentation. -/
def indentCurrent (e : Editor) : Attempt :=
  let p := e.page.cursor
  let old := (Indent.leading (e.page.lineAt p.line)).length
  let new := max 0 (columnIn e.tabWidth e.draft p.line)
  (indentLines e.tabWidth e.draft [p.line]).andThen fun d =>
    { draft := d.goTo ⟨p.line, (Indent.carry p.column old new).toNat⟩ }

/-- The numbers of the lines that the selection touches. -/
def selectedLines (page : Page) : List Nat :=
  (List.range (page.stop.line + 1)).drop page.start.line

/-- Indents every line that the selection touches, from the first to the last. -/
def indentSelected (e : Editor) : Attempt :=
  indentLines e.tabWidth e.draft (selectedLines e.page)

/-- Indents the line of the cursor, or the lines of the selection. -/
def indentSelection (e : Editor) : Attempt :=
  if e.page.hasSelection then indentSelected e else indentCurrent e

/-- Takes one level of indentation from a line of a draft. -/
def outdentLine (tabWidth : Int) (d : Draft) (n : Nat) : Draft :=
  let line := d.page.lineAt n
  d.erase ⟨n, 0⟩ ⟨n, line.length - (Indent.outdent tabWidth line).length⟩

/-- Takes one level of indentation from the line of the cursor or from every line
that the selection touches. -/
def outdentSelection (e : Editor) : Draft :=
  (selectedLines e.page).foldl (outdentLine e.tabWidth) e.draft

/-- Why the lines of the page cannot all be indented, if they cannot. -/
def indentAllFault? (e : Editor) : Option Indent.Fault :=
  Indent.arrangeFault? commentMark e.tabWidth e.page.lines

/-- The lines of the page, all indented by block structure. -/
def arrangedLines (e : Editor) : List Text :=
  Indent.arrange commentMark e.tabWidth e.page.lines

/-- How many lines would change if all were indented. -/
def misplacedCount (e : Editor) : Nat :=
  ((e.page.lines.zip (arrangedLines e)).filter fun l => l.1 != l.2).length

/-- Indents all lines by putting in a new text for the whole page. The cursor
stays in its line, in its column as far as the line has that many characters. -/
def indentAll (e : Editor) : Draft :=
  if misplacedCount e = 0 then e.draft
  else
    let p := e.page.cursor
    let d := e.draft.replace .origin e.page.finish (Text.joinLines (arrangedLines e))
    d.goTo ⟨p.line, min p.column (d.page.lineAt p.line).length⟩

/-- Breaks the line at the cursor of a draft. The blanks behind the cursor give way
to the indentation of the new line; they are passed by clusters to the right. -/
def breakAtCursor (tabWidth : Int) (d : Draft) : Attempt :=
  let p := d.page.cursor
  let line := d.page.lineAt p.line
  let before := line.take p.column
  let after := line.drop p.column
  let stop := d.page.rightBy (Indent.leading after).length p
  let lines := Indent.brokenLines d.page.lines p.line before after
  let column := Indent.columnAt commentMark tabWidth lines (p.line + 1)
  match Indent.spacesFault? column with
  | some fault => ⟨d, some fault⟩
  | none =>
    { draft := d.replace (p.earlier stop) (p.later stop) ('\n' :: Indent.spaces column) }

/-- Breaks the line at the cursor, in place of the selected text. A line that
closes a block is indented first, since its role was not known when it was begun. -/
def breakLine (e : Editor) : Attempt :=
  let d := e.draft.eraseSelection
  let n := d.page.cursor.line
  let closers := if (Role.ofLine commentMark (d.page.lineAt n)).closes then [n] else []
  (indentLines e.tabWidth d closers).andThen (breakAtCursor e.tabWidth)

end ScriptEditor.Editor
