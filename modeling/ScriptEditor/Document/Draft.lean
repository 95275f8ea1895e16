import ScriptEditor.Document.History
import ScriptEditor.Document.Page

/-! A page on which a command is at work. The draft remembers what the command has
done to the page and to the cursor. -/

namespace ScriptEditor.Document

/-- A page together with what has happened to it since a command began. -/
structure Draft where
  page : Page
  /-- The stamp for the next character that is written. -/
  written : Nat
  edited : Bool := false
  /-- Whether text at the cursor or before it was edited. -/
  touched : Bool := false
  /-- Whether the cursor was put elsewhere. -/
  moved : Bool := false
  /-- The last edit, if another one can go on from there. -/
  tail : Option Stroke := none
deriving Repr, DecidableEq

namespace Draft

/-- Takes out the text from `a` to `b`. -/
def erase (d : Draft) (a b : Pos) : Draft :=
  if a = b then d
  else
    { d with
      page := d.page.erase a b
      edited := true
      touched := d.touched || a.upTo d.page.cursor
      tail := none }

/-- The stroke of rows that were put in at a place; only text of one line is a
stroke. -/
def strokeOf (a : Pos) (rows : List Text) (stamp : Nat) : Option Stroke :=
  match rows with
  | [row] => some (.typed a ⟨a.line, a.column + Text.units row⟩ stamp (stamp + Text.units row))
  | _ => none

/-- Puts in a text at `a`. -/
def insert (d : Draft) (a : Pos) (t : Text) : Draft :=
  let rows := linesOf t
  if t.isEmpty then d
  else
    { d with
      page := d.page.insert a rows d.written
      written := Ink.after d.written rows
      edited := true
      touched := d.touched || a.upTo d.page.cursor
      tail := strokeOf a rows d.written }

/-- Takes out the selected text. A cursor at the beginning of the selection stays
where it is. -/
def eraseSelection (d : Draft) : Draft :=
  let page := d.page
  if page.hasSelection then
    { d with
      page := page.erase page.start page.stop
      edited := true
      touched := d.touched || page.anchor.before page.cursor
      tail := none }
  else d

/-- Puts in a text at the cursor, in place of the selected text. -/
def replaceSelection (d : Draft) (t : Text) : Draft :=
  let d := d.eraseSelection
  d.insert d.page.cursor t

/-- Puts in a text in place of the text from `a` to `b`. -/
def replace (d : Draft) (a b : Pos) (t : Text) : Draft :=
  (d.erase a b).insert a t

/-- Puts cursor and anchor at places. -/
def select (d : Draft) (cursor anchor : Pos) : Draft :=
  { d with
    page := { d.page with cursor, anchor }
    moved := d.moved || cursor != d.page.cursor }

/-- Puts the cursor at a place, with nothing selected. -/
def goTo (d : Draft) (p : Pos) : Draft :=
  d.select p p

end Draft

end ScriptEditor.Document
