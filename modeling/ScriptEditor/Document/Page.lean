import ScriptEditor.Document.Position
import ScriptEditor.Document.Rows
import ScriptEditor.Text.Direction
import ScriptEditor.Text.Lines
import ScriptEditor.Text.Mark
import ScriptEditor.Text.Utf16
import ScriptEditor.Text.Word

/-! The lines of a document with a cursor, the ways a cursor goes, and the two
elementary edits. -/

namespace ScriptEditor.Document

/-- The lines that a text becomes in a document. -/
def linesOf (t : Text) : List Text :=
  Text.splitLines (Text.withoutMark t)

/-- Lines, the stamps of their characters, and the two ends of the selection: the
cursor, which moves, and the anchor. Nothing is selected when they are the same. -/
structure Page where
  lines : List Text
  ink : List (List Nat)
  cursor : Pos
  anchor : Pos
deriving Repr, DecidableEq

namespace Page

/-- A page with a text, and the cursor at its beginning. -/
def ofText (t : Text) : Page :=
  ⟨linesOf t, Ink.ofRows 0 (linesOf t), .origin, .origin⟩

/-- The line with a number. -/
def lineAt (page : Page) (n : Nat) : Text :=
  page.lines.getD n []

/-- The text of the page in one piece. -/
def text (page : Page) : Text :=
  Text.plainText page.lines

/-- The beginning of the selection. -/
def start (page : Page) : Pos :=
  page.cursor.earlier page.anchor

/-- The end of the selection. -/
def stop (page : Page) : Pos :=
  page.cursor.later page.anchor

def hasSelection (page : Page) : Bool :=
  page.cursor != page.anchor

/-- The page with nothing selected. -/
def deselect (page : Page) : Page :=
  { page with anchor := page.cursor }

/-- The end of the page. -/
def finish (page : Page) : Pos :=
  let n := page.lines.length - 1
  ⟨n, Text.units (page.lineAt n)⟩

/-- The nearest place of the page: the line is moved into the page first, then the
column into the line. -/
def clamp (page : Page) (line column : Int) : Pos :=
  let n := (min line ((page.lines.length : Int) - 1)).toNat
  ⟨n, (min column (Text.units (page.lineAt n))).toNat⟩

/-- How many characters of its line are before a place. -/
def index (page : Page) (p : Pos) : Nat :=
  Text.charsWithin p.column (page.lineAt p.line)

/-- The place behind a number of characters of a line. -/
def placeAt (page : Page) (line index : Nat) : Pos :=
  ⟨line, Text.units ((page.lineAt line).take index)⟩

/-- The stamp of the character behind a place. -/
def inkAt (page : Page) (p : Pos) : Nat :=
  (page.ink.getD p.line []).getD (page.index p) 0

/-- The end of the line above, if there is one. -/
def endAbove? (page : Page) (line : Nat) : Option Pos :=
  if line = 0 then none else some ⟨line - 1, Text.units (page.lineAt (line - 1))⟩

/-- The place behind the next cluster. The end of a line counts as one, and the end
of the page is not passed. -/
def forward (page : Page) (p : Pos) : Pos :=
  let line := page.lineAt p.line
  let i := page.index p
  if i < line.length then
    page.placeAt p.line (i + Text.clusterAhead (line.take i) (line.drop i) 0)
  else if p.line + 1 < page.lines.length then ⟨p.line + 1, 0⟩
  else p

/-- The place before the last cluster. The beginning of the page is not passed. -/
def backward (page : Page) (p : Pos) : Pos :=
  let line := page.lineAt p.line
  let i := page.index p
  if 0 < i then page.placeAt p.line (i - Text.clusterBack (line.take i).reverse (line.drop i))
  else (page.endAbove? p.line).getD p

/-- The place one cluster to the right, which is backward in a line that runs from
right to left. -/
def right (page : Page) (p : Pos) : Pos :=
  if Text.runsLeft (page.lineAt p.line) then page.backward p else page.forward p

/-- The place a number of clusters to the right. -/
def rightBy (page : Page) : Nat → Pos → Pos
  | 0, p => p
  | n + 1, p => page.rightBy n (page.right p)

/-- The place before the last character, if there is one. -/
def left? (page : Page) (p : Pos) : Option Pos :=
  if 0 < page.index p then some (page.placeAt p.line (page.index p - 1))
  else page.endAbove? p.line

/-- The place at the beginning of the last word, if there is one. -/
def wordLeft? (page : Page) (p : Pos) : Option Pos :=
  if 0 < page.index p then
    let before := (page.lineAt p.line).take (page.index p)
    some ⟨p.line, Text.units (Text.beforeLastWord before)⟩
  else page.endAbove? p.line

/-- The line that the units before `a` and the units behind `b` make up. Two halves of
characters that meet are one character, and a half that is left alone becomes U+FFFD. -/
def seam (page : Page) (a b : Pos) : Text :=
  Utf16.toText ((Utf16.ofText (page.lineAt a.line)).take a.column ++
    (Utf16.ofText (page.lineAt b.line)).drop b.column)

/-- Takes out the text from `a` to `b`. -/
def erase (page : Page) (a b : Pos) : Page where
  lines := page.lines.take a.line ++ page.seam a b :: page.lines.drop (b.line + 1)
  ink := Rows.cut page.ink a.line (page.index a) b.line (page.index b)
  cursor := page.cursor.afterErase a b
  anchor := page.anchor.afterErase a b

/-- Puts in rows of text at `a`, with the stamp of their first character. -/
def insert (page : Page) (a : Pos) (rows : List Text) (stamp : Nat) : Page where
  lines := Rows.graft page.lines a.line (page.index a) rows
  ink := Rows.graft page.ink a.line (page.index a) (Ink.ofRows stamp rows)
  cursor := page.cursor.afterInsert a rows
  anchor := page.anchor.afterInsert a rows

end Page

end ScriptEditor.Document
