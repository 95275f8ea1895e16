import ScriptEditor.Text.Units

/-! Places in a document, and where they go when text before them is taken out or
put in. -/

namespace ScriptEditor.Document

/-- A place in a document: the number of the line, and the column in UTF-16 units. -/
structure Pos where
  line : Nat
  column : Nat
deriving Repr, DecidableEq

namespace Pos

/-- The beginning of every document. -/
def origin : Pos := ⟨0, 0⟩

/-- Whether a place comes before another one. -/
def before (p q : Pos) : Bool :=
  p.line < q.line || (p.line == q.line && p.column < q.column)

/-- Whether a place comes before another one or is the same. -/
def upTo (p q : Pos) : Bool :=
  !q.before p

/-- The earlier of two places. -/
def earlier (p q : Pos) : Pos :=
  if p.upTo q then p else q

/-- The later of two places. -/
def later (p q : Pos) : Pos :=
  if p.upTo q then q else p

/-- Where a place goes when the text from `a` to `b` is taken out. What was in
that text goes to where it was. -/
def afterErase (p a b : Pos) : Pos :=
  if p.upTo a then p
  else if p.upTo b then a
  else if p.line == b.line then ⟨a.line, a.column + (p.column - b.column)⟩
  else ⟨p.line - (b.line - a.line), p.column⟩

/-- Where a place goes when rows of text are put in at `a`, the first and the last
of them joined to what was before and behind. The place `a` goes to the end of the
text. -/
def afterInsert (p a : Pos) (rows : List Text) : Pos :=
  let breaks := rows.length - 1
  let last := Text.units (rows.getLastD [])
  if p.before a then p
  else if p.line == a.line then
    if breaks = 0 then ⟨p.line, p.column + last⟩
    else ⟨p.line + breaks, last + (p.column - a.column)⟩
  else ⟨p.line + breaks, p.column⟩

end Pos

end ScriptEditor.Document
