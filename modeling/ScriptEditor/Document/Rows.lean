import ScriptEditor.Text.Units

/-! Rows of items that are cut and put together, and the stamps that tell in which
order the characters of a document were written. -/

namespace ScriptEditor.Document

namespace Rows

variable {α : Type}

/-- The rows between a part before and a part behind them, which are joined to the
first and to the last row. -/
def weave : List α → List (List α) → List α → List (List α)
  | front, [], back => [front ++ back]
  | front, [row], back => [front ++ row ++ back]
  | front, row :: rest, back => (front ++ row) :: weave [] rest back

/-- Takes out what lies between item `i` of row `m` and item `j` of row `n`. -/
def cut (rows : List (List α)) (m i n j : Nat) : List (List α) :=
  rows.take m ++ ((rows.getD m []).take i ++ (rows.getD n []).drop j) :: rows.drop (n + 1)

/-- Puts in new rows before item `i` of row `m`. -/
def graft (rows : List (List α)) (m i : Nat) (new : List (List α)) : List (List α) :=
  rows.take m ++ weave ((rows.getD m []).take i) new ((rows.getD m []).drop i) ++
    rows.drop (m + 1)

end Rows

namespace Ink

/-- The stamps of the characters of a row, of which the first is given. A character
takes as many numbers as it has units, so that characters which were written one
after the other have neighbouring stamps. -/
def ofRow : Nat → Text → List Nat
  | _, [] => []
  | n, c :: t => n :: ofRow (n + Text.unitWidth c) t

/-- The stamps of rows. A line break has a stamp of its own, which keeps the rows
apart. -/
def ofRows : Nat → List Text → List (List Nat)
  | _, [] => []
  | n, row :: rest => ofRow n row :: ofRows (n + Text.units row + 1) rest

/-- The stamp of what is written after rows. Their line breaks are written once
more behind them, so that nothing goes on from a text of several rows. -/
def after (n : Nat) (rows : List Text) : Nat :=
  n + Text.units rows.flatten + 2 * (rows.length - 1)

end Ink

end ScriptEditor.Document
