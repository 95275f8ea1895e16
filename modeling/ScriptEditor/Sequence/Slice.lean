/-!
Cuts of a list with signed bounds. A negative bound counts from the end of the
list, and a bound outside the list is moved to its nearer end.
-/

namespace ScriptEditor.Sequence

variable {α : Type}

/-- The elements before a signed bound. -/
def takeSigned (bound : Int) (xs : List α) : List α :=
  if 0 ≤ bound then xs.take bound.toNat else xs.take (xs.length - bound.natAbs)

/-- The elements from a signed bound on. -/
def dropSigned (bound : Int) (xs : List α) : List α :=
  if 0 ≤ bound then xs.drop bound.toNat else xs.drop (xs.length - bound.natAbs)

theorem takeSigned_append_dropSigned (bound : Int) (xs : List α) :
    takeSigned bound xs ++ dropSigned bound xs = xs := by
  unfold takeSigned dropSigned
  split <;> simp

/-- Bounds and step of a slice; a missing bound means the end from which, or to
which, the step runs. -/
structure Slice where
  start : Option Int
  stop : Option Int
  step : Int
deriving Repr

/-- A bound of a slice of a list with `size` elements. `low` and `high` are the
places where a bound that lies outside is put. -/
def Slice.place (size low high bound : Int) : Int :=
  if bound < 0 then max (bound + size) low else min bound high

/-- The indexes that a slice selects, in its order; none for a step of zero. -/
def Slice.indexes (s : Slice) (size : Nat) : List Int :=
  let back := s.step < 0
  let low : Int := if back then -1 else 0
  let high : Int := if back then size - 1 else size
  let first := (s.start.map (place size low high)).getD (if back then high else low)
  let last := (s.stop.map (place size low high)).getD (if back then low else high)
  let count :=
    if s.step = 0 then 0
    else if back then (first - last - s.step - 1) / (-s.step)
    else (last - first + s.step - 1) / s.step
  (List.range count.toNat).map fun (i : Nat) => first + s.step * i

/-- Why a slice cannot be taken. -/
inductive Slice.Fault where
  | zeroStep
deriving Repr, DecidableEq

def Slice.Fault.message : Slice.Fault → String
  | .zeroStep => "slice step cannot be zero"

/-- The elements that a slice selects. A step of zero never reaches a bound and
is refused. -/
def Slice.select (s : Slice) (xs : List α) : Except Slice.Fault (List α) :=
  if s.step = 0 then .error .zeroStep
  else .ok ((s.indexes xs.length).filterMap fun i => if 0 ≤ i then xs[i.toNat]? else none)

/-- A signed index counted from the beginning of a list of `size` elements. -/
def fromStart (size : Nat) (index : Int) : Int :=
  if index < 0 then index + size else index

/-- The element at a signed index; outside of the list, the index counted from
the beginning. -/
def elementAt (xs : List α) (index : Int) : Except Int α :=
  let i := fromStart xs.length index
  match if 0 ≤ i then xs[i.toNat]? else none with
  | some x => .ok x
  | none => .error i

end ScriptEditor.Sequence
