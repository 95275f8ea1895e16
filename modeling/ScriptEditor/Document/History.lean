import ScriptEditor.Document.Position

/-! The history of a document, for undoing and redoing. -/

namespace ScriptEditor.Document

/-- An edit of one line that another edit can go on from: text that was put in
between two places, or text between two places that was taken out by a key. With
it come the stamp of its first character and the one behind its last. -/
inductive Stroke where
  | typed (start stop : Pos) (ink next : Nat)
  | erased (start stop : Pos) (ink next : Nat)
deriving Repr, DecidableEq

/-- The stroke that two strokes make up together. Text that is put in goes on where
the text before it ends; text that is taken out goes on at either side of the gap.
In both cases the two texts have to be written one after the other. -/
def Stroke.join? : Stroke → Stroke → Option Stroke
  | .typed start stop ink next, .typed start' stop' ink' next' =>
    if stop = start' && next = ink' then some (.typed start stop' ink next') else none
  | .erased start stop ink next, .erased start' stop' ink' next' =>
    if start = start' && next = ink' then some (.erased start stop ink next')
    else if stop' = start && next' = ink then some (.erased start' stop' ink' next)
    else none
  | _, _ => none

/-- A step of the history. In the past it holds the state before the step, in the
future the state after it. The tail is the last edit of the step, if another one
can go on from there. A step that was broken off takes in every edit that comes
after it. -/
structure Step (σ : Type) where
  state : σ
  tail : Option Stroke
  brokenOff : Bool := false
deriving Repr, DecidableEq

/-- The steps before and after the present state, the nearest first, and the
number of steps after which the document was saved, unless that state can no
longer be reached. Once a command was broken off, no step ever ends, and whether
the document is modified stays as it was then, until the document is saved. -/
structure History (σ : Type) where
  past : List (Step σ)
  future : List (Step σ)
  saved : Option Nat
  frozen : Option Bool := none
deriving Repr, DecidableEq

namespace History

variable {σ : Type}

/-- The history of a document that was just saved and has no steps. -/
def fresh : History σ :=
  { past := [], future := [], saved := some 0 }

/-- Whether the present state is another one than the saved one. -/
def isModified (h : History σ) : Bool :=
  h.frozen.getD (h.saved != some h.past.length)

/-- Takes the present state for the saved one. -/
def save (h : History σ) : History σ :=
  { h with saved := some h.past.length, frozen := h.frozen.map fun _ => false }

/-- Begins anew with a document that counts as saved. -/
def restart (h : History σ) : History σ :=
  { (fresh : History σ) with frozen := h.frozen.map fun _ => false }

/-- A command was broken off. -/
def breakOff (h : History σ) : History σ :=
  { h with frozen := some h.isModified }

/-- The history with other steps in the past and none in the future. A save that
was in the future can no longer be reached. -/
def withPast (h : History σ) (past : List (Step σ)) : History σ :=
  { h with past, future := [], saved := h.saved.filter (· ≤ h.past.length) }

/-- Records a step from a state. -/
def record (h : History σ) (state : σ) (tail : Option Stroke) : History σ :=
  if h.frozen.isSome then
    match h.past with
    | s :: rest =>
      if s.brokenOff then h.withPast (s :: rest)
      else h.withPast (⟨state, none, true⟩ :: s :: rest)
    | [] => h.withPast [⟨state, none, true⟩]
  else h.withPast (⟨state, tail, false⟩ :: h.past)

/-- The nearest step, with a stroke at its end that goes on from it. A stroke never
goes on from the state that was saved. -/
def extend? (h : History σ) (stroke : Stroke) : Option (Step σ × List (Step σ)) :=
  match h.past with
  | s :: rest =>
    if h.isModified && h.frozen.isNone then
      (s.tail.bind (·.join? stroke)).map fun tail => ({ s with tail := some tail }, rest)
    else none
  | [] => none

/-- Records a stroke, which belongs to the nearest step if it goes on from it. -/
def recordStroke (h : History σ) (state : σ) (stroke : Stroke) : History σ :=
  match h.extend? stroke with
  | some (s, rest) => h.withPast (s :: rest)
  | none => h.record state (some stroke)

/-- The state before the nearest step of the past, and the history then. -/
def undo? (h : History σ) (present : σ) : Option (σ × History σ) :=
  match h.past with
  | [] => none
  | s :: rest =>
    some (s.state, { h with past := rest, future := { s with state := present } :: h.future })

/-- The state after the nearest step of the future, and the history then. -/
def redo? (h : History σ) (present : σ) : Option (σ × History σ) :=
  match h.future with
  | [] => none
  | s :: rest =>
    some (s.state, { h with past := { s with state := present } :: h.past, future := rest })

end History

end ScriptEditor.Document
