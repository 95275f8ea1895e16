import ScriptEditor.Indent.Rule

/-! Indentation of many lines at once, and of the line that a line break makes. -/

namespace ScriptEditor.Indent

open ScriptEditor.Script (Role hasCode)

/-- The lines indented one after another. Each one is indented after the nearest
line with code among those that were indented before it, so that the indentation
which the lines came with plays no role. With each line comes the decision about
it. -/
def arrangeFrom (mark : Text) (tabWidth : Int) :
    Nat → Option Above → List Text → List (Text × Option Decision)
  | _, _, [] => []
  | number, above, line :: rest =>
    let decision := above.map (.make tabWidth number (Role.ofLine mark line))
    let placed := place line (columnOf decision)
    let next := if hasCode mark placed then some (.ofLine mark tabWidth number placed) else above
    (placed, decision) :: arrangeFrom mark tabWidth (number + 1) next rest

/-- All lines indented by block structure. -/
def arrange (mark : Text) (tabWidth : Int) (lines : List Text) : List Text :=
  (arrangeFrom mark tabWidth 0 none lines).map (·.1)

/-- The decisions about the lines of a document that is indented as a whole. -/
def arrangeDecisions (mark : Text) (tabWidth : Int) (lines : List Text) : List Decision :=
  (arrangeFrom mark tabWidth 0 none lines).filterMap (·.2)

/-- Why the lines cannot be indented one after another, if they cannot: the first
line whose column is too far to the right tells. -/
def arrangeFaultFrom? (mark : Text) (tabWidth : Int) :
    Nat → Option Above → List Text → Option Fault
  | _, _, [] => none
  | number, above, line :: rest =>
    let decision := above.map (.make tabWidth number (Role.ofLine mark line))
    match placeFault? line (columnOf decision) with
    | some fault => some fault
    | none =>
      let placed := place line (columnOf decision)
      let next := if hasCode mark placed then some (.ofLine mark tabWidth number placed) else above
      arrangeFaultFrom? mark tabWidth (number + 1) next rest

/-- Why the lines cannot all be indented, if they cannot. -/
def arrangeFault? (mark : Text) (tabWidth : Int) (lines : List Text) : Option Fault :=
  if tabWidth < 1 && !lines.isEmpty then some (.telling tabWidth (.tabWidth tabWidth))
  else arrangeFaultFrom? mark tabWidth 0 none lines

/-- All lines indented, and what was decided about them, for any number as tab
width; without lines any number will do. -/
def arrangeAll (mark : Text) (tabWidth : Int) (lines : List Text) :
    Except Fault (List Text × List Decision) :=
  match arrangeFault? mark tabWidth lines with
  | some fault => .error fault
  | none => .ok (arrange mark tabWidth lines, arrangeDecisions mark tabWidth lines)

/-- The decisions about all lines of a document that stays as it is. -/
def resolveAll (mark : Text) (tabWidth : Int) (lines : List Text) :
    Except Fault (List (Option Decision)) :=
  (List.range lines.length).mapM fun (number : Nat) => resolve mark tabWidth lines number

/-- The lines above a line break, and the two parts of the line it cuts. What
comes behind the break loses its indentation. -/
def brokenLines (lines : List Text) (number : Int) (before after : Text) : List Text :=
  Sequence.takeSigned number lines ++ [before, body after]

/-- The text to insert for a line break: a line feed, and the indentation of the
line that then begins with `after`. -/
def lineBreak (mark : Text) (tabWidth : Int) (lines : List Text) (number : Int)
    (before after : Text) : Except Fault Text :=
  (resolve mark tabWidth (brokenLines lines number before after) (number + 1)).bind fun d =>
    (makeSpaces (columnOf d)).map ('\n' :: ·)

theorem brokenLines_of_nat (lines : List Text) (n : Nat) (before after : Text) :
    brokenLines lines n before after = (lines.take n ++ [before]) ++ [body after] := by
  simp [brokenLines, Sequence.takeSigned]

end ScriptEditor.Indent
