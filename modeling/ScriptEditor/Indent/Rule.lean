import ScriptEditor.Indent.Column
import ScriptEditor.Script.Role

/-! The column of a line. Only the line itself and the nearest line above it that
has code are looked at, so a line is indented in the same way whatever stands
further up, and nesting that does not fit gives a column all the same. -/

namespace ScriptEditor.Indent

open ScriptEditor.Script (Role hasCode)

/-- A line with code that another line is indented after. -/
structure Above where
  role : Role
  column : Int
  line : Nat
deriving Repr, DecidableEq

/-- The nearest of the lines, seen from their end, that has code, with its
number. -/
def lastCode? (mark : Text) : List Text → Option (Nat × Text)
  | [] => none
  | line :: rest =>
    match lastCode? mark rest with
    | some (n, found) => some (n + 1, found)
    | none => if hasCode mark line then some (0, line) else none

/-- A line with code as the one that others are indented after. -/
def Above.ofLine (mark : Text) (tabWidth : Int) (number : Nat) (line : Text) : Above :=
  ⟨Role.ofLine mark line, width tabWidth line, number⟩

/-- The nearest line with code above the line with a number. -/
def above? (mark : Text) (tabWidth : Int) (lines : List Text) (number : Nat) : Option Above :=
  (lastCode? mark (lines.take number)).map fun (n, line) => .ofLine mark tabWidth n line

/-- The nearest line with code above any number and for any tab width. The line
right above the number has to be there. -/
def lookAbove (mark : Text) (tabWidth : Int) (lines : List Text) (number : Int) :
    Except Fault (Option Above) :=
  if number ≤ 0 then .ok none
  else if Number.greatestLength < number - 1 then .error .uncountableLine
  else if lines.length < number then .error .noLine
  else
    match lastCode? mark (lines.take number.toNat) with
    | none => .ok none
    | some (n, line) =>
      (measure tabWidth line).map fun column => some ⟨Role.ofLine mark line, column, n⟩

/-- How a line stands to the line it is indented after. -/
inductive Rule where
  | sameClause
  | emptyBlock
  | close
  | inside
  | keep
deriving Repr, DecidableEq

def Rule.label : Rule → Text
  | .sameClause => "same-clause".toList
  | .emptyBlock => "empty-block".toList
  | .close => "close".toList
  | .inside => "open".toList
  | .keep => "keep".toList

/-- The rule for a line with a role behind a line with another one. The cases
overlap and the first one counts: a divider is followed by a divider or a closer
of the same block, an opener by the closer or divider of its empty block. -/
def Rule.between (role last : Role) : Rule :=
  if last = .divider && (role = .divider || role = .closer) then .sameClause
  else if role.closes then if last = .opener then .emptyBlock else .close
  else if last.opens then .inside
  else .keep

/-- How many columns a rule goes to the right. -/
def Rule.shift (tabWidth : Int) : Rule → Int
  | .close => -tabWidth
  | .inside => tabWidth
  | _ => 0

/-- What was decided about a line, and why. -/
structure Decision where
  line : Nat
  role : Role
  above : Above
  rule : Rule
  /-- The column before it is moved to the first one. -/
  target : Int
deriving Repr, DecidableEq

/-- The column of a line that was decided about. -/
def Decision.column (d : Decision) : Int :=
  max 0 d.target

/-- Decides about a line behind another one. -/
def Decision.make (tabWidth : Int) (line : Nat) (role : Role) (above : Above) : Decision :=
  let rule := Rule.between role above.role
  ⟨line, role, above, rule, above.column + rule.shift tabWidth⟩

/-- The decision in words. -/
def Decision.message (d : Decision) : Text :=
  "line ".toList ++ Text.ofNat d.line ++ " (".toList ++ d.role.label ++ ") after line ".toList ++
    Text.ofNat d.above.line ++ " (".toList ++ d.above.role.label ++ ", col ".toList ++
    Text.ofInt d.above.column ++ "): ".toList ++ d.rule.label ++ " -> ".toList ++
    Text.ofInt d.target

/-- The decision about a line of a document, unless no line above has code. -/
def decision? (mark : Text) (tabWidth : Int) (lines : List Text) (number : Nat) :
    Option Decision :=
  (above? mark tabWidth lines number).map
    (.make tabWidth number (Role.ofLine mark (lines.getD number [])))

/-- The column of a line for which there may have been something to decide. -/
def columnOf (d : Option Decision) : Int :=
  (d.map (·.column)).getD 0

/-- The column of a line of a document. -/
def columnAt (mark : Text) (tabWidth : Int) (lines : List Text) (number : Nat) : Int :=
  columnOf (decision? mark tabWidth lines number)

/-- The decision about the line with any number and for any tab width. The tab
width has to be positive, and the line has to be there. -/
def resolve (mark : Text) (tabWidth : Int) (lines : List Text) (number : Int) :
    Except Fault (Option Decision) :=
  if tabWidth < 1 then .error (.telling tabWidth (.tabWidth tabWidth))
  else if number < 0 || lines.length ≤ number then
    .error (.telling number (.outside number lines.length))
  else .ok (decision? mark tabWidth lines number.toNat)

end ScriptEditor.Indent
