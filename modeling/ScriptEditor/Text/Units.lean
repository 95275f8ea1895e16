import ScriptEditor.Text.Basic

/-!
The length of text in UTF-16 code units. Columns of a document count these
units, while indexes of a text count characters; the two differ from the first
character beyond U+FFFF on.
-/

namespace ScriptEditor.Text

/-- The number of UTF-16 code units of a character. -/
def unitWidth (c : Char) : Nat :=
  if c.toNat < 0x10000 then 1 else 2

/-- The number of UTF-16 code units of a text. -/
def units : Text → Nat
  | [] => 0
  | c :: t => unitWidth c + units t

/-- The longest beginning of a text that fits into a number of units. A limit
between the two units of one character leaves that character out. -/
def takeUnits : Nat → Text → Text
  | _, [] => []
  | n, c :: t => if unitWidth c ≤ n then c :: takeUnits (n - unitWidth c) t else []

/-- What `takeUnits` leaves over. -/
def dropUnits : Nat → Text → Text
  | _, [] => []
  | n, c :: t => if unitWidth c ≤ n then dropUnits (n - unitWidth c) t else c :: t

theorem takeUnits_append_dropUnits (n : Nat) (t : Text) :
    takeUnits n t ++ dropUnits n t = t := by
  induction t generalizing n with
  | nil => rfl
  | cons c t ih =>
    by_cases h : unitWidth c ≤ n
    · simp [takeUnits, dropUnits, h, ih]
    · simp [takeUnits, dropUnits, h]

/-- How many characters of a text fit into a number of units. -/
def charsWithin (n : Nat) (t : Text) : Nat :=
  (takeUnits n t).length

theorem take_charsWithin (n : Nat) (t : Text) : t.take (charsWithin n t) = takeUnits n t := by
  calc
    t.take (charsWithin n t) = (takeUnits n t ++ dropUnits n t).take (takeUnits n t).length := by
      rw [takeUnits_append_dropUnits]; rfl
    _ = takeUnits n t := by simp

theorem drop_charsWithin (n : Nat) (t : Text) : t.drop (charsWithin n t) = dropUnits n t := by
  calc
    t.drop (charsWithin n t) = (takeUnits n t ++ dropUnits n t).drop (takeUnits n t).length := by
      rw [takeUnits_append_dropUnits]; rfl
    _ = dropUnits n t := by simp

theorem unitWidth_pos (c : Char) : 0 < unitWidth c := by
  unfold unitWidth; split <;> decide

@[simp] theorem units_append (s t : Text) : units (s ++ t) = units s + units t := by
  induction s with
  | nil => simp [units]
  | cons c s ih => simp [units, ih, Nat.add_assoc]

end ScriptEditor.Text
