import ScriptEditor.Text.Basic

/-!
Lines of a text. A document breaks text at every line feed, carriage return,
pair of these, paragraph separator and frame mark; a file is read with the first
three of these turned into a line feed before.
-/

namespace ScriptEditor.Text

/-- Characters that end a line of a document. U+FDD0 and U+FDD1 mark the
beginning and the end of a frame, and a frame has lines of its own. -/
def isLineEnd (c : Char) : Bool :=
  c == '\n' || c == '\r' || c == '\u2029' || c == '\ufdd0' || c == '\ufdd1'

/-- The lines of a text, at least one. A carriage return directly before a
line feed ends the same line as that line feed. -/
def splitLines : Text → List Text
  | [] => [[]]
  | '\r' :: '\n' :: t => [] :: splitLines t
  | c :: t =>
    if isLineEnd c then [] :: splitLines t
    else
      match splitLines t with
      | [] => [[c]]
      | line :: rest => (c :: line) :: rest

/-- The lines with a line feed between each two. -/
def joinLines : List Text → Text
  | [] => []
  | [line] => line
  | line :: rest => line ++ '\n' :: joinLines rest

/-- The text with every carriage return, and every carriage return with the
line feed after it, replaced by one line feed. -/
def unifyLineEnds : Text → Text
  | [] => []
  | '\r' :: '\n' :: t => '\n' :: unifyLineEnds t
  | c :: t => (if c == '\r' then '\n' else c) :: unifyLineEnds t

/-- A character as it leaves a document: a no-break space becomes a space and
a line separator a line feed. -/
def plainChar (c : Char) : Char :=
  if c == '\u00a0' then ' ' else if c == '\u2028' then '\n' else c

/-- The whole text of a document with these lines. -/
def plainText (lines : List Text) : Text :=
  (joinLines lines).map plainChar

theorem unifyLineEnds_of_not_mem {t : Text} (h : '\r' ∉ t) : unifyLineEnds t = t := by
  induction t with
  | nil => rfl
  | cons c t ih =>
      rw [List.mem_cons, not_or] at h
      have hReturn : c ≠ '\r' := Ne.symm h.1
      rw [unifyLineEnds, ih h.2, if_neg (by simpa using hReturn)]
      exact fun t hc => absurd hc hReturn

theorem splitLines_ne_nil (t : Text) : splitLines t ≠ [] := by
  fun_cases splitLines t <;> simp_all

end ScriptEditor.Text
