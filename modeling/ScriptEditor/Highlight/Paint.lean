import ScriptEditor.Appearance.Palette
import ScriptEditor.Highlight.Recogniser
import ScriptEditor.Script.Comment
import ScriptEditor.Text.Mark

/-! Colouring of a line. Every UTF-16 unit of the line has at most one format, and
the last rule that touches a unit decides. -/

namespace ScriptEditor.Highlight

open ScriptEditor.Appearance (Colour Palette)
open ScriptEditor.Script (Category codePart wordsOf)

/-- How a character is shown. -/
structure Format where
  colour : Colour
  bold : Bool
  italic : Bool
deriving Repr, DecidableEq

/-- The rules in the order in which they are applied to the code of a line. -/
def rules (p : Palette) : List (Recogniser × Format) := [
  (word (wordsOf .keyword), ⟨p.keyword, true, false⟩),
  (word (wordsOf .type), ⟨p.type, false, false⟩),
  (word (wordsOf .builtin), ⟨p.builtin, false, false⟩),
  (word (wordsOf .constant), ⟨p.constant, false, false⟩),
  (number, ⟨p.number, false, false⟩),
  (declaredName, ⟨p.function, false, false⟩),
  (string, ⟨p.string, false, false⟩)]

def commentFormat (p : Palette) : Format := ⟨p.comment, false, true⟩

/-- The formats of the units of a line. -/
abbrev Formats := List (Option Format)

/-- Gives a format to the units of a stretch, as far as the line has them. -/
def paint (start length : Nat) (f : Format) (formats : Formats) : Formats :=
  formats.mapIdx fun i old => if start ≤ i && i < start + length then some f else old

/-- Gives a format to a stretch of the code of a line. -/
def paintSpan (code : Text) (f : Format) (formats : Formats) (s : Span) : Formats :=
  paint (Text.units (code.take s.start))
    (Text.units ((code.drop s.start).take s.length)) f formats

/-- Applies one rule to the code of a line. -/
def applyRule (code : Text) (formats : Formats) (rule : Recogniser × Format) : Formats :=
  (spans rule.1 code).foldl (paintSpan code rule.2) formats

/-- The formats of a line. The place and the length of the comment are counted in
characters, also where they are used as units. The rules see the code without its
byte order mark and count from there. -/
def formatsOf (p : Palette) (mark line : Text) : Formats :=
  let code := codePart mark line
  let blank : Formats := List.replicate (Text.units line) none
  let painted := (rules p).foldl (applyRule (Text.withoutMark code)) blank
  if code.length < line.length then
    paint code.length (line.length - code.length) (commentFormat p) painted
  else painted

/-- Adjacent units with one format. -/
structure Run where
  start : Nat
  length : Nat
  format : Format
deriving Repr, DecidableEq

/-- The runs of the units from an index on, each as long as it can be. -/
def runsFrom : Nat → Formats → List Run
  | _, [] => []
  | i, none :: rest => runsFrom (i + 1) rest
  | i, some f :: rest =>
    match runsFrom (i + 1) rest with
    | [] => [⟨i, 1, f⟩]
    | run :: more =>
      if run.start = i + 1 && run.format = f then ⟨i, run.length + 1, f⟩ :: more
      else ⟨i, 1, f⟩ :: run :: more

/-- The runs of a line. -/
def runsOf (p : Palette) (mark line : Text) : List Run :=
  runsFrom 0 (formatsOf p mark line)

end ScriptEditor.Highlight
