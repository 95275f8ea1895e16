import Mathlib.Data.List.Induction
import ScriptEditor.Highlight.Paint
import ScriptEditor.Proofs.Document.PageEnd
import ScriptEditor.Proofs.Highlight.Scan
import ScriptEditor.Proofs.Script.Quotes

/-! What is painted over what. A rule gives its format to the units of what it finds and leaves
all others as they are, and the comment is painted last. Its stretch is counted in characters, so
it is the comment only as long as every character is one unit. -/
namespace ScriptEditor.Highlight

open ScriptEditor.Appearance (Palette)
open ScriptEditor.Document (length_le_units units_eq_length_iff)
open ScriptEditor.Script (codePart codePart_begins commentMark)
open ScriptEditor.Text (units hasWide)

variable {code mark line : Text} {formats : Formats} {f : Format} {i : Nat}

/-! ### One rule -/

/-- A stretch of the code, counted in units. -/
def Span.inUnits (code : Text) (s : Span) : Span :=
  ⟨units (code.take s.start), units ((code.drop s.start).take s.length)⟩

theorem getElem?_paint (start length : Nat) (f : Format) (formats : Formats) (i : Nat) :
    (paint start length f formats)[i]? =
      formats[i]?.map fun old => if start ≤ i ∧ i < start + length then some f else old := by
  simp [paint, List.getElem?_mapIdx]

theorem getElem?_foldl_paintSpan (code : Text) (f : Format) (found : List Span) (formats : Formats)
    (i : Nat) :
    (found.foldl (paintSpan code f) formats)[i]? =
      formats[i]?.map fun old => if Covers (found.map (Span.inUnits code)) i then some f else old := by
  induction found generalizing formats with
  | nil => simp [not_covers_nil]
  | cons s found ih =>
      rw [List.foldl_cons, ih, paintSpan, getElem?_paint, Option.map_map, List.map_cons,
        ← List.singleton_append]
      refine congrArg (fun g => Option.map g formats[i]?) (funext fun old => ?_)
      simp only [Function.comp_apply, covers_append, covers_singleton, Span.inUnits]
      by_cases hLater : Covers (found.map (Span.inUnits code)) i <;> simp [hLater]

theorem getElem?_applyRule (code : Text) (formats : Formats) (rule : Recogniser × Format) (i : Nat) :
    (applyRule code formats rule)[i]? = formats[i]?.map fun old =>
      if Covers ((spans rule.1 code).map (Span.inUnits code)) i then some rule.2 else old :=
  getElem?_foldl_paintSpan code rule.2 (spans rule.1 code) formats i

/-! ### All rules -/

/-- The format that a row of rules gives to a unit: that of the last rule that finds it. -/
def formatAt? (code : Text) (row : List (Recogniser × Format)) (i : Nat) : Option Format :=
  (row.reverse.find? fun rule =>
    decide (Covers ((spans rule.1 code).map (Span.inUnits code)) i)).map (·.2)

theorem getElem?_applyRules (code : Text) (row : List (Recogniser × Format)) (formats : Formats)
    (i : Nat) :
    (row.foldl (applyRule code) formats)[i]? = formats[i]?.map fun old => (formatAt? code row i).or old := by
  induction row using List.reverseRecOn with
  | nil => simp [formatAt?]
  | append_singleton row rule ih =>
      rw [List.foldl_append, List.foldl_cons, List.foldl_nil, getElem?_applyRule, ih, Option.map_map]
      refine congrArg (fun g => Option.map g formats[i]?) (funext fun old => ?_)
      simp only [formatAt?, List.reverse_append, List.reverse_singleton, List.singleton_append,
        List.find?_cons, Function.comp_apply]
      split_ifs with hFound <;> simp [hFound]

theorem mem_of_formatAt? {row : List (Recogniser × Format)} (h : formatAt? code row i = some f) :
    f ∈ row.map (·.2) := by
  obtain ⟨rule, hRule, rfl⟩ := Option.map_eq_some_iff.mp h
  exact List.mem_map_of_mem (List.mem_reverse.mp (List.mem_of_find?_eq_some hRule))

/-- The format of a unit of a line: that of comments on their stretch, and elsewhere what the
rules give it. -/
theorem getElem?_formatsOf (p : Palette) (mark line : Text) (i : Nat) :
    (formatsOf p mark line)[i]? =
      if i < units line then
        some (if (codePart mark line).length ≤ i ∧ i < line.length then some (commentFormat p)
          else formatAt? (Text.withoutMark (codePart mark line)) (rules p) i)
      else none := by
  have hPainted : ((rules p).foldl (applyRule (Text.withoutMark (codePart mark line)))
      (List.replicate (units line) none))[i]? =
      if i < units line then some (formatAt? (Text.withoutMark (codePart mark line)) (rules p) i)
      else none := by
    rw [getElem?_applyRules, List.getElem?_replicate]
    split_ifs <;> simp
  unfold formatsOf
  dsimp only
  by_cases hComment : (codePart mark line).length < line.length
  · rw [if_pos hComment, getElem?_paint, hPainted, Nat.add_sub_cancel' (Nat.le_of_lt hComment)]
    split_ifs <;> rfl
  · have hStretch : ¬ ((codePart mark line).length ≤ i ∧ i < line.length) := by omega
    rw [if_neg hComment, hPainted, if_neg hStretch]

theorem length_formatsOf (p : Palette) (mark line : Text) :
    (formatsOf p mark line).length = units line := by
  have hUnit (i : Nat) : (formatsOf p mark line).length ≤ i ↔ units line ≤ i := by
    rw [← List.getElem?_eq_none_iff, getElem?_formatsOf]
    split_ifs with hUnit
    · simpa using hUnit
    · exact iff_of_true rfl (Nat.not_lt.mp hUnit)
  exact Nat.le_antisymm ((hUnit _).mpr (Nat.le_refl _)) ((hUnit _).mp (Nat.le_refl _))

/-! ### The comment -/

theorem formatAt?_rules_ne_comment (p : Palette) :
    formatAt? code (rules p) i ≠ some (commentFormat p) := by
  intro hComment
  have hUpright : ∀ f ∈ (rules p).map (·.2), f.italic = false := by simp [rules]
  have hItalic := hUpright _ (mem_of_formatAt? hComment)
  cases hItalic

/-- The units with the format of comments. -/
theorem getElem?_formatsOf_eq_comment (p : Palette) (mark line : Text) (i : Nat) :
    (formatsOf p mark line)[i]? = some (some (commentFormat p)) ↔
      (codePart mark line).length ≤ i ∧ i < line.length := by
  have hUnits := length_le_units line
  rw [getElem?_formatsOf]
  by_cases hStretch : (codePart mark line).length ≤ i ∧ i < line.length
  · rw [if_pos (by omega), if_pos hStretch]
    exact iff_of_true rfl hStretch
  · rw [if_neg hStretch]
    refine iff_of_false (fun hComment => ?_) hStretch
    split_ifs at hComment
    exact formatAt?_rules_ne_comment p (Option.some.inj hComment)

/-- The units with the format of comments are counted as characters from the end of the code to
the end of the line. They are the units of the comment if and only if there is no comment or the
line has no wide characters. -/
theorem formatsOf_comment_iff (p : Palette) (mark line : Text) :
    (formatsOf p mark line).length = units line ∧
    (∀ i, (formatsOf p mark line)[i]? = some (some (commentFormat p)) ↔
      (codePart mark line).length ≤ i ∧ i < line.length) ∧
    ((∀ i < units line, (formatsOf p mark line)[i]? = some (some (commentFormat p)) ↔
        units (codePart mark line) ≤ i) ↔
      codePart mark line = line ∨ hasWide line = false) := by
  refine ⟨length_formatsOf p mark line, getElem?_formatsOf_eq_comment p mark line, ?_⟩
  simp only [getElem?_formatsOf_eq_comment]
  obtain ⟨comment, hLine⟩ := codePart_begins mark line
  have hLength := congrArg List.length hLine
  have hUnits := congrArg units hLine
  rw [List.length_append] at hLength
  rw [Text.units_append] at hUnits
  have hCode := length_le_units (codePart mark line)
  have hRest := length_le_units comment
  rw [← units_eq_length_iff]
  constructor
  · intro hExact
    by_cases hComment : comment = []
    · rw [hComment, List.append_nil] at hLine
      exact Or.inl hLine
    · -- The last unit of the comment is counted, so there are no more units than characters.
      have hSome := List.length_pos_iff.mpr hComment
      have hLast := (hExact (units line - 1) (by omega)).mpr (by omega)
      exact Or.inr (by omega)
  · rintro (hNone | hNarrow) i hBound
    · rw [hNone]
      omega
    · omega

/-- A wide character in front of a comment: the space before the mark has the format of
comments, and the last character of the comment does not. -/
theorem formatsOf_comment_shifted :
    let line := "😀 # x".toList
    let formats := formatsOf Appearance.darkPalette commentMark line
    units (codePart commentMark line) = 3 ∧ units line = 6 ∧
      formats[2]? = some (some (commentFormat Appearance.darkPalette)) ∧
      formats[5]? ≠ some (some (commentFormat Appearance.darkPalette)) := by
  intro line formats
  refine ⟨by decide +kernel, by decide +kernel, ?_, ?_⟩
  · exact (getElem?_formatsOf_eq_comment _ _ _ 2).mpr (by decide +kernel)
  · exact (getElem?_formatsOf_eq_comment _ _ _ 5).not.mpr (by decide +kernel)

end ScriptEditor.Highlight
