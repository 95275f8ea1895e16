import Mathlib.Data.List.TakeWhile
import Mathlib.Tactic.Common
import ScriptEditor.Indent.Buffer

/-! A line without its indentation. The body of a line decides about its code and
its role, and placing a line at a column changes nothing but its indentation. -/
namespace ScriptEditor.Indent

open ScriptEditor.Text (isIndent isBlank)
open ScriptEditor.Script (Role hasCode codePart codeFrom statement isQuote)

/-- A comment mark that is not taken for indentation. A mark of any other length
than one starts no comment and is allowed. -/
def MarkApart (mark : Text) : Prop :=
  mark ≠ [' '] ∧ mark ≠ ['\t']

instance (mark : Text) : Decidable (MarkApart mark) :=
  inferInstanceAs (Decidable (_ ∧ _))

theorem isIndent_iff {c : Char} : isIndent c = true ↔ c = ' ' ∨ c = '\t' := by
  simp [isIndent]

theorem isBlank_of_isIndent {c : Char} (h : isIndent c = true) : isBlank c = true := by
  rcases isIndent_iff.mp h with rfl | rfl <;> decide

theorem isIndent_of_mem_leading {line : Text} {c : Char} (h : c ∈ leading line) :
    isIndent c = true :=
  List.mem_takeWhile_imp h

theorem isIndent_of_mem_spaces {column : Int} {c : Char} (h : c ∈ spaces column) :
    isIndent c = true := by
  rw [List.eq_of_mem_replicate h]
  decide

/-- Indentation neither opens a string nor starts a comment. -/
theorem codePart_indent_append {mark : Text} (hMark : MarkApart mark) {indent : Text}
    (hIndent : ∀ c ∈ indent, isIndent c = true) (rest : Text) :
    codePart mark (indent ++ rest) = indent ++ codePart mark rest := by
  induction indent with
  | nil => rfl
  | cons c indent ih =>
      have ih := ih fun x hx => hIndent x (List.mem_cons_of_mem _ hx)
      have hSpace : ([' '] == mark) = false := beq_eq_false_iff_ne.mpr (Ne.symm hMark.1)
      have hTab : (['\t'] == mark) = false := beq_eq_false_iff_ne.mpr (Ne.symm hMark.2)
      have hQuote : isQuote ' ' = false ∧ isQuote '\t' = false := by decide
      unfold codePart at ih ⊢
      rcases isIndent_iff.mp (hIndent c (List.mem_cons_self ..)) with rfl | rfl
      · rw [List.cons_append, codeFrom, hQuote.1, hSpace]
        simp [ih]
      · rw [List.cons_append, codeFrom, hQuote.2, hTab]
        simp [ih]

theorem trim_indent_append {indent : Text} (hIndent : ∀ c ∈ indent, isIndent c = true)
    (rest : Text) : Text.trim (indent ++ rest) = Text.trim rest := by
  unfold Text.trim Text.stripWhile
  rw [List.dropWhile_append_of_pos fun c hc => isBlank_of_isIndent (hIndent c hc)]

theorem statement_body {mark : Text} (hMark : MarkApart mark) (line : Text) :
    statement mark (body line) = statement mark line := by
  conv_rhs => rw [← leading_append_body line]
  unfold statement
  rw [codePart_indent_append hMark fun _ => isIndent_of_mem_leading,
    trim_indent_append fun _ => isIndent_of_mem_leading]

/-- Lines with one body have one statement, hence one role. -/
theorem ofLine_eq_of_body_eq {mark : Text} (hMark : MarkApart mark) {line other : Text}
    (h : body line = body other) : Role.ofLine mark line = Role.ofLine mark other := by
  unfold Role.ofLine
  rw [← statement_body hMark line, h, statement_body hMark]

theorem hasCode_eq_of_body_eq {mark : Text} (hMark : MarkApart mark) {line other : Text}
    (h : body line = body other) : hasCode mark line = hasCode mark other := by
  unfold hasCode
  rw [← statement_body hMark line, h, statement_body hMark]

/-- A line without code, whether blank or only a comment, is plain. -/
theorem ofLine_of_not_hasCode {mark line : Text} (h : hasCode mark line = false) :
    Role.ofLine mark line = .plain := by
  have hEmpty : statement mark line = [] := by simpa [hasCode] using h
  rw [Role.ofLine, hEmpty]
  decide

theorem body_ne_nil_of_hasCode {mark : Text} (hMark : MarkApart mark) {line : Text}
    (h : hasCode mark line = true) : body line ≠ [] := by
  intro hBody
  have hNil : hasCode mark line = hasCode mark [] := hasCode_eq_of_body_eq hMark hBody
  rw [hNil] at h
  exact absurd h (by simp [hasCode, statement, codePart, codeFrom, Text.trim, Text.stripWhile,
    Text.dropEndWhile])

theorem body_indent_append {indent : Text} (hIndent : ∀ c ∈ indent, isIndent c = true)
    (rest : Text) : body (indent ++ rest) = body rest :=
  List.dropWhile_append_of_pos hIndent

theorem body_spaces_append (column : Int) (line : Text) :
    body (spaces column ++ line) = body line :=
  body_indent_append (fun _ => isIndent_of_mem_spaces) line

@[simp] theorem body_body (line : Text) : body (body line) = body line := by
  conv_rhs => rw [← leading_append_body line]
  exact (body_indent_append (fun _ => isIndent_of_mem_leading) _).symm

@[simp] theorem body_place (line : Text) (column : Int) : body (place line column) = body line := by
  unfold place
  split_ifs with hBody
  · rw [List.isEmpty_iff.mp hBody]
    rfl
  · rw [body_spaces_append, body_body]

/-- The indentation of a line whose body is not empty is what comes before it. -/
theorem leading_indent_append {indent : Text} (hIndent : ∀ c ∈ indent, isIndent c = true)
    (line : Text) : leading (indent ++ body line) = indent := by
  have hWhole := leading_append_body (indent ++ body line)
  rw [body_indent_append hIndent, body_body] at hWhole
  exact List.append_cancel_right hWhole

/-- The indentation of two texts that are put together ends in the first one, or the first
one is part of it. -/
theorem body_append (before after : Text) :
    body before = [] ∧ body (before ++ after) = body after ∧
        leading (before ++ after) = before ++ leading after ∨
      body (before ++ after) = body before ++ after ∧
        leading (before ++ after) = leading before := by
  by_cases hBlank : body before = []
  · have hIndent : ∀ c ∈ before, isIndent c = true := List.dropWhile_eq_nil_iff.mp hBlank
    refine Or.inl ⟨hBlank, body_indent_append hIndent after, ?_⟩
    exact List.takeWhile_append_of_pos hIndent
  · have hBody : body (before ++ after) = body before ++ after := by
      unfold body at hBlank ⊢
      rw [List.dropWhile_append, if_neg (by simpa using hBlank)]
    refine Or.inr ⟨hBody, ?_⟩
    have hWhole := leading_append_body (before ++ after)
    rw [hBody, ← List.append_assoc] at hWhole
    exact List.append_cancel_right
      ((List.append_cancel_right hWhole).trans (leading_append_body before).symm)

theorem place_eq_of_body_eq {line other : Text} (h : body line = body other) (column : Int) :
    place line column = place other column := by
  unfold place
  rw [h]

theorem makePlaced_eq_of_body_eq {line other : Text} (h : body line = body other) (column : Int) :
    makePlaced line column = makePlaced other column := by
  unfold makePlaced placeFault?
  rw [h, place_eq_of_body_eq h]

theorem makePlaced_eq_ok_iff {line placed : Text} {column : Int} :
    makePlaced line column = .ok placed ↔
      placeFault? line column = none ∧ placed = place line column := by
  unfold makePlaced
  cases placeFault? line column <;> simp [eq_comm]

theorem spacesFault?_eq_none_iff {column : Int} :
    spacesFault? column = none ↔ column ≤ Number.greatestRoom := by
  have hRoom : Number.greatestRoom ≤ Number.greatestLength := by decide
  unfold spacesFault?
  split_ifs with hLength hRoom' <;> simp <;> omega

theorem foldl_advance_replicate (tabWidth : Int) (n : Nat) (column : Int) :
    (List.replicate n ' ').foldl (advance tabWidth) column = column + n := by
  induction n generalizing column with
  | zero => simp
  | succ n ih =>
      rw [List.replicate_succ, List.foldl_cons, ih]
      simp only [advance, beq_self_eq_true, if_true]
      omega

theorem width_spaces_append (tabWidth : Int) (line : Text) {column : Int} (hColumn : 0 ≤ column) :
    width tabWidth (spaces column ++ body line) = column := by
  rw [width, leading_indent_append (fun _ => isIndent_of_mem_spaces) line, spaces,
    foldl_advance_replicate]
  omega

/-- A line whose body is not empty reaches the column where it is placed. -/
theorem width_place (tabWidth : Int) {line : Text} (hBody : body line ≠ []) {column : Int}
    (hColumn : 0 ≤ column) : width tabWidth (place line column) = column := by
  have hPlace : place line column = spaces column ++ body line := by
    simp [place, hBody]
  rw [hPlace, width_spaces_append tabWidth line hColumn]

end ScriptEditor.Indent
