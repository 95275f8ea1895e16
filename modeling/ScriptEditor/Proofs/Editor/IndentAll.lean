import ScriptEditor.Proofs.Document.WholePage
import ScriptEditor.Proofs.Editor.IndentEdits

/-! Indenting a page as a whole. The lines are joined and put in as one text, which gives
them back as they were arranged; only a byte order mark in front of them can be lost. -/
namespace ScriptEditor.Editor

open ScriptEditor.Document
open ScriptEditor.Indent
open ScriptEditor.Text (isLineEnd hasWide byteOrderMark)
open ScriptEditor.Script (commentMark)

theorem map_body_arrangeFrom (mark : Text) (tabWidth : Int) (number : Nat) (above : Option Above)
    (lines : List Text) :
    ((arrangeFrom mark tabWidth number above lines).map (·.1)).map body = lines.map body := by
  induction lines generalizing number above with
  | nil => rfl
  | cons line rest ih =>
      rw [arrangeFrom]
      simp only [List.map_cons, body_place, ih]

theorem map_body_arrange (mark : Text) (tabWidth : Int) (lines : List Text) :
    (arrange mark tabWidth lines).map body = lines.map body :=
  map_body_arrangeFrom mark tabWidth 0 none lines

theorem length_arrange (mark : Text) (tabWidth : Int) (lines : List Text) :
    (arrange mark tabWidth lines).length = lines.length := by
  simpa using congrArg List.length (map_body_arrange mark tabWidth lines)

/-- The first line stands at the first column. -/
theorem headD_arrange (mark : Text) (tabWidth : Int) (lines : List Text) :
    (arrange mark tabWidth lines).headD [] = body (lines.headD []) := by
  cases lines with
  | nil => rfl
  | cons line rest =>
      change place line 0 = body line
      unfold place
      split_ifs with hBody
      · exact (List.isEmpty_iff.mp hBody).symm
      · rfl

theorem hasWide_body (line : Text) : hasWide (body line) = hasWide line := by
  have hLeading : (leading line).any (fun c => Text.unitWidth c == 2) = false := by
    refine List.any_eq_false.mpr fun c hc => ?_
    rcases isIndent_iff.mp (isIndent_of_mem_leading hc) with rfl | rfl <;> decide
  conv_rhs => rw [← leading_append_body line]
  rw [hasWide, hasWide, List.any_append, hLeading, Bool.false_or]

theorem losesMark_arrange (mark : Text) (tabWidth : Int) (lines : List Text) :
    LosesMark (arrange mark tabWidth lines) ↔ LosesMark (lines.map body) := by
  have hHead : (lines.map body).headD [] = body (lines.headD []) := by cases lines <;> rfl
  have hAny (others : List Text) : (others.map body).any hasWide = others.any hasWide := by
    simp [List.any_map, Function.comp_def, hasWide_body]
  rw [LosesMark, LosesMark, headD_arrange, hHead, ← hAny (arrange mark tabWidth lines),
    map_body_arrange]

/-- Lines of which only the indentation is another one hold no line ends either. -/
theorem not_isLineEnd_of_map_body_eq {lines others : List Text}
    (hBodies : others.map body = lines.map body)
    (h : ∀ c ∈ lines.flatten, isLineEnd c = false) : ∀ c ∈ others.flatten, isLineEnd c = false := by
  intro c hc
  obtain ⟨other, hOther, hMem⟩ := List.mem_flatten.mp hc
  rw [← leading_append_body other] at hMem
  rcases List.mem_append.mp hMem with hIndent | hBody
  · rcases isIndent_iff.mp (isIndent_of_mem_leading hIndent) with rfl | rfl <;> decide
  · have hIn : body other ∈ lines.map body := hBodies ▸ List.mem_map_of_mem hOther
    obtain ⟨line, hLine, hSame⟩ := List.mem_map.mp hIn
    refine h c (List.mem_flatten.mpr ⟨line, hLine, ?_⟩)
    rw [← leading_append_body line, hSame]
    exact List.mem_append_right _ hBody

variable {e : Editor}

theorem misplacedCount_eq_zero_iff : misplacedCount e = 0 ↔ arrangedLines e = e.page.lines := by
  have hLength : (arrangedLines e).length = e.page.lines.length := length_arrange _ _ _
  unfold misplacedCount
  generalize arrangedLines e = arranged at hLength ⊢
  generalize e.page.lines = lines at hLength ⊢
  induction lines generalizing arranged with
  | nil => simp [List.eq_nil_of_length_eq_zero hLength]
  | cons line rest ih =>
      obtain ⟨other, others, rfl⟩ := List.exists_cons_of_length_eq_add_one hLength
      have hRest := ih others (by simpa using hLength)
      rw [List.zip_cons_cons, List.filter_cons]
      split_ifs with hDiffer
      · have hOther : other ≠ line := fun hSame => by simp [hSame] at hDiffer
        simp [hOther]
      · have hSame : line = other := by simpa using hDiffer
        subst hSame
        exact hRest.trans (by simp)

/-- The lines after indenting a page as a whole. -/
theorem lines_indentAll (hSound : e.page.Sound) (hMisplaced : misplacedCount e ≠ 0) :
    (indentAll e).page.lines =
      if LosesMark (e.page.lines.map body) then (arrangedLines e).modifyHead List.tail
      else arrangedLines e := by
  have hLines : e.page.lines ≠ [] := List.length_pos_iff.mp hSound.lines_pos
  have hArranged : arrangedLines e ≠ [] := by
    rw [← List.length_pos_iff, arrangedLines, length_arrange]
    exact List.length_pos_iff.mpr hLines
  have hUnbroken : ∀ c ∈ (arrangedLines e).flatten, isLineEnd c = false :=
    not_isLineEnd_of_map_body_eq (map_body_arrange _ _ _) hSound.rows
  rw [indentAll, if_neg hMisplaced]
  change (e.draft.replace .origin e.draft.page.finish
    (Text.joinLines (arrangedLines e))).page.lines = _
  rw [lines_replace_whole hLines, linesOf_joinLines hArranged hUnbroken]
  exact if_congr (losesMark_arrange _ _ _) rfl rfl

theorem length_indentAll (hSound : e.page.Sound) :
    (indentAll e).page.lines.length = e.page.lines.length := by
  by_cases hMisplaced : misplacedCount e = 0
  · rw [indentAll, if_pos hMisplaced]
    rfl
  · rw [lines_indentAll hSound hMisplaced]
    split_ifs
    · rw [List.length_modifyHead]
      exact length_arrange _ _ _
    · exact length_arrange _ _ _

/-- Some line is another one if a line is misplaced, also if a mark is lost. -/
theorem lines_indentAll_ne (hSound : e.page.Sound) (hMisplaced : misplacedCount e ≠ 0) :
    (indentAll e).page.lines ≠ e.page.lines := by
  rw [lines_indentAll hSound hMisplaced]
  split_ifs with hLost
  -- Without the mark, the first line is shorter than its body was before.
  · intro hSame
    have hBegins : (body (e.page.lines.headD [])).head? = some byteOrderMark := by
      rw [← headD_arrange commentMark e.tabWidth]
      exact ((losesMark_arrange commentMark e.tabWidth _).mpr hLost).1
    have hHead : (body (e.page.lines.headD [])).tail = e.page.lines.headD [] := by
      conv_rhs => rw [← hSame]
      rw [← headD_arrange commentMark e.tabWidth, ← arrangedLines]
      cases arrangedLines e <;> rfl
    have hLength := congrArg List.length (leading_append_body (e.page.lines.headD []))
    rw [List.length_append, ← congrArg List.length hHead, List.length_tail] at hLength
    have hEmpty : body (e.page.lines.headD []) = [] :=
      List.eq_nil_of_length_eq_zero (by omega)
    rw [hEmpty] at hBegins
    cases hBegins
  · exact fun hSame => hMisplaced (misplacedCount_eq_zero_iff.mpr hSame)

theorem leads_indentAll (hSound : e.page.Sound) : e.draft.Leads (indentAll e) := by
  by_cases hMisplaced : misplacedCount e = 0
  · rw [indentAll, if_pos hMisplaced]
    exact .refl _
  · have hLength := length_indentAll hSound
    rw [indentAll, if_neg hMisplaced] at hLength ⊢
    have hStart : e.draft.page.Holds .origin := ⟨hSound.lines_pos, Nat.zero_le _⟩
    have hStop : e.draft.page.Holds e.page.finish := (Page.isPlace_finish hSound.lines_pos).holds
    have hOrder : Pos.origin.upTo e.page.finish = true := Pos.upTo_iff.mpr (by
      change 0 < e.page.finish.line ∨ 0 = e.page.finish.line ∧ 0 ≤ e.page.finish.column
      omega)
    have hWhole : e.draft.Leads (e.draft.replace .origin e.page.finish
        (Text.joinLines (arrangedLines e))) := .replace hStart hStop hOrder _
    refine hWhole.trans (.select ?_ ?_)
    all_goals
      refine ⟨Nat.lt_of_lt_of_eq hSound.cursor.1 hLength.symm, ?_⟩
      exact Nat.le_trans (Nat.min_le_right _ _) (length_le_units _)

end ScriptEditor.Editor
