import ScriptEditor.Proofs.Editor.Reachable

/-! Commands for indentation touch nothing but indentation, and only that of the lines
they address. The one exception is a byte order mark at the beginning of a page with wide
characters, which is lost when the page is indented as a whole. -/
namespace ScriptEditor.Editor

open ScriptEditor.Document
open ScriptEditor.Indent

variable {e : Editor} {d : Draft} {command : Command} {within : Nat → Prop}

/-- The commands for indentation, with the lines of a page that each of them addresses. -/
inductive Indents (page : Page) : Command → (Nat → Prop) → Prop where
  | current : Indents page .indentCurrent fun i => i = page.cursor.line
  | selection : Indents page .indentSelection fun i => page.start.line ≤ i ∧ i ≤ page.stop.line
  | outdent : Indents page .outdentSelection fun i => page.start.line ≤ i ∧ i ≤ page.stop.line
  | all : Indents page .indentAll fun _ => True

theorem onlyIndents_indentLines (tabWidth : Int) {ns : List Nat}
    (hns : ∀ n ∈ ns, n < d.page.lines.length) (hWithin : ∀ n ∈ ns, within n) :
    OnlyIndents within d.page.lines (indentLines tabWidth d ns).draft.page.lines := by
  obtain ⟨done, hDone, hEdits⟩ := editsLines_indentLines tabWidth hns
  exact hEdits.onlyIndents.mono fun n hn => hWithin n (hDone.subset hn)

theorem onlyIndents_indentCurrent (h : e.page.Sound) :
    OnlyIndents (fun i => i = e.page.cursor.line) e.page.lines
      (indentCurrent e).draft.page.lines := by
  have hLine : ∀ n ∈ [e.page.cursor.line], n = e.page.cursor.line := fun n hn =>
    List.mem_singleton.mp hn
  have hIndent := onlyIndents_indentLines e.tabWidth (cursorLine_lt h) hLine
  unfold indentCurrent Attempt.andThen
  dsimp only
  split_ifs
  · exact hIndent
  · exact hIndent

theorem onlyIndents_indentSelection (h : e.page.Sound) :
    OnlyIndents (fun i => e.page.start.line ≤ i ∧ i ≤ e.page.stop.line) e.page.lines
      (indentSelection e).draft.page.lines := by
  unfold indentSelection
  split_ifs with hSelection
  · have hBound : ∀ n ∈ selectedLines e.page, n < e.draft.page.lines.length := selectedLines_lt h
    exact onlyIndents_indentLines e.tabWidth hBound fun n => mem_selectedLines.mp
  · obtain ⟨hStart, hStop⟩ := Page.start_stop_of_not_hasSelection hSelection
    refine (onlyIndents_indentCurrent h).mono fun i hi => ?_
    rw [hStart, hStop, hi]
    exact ⟨Nat.le_refl _, Nat.le_refl _⟩

theorem onlyIndents_outdentSelection (h : e.Sound) :
    OnlyIndents (fun i => e.page.start.line ≤ i ∧ i ≤ e.page.stop.line) e.page.lines
      (outdentSelection e).page.lines := by
  have hBound : ∀ n ∈ selectedLines e.page, n < e.draft.page.lines.length :=
    selectedLines_lt h.page
  exact (editsLines_outdentLines h.tabWidth hBound).onlyIndents.mono fun n => mem_selectedLines.mp

theorem onlyIndents_arrangedLines (e : Editor) :
    OnlyIndents (fun _ => True) e.page.lines (arrangedLines e) :=
  ⟨map_body_arrange _ _ _, fun _ hOutside => absurd trivial hOutside⟩

/-- Indenting a page as a whole leaves it as it is, or arranges all lines of it. -/
theorem lines_indentAllLines (h : e.page.Sound) :
    e.indentAllLines.1.page.lines = e.page.lines ∨
      e.indentAllLines.1.page.lines =
        if LosesMark (e.page.lines.map body) then (arrangedLines e).modifyHead List.tail
        else arrangedLines e := by
  unfold indentAllLines
  split
  · exact Or.inl rfl
  · by_cases hMisplaced : misplacedCount e = 0
    · refine Or.inl ?_
      change (indentAll e).page.lines = e.page.lines
      rw [indentAll, if_pos hMisplaced]
      rfl
    · exact Or.inr (lines_indentAll h hMisplaced)

/-- A command for indentation keeps the number of lines, the body of every line, and the
lines that it does not address, also if it is broken off. Only the command for the whole
page can do more: if the first line begins with a byte order mark and there is a wide
character on the page, the lines are arranged, and then the mark is missing. -/
theorem run_onlyIndents (reached : Reachable e) (h : Indents e.page command within) :
    (e.run command).1.page.lines.length = e.page.lines.length ∧
      (OnlyIndents within e.page.lines (e.run command).1.page.lines ∨
        command = .indentAll ∧ LosesMark (e.page.lines.map body) ∧
          ∃ arranged, OnlyIndents within e.page.lines arranged ∧
            (e.run command).1.page.lines = arranged.modifyHead List.tail) := by
  have hSound := reached.sound
  cases h with
  | current =>
      have hPage : (e.run .indentCurrent).1.page = e.indentCurrent.draft.page :=
        page_finishAttempt e _
      have hOnly := onlyIndents_indentCurrent hSound.page
      rw [hPage]
      exact ⟨hOnly.length_eq, Or.inl hOnly⟩
  | selection =>
      have hPage : (e.run .indentSelection).1.page = e.indentSelection.draft.page :=
        page_finishAttempt e _
      have hOnly := onlyIndents_indentSelection hSound.page
      rw [hPage]
      exact ⟨hOnly.length_eq, Or.inl hOnly⟩
  | outdent =>
      have hOnly := onlyIndents_outdentSelection hSound
      exact ⟨hOnly.length_eq, Or.inl hOnly⟩
  | all =>
      have hRun : e.run .indentAll = e.indentAllLines := rfl
      have hArranged := onlyIndents_arrangedLines e
      rw [hRun]
      rcases lines_indentAllLines hSound.page with hSame | hLines
      · rw [hSame]
        exact ⟨rfl, Or.inl (.refl _ _)⟩
      · rw [hLines]
        split_ifs with hLost
        · refine ⟨?_, Or.inr ⟨rfl, hLost, _, hArranged, rfl⟩⟩
          rw [List.length_modifyHead, hArranged.length_eq]
        · exact ⟨hArranged.length_eq, Or.inl hArranged⟩

theorem run_onlyIndents_last_two_lines :
    ∃ e, Reachable e ∧ e.page.start.line = 1 ∧ e.page.stop.line = 2 ∧
      e.page.lines = ["loop".toList, "\tx # 😀".toList, " end loop".toList] ∧
      (e.run .indentSelection).1.page.lines =
        ["loop".toList, "    x # 😀".toList, "end loop".toList] ∧
      OnlyIndents (fun i => e.page.start.line ≤ i ∧ i ≤ e.page.stop.line) e.page.lines
        (e.run .indentSelection).1.page.lines := by
  have hReached := (reachable_new.run (.load "loop\n\tx # 😀\n end loop".toList)).run
    (.move (2, 3) (some (1, 0)))
  have hOnly := (run_onlyIndents hReached .selection).2.resolve_right nofun
  exact ⟨_, hReached, by decide +kernel, by decide +kernel, by decide +kernel, by decide +kernel,
    hOnly⟩

/-- A byte order mark was at the beginning of the page before a wide character came
there. Indenting the page as a whole takes it out with the misplaced blanks. -/
theorem indentAll_not_onlyIndents :
    ∃ e, Reachable e ∧ Indents e.page .indentAll (fun _ => True) ∧
      e.page.lines = [['\ufeff', 'a', '😀'], [' ', ' ', 'b']] ∧
      (e.run .indentAll).1.page.lines = [['a', '😀'], ['b']] ∧
      ¬ OnlyIndents (fun _ => True) e.page.lines (e.run .indentAll).1.page.lines := by
  have hReached := ((reachable_new.run (.load ['\ufeff', 'a', '\n', ' ', ' ', 'b'])).run
    (.move (0, 2) none)).run (.insert ['😀'])
  refine ⟨_, hReached, .all, by decide +kernel, by decide +kernel, fun hOnly => ?_⟩
  exact absurd hOnly.bodies (by decide +kernel)

end ScriptEditor.Editor
