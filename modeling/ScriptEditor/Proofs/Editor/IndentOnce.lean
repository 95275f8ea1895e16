import ScriptEditor.Proofs.Editor.Entering
import ScriptEditor.Proofs.Editor.Reachable

/-! Indenting all lines of a page does once what arranging its lines does. The lines are put
in as one text that is split again, and since no line holds a line end they come out of it as
they were arranged. Arranged lines are arranged already, so the second time nothing is left to
do, and then the editor stays entirely as it is. -/
namespace ScriptEditor.Editor

open ScriptEditor.Document
open ScriptEditor.Indent
open ScriptEditor.Script (commentMark)

variable {e : Editor}

theorem length_filter_zip_ne {lines others : List Text} (h : others.length = lines.length) :
    ((lines.zip others).filter fun pair => pair.1 != pair.2).length =
      (List.range lines.length).countP fun i => lines[i]? != others[i]? := by
  induction lines generalizing others with
  | nil => rfl
  | cons line lines ih =>
      obtain ⟨other, others, rfl⟩ := List.exists_cons_of_length_eq_add_one h
      have hRest := @ih others (by simpa using h)
      rw [List.zip_cons_cons, List.filter_cons, List.length_cons, List.range_succ_eq_map,
        List.countP_cons, List.countP_map]
      simp only [Function.comp_def, List.getElem?_cons_zero, List.getElem?_cons_succ, ← hRest]
      by_cases hSame : line = other <;> simp [hSame]

theorem arrangeAll_eq_error_iff {fault : Indent.Fault} :
    arrangeAll commentMark e.tabWidth e.page.lines = .error fault ↔
      e.indentAllFault? = some fault := by
  unfold arrangeAll indentAllFault?
  cases arrangeFault? commentMark e.tabWidth e.page.lines <;> simp

theorem arrangeAll_eq_ok_iff {arranged : List Text} :
    (arrangeAll commentMark e.tabWidth e.page.lines).map Prod.fst = .ok arranged ↔
      e.indentAllFault? = none ∧ arrangedLines e = arranged := by
  unfold arrangeAll indentAllFault? arrangedLines
  cases arrangeFault? commentMark e.tabWidth e.page.lines <;> simp [Except.map]

theorem run_indentAll_of_arranged (hFault : e.indentAllFault? = none)
    (hLines : arrangedLines e = e.page.lines) : e.run .indentAll = (e, {}) := by
  have hCount := misplacedCount_eq_zero_iff.mpr hLines
  change e.indentAllLines = _
  rw [indentAllLines, hFault, indentAll, if_pos hCount, hCount]
  rfl

theorem cursor_line_indentAll (e : Editor) :
    (indentAll e).page.cursor.line = e.page.cursor.line := by
  unfold indentAll
  split_ifs <;> rfl

/-- The page and the reaction when indenting all lines is not refused. -/
theorem run_indentAll_of_room (hFault : e.indentAllFault? = none) :
    (e.run .indentAll).1 = e.commit (indentAll e) ∧
      (e.run .indentAll).2.indented = misplacedCount e ∧ (e.run .indentAll).2.fault = none := by
  change e.indentAllLines.1 = _ ∧ e.indentAllLines.2.indented = _ ∧ e.indentAllLines.2.fault = _
  rw [indentAllLines, hFault]
  exact ⟨rfl, rfl, rfl⟩

/-- The lines are the arranged ones afterwards, unless a byte order mark was lost. -/
theorem lines_run_indentAll (hSound : e.page.Sound) (hFault : e.indentAllFault? = none)
    (hKept : misplacedCount e = 0 ∨ ¬ LosesMark (e.page.lines.map body)) :
    (e.run .indentAll).1.page.lines = arrangedLines e := by
  rw [(run_indentAll_of_room hFault).1]
  change (indentAll e).page.lines = _
  by_cases hMisplaced : misplacedCount e = 0
  · rw [indentAll, if_pos hMisplaced, misplacedCount_eq_zero_iff.mp hMisplaced]
    rfl
  · rw [lines_indentAll hSound hMisplaced, if_neg (hKept.resolve_left hMisplaced)]

/-- The second time there is nothing left to indent. -/
theorem run_indentAll_again (h : e.Sound) (hFault : e.indentAllFault? = none)
    (hLines : (e.run .indentAll).1.page.lines = arrangedLines e) :
    (e.run .indentAll).1.run .indentAll = ((e.run .indentAll).1, {}) := by
  have hTabWidth : (e.run .indentAll).1.tabWidth = e.tabWidth := by
    rw [(run_indentAll_of_room hFault).1]
    rfl
  have hAgain := arrangeAll_again markApart_commentMark h.tabWidth
    (arrangeAll_eq_ok_iff.mpr ⟨hFault, rfl⟩)
  rw [← hLines, ← hTabWidth] at hAgain
  obtain ⟨hRoom, hSame⟩ := arrangeAll_eq_ok_iff.mp hAgain
  exact run_indentAll_of_arranged hRoom hSame

/-- Indenting all lines is refused where arranging them is, for the same reason, and leaves
the editor as it is then. Otherwise the number of lines that it reports is the number of those
that arranging changes, and the cursor stays in its line; if there is none to change, the
editor stays as it is. The lines are the arranged ones afterwards and doing it again changes
nothing at all. This last part is not said of a page that begins with a byte order mark, has
a wide character and has a line to change. -/
theorem run_indentAll_arranges (reached : Reachable e) :
    (∀ fault, arrangeAll commentMark e.tabWidth e.page.lines = .error fault →
      e.run .indentAll = (e, { fault := some (.indent fault) })) ∧
    ∀ arranged, (arrangeAll commentMark e.tabWidth e.page.lines).map Prod.fst = .ok arranged →
      (e.run .indentAll).2.fault = none ∧
      (e.run .indentAll).2.indented =
        (List.range e.page.lines.length).countP (fun i => e.page.lines[i]? != arranged[i]?) ∧
      (e.run .indentAll).1.page.cursor.line = e.page.cursor.line ∧
      ((e.run .indentAll).2.indented = 0 → e.run .indentAll = (e, {})) ∧
      ((e.run .indentAll).2.indented = 0 ∨ ¬ LosesMark (e.page.lines.map body) →
        (e.run .indentAll).1.page.lines = arranged ∧
          (e.run .indentAll).1.run .indentAll = ((e.run .indentAll).1, {})) := by
  have hSound := reached.sound
  refine ⟨fun fault hError => ?_, fun arranged hArranged => ?_⟩
  · change e.indentAllLines = _
    rw [indentAllLines, arrangeAll_eq_error_iff.mp hError]
  · obtain ⟨hFault, rfl⟩ := arrangeAll_eq_ok_iff.mp hArranged
    obtain ⟨hPage, hCount, hNoFault⟩ := run_indentAll_of_room hFault
    refine ⟨hNoFault, ?_, ?_, fun hNone => ?_, fun hKept => ?_⟩
    · rw [hCount]
      exact length_filter_zip_ne (length_arrange _ _ _)
    · rw [hPage]
      exact cursor_line_indentAll e
    · rw [hCount] at hNone
      exact run_indentAll_of_arranged hFault (misplacedCount_eq_zero_iff.mp hNone)
    · rw [hCount] at hKept
      have hLines := lines_run_indentAll hSound.page hFault hKept
      exact ⟨hLines, run_indentAll_again hSound hFault hLines⟩

theorem run_indentAll_arranges_block :
    ∃ e, Reachable e ∧ e.page.lines = ["\tloop".toList, "x\u2028'😀".toList, " # y".toList] ∧
      ¬ LosesMark (e.page.lines.map body) ∧
      (arrangeAll commentMark e.tabWidth e.page.lines).map Prod.fst =
        .ok ["loop".toList, "    x\u2028'😀".toList, "    # y".toList] ∧
      (e.run .indentAll).2.indented = 3 ∧
      (e.run .indentAll).1.page.lines =
        ["loop".toList, "    x\u2028'😀".toList, "    # y".toList] ∧
      (e.run .indentAll).1.run .indentAll = ((e.run .indentAll).1, {}) := by
  let e := (((new .dark 4).run (.load "\tloop\nx\u2028'😀\n # y".toList)).1.run
    (.move (1, 3) none)).1
  have hReached : Reachable e := (reachable_new.run _).run _
  have hBefore : e.page.lines = ["\tloop".toList, "x\u2028'😀".toList, " # y".toList] := by
    decide +kernel
  have hKeeps : ¬ LosesMark (e.page.lines.map body) := by decide +kernel
  have hArranged : (arrangeAll commentMark e.tabWidth e.page.lines).map Prod.fst =
      .ok ["loop".toList, "    x\u2028'😀".toList, "    # y".toList] :=
    arrangeAll_eq_ok_iff.mpr ⟨by decide +kernel, by decide +kernel⟩
  obtain ⟨-, -, -, -, hDone⟩ := (run_indentAll_arranges hReached).2 _ hArranged
  obtain ⟨hLines, hAgain⟩ := hDone (Or.inr hKeeps)
  exact ⟨e, hReached, hBefore, hKeeps, hArranged, by decide +kernel, hLines, hAgain⟩

/-- What is said of indenting all lines does not hold without exception. With a tab width that
cannot be counted neither the page nor its lines by themselves can be arranged. And a byte
order mark that is lost on the way may have kept the first line from being an opener, so that
the lines are neither the arranged ones nor arranged then. -/
theorem indentAll_not_arranged :
    (∃ e, Reachable e ∧ e.page.lines = ["loop".toList, ['x']] ∧
      e.tabWidth = 9223372036854775808 ∧
      arrangeAll commentMark e.tabWidth e.page.lines = .error .uncountable ∧
      (e.run .indentAll).2.fault = some (.indent .uncountable)) ∧
    ∃ e, Reachable e ∧ e.page.lines = ['\ufeff' :: "loop 😀".toList, "  x".toList] ∧
      (arrangeAll commentMark e.tabWidth e.page.lines).map Prod.fst =
        .ok ['\ufeff' :: "loop 😀".toList, ['x']] ∧
      (e.run .indentAll).1.page.lines = ["loop 😀".toList, ['x']] ∧
      ((e.run .indentAll).1.run .indentAll).2.indented = 1 ∧
      ((e.run .indentAll).1.run .indentAll).1.page.lines = ["loop 😀".toList, "    x".toList] := by
  constructor
  · have hCreated : create .dark 9223372036854775808 = .ok (new .dark 9223372036854775808) :=
      create_of_fits .dark (by decide) (by decide +kernel)
    have hReached := (Reachable.create hCreated).run (.load "loop\nx".toList)
    refine ⟨_, hReached, by decide +kernel, by decide +kernel, ?_, by decide +kernel⟩
    exact arrangeAll_eq_error_iff.mpr (by decide +kernel)
  · let e := ((((new .dark 4).run (.load ('\ufeff' :: "loop\n  x".toList))).1.run
      (.move (0, 5) none)).1.run (.insert " 😀".toList)).1
    have hReached : Reachable e := ((reachable_new.run _).run _).run _
    refine ⟨e, hReached, by decide +kernel, ?_, by decide +kernel, by decide +kernel,
      by decide +kernel⟩
    exact arrangeAll_eq_ok_iff.mpr ⟨by decide +kernel, by decide +kernel⟩

end ScriptEditor.Editor
