import Mathlib.Logic.Function.Iterate
import ScriptEditor.Proofs.Editor.Reachable

/-! Commands that lay out text are steps of the history as wholes. Each of them that
changes the lines adds one step, however many lines it edits, and one that indents adds
none if it changes nothing. Breaking a line is always a step. -/
namespace ScriptEditor.Editor

open ScriptEditor.Document
open ScriptEditor.Indent

/-- A command that lays out text. -/
inductive Layout where
  | breakLine
  | indentCurrent
  | indentSelection
  | outdentSelection
  | indentAll
deriving Repr, DecidableEq

def Layout.command : Layout → Command
  | .breakLine => .breakLine
  | .indentCurrent => .indentCurrent
  | .indentSelection => .indentSelection
  | .outdentSelection => .outdentSelection
  | .indentAll => .indentAll

def layOutBy (e : Editor) (layout : Layout) : Editor :=
  (e.run layout.command).1

variable {e next : Editor} {d : Draft} {layout : Layout}

/-- A command counts as a step if the lines are others afterwards, and a line break counts
in any case: it may put in just the line break that was selected. -/
def CountsAsStep (e : Editor) (layout : Layout) : Prop :=
  layout = .breakLine ∨ (e.layOutBy layout).page.lines ≠ e.page.lines

instance (e : Editor) (layout : Layout) : Decidable (CountsAsStep e layout) :=
  inferInstanceAs (Decidable (_ ∨ _))

def layOutAll (e : Editor) (layouts : List Layout) : Editor :=
  layouts.foldl layOutBy e

/-- How many of the commands count as steps, each one where its turn comes. -/
def stepCount (e : Editor) : List Layout → Nat
  | [] => 0
  | layout :: rest =>
    (if CountsAsStep e layout then 1 else 0) + stepCount (e.layOutBy layout) rest

/-! ### When note is taken of an edit -/

theorem edited_indentLines {ns : List Nat} (tabWidth : Int)
    (hns : ∀ n ∈ ns, n < d.page.lines.length) (hDistinct : ns.Nodup) :
    (indentLines tabWidth d ns).draft.edited = true ↔
      d.edited = true ∨ (indentLines tabWidth d ns).draft.page.lines ≠ d.page.lines := by
  obtain ⟨done, hDone, hEdits⟩ := editsLines_indentLines tabWidth hns
  exact hEdits.edited_iff (hDistinct.sublist hDone.sublist)

theorem edited_indentCurrent (h : e.page.Sound) :
    (indentCurrent e).draft.edited = true ↔ (indentCurrent e).draft.page.lines ≠ e.page.lines := by
  have hDistinct : [e.page.cursor.line].Nodup := List.pairwise_singleton _ _
  have hEdited := edited_indentLines e.tabWidth (cursorLine_lt h) hDistinct
  have hFresh : ¬ e.draft.edited = true := Bool.false_ne_true
  rw [or_iff_right hFresh] at hEdited
  unfold indentCurrent Attempt.andThen
  dsimp only
  split_ifs
  · exact hEdited
  · exact hEdited

theorem edited_indentSelection (h : e.page.Sound) :
    (indentSelection e).draft.edited = true ↔
      (indentSelection e).draft.page.lines ≠ e.page.lines := by
  unfold indentSelection
  split_ifs
  · have hBound : ∀ n ∈ selectedLines e.page, n < e.draft.page.lines.length := selectedLines_lt h
    have hEdited := edited_indentLines e.tabWidth hBound (nodup_selectedLines e.page)
    have hFresh : ¬ e.draft.edited = true := Bool.false_ne_true
    rwa [or_iff_right hFresh] at hEdited
  · exact edited_indentCurrent h

theorem edited_outdentSelection (h : e.Sound) :
    (outdentSelection e).edited = true ↔ (outdentSelection e).page.lines ≠ e.page.lines := by
  have hBound : ∀ n ∈ selectedLines e.page, n < e.draft.page.lines.length :=
    selectedLines_lt h.page
  have hEdited :=
    (editsLines_outdentLines h.tabWidth hBound).edited_iff (nodup_selectedLines e.page)
  have hFresh : ¬ e.draft.edited = true := Bool.false_ne_true
  rwa [or_iff_right hFresh] at hEdited

theorem edited_indentAll (h : e.page.Sound) :
    (indentAll e).edited = true ↔ (indentAll e).page.lines ≠ e.page.lines := by
  constructor
  · intro hEdited
    refine lines_indentAll_ne h fun hNone => ?_
    rw [indentAll, if_pos hNone] at hEdited
    cases hEdited
  · intro hDiffer
    by_contra hNot
    exact hDiffer ((leads_indentAll h).noted (Bool.eq_false_iff.mpr hNot)).2

theorem edited_breakAtCursor {tabWidth : Int}
    (hUnbroken : (breakAtCursor tabWidth d).fault = none) :
    (breakAtCursor tabWidth d).draft.edited = true := by
  revert hUnbroken
  unfold breakAtCursor
  dsimp only
  split
  · intro hUnbroken
    cases hUnbroken
  · intro _
    dsimp only
    rw [Draft.edited_replace, List.isEmpty_cons, Bool.not_false, Bool.or_true]

/-- A line break is noted unless the command is broken off. -/
theorem edited_breakLine (hUnbroken : (breakLine e).fault = none) :
    (breakLine e).draft.edited = true := by
  obtain ⟨closers, -, hBreak⟩ := breakLine_eq e
  rw [hBreak, Attempt.andThen] at hUnbroken ⊢
  split_ifs at hUnbroken ⊢ with hFault
  · rw [hUnbroken] at hFault
    cases hFault
  · exact edited_breakAtCursor hUnbroken

/-! ### One command -/

theorem layOutBy_of_attempt {a : Attempt} (hRun : e.layOutBy layout = (finishAttempt e a).1)
    (hUnbroken : (e.layOutBy layout).history.frozen = none) :
    a.fault = none ∧ e.layOutBy layout = e.commit a.draft := by
  rw [hRun] at hUnbroken ⊢
  unfold finishAttempt at hUnbroken ⊢
  cases hFault : a.fault with
  | none => exact ⟨rfl, rfl⟩
  | some fault =>
      simp only [hFault] at hUnbroken
      have hFrozen := (frozen_commit { e with history := e.history.breakOff } a.draft).symm.trans
        hUnbroken
      cases hFrozen

theorem countsAsStep_iff (hEnd : e.layOutBy layout = e.commit d) (hLayout : layout ≠ .breakLine) :
    CountsAsStep e layout ↔ d.page.lines ≠ e.page.lines := by
  rw [CountsAsStep, hEnd]
  exact or_iff_right hLayout

/-- A command that is not broken off ends with a draft that was edited if the command
counts as a step, and only then. -/
theorem layOutBy_eq_commit (h : e.Sound) (hUnbroken : (e.layOutBy layout).history.frozen = none) :
    ∃ d, e.layOutBy layout = e.commit d ∧ (d.edited = true ↔ CountsAsStep e layout) := by
  cases layout with
  | breakLine =>
      have hRun : e.layOutBy .breakLine = (finishAttempt e e.breakLine).1 := by
        rw [layOutBy, Layout.command, run]
      obtain ⟨hFault, hEnd⟩ := layOutBy_of_attempt hRun hUnbroken
      exact ⟨_, hEnd, iff_of_true (edited_breakLine hFault) (Or.inl rfl)⟩
  | indentCurrent =>
      obtain ⟨-, hEnd⟩ := layOutBy_of_attempt (a := e.indentCurrent) rfl hUnbroken
      exact ⟨_, hEnd, (edited_indentCurrent h.page).trans (countsAsStep_iff hEnd (by decide)).symm⟩
  | indentSelection =>
      obtain ⟨-, hEnd⟩ := layOutBy_of_attempt (a := e.indentSelection) rfl hUnbroken
      exact ⟨_, hEnd, (edited_indentSelection h.page).trans (countsAsStep_iff hEnd (by decide)).symm⟩
  | outdentSelection =>
      have hEnd : e.layOutBy .outdentSelection = e.commit e.outdentSelection := rfl
      exact ⟨_, hEnd, (edited_outdentSelection h).trans (countsAsStep_iff hEnd (by decide)).symm⟩
  | indentAll =>
      cases hFault : e.indentAllFault? with
      | none =>
          have hEnd : e.layOutBy .indentAll = e.commit e.indentAll := by
            change e.indentAllLines.1 = _
            rw [indentAllLines, hFault]
            rfl
          exact ⟨_, hEnd, (edited_indentAll h.page).trans (countsAsStep_iff hEnd (by decide)).symm⟩
      | some fault =>
          -- The column of some line cannot be had, and nothing was done yet.
          have hEnd : e.layOutBy .indentAll = e.commit e.draft := by
            change e.indentAllLines.1 = _
            rw [indentAllLines, hFault]
            rfl
          refine ⟨_, hEnd, ?_⟩
          rw [countsAsStep_iff hEnd (by decide)]
          exact iff_of_false Bool.false_ne_true fun hDiffer => hDiffer rfl

/-! ### The states of the lines -/

/-- The lines of the states that can be reached by undoing and redoing, in their order. -/
def lineStates (e : Editor) : List (List Text) :=
  (e.history.timeline e.page).map Page.lines

theorem getElem?_lineStates (e : Editor) :
    e.lineStates[e.history.past.length]? = some e.page.lines := by
  simp [lineStates]

/-- One command adds as many steps as it counts for, and leaves the states up to the
present one. -/
theorem layOutBy_states (h : e.Sound) (hUnbroken : (e.layOutBy layout).history.frozen = none) :
    (e.layOutBy layout).history.past.length =
        e.history.past.length + (if CountsAsStep e layout then 1 else 0) ∧
      ∀ i ≤ e.history.past.length, (e.layOutBy layout).lineStates[i]? = e.lineStates[i]? := by
  obtain ⟨d, hEnd, hEdited⟩ := layOutBy_eq_commit h hUnbroken
  have hFrozen : e.history.frozen = none := by rwa [hEnd, frozen_commit] at hUnbroken
  by_cases hCounts : CountsAsStep e layout
  · have hHistory : (e.commit d).history = e.history.record e.page d.tail :=
      if_pos (hEdited.mpr hCounts)
    rw [if_pos hCounts, hEnd]
    constructor
    · rw [hHistory, History.length_past_record hFrozen]
    · intro i hi
      rw [lineStates, lineStates, hHistory, List.getElem?_map, List.getElem?_map,
        History.getElem?_timeline_record hFrozen _ hi]
  · have hHistory : (e.commit d).history = e.history :=
      if_neg fun hNoted => hCounts (hEdited.mp hNoted)
    have hLines : (e.commit d).page.lines = e.page.lines := by
      by_contra hDiffer
      exact hCounts (Or.inr (hEnd ▸ hDiffer))
    rw [if_neg hCounts, hEnd, hHistory]
    refine ⟨rfl, fun i _ => ?_⟩
    rw [lineStates, lineStates, hHistory, History.timeline_map _ _ hLines]

theorem turns_layOutBy (h : e.Sound) (layout : Layout) : Turns e (e.layOutBy layout) :=
  turns_run h (by cases layout <;> exact nofun)

theorem unbroken_of_layOutAll (h : e.Sound) {layouts : List Layout}
    (hUnbroken : (e.layOutAll layouts).history.frozen = none) : e.history.frozen = none := by
  induction layouts generalizing e with
  | nil => exact hUnbroken
  | cons layout rest ih =>
      have hTurns := turns_layOutBy h layout
      exact hTurns.unbroken (ih (hTurns.sound h) hUnbroken)

/-- What one command does to the states, all commands do one after another. -/
theorem layOutAll_states (h : e.Sound) {layouts : List Layout}
    (hUnbroken : (e.layOutAll layouts).history.frozen = none) :
    (e.layOutAll layouts).history.past.length = e.history.past.length + e.stepCount layouts ∧
      ∀ i ≤ e.history.past.length, (e.layOutAll layouts).lineStates[i]? = e.lineStates[i]? := by
  induction layouts generalizing e with
  | nil => exact ⟨rfl, fun _ _ => rfl⟩
  | cons layout rest ih =>
      have hNext := (turns_layOutBy h layout).sound h
      obtain ⟨hFirst, hFirstStates⟩ := layOutBy_states h (unbroken_of_layOutAll hNext hUnbroken)
      obtain ⟨hRest, hRestStates⟩ := ih hNext hUnbroken
      constructor
      · rw [stepCount, ← Nat.add_assoc, ← hFirst]
        exact hRest
      · intro i hi
        have hReached : i ≤ (e.layOutBy layout).history.past.length := by omega
        exact (hRestStates i hReached).trans (hFirstStates i hi)

/-! ### Undoing and redoing -/

def undoBy (n : Nat) (e : Editor) : Editor :=
  (fun e => (e.run .undo).1)^[n] e

def redoBy (n : Nat) (e : Editor) : Editor :=
  (fun e => (e.run .redo).1)^[n] e

theorem undo_states (h : 0 < e.history.past.length) :
    e.undo.1.lineStates = e.lineStates ∧
      e.undo.1.history.past.length + 1 = e.history.past.length := by
  unfold undo
  split
  · rename_i page history hUndo
    obtain ⟨hTimeline, hLength, -⟩ := History.undo?_spec hUndo
    refine ⟨?_, hLength⟩
    rw [lineStates, lineStates, ← hTimeline]
    exact History.timeline_map history Page.lines rfl
  · rename_i hNone
    have hEmpty := History.undo?_eq_none_iff.mp hNone
    omega

theorem redo_states (h : e.history.past.length + 1 < e.lineStates.length) :
    e.redo.1.lineStates = e.lineStates ∧
      e.redo.1.history.past.length = e.history.past.length + 1 := by
  unfold redo
  split
  · rename_i page history hRedo
    obtain ⟨hTimeline, hLength, -⟩ := History.redo?_spec hRedo
    refine ⟨?_, hLength⟩
    rw [lineStates, lineStates, ← hTimeline]
    exact History.timeline_map history Page.lines rfl
  · rename_i hNone
    have hLast := History.redo?_eq_none_iff.mp hNone
    rw [lineStates, List.length_map] at h
    omega

/-- Undoing goes back on the line of states as far as it reaches. -/
theorem undoBy_states {n : Nat} (h : n ≤ e.history.past.length) :
    (undoBy n e).lineStates = e.lineStates ∧
      (undoBy n e).history.past.length + n = e.history.past.length := by
  induction n generalizing e with
  | zero => exact ⟨rfl, rfl⟩
  | succ n ih =>
      obtain ⟨hStates, hPlace⟩ := @undo_states e (by omega)
      obtain ⟨hRestStates, hRestPlace⟩ := @ih e.undo.1 (by omega)
      have hUndo : undoBy (n + 1) e = undoBy n e.undo.1 := Function.iterate_succ_apply _ n e
      rw [hUndo]
      exact ⟨hRestStates.trans hStates, by omega⟩

theorem redoBy_states {n : Nat} (h : e.history.past.length + n < e.lineStates.length) :
    (redoBy n e).lineStates = e.lineStates ∧
      (redoBy n e).history.past.length = e.history.past.length + n := by
  induction n generalizing e with
  | zero => exact ⟨rfl, rfl⟩
  | succ n ih =>
      obtain ⟨hStates, hPlace⟩ := @redo_states e (by omega)
      obtain ⟨hRestStates, hRestPlace⟩ := @ih e.redo.1 (by rw [hStates]; omega)
      have hRedo : redoBy (n + 1) e = redoBy n e.redo.1 := Function.iterate_succ_apply _ n e
      rw [hRedo]
      exact ⟨hRestStates.trans hStates, by omega⟩

/-- The lines are those of the state at the present place. -/
theorem lines_eq_of_states {other : Editor} {n : Nat} {lines : List Text}
    (hStates : other.lineStates = e.lineStates) (hPlace : other.history.past.length = n)
    (hLines : e.lineStates[n]? = some lines) : other.page.lines = lines := by
  have hPresent := getElem?_lineStates other
  rw [hStates, hPlace, hLines] at hPresent
  exact (Option.some.inj hPresent).symm

/-- Commands that lay out text add as many steps as count. Undoing that many steps brings
back the lines before the commands, and redoing them the lines after the commands. This
holds as long as no command was broken off. -/
theorem undoBy_layOutAll (reached : Reachable e) {layouts : List Layout}
    (hUnbroken : (e.layOutAll layouts).history.frozen = none) :
    (e.layOutAll layouts).history.past.length = e.history.past.length + e.stepCount layouts ∧
      (undoBy (e.stepCount layouts) (e.layOutAll layouts)).page.lines = e.page.lines ∧
      (redoBy (e.stepCount layouts)
        (undoBy (e.stepCount layouts) (e.layOutAll layouts))).page.lines =
          (e.layOutAll layouts).page.lines := by
  obtain ⟨hCount, hStates⟩ := layOutAll_states reached.sound hUnbroken
  have hWithin : e.stepCount layouts ≤ (e.layOutAll layouts).history.past.length := by omega
  obtain ⟨hUndone, hBack⟩ := undoBy_states hWithin
  refine ⟨hCount, ?_, ?_⟩
  -- Back from the end by the number of steps is where the commands began.
  · have hPlace : (undoBy (e.stepCount layouts) (e.layOutAll layouts)).history.past.length =
        e.history.past.length := by omega
    refine lines_eq_of_states hUndone hPlace ?_
    rw [hStates _ (Nat.le_refl _), getElem?_lineStates]
  · have hEnough : (undoBy (e.stepCount layouts) (e.layOutAll layouts)).history.past.length +
        e.stepCount layouts <
          (undoBy (e.stepCount layouts) (e.layOutAll layouts)).lineStates.length := by
      rw [hBack, hUndone, lineStates, List.length_map]
      exact History.length_past_lt_timeline _ _
    obtain ⟨hRedone, hForth⟩ := redoBy_states hEnough
    exact lines_eq_of_states (hRedone.trans hUndone) (hForth.trans hBack) (getElem?_lineStates _)

theorem undoBy_layOutAll_block :
    ∃ e, Reachable e ∧ (e.layOutAll [.indentAll, .indentAll, .breakLine]).history.frozen = none ∧
      e.stepCount [.indentAll, .indentAll, .breakLine] = 2 ∧
      (e.layOutAll [.indentAll, .indentAll, .breakLine]).history.past.length =
        e.history.past.length + 2 ∧
      (undoBy 2 (e.layOutAll [.indentAll, .indentAll, .breakLine])).page.lines = e.page.lines ∧
      (redoBy 2 (undoBy 2 (e.layOutAll [.indentAll, .indentAll, .breakLine]))).page.lines =
        (e.layOutAll [.indentAll, .indentAll, .breakLine]).page.lines := by
  let e := (((new .dark 4).run (.load "loop\nx\n end loop".toList)).1.run (.insert ['y'])).1
  have hReached : Reachable e := (reachable_new.run _).run _
  have hUnbroken : (e.layOutAll [.indentAll, .indentAll, .breakLine]).history.frozen = none := by
    decide +kernel
  have hCount : e.stepCount [.indentAll, .indentAll, .breakLine] = 2 := by decide +kernel
  have hSteps := undoBy_layOutAll hReached hUnbroken
  rw [hCount] at hSteps
  exact ⟨e, hReached, hUnbroken, hCount, hSteps⟩

/-- Breaking a line in place of a selected line break leaves the lines as they are and is
a step nevertheless: of two commands one changed the lines, and undoing one step does not
bring back the lines before them. -/
theorem breakLine_is_step_without_change :
    ∃ e, Reachable e ∧ (e.layOutAll [.indentSelection, .breakLine]).history.frozen = none ∧
      (e.layOutBy .indentSelection).page.lines ≠ e.page.lines ∧
      ((e.layOutBy .indentSelection).layOutBy .breakLine).page.lines =
        (e.layOutBy .indentSelection).page.lines ∧
      (undoBy 1 (e.layOutAll [.indentSelection, .breakLine])).page.lines ≠ e.page.lines := by
  have hReached := (reachable_new.run (.load "  a\nb".toList)).run (.move (1, 0) (some (0, 3)))
  refine ⟨_, hReached, ?_⟩
  decide +kernel

end ScriptEditor.Editor
