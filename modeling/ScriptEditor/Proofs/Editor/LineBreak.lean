import ScriptEditor.Editor.Command
import ScriptEditor.Proofs.Document.PageEnd
import ScriptEditor.Proofs.Indent.Body

/-! Commands at the end of a page: putting in text there, and breaking the last line.
What they do is said in terms of the lines of the page, the column of the line that is
left and the column of the line that begins. -/
namespace ScriptEditor.Editor

open ScriptEditor.Document
open ScriptEditor.Indent
open ScriptEditor.Script (Role commentMark)

/-- Carries out a command that must not fail. -/
def perform (e : Editor) (command : Command) : Except Fault Editor :=
  unlessFault ((e.run command).1, (e.run command).2.fault)

variable {e : Editor} {done : List Text} {last : Text}

/-- Putting in text never fails, and the page is what the draft was. -/
theorem insertText_spec (e : Editor) (t : Text) :
    (e.insertText t).2.fault = none ∧ (e.insertText t).1.tabWidth = e.tabWidth ∧
      (e.insertText t).1.page = (e.draft.replaceSelection t).page := by
  simp only [insertText]
  cases (e.draft.replaceSelection t).tail with
  | none => exact ⟨rfl, rfl, rfl⟩
  | some stroke => cases e.page.hasSelection <;> exact ⟨rfl, rfl, rfl⟩

theorem draft_eraseSelection (h : EndsWith e.page done last) :
    e.draft.eraseSelection = e.draft := by
  simp [Draft.eraseSelection, draft, h.hasSelection]

theorem perform_insert (h : EndsWith e.page done last) {row : Text} (hRow : IsRow row) :
    ∃ next, e.perform (.insert row) = .ok next ∧ next.tabWidth = e.tabWidth ∧
      EndsWith next.page done (last ++ row) := by
  obtain ⟨hFault, hWidth, hPage⟩ := insertText_spec e row
  refine ⟨(e.insertText row).1, ?_, hWidth, ?_⟩
  · simp only [perform, run, unlessFault, hFault]
  · have hDraft : EndsWith e.draft.page done last := h
    rw [hPage, Draft.replaceSelection, draft_eraseSelection h]
    exact hDraft.draft_insert_row hRow

theorem isRow_spaces (column : Int) : IsRow (spaces column) :=
  isRow_replicate_space column.toNat

theorem units_of_isIndent {indent : Text} (hIndent : ∀ c ∈ indent, Text.isIndent c = true) :
    Text.units indent = indent.length := by
  induction indent with
  | nil => rfl
  | cons c indent ih =>
      have hRest := ih fun x hx => hIndent x (List.mem_cons_of_mem _ hx)
      have hWidth : Text.unitWidth c = 1 := by
        rcases isIndent_iff.mp (hIndent c (List.mem_cons_self ..)) with rfl | rfl <;> rfl
      rw [Text.units, hWidth, hRest, List.length_cons]
      omega

theorem units_leading (line : Text) : Text.units (leading line) = (leading line).length :=
  units_of_isIndent fun _ => isIndent_of_mem_leading

/-- Indenting the last line of a page leaves the cursor at its end. -/
theorem indentLine_endsWith {d : Draft} (h : EndsWith d.page done last) (tabWidth : Int) :
    EndsWith (indentLine tabWidth d done.length).page done
      (spaces (columnAt commentMark tabWidth (done ++ [last]) done.length) ++ body last) := by
  have hColumn : columnIn tabWidth d done.length =
      columnAt commentMark tabWidth (done ++ [last]) done.length := by
    rw [columnIn, h.lines]
  simp only [indentLine, h.lineAt_length, hColumn]
  split_ifs with hSame
  · rw [← hSame, leading_append_body]
    exact h
  · have hSplit : EndsWith d.page done (leading last ++ body last) := by
      rw [leading_append_body]
      exact h
    rw [← units_leading]
    exact hSplit.draft_replace_front (isRow_spaces _)

/-- Breaking the last line at its end puts in a line break and the column that an
empty line below would have, if there is room for it. -/
theorem breakAtCursor_endsWith {d : Draft} (h : EndsWith d.page done last) {tabWidth column : Int}
    (hColumn : columnAt commentMark tabWidth (done ++ [last] ++ [[]]) (done ++ [last]).length =
      column) :
    (∀ fault, spacesFault? column = some fault → breakAtCursor tabWidth d = ⟨d, some fault⟩) ∧
    (spacesFault? column = none →
      breakAtCursor tabWidth d =
        { draft := d.insert d.page.cursor ('\n' :: spaces column) }) := by
  have hLine : d.page.lineAt d.page.cursor.line = last := by rw [h.cursor, h.lineAt_length]
  have hFits : last.length ≤ d.page.cursor.column := by rw [h.cursor]; exact length_le_units last
  have hBefore : last.take d.page.cursor.column = last := List.take_of_length_le hFits
  have hAfter : last.drop d.page.cursor.column = [] := List.drop_eq_nil_of_le hFits
  have hLines : brokenLines d.page.lines d.page.cursor.line last [] = done ++ [last] ++ [[]] := by
    rw [brokenLines_of_nat, h.lines, h.cursor, List.take_left]
    rfl
  have hNumber : d.page.cursor.line + 1 = (done ++ [last]).length := by simp [h.cursor]
  have hPlace (p : Pos) : p.earlier p = p ∧ p.later p = p := by
    simp [Pos.earlier, Pos.later]
  constructor
  · intro fault hFault
    simp only [breakAtCursor, hLine, hBefore, hAfter, hLines, hNumber, hColumn, hFault]
  · intro hRoom
    simp only [breakAtCursor, hLine, hBefore, hAfter, hLines, hNumber, hColumn, hRoom, leading,
      List.takeWhile_nil, List.length_nil, Page.rightBy, hPlace, Draft.replace, Draft.erase,
      if_true]

section

variable {own column : Int} {left : Text}

/-- Before the last line is left, it is indented to its own column if it closes a block
and there is room for that. -/
theorem breakLine_eq_breakAtCursor (h : EndsWith e.page done last)
    (hOwn : columnAt commentMark e.tabWidth (done ++ [last]) done.length = own)
    (hOwnRoom : spacesFault? own = none)
    (hLeft : (if (Role.ofLine commentMark last).closes then spaces own ++ body last else last) =
      left) :
    ∃ d : Draft, e.breakLine = breakAtCursor e.tabWidth d ∧ EndsWith d.page done left := by
  have hDraft : EndsWith e.draft.page done last := h
  have hLast : e.draft.page.lineAt e.draft.page.cursor.line = last := by
    rw [hDraft.cursor, hDraft.lineAt_length]
  have hColumnIn : columnIn e.tabWidth e.draft done.length = own := by
    rw [columnIn, hDraft.lines, hOwn]
  simp only [breakLine, draft_eraseSelection h, hLast]
  cases hCloses : (Role.ofLine commentMark last).closes with
  | false =>
      have hSame : last = left := by simpa [hCloses] using hLeft
      exact ⟨e.draft, rfl, hSame ▸ hDraft⟩
  | true =>
      have hPlaced : spaces own ++ body last = left := by simpa [hCloses] using hLeft
      have hIndented := indentLine_endsWith hDraft e.tabWidth
      rw [hOwn, hPlaced] at hIndented
      refine ⟨indentLine e.tabWidth e.draft done.length, ?_, hIndented⟩
      simp [hDraft.cursor, indentLines, hColumnIn, hOwnRoom, Attempt.andThen]

/-- Leaving the last line at its end: a line that closes a block goes to its own column,
and the next line begins at the column that an empty line below has, unless there is no
room for it. -/
theorem perform_breakLine (h : EndsWith e.page done last)
    (hOwn : columnAt commentMark e.tabWidth (done ++ [last]) done.length = own)
    (hOwnRoom : spacesFault? own = none)
    (hLeft : (if (Role.ofLine commentMark last).closes then spaces own ++ body last else last) =
      left)
    (hColumn : columnAt commentMark e.tabWidth (done ++ [left] ++ [[]]) (done ++ [left]).length =
      column) :
    (∀ fault, spacesFault? column = some fault →
      e.perform .breakLine = .error (.indent fault)) ∧
    (spacesFault? column = none →
      ∃ next, e.perform .breakLine = .ok next ∧ next.tabWidth = e.tabWidth ∧
        EndsWith next.page (done ++ [left]) (spaces column)) := by
  obtain ⟨d, hLine, hEnd⟩ := breakLine_eq_breakAtCursor h hOwn hOwnRoom hLeft
  obtain ⟨hFail, hBreak⟩ := breakAtCursor_endsWith hEnd hColumn
  constructor
  · intro fault hFault
    simp only [perform, run, finishAttempt, hLine, hFail fault hFault, unlessFault]
  · intro hRoom
    refine ⟨e.commit (d.insert d.page.cursor ('\n' :: spaces column)), ?_, rfl, ?_⟩
    · simp only [perform, run, finishAttempt, hLine, hBreak hRoom, finish, unlessFault]
    · exact hEnd.draft_insert_break column.toNat

end

end ScriptEditor.Editor
