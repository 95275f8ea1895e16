import ScriptEditor.Proofs.Document.Between
import ScriptEditor.Proofs.Editor.Reachable

/-! What a line break does to the text around it. Apart from blanks it never adds
anything, and it takes out nothing but the selected text as long as it looks for blanks
where the cursor is. Wide characters before the cursor make it look too far on. -/
namespace ScriptEditor.Editor

open ScriptEditor.Document
open ScriptEditor.Document.Page (Between)
open ScriptEditor.Indent
open ScriptEditor.Text (units isIndent isExtending runsLeft)

/-- The characters of a text other than spaces and tabulators. -/
def visible (t : Text) : Text :=
  t.filter fun c => !isIndent c

section

variable {t other : Text}

@[simp] theorem visible_append (t other : Text) :
    visible (t ++ other) = visible t ++ visible other :=
  List.filter_append ..

theorem visible_of_isIndent (h : ∀ c ∈ t, isIndent c = true) : visible t = [] :=
  List.filter_eq_nil_iff.mpr fun c hc => by simp [h c hc]

theorem visible_spaces (column : Int) : visible (spaces column) = [] :=
  visible_of_isIndent fun _ => isIndent_of_mem_spaces

theorem visible_body (t : Text) : visible (body t) = visible t := by
  conv_rhs => rw [← leading_append_body t, visible_append,
    visible_of_isIndent fun _ => isIndent_of_mem_leading, List.nil_append]

theorem visible_eq_of_body_eq (h : body t = body other) : visible t = visible other := by
  rw [← visible_body t, h, visible_body]

/-- Blanks have no direction. -/
theorem runsLeft_visible (t : Text) : runsLeft (visible t) = runsLeft t := by
  have hDirected (c : Char) : decide ((!isIndent c) = true ∧ (!Text.isUndirected c) = true) =
      !Text.isUndirected c := by
    cases hc : isIndent c with
    | false => simp
    | true => rcases isIndent_iff.mp hc with rfl | rfl <;> decide +kernel
  unfold runsLeft visible
  simp only [List.find?_filter, hDirected]

end

variable {e : Editor} {d : Draft} {above below : List Text} {before after before' after' : Text}

/-! ### Where blanks are looked for -/

/-- How many blanks a line break looks for behind a cursor between two parts of a line.
It counts characters where the cursor counts units, and so it begins one character too far
on for each wide one before the cursor. -/
def blanksFound (before after : Text) : Nat :=
  (leading (after.drop (units before - before.length))).length

theorem leading_drop_units (before after : Text) :
    (leading ((before ++ after).drop (units before))).length = blanksFound before after := by
  have hLength := length_le_units before
  rw [blanksFound, List.drop_append, List.drop_eq_nil_of_le hLength, List.nil_append]

/-- Blanks that are found are passed one by one: there are none, or there are as many
behind the cursor, in a line that runs from left to right, and no mark stands on the last
of them. -/
def BreaksCleanly (before after : Text) : Prop :=
  blanksFound before after = 0 ∨
    blanksFound before after ≤ (leading after).length ∧ runsLeft (before ++ after) = false ∧
      (body after).head?.any isExtending = false

/-- Without wide characters before the cursor, blanks are found where they are. -/
theorem breaksCleanly_of_not_hasWide (h : Text.hasWide before = false)
    (hRuns : runsLeft (before ++ after) = false)
    (hMark : (body after).head?.any isExtending = false) : BreaksCleanly before after := by
  refine Or.inr ⟨?_, hRuns, hMark⟩
  rw [blanksFound, units_eq_length_iff.mpr h, Nat.sub_self, List.drop_zero]

/-- Text before the cursor has as many wide characters as its body. -/
theorem units_sub_length_body (t : Text) :
    units t - t.length = units (body t) - (body t).length := by
  have hUnits := congrArg units (leading_append_body t)
  have hLength := congrArg List.length (leading_append_body t)
  rw [Text.units_append, units_leading] at hUnits
  rw [List.length_append] at hLength
  omega

/-- What another indentation of the line does to the parts of it: the part before the
cursor changes its indentation, and blanks behind the cursor may be part of that. -/
structure Reindents (before after before' after' : Text) : Prop where
  front : body before' = body before
  back : after' = after ∨ body before = [] ∧ after' = body after

theorem Reindents.visible_eq (h : Reindents before after before' after') :
    visible (before' ++ after') = visible (before ++ after) := by
  rw [visible_append, visible_append, visible_eq_of_body_eq h.front]
  rcases h.back with rfl | ⟨-, rfl⟩
  · rfl
  · rw [visible_body]

theorem Reindents.breaksCleanly (h : Reindents before after before' after')
    (hClean : BreaksCleanly before after) : BreaksCleanly before' after' := by
  have hWide : units before' - before'.length = units before - before.length := by
    rw [units_sub_length_body, h.front, ← units_sub_length_body]
  rcases h.back with rfl | ⟨hBlank, rfl⟩
  -- The cursor is behind the indentation: the wide characters before it are the same ones.
  · have hFound : blanksFound before' after' = blanksFound before after' := by
      rw [blanksFound, hWide, blanksFound]
    unfold BreaksCleanly
    rwa [hFound, ← runsLeft_visible, h.visible_eq, runsLeft_visible]
  -- The cursor was inside of the indentation and is now behind it, where no blank is left.
  · refine Or.inl ?_
    have hNone : leading (body after) = [] :=
      @leading_indent_append [] (fun c hc => by cases hc) after
    rw [blanksFound, units_sub_length_body, h.front, hBlank]
    simp [units, hNone]

/-! ### Indenting the line of the cursor -/

/-- Another indentation of the line leaves the cursor between the same two parts of it, or
puts it behind the indentation. -/
theorem indentLine_between (h : Between d.page above before after below) (tabWidth : Int) :
    ∃ before' after', Between (indentLine tabWidth d above.length).page above before' after' below ∧
      Reindents before after before' after' := by
  unfold indentLine
  dsimp only
  rw [h.lineAt_cursor]
  split_ifs with hSame
  · exact ⟨before, after, h, rfl, Or.inl rfl⟩
  · generalize columnIn tabWidth d above.length = column
    rw [← units_leading]
    have hLine : d.page.lineAt above.length =
        leading (before ++ after) ++ body (before ++ after) := by
      rw [leading_append_body, h.lineAt_cursor]
    have hLines := lines_replace_front h.line_lt hLine (isRow_spaces column)
    rw [h.lines, List.set_append_right _ _ (Nat.le_refl _), Nat.sub_self,
      List.set_cons_zero] at hLines
    obtain ⟨hCursor, hAnchor⟩ :=
      h.places_replace_front (isRow_spaces column) (units (leading (before ++ after)))
    rcases body_append before after with ⟨hBlank, hBody, hLeading⟩ | ⟨hBody, hLeading⟩
    · refine ⟨spaces column, body after, ⟨?_, ?_, hAnchor⟩, ?_, Or.inr ⟨hBlank, rfl⟩⟩
      · rw [hLines, hBody]
      · rw [hCursor, hLeading, Text.units_append]
        simp
      · rw [hBlank, ← List.append_nil (spaces column), body_spaces_append]
        rfl
    · refine ⟨spaces column ++ body before, after, ⟨?_, ?_, hAnchor⟩, ?_, Or.inl rfl⟩
      · rw [hLines, hBody, List.append_assoc]
      · have hUnits := congrArg units (leading_append_body before)
        rw [Text.units_append] at hUnits
        rw [hCursor, hLeading, Text.units_append, Pos.mk.injEq]
        omega
      · rw [body_spaces_append, body_body]

/-! ### Breaking the line -/

section

variable {a b : Pos}

theorem flatten_lines_erase (ha : d.page.IsPlace a) (hb : d.page.IsPlace b) :
    (d.erase a b).page.lines.flatten = d.page.textBefore a ++ d.page.textBehind b := by
  unfold Draft.erase
  split_ifs with hSame
  · rw [hSame, Page.textBefore_append_textBehind]
  · exact Page.flatten_erase ha hb

theorem visible_insert (d : Draft) (a : Pos) {t : Text}
    (hBlank : visible (linesOf t).flatten = []) :
    visible (d.insert a t).page.lines.flatten = visible d.page.lines.flatten := by
  unfold Draft.insert
  dsimp only
  split_ifs
  · rfl
  · rw [Page.flatten_insert, visible_append, visible_append, hBlank, List.append_nil,
      ← visible_append, Page.textBefore_append_textBehind]

/-- A line break in place of a text leaves what is before the text and what is behind it. -/
theorem visible_replace_break (ha : d.page.IsPlace a) (hb : d.page.IsPlace b) (column : Int) :
    visible (d.replace a b ('\n' :: spaces column)).page.lines.flatten =
      visible (d.page.textBefore a ++ d.page.textBehind b) := by
  have hBlank : visible (linesOf ('\n' :: spaces column)).flatten = [] := by
    rw [spaces, linesOf_lineFeed_replicate, ← spaces, List.flatten_cons, List.nil_append,
      List.flatten_cons, List.flatten_nil, List.append_nil, visible_spaces]
  rw [Draft.replace, visible_insert _ _ hBlank, flatten_lines_erase ha hb]

end

/-- A line break adds nothing but blanks, wherever it looks for blanks. -/
theorem visible_breakAtCursor_sublist (tabWidth : Int) (hCursor : d.page.IsPlace d.page.cursor) :
    (visible (breakAtCursor tabWidth d).draft.page.lines.flatten).Sublist
      (visible d.page.lines.flatten) := by
  rcases breakAtCursor_cases tabWidth d with ⟨fault, hBroken⟩ | ⟨n, column, hDone⟩
  · simp [hBroken]
  -- In a line that runs from right to left the cursor goes back instead of forward.
  · obtain ⟨hOrder, hFirst, hLast⟩ := Page.earlier_later_of hCursor (hCursor.rightBy n)
    rw [hDone, visible_replace_break hFirst hLast]
    exact (Page.textBefore_textBehind_sublist hOrder).filter _

/-- Blanks that are found behind the cursor are passed to the right. -/
theorem rightBy_blanksFound (h : Between d.page above before after below)
    (hClean : BreaksCleanly before after) :
    ∃ blanks back, after = blanks ++ back ∧ (∀ c ∈ blanks, isIndent c = true) ∧
      d.page.rightBy (blanksFound before after) d.page.cursor =
        ⟨above.length, units (before ++ blanks)⟩ := by
  rcases hClean with hNone | ⟨hEnough, hRuns, hMark⟩
  · refine ⟨[], after, rfl, by simp, ?_⟩
    rw [hNone, List.append_nil, ← h.cursor]
    rfl
  · -- The blanks that are passed are the first ones of those behind the cursor.
    let blanks := (leading after).take (blanksFound before after)
    let back := (leading after).drop (blanksFound before after) ++ body after
    have hAfter : after = blanks ++ back := by
      rw [← List.append_assoc, List.take_append_drop, leading_append_body]
    have hBlanks : ∀ c ∈ blanks, isIndent c = true := fun c hc =>
      isIndent_of_mem_leading (List.mem_of_mem_take hc)
    have hBack : ∀ x ∈ back.head?, isExtending x = false := by
      intro x hx
      rw [List.head?_append] at hx
      cases hRest : ((leading after).drop (blanksFound before after)).head? with
      | none =>
          rw [hRest, Option.none_or] at hx
          rw [Option.mem_def.mp hx] at hMark
          exact hMark
      | some c =>
          obtain rfl : c = x := by simpa [hRest] using hx
          have hMem := List.mem_of_mem_drop (List.mem_of_mem_head? hRest)
          exact Page.isExtending_of_isIndent (isIndent_of_mem_leading hMem)
    have hLine : d.page.lineAt above.length = before ++ blanks ++ back := by
      rw [h.lineAt_cursor, List.append_assoc, ← hAfter]
    have hLength : blanks.length = blanksFound before after := List.length_take_of_le hEnough
    refine ⟨blanks, back, hAfter, hBlanks, ?_⟩
    rw [h.cursor, ← hLength]
    exact Page.rightBy_blanks hLine hBlanks (h.lineAt_cursor ▸ hRuns) hBack

/-- A line break takes out nothing but blanks if it breaks the line cleanly. -/
theorem visible_breakAtCursor (h : Between d.page above before after below)
    (hClean : BreaksCleanly before after) (tabWidth : Int) :
    visible (breakAtCursor tabWidth d).draft.page.lines.flatten = visible d.page.lines.flatten := by
  obtain ⟨blanks, back, rfl, hBlanks, hStop⟩ := rightBy_blanksFound h hClean
  have hLine : d.page.lineAt d.page.cursor.line = before ++ (blanks ++ back) := by
    rw [h.cursor, h.lineAt_cursor]
  have hColumn : d.page.cursor.column = units before := congrArg Pos.column h.cursor
  have hOrder : d.page.cursor.upTo ⟨above.length, units (before ++ blanks)⟩ = true := by
    rw [Pos.upTo_iff, h.cursor, Text.units_append]
    exact Or.inr ⟨rfl, Nat.le_add_right _ _⟩
  unfold breakAtCursor
  dsimp only
  split
  · rfl
  · dsimp only
    have hBack : d.page.IsPlace ⟨above.length, units (before ++ blanks)⟩ :=
      hStop ▸ h.isPlace_cursor.rightBy _
    rw [hLine, hColumn, leading_drop_units, hStop, Pos.earlier, Pos.later, if_pos hOrder,
      if_pos hOrder, visible_replace_break h.isPlace_cursor hBack, h.textBefore_textBehind, h.lines]
    simp [visible_of_isIndent hBlanks]

/-! ### The command -/

/-- Before the line is broken, the selection is taken out and the line may have got another
indentation. -/
theorem indentLines_between (h : Between d.page above before after below) (tabWidth : Int)
    {closers : List Nat} (hClosers : closers = [] ∨ closers = [d.page.cursor.line]) :
    ∃ before' after', Between (indentLines tabWidth d closers).draft.page above before' after'
      below ∧ Reindents before after before' after' := by
  rcases hClosers with rfl | rfl
  · exact ⟨before, after, h, rfl, Or.inl rfl⟩
  · have hCursor : d.page.cursor.line = above.length := congrArg Pos.line h.cursor
    rw [hCursor, indentLines]
    split
    · exact ⟨before, after, h, rfl, Or.inl rfl⟩
    · exact indentLine_between h tabWidth

/-- Breaking a line adds nothing but blanks to what is on the page besides the selected
text. It takes out nothing but blanks if the blanks it looks for are behind the cursor and
are passed one by one. This holds also if the command is broken off. -/
theorem visible_breakLine (hCursor : e.page.IsPlace e.page.cursor)
    (hAnchor : e.page.IsPlace e.page.anchor) :
    (visible (e.run .breakLine).1.page.lines.flatten).Sublist
        (visible (e.page.textBefore e.page.start ++ e.page.textBehind e.page.stop)) ∧
      (BreaksCleanly (e.page.lineBefore e.page.start) (e.page.lineBehind e.page.stop) →
        visible (e.run .breakLine).1.page.lines.flatten =
          visible (e.page.textBefore e.page.start ++ e.page.textBehind e.page.stop)) := by
  have hErased := @Page.between_eraseSelection e.draft hCursor hAnchor
  obtain ⟨closers, hClosers, hBreak⟩ := breakLine_eq e
  obtain ⟨before', after', hIndented, hSame⟩ := indentLines_between hErased e.tabWidth hClosers
  have hKept : visible
      (indentLines e.tabWidth e.draft.eraseSelection closers).draft.page.lines.flatten =
        visible (e.page.textBefore e.page.start ++ e.page.textBehind e.page.stop) := by
    rw [hIndented.lines, List.flatten_append, List.flatten_cons, visible_append, visible_append,
      hSame.visible_eq, Page.textBefore, Page.textBehind]
    simp only [visible_append, List.append_assoc]
    rfl
  have hPage : (e.run .breakLine).1.page = (breakLine e).draft.page := by
    rw [run, page_finishAttempt]
  rw [hPage, hBreak, Attempt.andThen]
  split_ifs
  · rw [hKept]
    exact ⟨.refl _, fun _ => rfl⟩
  · rw [← hKept]
    refine ⟨visible_breakAtCursor_sublist _ hIndented.isPlace_cursor, fun hClean => ?_⟩
    exact visible_breakAtCursor hIndented (hSame.breaksCleanly hClean) _

theorem visible_breakLine_after_closer :
    ∃ e : Editor, e.page.IsPlace e.page.cursor ∧ e.page.IsPlace e.page.anchor ∧
      e.page.lines = ["loop".toList, "   end loop\tno  # 😀".toList] ∧
      (e.run .breakLine).1.page.lines = ["loop".toList, "end loop".toList, "# 😀".toList] ∧
      BreaksCleanly (e.page.lineBefore e.page.start) (e.page.lineBehind e.page.stop) ∧
      visible (e.run .breakLine).1.page.lines.flatten =
        visible (e.page.textBefore e.page.start ++ e.page.textBehind e.page.stop) := by
  let e := (((new .dark 4).run (.load "loop\n   end loop\tno  # 😀".toList)).1.run
    (.move (1, 14) (some (1, 11)))).1
  have hCursor : e.page.IsPlace e.page.cursor := by decide +kernel
  have hAnchor : e.page.IsPlace e.page.anchor := by decide +kernel
  have hClean : BreaksCleanly (e.page.lineBefore e.page.start) (e.page.lineBehind e.page.stop) :=
    breaksCleanly_of_not_hasWide (by decide +kernel) (by decide +kernel) (by decide +kernel)
  exact ⟨e, hCursor, hAnchor, by decide +kernel, by decide +kernel, hClean,
    (visible_breakLine hCursor hAnchor).2 hClean⟩

/-- One wide character before the cursor makes the command look for blanks behind the
character to the right of the cursor. It then takes out that character and one blank. -/
theorem breakLine_takes_out_text :
    ∃ e : Editor, 1 ≤ e.tabWidth ∧ e.page.IsPlace e.page.cursor ∧ e.page.IsPlace e.page.anchor ∧
      e.page.lines = ["😀x  y".toList] ∧
      (e.run .breakLine).1.page.lines = ["😀".toList, " y".toList] ∧
      visible (e.run .breakLine).1.page.lines.flatten ≠
        visible (e.page.textBefore e.page.start ++ e.page.textBehind e.page.stop) := by
  refine ⟨(((new .dark 4).run (.load "😀x  y".toList)).1.run (.move (0, 2) none)).1, ?_⟩
  decide +kernel

end ScriptEditor.Editor
