import ScriptEditor.Proofs.Editor.BreakText
import ScriptEditor.Proofs.Editor.OneStep

/-! Where commands that lay out text leave the cursor. It stays between characters, since
each command but one moves it along with them. Only indenting all lines keeps its column,
and that may be inside of a wide character of the new line. -/
namespace ScriptEditor.Document

open ScriptEditor.Text (units unitWidth takeUnits isLineEnd)

/-- A column between the two units of a wide character. -/
def InsideChar (line : Text) (n : Nat) : Prop :=
  ∃ front c back, line = front ++ c :: back ∧ unitWidth c = 2 ∧ n = units front + 1

theorem takeUnits_or_insideChar {n : Nat} {line : Text} (h : n ≤ units line) :
    n = units (takeUnits n line) ∨ InsideChar line n := by
  fun_induction takeUnits n line with
  | case1 n => exact Or.inl (Nat.le_zero.mp h)
  | case2 n c line hFits ih =>
      rw [units] at h ⊢
      rcases ih (by omega) with hUnits | ⟨front, x, back, rfl, hWide, hColumn⟩
      · exact Or.inl (by omega)
      · refine Or.inr ⟨c :: front, x, back, rfl, hWide, ?_⟩
        rw [units]
        omega
  | case3 n c line hFits =>
      have hWidth := Utf16.unitWidth_le c
      rcases Nat.eq_zero_or_pos n with rfl | hPos
      · exact Or.inl rfl
      · exact Or.inr ⟨[], c, line, rfl, by omega, by rw [units]; omega⟩

/-- Inside of a character the part of the line before the column ends at the character. -/
theorem takeUnits_of_insideChar {front back : Text} {c : Char} (hWide : unitWidth c = 2) :
    takeUnits (units front + 1) (front ++ c :: back) = front := by
  induction front with
  | nil => simp [takeUnits, units, hWide]
  | cons x front ih =>
      have hFits : unitWidth x ≤ units (x :: front) + 1 := by
        rw [units]
        omega
      have hRest : units (x :: front) + 1 - unitWidth x = units front + 1 := by
        rw [units]
        omega
      rw [List.cons_append, takeUnits, if_pos hFits, hRest, ih]

namespace Page

variable {page : Page} {p : Pos}

/-- A place of a page is between characters unless it is inside of one. -/
theorem Holds.isPlace_iff (h : page.Holds p) :
    page.IsPlace p ↔ ¬ InsideChar (page.lineAt p.line) p.column := by
  have hBefore : page.lineBefore p = takeUnits p.column (page.lineAt p.line) := by
    rw [lineBefore, index, Text.take_charsWithin]
  rw [IsPlace, hBefore]
  constructor
  · rintro ⟨-, hUnits⟩ ⟨front, c, back, hLine, hWide, hColumn⟩
    rw [hLine, hColumn, takeUnits_of_insideChar hWide] at hUnits
    omega
  · intro hOutside
    exact ⟨h.1, (takeUnits_or_insideChar h.2).resolve_right hOutside⟩

/-- Cursor and anchor are between characters. -/
def Placed (page : Page) : Prop :=
  page.IsPlace page.cursor ∧ page.IsPlace page.anchor

end Page

namespace Pos

variable {p : Pos} {n : Nat}

/-- Edits within a line leave places on other lines alone. -/
theorem afterErase_of_line_ne (hLine : p.line ≠ n) (i j : Nat) :
    p.afterErase ⟨n, i⟩ ⟨n, j⟩ = p := by
  unfold afterErase
  split_ifs with hBefore hWithin hSame
  · rfl
  · rw [upTo_iff] at hBefore hWithin
    dsimp only at hBefore hWithin
    omega
  · exact absurd (by simpa using hSame) hLine
  · rw [Nat.sub_self, Nat.sub_zero]

theorem afterInsert_of_line_ne (hLine : p.line ≠ n) (i : Nat) (row : Text) :
    p.afterInsert ⟨n, i⟩ [row] = p := by
  simp [afterInsert, hLine]

end Pos

namespace Draft

variable {d : Draft} {n : Nat} {front back row : Text}

/-- A place between characters stays between characters when another text takes the place
of what a line begins with. -/
theorem isPlace_replace_front {p : Pos} (hp : d.page.IsPlace p)
    (hLines : (d.replace ⟨n, 0⟩ ⟨n, units front⟩ row).page.lines = d.page.lines.set n (row ++ back))
    (hLine : d.page.lineAt n = front ++ back) :
    (d.replace ⟨n, 0⟩ ⟨n, units front⟩ row).page.IsPlace
      ((p.afterErase ⟨n, 0⟩ ⟨n, units front⟩).afterInsert ⟨n, 0⟩ [row]) := by
  obtain ⟨line, column⟩ := p
  by_cases hSame : line = n
  · subst hSame
    rw [Pos.afterErase_lineStart, Pos.afterInsert_lineStart]
    exact hp.shift hLines hLine
  · have hOther : (⟨line, column⟩ : Pos).line ≠ n := hSame
    rw [Pos.afterErase_of_line_ne hOther, Pos.afterInsert_of_line_ne hOther]
    exact hp.of_set hLines hOther

/-- A line break at the cursor leaves it behind the indentation of the new line. -/
theorem placed_insert_break {a : Pos} (ha : d.page.Holds a) (hCursor : d.page.cursor = a)
    (hAnchor : d.page.anchor = a) (count : Nat) :
    (d.insert a ('\n' :: List.replicate count ' ')).page.Placed := by
  let row : Text := List.replicate count ' '
  have hPage : (d.insert a ('\n' :: row)).page = d.page.insert a [[], row] d.written := by
    simp only [Draft.insert, row, linesOf_lineFeed_replicate, List.isEmpty_cons, Bool.false_eq_true,
      if_false]
  have hEnd : a.afterInsert a [[], row] = ⟨a.line + 1, units row⟩ := by
    simp [Pos.afterInsert, Pos.before]
  have hPlace : (d.page.insert a [[], row] d.written).IsPlace ⟨a.line + 1, units row⟩ := by
    refine Page.isPlace_of_begins ?_ ?_
    · rw [Page.length_insert ha.1 (List.cons_ne_nil _ _)]
      exact Nat.succ_lt_succ ha.1
    · have hLast := Page.lineAt_insert_last ha.1 [] [] row d.written
      exact hLast.symm ▸ List.prefix_append _ _
  change (d.insert a ('\n' :: row)).page.Placed
  rw [hPage, Page.Placed]
  refine ⟨?_, ?_⟩
  · change Page.IsPlace _ (d.page.cursor.afterInsert a [[], row])
    rw [hCursor, hEnd]
    exact hPlace
  · change Page.IsPlace _ (d.page.anchor.afterInsert a [[], row])
    rw [hAnchor, hEnd]
    exact hPlace

/-- The same in place of the text between the cursor and another place. -/
theorem placed_replace_break {q : Pos} (hCursor : d.page.IsPlace d.page.cursor)
    (hAnchor : d.page.anchor = d.page.cursor) (hq : d.page.IsPlace q) (count : Nat) :
    (d.replace (d.page.cursor.earlier q) (d.page.cursor.later q)
      ('\n' :: List.replicate count ' ')).page.Placed := by
  obtain ⟨hOrder, hFirst, hLast⟩ := Page.earlier_later_of hCursor.holds hq.holds
  have hGone : d.page.cursor.afterErase (d.page.cursor.earlier q) (d.page.cursor.later q) =
      d.page.cursor.earlier q := by
    obtain ⟨hEarlier, hLater⟩ := Pos.afterErase_ends hOrder
    rcases Pos.earlier_later d.page.cursor q with ⟨-, hFirst, -⟩ | ⟨-, -, hLast⟩
    · rwa [hFirst] at hEarlier ⊢
    · rwa [hLast] at hLater ⊢
  obtain ⟨hCursor', hAnchor'⟩ :=
    d.places_erase (d.page.cursor.earlier q) (d.page.cursor.later q)
  rw [hAnchor, hGone] at hAnchor'
  rw [hGone] at hCursor'
  exact placed_insert_break (holds_erase hFirst hLast hOrder) hCursor' hAnchor' count

end Draft

end ScriptEditor.Document

namespace ScriptEditor.Editor

open ScriptEditor.Document
open ScriptEditor.Indent
open ScriptEditor.Text (units isLineEnd)

variable {e : Editor} {d : Draft} {n : Nat} {tabWidth : Int}

/-! ### Edits of lines -/

theorem placed_replace_front {front back row : Text} (h : d.page.Placed)
    (hn : n < d.page.lines.length) (hLine : d.page.lineAt n = front ++ back) (hRow : IsRow row) :
    (d.replace ⟨n, 0⟩ ⟨n, units front⟩ row).page.Placed := by
  have hLines := lines_replace_front hn hLine hRow
  obtain ⟨hCursor, hAnchor⟩ := d.places_replace ⟨n, 0⟩ ⟨n, units front⟩ hRow
  refine ⟨?_, ?_⟩
  · exact hCursor.symm ▸ Draft.isPlace_replace_front h.1 hLines hLine
  · exact hAnchor.symm ▸ Draft.isPlace_replace_front h.2 hLines hLine

theorem placed_indentLine (h : d.page.Placed) (hn : n < d.page.lines.length) :
    (indentLine tabWidth d n).page.Placed := by
  unfold indentLine
  dsimp only
  split_ifs
  · exact h
  · rw [← units_leading]
    exact placed_replace_front h hn (leading_append_body _).symm (isRow_spaces _)

theorem placed_indentLines (h : d.page.Placed) {ns : List Nat}
    (hns : ∀ n ∈ ns, n < d.page.lines.length) :
    (indentLines tabWidth d ns).draft.page.Placed := by
  induction ns generalizing d with
  | nil => exact h
  | cons n rest ih =>
      have hn : n < d.page.lines.length := hns n (List.mem_cons_self ..)
      rw [indentLines]
      split
      · exact h
      · exact ih (placed_indentLine h hn) ((editsLine_indentLine tabWidth hn).bound_rest hns)

theorem placed_outdentLine (hWidth : 1 ≤ tabWidth) (h : d.page.Placed)
    (hn : n < d.page.lines.length) : (outdentLine tabWidth d n).page.Placed := by
  obtain ⟨front, hLine, hErase⟩ := outdentLine_eq_erase hWidth d n
  rw [hErase]
  -- No space at all takes the place of what is taken out.
  exact placed_replace_front h hn hLine (isRow_spaces 0)

theorem placed_outdentLines (hWidth : 1 ≤ tabWidth) (h : d.page.Placed) {ns : List Nat}
    (hns : ∀ n ∈ ns, n < d.page.lines.length) :
    (ns.foldl (outdentLine tabWidth) d).page.Placed := by
  induction ns generalizing d with
  | nil => exact h
  | cons n rest ih =>
      have hn : n < d.page.lines.length := hns n (List.mem_cons_self ..)
      exact ih (placed_outdentLine hWidth h hn) ((editsLine_outdentLine hWidth hn).bound_rest hns)

/-! ### Commands -/

theorem placed_indentCurrent (h : e.page.Placed) : (indentCurrent e).draft.page.Placed := by
  rcases indentCurrent_cases e with ⟨fault, -, hBroken⟩ | ⟨-, hDone⟩
  · rw [hBroken]
    exact h
  · have hCursor : e.page.cursor.line < e.draft.page.lines.length := h.1.1
    have hPlace := h.1.shift (lines_indentLine e.tabWidth hCursor) (leading_append_body _).symm
    rw [hDone]
    exact ⟨hPlace, hPlace⟩

theorem placed_breakLine (h : e.page.Placed) : (breakLine e).draft.page.Placed := by
  obtain ⟨closers, hClosers, hBreak⟩ := breakLine_eq e
  obtain ⟨before, after, hIndented, -⟩ :=
    indentLines_between (@Page.between_eraseSelection e.draft h.1 h.2) e.tabWidth hClosers
  have hCursor := hIndented.isPlace_cursor
  have hPlaced : (indentLines e.tabWidth e.draft.eraseSelection closers).draft.page.Placed :=
    ⟨hCursor, hIndented.anchor.symm ▸ hCursor⟩
  rw [hBreak, Attempt.andThen]
  split_ifs
  · exact hPlaced
  · rcases breakAtCursor_cases e.tabWidth
      (indentLines e.tabWidth e.draft.eraseSelection closers).draft with
        ⟨fault, hBroken⟩ | ⟨count, column, hDone⟩
    · rw [hBroken]
      exact hPlaced
    · rw [hDone]
      exact Draft.placed_replace_break hCursor hIndented.anchor (hCursor.rightBy count) _

/-- The column that the cursor keeps when all lines are indented: it counts as far as the
new line has characters, a wide one for one column. -/
def keptColumn (e : Editor) : Nat :=
  min e.page.cursor.column ((indentAll e).page.lineAt e.page.cursor.line).length

/-- Indenting all lines puts the cursor inside of a wide character. -/
def IndentAllSplits (e : Editor) : Prop :=
  e.indentAllFault? = none ∧ misplacedCount e ≠ 0 ∧
    InsideChar ((indentAll e).page.lineAt e.page.cursor.line) e.keptColumn

theorem placed_indentAll (hRows : ∀ c ∈ e.page.lines.flatten, isLineEnd c = false)
    (h : e.page.Placed) :
    (e.layOutBy .indentAll).page.Placed ↔ ¬ e.IndentAllSplits := by
  have hSound : e.page.Sound := ⟨hRows, h.1.holds, h.2.holds⟩
  change e.indentAllLines.1.page.Placed ↔ _
  unfold IndentAllSplits indentAllLines
  cases hFault : e.indentAllFault? with
  | some fault => exact iff_of_true h fun hSplits => nomatch hSplits.1
  | none =>
      change (indentAll e).page.Placed ↔ _
      by_cases hMisplaced : misplacedCount e = 0
      · have hSame : (indentAll e).page = e.page := by
          rw [indentAll, if_pos hMisplaced]
          rfl
        rw [hSame]
        exact iff_of_true h fun hSplits => hSplits.2.1 hMisplaced
      · have hHeld := ((leads_indentAll hSound).sound hSound).cursor
        have hCursor : (indentAll e).page.cursor = ⟨e.page.cursor.line, e.keptColumn⟩ := by
          unfold keptColumn
          rw [indentAll, if_neg hMisplaced]
          rfl
        have hAnchor : (indentAll e).page.anchor = (indentAll e).page.cursor := by
          rw [indentAll, if_neg hMisplaced]
          rfl
        rw [Page.Placed, hAnchor, and_self, hHeld.isPlace_iff, hCursor]
        simp [hMisplaced]

/-- Commands that lay out text leave cursor and anchor between characters if they were
there, also when they are broken off. The one exception is indenting all lines, which keeps
the number of the column and may put the cursor inside of a wide character. -/
theorem placed_layOutBy_iff (hWidth : 1 ≤ e.tabWidth)
    (hRows : ∀ c ∈ e.page.lines.flatten, isLineEnd c = false)
    (hCursor : e.page.IsPlace e.page.cursor) (hAnchor : e.page.IsPlace e.page.anchor)
    (layout : Layout) :
    (e.layOutBy layout).page.IsPlace (e.layOutBy layout).page.cursor ∧
        (e.layOutBy layout).page.IsPlace (e.layOutBy layout).page.anchor ↔
      ¬ (layout = .indentAll ∧ e.IndentAllSplits) := by
  have hPlaced : e.page.Placed := ⟨hCursor, hAnchor⟩
  have hSound : e.page.Sound := ⟨hRows, hCursor.holds, hAnchor.holds⟩
  change (e.layOutBy layout).page.Placed ↔ _
  cases layout with
  | breakLine =>
      have hPage : (e.layOutBy .breakLine).page = (breakLine e).draft.page := by
        rw [layOutBy, Layout.command, run, page_finishAttempt]
      rw [hPage]
      exact iff_of_true (placed_breakLine hPlaced) (by simp)
  | indentCurrent =>
      have hPage : (e.layOutBy .indentCurrent).page = (indentCurrent e).draft.page :=
        page_finishAttempt e _
      rw [hPage]
      exact iff_of_true (placed_indentCurrent hPlaced) (by simp)
  | indentSelection =>
      have hPage : (e.layOutBy .indentSelection).page = (indentSelection e).draft.page :=
        page_finishAttempt e _
      rw [hPage]
      refine iff_of_true ?_ (by simp)
      unfold indentSelection
      split_ifs
      · exact placed_indentLines hPlaced (selectedLines_lt hSound)
      · exact placed_indentCurrent hPlaced
  | outdentSelection =>
      refine iff_of_true ?_ (by simp)
      exact placed_outdentLines hWidth hPlaced (selectedLines_lt hSound)
  | indentAll =>
      rw [placed_indentAll hRows hPlaced]
      simp

theorem placed_layOutBy_selection :
    ∃ e : Editor, 1 ≤ e.tabWidth ∧ (∀ c ∈ e.page.lines.flatten, isLineEnd c = false) ∧
      e.page.lines = ["loop".toList, "   x😀".toList, "end".toList] ∧
      e.page.IsPlace e.page.cursor ∧ e.page.IsPlace e.page.anchor ∧ e.page.anchor = ⟨1, 6⟩ ∧
      (e.layOutBy .indentSelection).page.anchor = ⟨1, 7⟩ ∧
      (e.layOutBy .indentSelection).page.IsPlace (e.layOutBy .indentSelection).page.anchor := by
  let e := (((new .dark 4).run (.load "loop\n   x😀\nend".toList)).1.run
    (.move (2, 3) (some (1, 6)))).1
  have hWidth : 1 ≤ e.tabWidth := by decide +kernel
  have hReached : Reachable e := (reachable_new.run _).run _
  have hRows := hReached.sound.page.rows
  have hCursor : e.page.IsPlace e.page.cursor := by decide +kernel
  have hAnchor : e.page.IsPlace e.page.anchor := by decide +kernel
  have hPlaced := (placed_layOutBy_iff hWidth hRows hCursor hAnchor .indentSelection).mpr nofun
  exact ⟨e, hWidth, hRows, by decide +kernel, hCursor, hAnchor, by decide +kernel,
    by decide +kernel, hPlaced.2⟩

/-- The cursor is behind a wide character that goes one column to the right when all lines
are indented. The cursor stays in its column and is inside of the character then. Indenting
its line alone takes the cursor along. -/
theorem indentAll_splits_character :
    ∃ e : Editor, 1 ≤ e.tabWidth ∧ (∀ c ∈ e.page.lines.flatten, isLineEnd c = false) ∧
      e.page.lines = ["loop".toList, "   x😀".toList, "end".toList] ∧
      e.page.IsPlace e.page.cursor ∧ e.page.IsPlace e.page.anchor ∧
      (e.layOutBy .indentAll).page.lines = ["loop".toList, "    x😀".toList, "end".toList] ∧
      (e.layOutBy .indentAll).page.cursor = ⟨1, 6⟩ ∧
      ¬ (e.layOutBy .indentAll).page.IsPlace (e.layOutBy .indentAll).page.cursor ∧
      (e.layOutBy .indentCurrent).page.cursor = ⟨1, 7⟩ := by
  let e := (((new .dark 4).run (.load "loop\n   x😀\nend".toList)).1.run (.move (1, 6) none)).1
  have hReached : Reachable e := (reachable_new.run _).run _
  exact ⟨e, by decide +kernel, hReached.sound.page.rows, by decide +kernel⟩

end ScriptEditor.Editor
