import ScriptEditor.Proofs.Document.Sound
import ScriptEditor.Proofs.Indent.Body

/-! A cursor between two parts of a line. Here are the places of a page that are between
two characters, what the selection leaves when it is taken out, and how the cursor passes
blanks to its right. -/
namespace ScriptEditor.Document

open ScriptEditor.Text (units isIndent isExtending isClusterEnd clusterAhead runsLeft)
open ScriptEditor.Indent (isIndent_iff)

namespace Pos

variable {p q a b : Pos}

theorem afterErase_self (p a : Pos) : p.afterErase a a = p := by
  unfold afterErase
  split_ifs with hBefore hLine
  · rfl
  · rw [upTo_iff] at hBefore
    have hSame : p.line = a.line := by simpa using hLine
    rcases p with ⟨line, column⟩
    simp only [mk.injEq] at hBefore hSame ⊢
    omega
  · rw [Nat.sub_self, Nat.sub_zero]

theorem afterInsert_nil (p a : Pos) : p.afterInsert a [[]] = p := by
  simp [afterInsert, units]

/-- A place goes to the left by what is taken out at the beginning of its line, but not
beyond it. -/
theorem afterErase_lineStart (line column front : Nat) :
    (⟨line, column⟩ : Pos).afterErase ⟨line, 0⟩ ⟨line, front⟩ = ⟨line, column - front⟩ := by
  rcases Nat.le_total column front with hWithin | hBehind
  · unfold afterErase
    simp only [upTo_iff, Nat.lt_irrefl, false_or, true_and]
    split_ifs <;> simp only [mk.injEq, true_and] <;> omega
  · obtain ⟨rest, rfl⟩ := Nat.exists_eq_add_of_le hBehind
    rw [afterErase_front, Nat.add_sub_cancel_left]

theorem afterInsert_lineStart (line column : Nat) (row : Text) :
    (⟨line, column⟩ : Pos).afterInsert ⟨line, 0⟩ [row] = ⟨line, column + units row⟩ := by
  simp [afterInsert, before]

/-- Edits within a line leave every place on its line. -/
theorem line_afterErase (p : Pos) (n i j : Nat) : (p.afterErase ⟨n, i⟩ ⟨n, j⟩).line = p.line := by
  unfold afterErase
  split_ifs with hBefore hWithin hSame
  · rfl
  · rw [upTo_iff] at hBefore hWithin
    dsimp only at hBefore hWithin ⊢
    omega
  · exact (beq_iff_eq.mp hSame).symm
  · exact (Nat.sub_self n).symm ▸ Nat.sub_zero p.line

theorem line_afterInsert (p a : Pos) (row : Text) : (p.afterInsert a [row]).line = p.line := by
  unfold afterInsert
  dsimp only
  split_ifs <;> rfl

end Pos

namespace Draft

/-- Where cursor and anchor go when text is taken out. -/
theorem places_erase (d : Draft) (a b : Pos) :
    (d.erase a b).page.cursor = d.page.cursor.afterErase a b ∧
      (d.erase a b).page.anchor = d.page.anchor.afterErase a b := by
  unfold Draft.erase
  split_ifs with hSame
  · subst hSame
    rw [Pos.afterErase_self, Pos.afterErase_self]
    exact ⟨rfl, rfl⟩
  · exact ⟨rfl, rfl⟩

/-- Where cursor and anchor go when text within a line is put in. -/
theorem places_insert (d : Draft) (a : Pos) {row : Text} (hRow : IsRow row) :
    (d.insert a row).page.cursor = d.page.cursor.afterInsert a [row] ∧
      (d.insert a row).page.anchor = d.page.anchor.afterInsert a [row] := by
  unfold Draft.insert
  dsimp only
  split_ifs with hEmpty
  · rw [List.isEmpty_iff.mp hEmpty, Pos.afterInsert_nil, Pos.afterInsert_nil]
    exact ⟨rfl, rfl⟩
  · rw [hRow.linesOf_eq]
    exact ⟨rfl, rfl⟩

/-- Where cursor and anchor go when text within a line takes the place of other text. -/
theorem places_replace (d : Draft) (a b : Pos) {row : Text} (hRow : IsRow row) :
    (d.replace a b row).page.cursor = (d.page.cursor.afterErase a b).afterInsert a [row] ∧
      (d.replace a b row).page.anchor = (d.page.anchor.afterErase a b).afterInsert a [row] := by
  obtain ⟨hCursor, hAnchor⟩ := (d.erase a b).places_insert a hRow
  rw [(d.places_erase a b).1] at hCursor
  rw [(d.places_erase a b).2] at hAnchor
  exact ⟨hCursor, hAnchor⟩

end Draft

theorem charsWithin_mono {m n : Nat} (h : m ≤ n) (t : Text) :
    Text.charsWithin m t ≤ Text.charsWithin n t := by
  unfold Text.charsWithin
  induction t generalizing m n with
  | nil => exact Nat.le_refl _
  | cons c t ih =>
      unfold Text.takeUnits
      split_ifs with hSmall hLarge
      · exact Nat.succ_le_succ (ih (Nat.sub_le_sub_right h _))
      · omega
      · exact Nat.zero_le _
      · exact Nat.le_refl _

namespace Page

variable {page : Page} {p q : Pos} {n : Nat} {front back : Text}

/-- Taking out a text leaves the characters of the page in their order. -/
theorem textBefore_textBehind_sublist (h : p.upTo q = true) :
    (page.textBefore p ++ page.textBehind q).Sublist page.lines.flatten := by
  have hFront : (page.lineBefore p).Sublist (page.lineAt p.line) := List.take_sublist _ _
  have hBack : (page.textBehind q).Sublist (page.lines.drop q.line).flatten := by
    rw [flatten_drop]
    exact (List.drop_sublist _ _).append_right _
  rcases Pos.upTo_iff.mp h with hLine | ⟨hLine, hColumn⟩
  · have hAbove : (page.textBefore p).Sublist (page.lines.take q.line).flatten := by
      have hTake : (page.lines.take (p.line + 1)).Sublist (page.lines.take q.line) :=
        (List.take_prefix_take_left hLine).sublist
      refine List.Sublist.trans ?_ hTake.flatten
      rw [flatten_take]
      exact hFront.append_left _
    have hAll := hAbove.append hBack
    rwa [← List.flatten_append, List.take_append_drop] at hAll
  · have hIndex : page.index p ≤ page.index q := by
      unfold index
      rw [hLine]
      exact charsWithin_mono hColumn _
    have hRest : (page.lineBehind q).Sublist (page.lineBehind p) := by
      unfold lineBehind
      rw [hLine]
      exact List.drop_sublist_drop_left _ hIndex
    have hBehind : (page.textBehind q).Sublist (page.textBehind p) := by
      unfold textBehind
      rw [hLine]
      exact hRest.append_right _
    rw [← page.textBefore_append_textBehind p]
    exact hBehind.append_left _

/-! ### Blanks to the right -/

theorem isExtending_of_isIndent {c : Char} (hc : isIndent c = true) : isExtending c = false := by
  rcases isIndent_iff.mp hc with rfl | rfl <;> decide +kernel

/-- A blank is a cluster of its own unless a mark comes behind it. -/
theorem isClusterEnd_blank {c : Char} (hc : isIndent c = true)
    (hBack : ∀ x ∈ back.head?, isExtending x = false) :
    isClusterEnd (front ++ [c]) back = true := by
  cases back with
  | nil => simp [isClusterEnd]
  | cons x back =>
      have hMark : isExtending x = false := hBack x rfl
      have hBelongs : Text.belongsTo c x = false := by
        rcases isIndent_iff.mp hc with rfl | rfl
        · have hLeading : Text.isLeading ' ' = false := by decide
          have hJamo : Text.jamo? ' ' = none := by decide
          simp [Text.belongsTo, hMark, hLeading, hJamo]
        · have hSolitary : Text.isSolitary '\t' = true := by decide
          simp [Text.belongsTo, hSolitary]
      simp [isClusterEnd, hBelongs]

theorem forward_blank {c : Char} (hLine : page.lineAt n = front ++ c :: back)
    (hc : isIndent c = true) (hBack : ∀ x ∈ back.head?, isExtending x = false) :
    page.forward ⟨n, units front⟩ = ⟨n, units (front ++ [c])⟩ := by
  have hIndex := index_units hLine
  have hWithin : front.length < (page.lineAt n).length := by simp [hLine]
  have hAhead : clusterAhead ((page.lineAt n).take front.length)
      ((page.lineAt n).drop front.length) 0 = 1 := by
    rw [hLine, List.take_left, List.drop_left, clusterAhead, if_pos (isClusterEnd_blank hc hBack)]
  have hPassed : (page.lineAt n).take (front.length + 1) = front ++ [c] := by
    rw [hLine, List.append_cons]
    exact List.take_left' (by simp)
  simp only [forward, hIndex, if_pos hWithin, hAhead, placeAt, hPassed]

/-- The cursor passes blanks one by one in a line that runs from left to right. -/
theorem rightBy_blanks {blanks : Text} (hLine : page.lineAt n = front ++ blanks ++ back)
    (hBlanks : ∀ c ∈ blanks, isIndent c = true) (hRuns : runsLeft (page.lineAt n) = false)
    (hBack : ∀ x ∈ back.head?, isExtending x = false) :
    page.rightBy blanks.length ⟨n, units front⟩ = ⟨n, units (front ++ blanks)⟩ := by
  induction blanks generalizing front with
  | nil => simp [rightBy]
  | cons c blanks ih =>
      have hFirst : page.lineAt n = front ++ c :: (blanks ++ back) := by simp [hLine]
      have hNext : page.lineAt n = front ++ [c] ++ blanks ++ back := by simp [hLine]
      have hRest : ∀ x ∈ blanks, isIndent x = true := fun x hx =>
        hBlanks x (List.mem_cons_of_mem _ hx)
      have hMark : ∀ x ∈ (blanks ++ back).head?, isExtending x = false := by
        cases blanks with
        | nil => exact hBack
        | cons x blanks =>
            intro y hy
            obtain rfl : x = y := by simpa using hy
            exact isExtending_of_isIndent (hRest x (List.mem_cons_self ..))
      rw [List.length_cons, rightBy, right]
      simp only [hRuns]
      rw [if_neg Bool.false_ne_true,
        forward_blank hFirst (hBlanks c (List.mem_cons_self ..)) hMark, ih hNext hRest,
        List.append_assoc, List.singleton_append]

/-- The cursor is between two parts of a line, and nothing is selected. -/
structure Between (page : Page) (above : List Text) (before after : Text) (below : List Text) :
    Prop where
  lines : page.lines = above ++ (before ++ after) :: below
  cursor : page.cursor = ⟨above.length, units before⟩
  anchor : page.anchor = page.cursor

namespace Between

variable {above below : List Text} {before after : Text}

theorem lineAt_cursor (h : Between page above before after below) :
    page.lineAt above.length = before ++ after := by
  simp [lineAt, h.lines]

theorem line_lt (h : Between page above before after below) : above.length < page.lines.length := by
  simp [h.lines]

theorem isPlace_cursor (h : Between page above before after below) :
    page.IsPlace page.cursor := by
  rw [h.cursor]
  exact isPlace_of_begins h.line_lt (h.lineAt_cursor ▸ List.prefix_append _ _)

/-- Where the cursor goes when another text takes the place of what its line begins with. -/
theorem places_replace_front {d : Draft} (h : Between d.page above before after below) {row : Text}
    (hRow : IsRow row) (front : Nat) :
    (d.replace ⟨above.length, 0⟩ ⟨above.length, front⟩ row).page.cursor =
        ⟨above.length, units before - front + units row⟩ ∧
      (d.replace ⟨above.length, 0⟩ ⟨above.length, front⟩ row).page.anchor =
        (d.replace ⟨above.length, 0⟩ ⟨above.length, front⟩ row).page.cursor := by
  obtain ⟨hCursor, hAnchor⟩ :=
    d.places_replace ⟨above.length, 0⟩ ⟨above.length, front⟩ hRow
  rw [h.anchor] at hAnchor
  refine ⟨?_, hAnchor.trans hCursor.symm⟩
  rw [hCursor, h.cursor, Pos.afterErase_lineStart, Pos.afterInsert_lineStart]

/-- Text of the line from the cursor on that is taken out. -/
theorem textBefore_textBehind {mid : Text} (h : Between page above before (mid ++ after) below) :
    page.textBefore page.cursor ++ page.textBehind ⟨above.length, units (before ++ mid)⟩ =
      above.flatten ++ before ++ (after ++ below.flatten) := by
  have hFront : page.lineAt above.length = before ++ (mid ++ after) := h.lineAt_cursor
  have hBack : page.lineAt above.length = before ++ mid ++ after := by simp [hFront]
  rw [textBefore, textBehind, h.cursor, lineBefore_units hFront, lineBehind_units hBack]
  simp [h.lines]

end Between

/-- The cursor is where the selected text was after that is taken out. -/
theorem between_eraseSelection {d : Draft} (hCursor : d.page.IsPlace d.page.cursor)
    (hAnchor : d.page.IsPlace d.page.anchor) :
    Between d.eraseSelection.page (d.page.lines.take d.page.start.line)
      (d.page.lineBefore d.page.start) (d.page.lineBehind d.page.stop)
      (d.page.lines.drop (d.page.stop.line + 1)) := by
  obtain ⟨-, hStart, hStop⟩ := earlier_later_of hCursor hAnchor
  change d.page.IsPlace d.page.start at hStart
  change d.page.IsPlace d.page.stop at hStop
  have hAbove : (d.page.lines.take d.page.start.line).length = d.page.start.line := by
    rw [List.length_take]
    exact Nat.min_eq_left (Nat.le_of_lt hStart.1)
  have hPlace : d.page.start =
      ⟨(d.page.lines.take d.page.start.line).length, units (d.page.lineBefore d.page.start)⟩ := by
    rw [hAbove, ← hStart.2]
  unfold Draft.eraseSelection
  dsimp only
  split_ifs with hSelection
  -- Cursor and anchor are the two ends of the text that is taken out, in either order.
  · have hEnds : d.page.cursor.afterErase d.page.start d.page.stop = d.page.start ∧
        d.page.anchor.afterErase d.page.start d.page.stop = d.page.start := by
      unfold start stop
      rcases Pos.earlier_later d.page.cursor d.page.anchor with
        ⟨hOrder, hFirst, hLast⟩ | ⟨hOrder, hFirst, hLast⟩
      · rw [hFirst, hLast]
        exact Pos.afterErase_ends hOrder
      · rw [hFirst, hLast]
        exact (Pos.afterErase_ends hOrder).symm
    refine ⟨?_, hEnds.1.trans hPlace, hEnds.2.trans hEnds.1.symm⟩
    rw [← hStart.seam hStop]
    rfl
  · obtain ⟨hFirst, hLast⟩ := start_stop_of_not_hasSelection hSelection
    have hSame : d.page.cursor = d.page.anchor := by simpa [hasSelection] using hSelection
    have hBound : d.page.cursor.line < d.page.lines.length := hCursor.1
    have hLine : d.page.lineAt d.page.cursor.line = d.page.lines[d.page.cursor.line] := by
      simp [lineAt, hBound]
    refine ⟨?_, hFirst ▸ hPlace, hSame.symm⟩
    rw [hFirst, hLast, lineBefore, lineBehind, List.take_append_drop, hLine,
      ← List.drop_eq_getElem_cons, List.take_append_drop]

end Page

end ScriptEditor.Document
