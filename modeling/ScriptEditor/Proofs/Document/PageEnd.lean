import Mathlib.Tactic.Common
import ScriptEditor.Document.Draft
import ScriptEditor.Proofs.Text.Halves

/-! Pages with the cursor at their end. Text that is put in there goes behind the last
line, and text that is taken out or put in at the beginning of the last line leaves the
cursor at the end. -/
namespace ScriptEditor.Document

open ScriptEditor.Text (units charsWithin takeUnits isLineEnd splitLines splitLines_ne_nil withoutMark
  unitWidth_pos)

/-- As many characters fit into the units of a text as it has. -/
theorem charsWithin_units_append (front back : Text) :
    charsWithin (units front) (front ++ back) = front.length := by
  induction front with
  | nil =>
      cases back with
      | nil => rfl
      | cons c back =>
          have hWidth : ¬ Text.unitWidth c ≤ 0 := by have := unitWidth_pos c; omega
          simp [charsWithin, takeUnits, units, hWidth]
  | cons c front ih =>
      have hRest : Text.unitWidth c + units front - Text.unitWidth c = units front := by omega
      simp only [charsWithin, List.cons_append, takeUnits, units, Nat.le_add_right, if_true, hRest,
        List.length_cons]
      exact congrArg (· + 1) ih

theorem Page.index_units {page : Page} {n : Nat} {front back : Text}
    (hLine : page.lineAt n = front ++ back) : page.index ⟨n, units front⟩ = front.length := by
  rw [Page.index, hLine, charsWithin_units_append]

/-- The parts before and behind two places between characters make up a line as they are. -/
theorem Page.seam_units {page : Page} {m n : Nat} {front rest skipped back : Text}
    (hFront : page.lineAt m = front ++ rest) (hBack : page.lineAt n = skipped ++ back) :
    page.seam ⟨m, units front⟩ ⟨n, units skipped⟩ = front ++ back := by
  rw [Page.seam, hFront, hBack, Utf16.toText_take_append_drop]

theorem length_le_units (t : Text) : t.length ≤ units t := by
  induction t with
  | nil => exact Nat.le_refl _
  | cons c t ih =>
      have hWidth := unitWidth_pos c
      rw [units, List.length_cons]
      omega

theorem units_eq_length_iff {t : Text} : units t = t.length ↔ Text.hasWide t = false := by
  induction t with
  | nil => exact iff_of_true rfl rfl
  | cons c t ih =>
      have hRest := length_le_units t
      rw [Text.hasWide, List.any_cons, Bool.or_eq_false_iff, ← Text.hasWide, ← ih, units,
        List.length_cons]
      unfold Text.unitWidth
      split_ifs
      · simp [Nat.add_comm 1]
      · simp only [beq_self_eq_true, Bool.true_eq_false, false_and, iff_false]
        omega

theorem units_eq_zero_iff {t : Text} : units t = 0 ↔ t = [] := by
  constructor
  · intro hUnits
    have hLength := length_le_units t
    exact List.eq_nil_of_length_eq_zero (by omega)
  · rintro rfl
    rfl

/-- A text without line ends is one line. -/
theorem splitLines_of_not_isLineEnd {t : Text} (h : ∀ c ∈ t, isLineEnd c = false) :
    splitLines t = [t] := by
  fun_induction splitLines t with
  | case1 => rfl
  | case2 t ih =>
      have hReturn : isLineEnd '\r' = false := h _ (List.mem_cons_self ..)
      exact absurd hReturn (by decide)
  | case3 c t _ hEnd ih =>
      have hNot : isLineEnd c = false := h c (List.mem_cons_self ..)
      rw [hNot] at hEnd
      contradiction
  | case4 c t _ hEnd hNone ih =>
      exact absurd hNone (splitLines_ne_nil t)
  | case5 c t _ hEnd line rest hRest ih =>
      have hTail : splitLines t = [t] := ih fun x hx => h x (List.mem_cons_of_mem _ hx)
      rw [hRest] at hTail
      cases hTail
      rfl

/-- A text that a page takes in as one line of the same characters. -/
def IsRow (t : Text) : Prop :=
  (∀ c ∈ t, isLineEnd c = false) ∧ ¬ (t.head? = some Text.byteOrderMark ∧ Text.hasWide t = true)

instance (t : Text) : Decidable (IsRow t) :=
  @instDecidableAnd _ _ (List.decidableBAll _ t) (inferInstanceAs (Decidable (¬ (_ ∧ _))))

theorem IsRow.linesOf_eq {t : Text} (h : IsRow t) : linesOf t = [t] := by
  have hMark : withoutMark t = t := by
    rw [withoutMark, if_neg]
    simpa using h.2
  rw [linesOf, hMark, splitLines_of_not_isLineEnd h.1]

theorem isRow_replicate_space (n : Nat) : IsRow (List.replicate n ' ') := by
  refine ⟨fun c hc => ?_, fun h => ?_⟩
  · rw [List.eq_of_mem_replicate hc]
    decide
  · have hHead := List.eq_of_mem_replicate (List.mem_of_mem_head? h.1)
    exact absurd hHead (by decide)

/-- A line feed before such a text begins a new line with it. -/
theorem linesOf_lineFeed_replicate (n : Nat) :
    linesOf ('\n' :: List.replicate n ' ') = [[], List.replicate n ' '] := by
  have hMark : withoutMark ('\n' :: List.replicate n ' ') = '\n' :: List.replicate n ' ' := by
    have hHead : ('\n' == Text.byteOrderMark) = false := by decide
    simp [withoutMark, hHead]
  have hSplit : splitLines (List.replicate n ' ') = [List.replicate n ' '] :=
    splitLines_of_not_isLineEnd (isRow_replicate_space n).1
  have hEnd : isLineEnd '\n' = true := by decide
  rw [linesOf, hMark]
  simp [splitLines, hEnd, hSplit]

/-- A place goes to the left by what is taken out at the beginning of its line. -/
theorem Pos.afterErase_front (line front back : Nat) :
    (⟨line, front + back⟩ : Pos).afterErase ⟨line, 0⟩ ⟨line, front⟩ = ⟨line, back⟩ := by
  simp only [Pos.afterErase, Pos.upTo, Pos.before, Nat.lt_irrefl, decide_false, Bool.false_or,
    beq_self_eq_true, Bool.true_and, Bool.not_eq_true', decide_eq_false_iff_not]
  split_ifs <;> congr 1 <;> omega

/-- The cursor is behind the last line of the page, and nothing is selected. -/
structure EndsWith (page : Page) (done : List Text) (last : Text) : Prop where
  lines : page.lines = done ++ [last]
  cursor : page.cursor = ⟨done.length, units last⟩
  anchor : page.anchor = page.cursor

namespace EndsWith

variable {page : Page} {done : List Text} {last : Text}

theorem lineAt_length (h : EndsWith page done last) : page.lineAt done.length = last := by
  simp [Page.lineAt, h.lines]

theorem hasSelection (h : EndsWith page done last) : page.hasSelection = false := by
  simp [Page.hasSelection, h.anchor]

theorem index_cursor (h : EndsWith page done last) : page.index page.cursor = last.length := by
  have hIndex := charsWithin_units_append last []
  rw [List.append_nil] at hIndex
  rw [Page.index, h.cursor, h.lineAt_length, hIndex]

theorem index_within {front back : Text} (h : EndsWith page done (front ++ back)) :
    page.index ⟨done.length, units front⟩ = front.length := by
  rw [Page.index, h.lineAt_length, charsWithin_units_append]

/-- Text within a line that is put in at the end of the page goes behind its line. -/
theorem insert_row (h : EndsWith page done last) (row : Text) (stamp : Nat) :
    EndsWith (page.insert page.cursor [row] stamp) done (last ++ row) := by
  have hCursor : page.cursor.afterInsert page.cursor [row] =
      ⟨done.length, units (last ++ row)⟩ := by
    simp [Pos.afterInsert, Pos.before, h.cursor]
  refine ⟨?_, hCursor, ?_⟩
  · simp only [Page.insert, Rows.graft, h.index_cursor]
    rw [h.cursor, h.lines]
    simp [Rows.weave]
  · simp only [Page.insert, h.anchor]

/-- A line break that is put in at the end of the page, with text behind it, begins a
new line. -/
theorem insert_break (h : EndsWith page done last) (row : Text) (stamp : Nat) :
    EndsWith (page.insert page.cursor [[], row] stamp) (done ++ [last]) row := by
  have hCursor : page.cursor.afterInsert page.cursor [[], row] =
      ⟨(done ++ [last]).length, units row⟩ := by
    simp [Pos.afterInsert, Pos.before, h.cursor]
  refine ⟨?_, hCursor, ?_⟩
  · simp only [Page.insert, Rows.graft, h.index_cursor]
    rw [h.cursor, h.lines]
    simp [Rows.weave]
  · simp only [Page.insert, h.anchor]

/-- Text that is put in at the beginning of the last line moves the rest of it. -/
theorem insert_front (h : EndsWith page done last) (row : Text) (stamp : Nat) :
    EndsWith (page.insert ⟨done.length, 0⟩ [row] stamp) done (row ++ last) := by
  have hIndex : page.index ⟨done.length, 0⟩ = 0 := @index_within _ _ [] last h
  have hCursor : page.cursor.afterInsert ⟨done.length, 0⟩ [row] =
      ⟨done.length, units (row ++ last)⟩ := by
    simp [Pos.afterInsert, Pos.before, h.cursor, Nat.add_comm]
  refine ⟨?_, hCursor, ?_⟩
  · simp only [Page.insert, Rows.graft, hIndex]
    rw [h.lines]
    simp [Rows.weave]
  · simp only [Page.insert, h.anchor]

/-- Text that is taken out at the beginning of the last line leaves the rest of it. -/
theorem erase_front {front back : Text} (h : EndsWith page done (front ++ back)) :
    EndsWith (page.erase ⟨done.length, 0⟩ ⟨done.length, units front⟩) done back := by
  have hSeam : page.seam ⟨done.length, 0⟩ ⟨done.length, units front⟩ = back :=
    @Page.seam_units page _ _ [] _ _ _ h.lineAt_length h.lineAt_length
  have hCursor : page.cursor.afterErase ⟨done.length, 0⟩ ⟨done.length, units front⟩ =
      ⟨done.length, units back⟩ := by
    rw [h.cursor, Text.units_append, Pos.afterErase_front]
  refine ⟨?_, hCursor, ?_⟩
  · simp only [Page.erase, hSeam]
    rw [h.lines]
    simp
  · simp only [Page.erase, h.anchor]

/-- A command that puts in a row at the end of the page. -/
theorem draft_insert_row {d : Draft} (h : EndsWith d.page done last) {row : Text}
    (hRow : IsRow row) : EndsWith (d.insert d.page.cursor row).page done (last ++ row) := by
  cases row with
  | nil => simpa [Draft.insert] using h
  | cons c row =>
      simp only [Draft.insert, hRow.linesOf_eq, List.isEmpty_cons, Bool.false_eq_true, if_false]
      exact h.insert_row (c :: row) d.written

/-- A command that breaks the last line at its end and indents the new one. -/
theorem draft_insert_break {d : Draft} (h : EndsWith d.page done last) (n : Nat) :
    EndsWith (d.insert d.page.cursor ('\n' :: List.replicate n ' ')).page (done ++ [last])
      (List.replicate n ' ') := by
  simp only [Draft.insert, linesOf_lineFeed_replicate, List.isEmpty_cons, Bool.false_eq_true,
    if_false]
  exact h.insert_break _ d.written

/-- A command that replaces what the last line begins with. -/
theorem draft_replace_front {d : Draft} {front back row : Text}
    (h : EndsWith d.page done (front ++ back)) (hRow : IsRow row) :
    EndsWith (d.replace ⟨done.length, 0⟩ ⟨done.length, units front⟩ row).page done
      (row ++ back) := by
  have hErased : EndsWith (d.erase ⟨done.length, 0⟩ ⟨done.length, units front⟩).page done back := by
    unfold Draft.erase
    split_ifs with hSame
    · have hEmpty : front = [] := by
        cases front with
        | nil => rfl
        | cons c front =>
            have hPos := unitWidth_pos c
            simp only [Pos.mk.injEq, true_and, units] at hSame
            omega
      simpa [hEmpty] using h
    · exact h.erase_front
  cases row with
  | nil => simpa [Draft.replace, Draft.insert] using hErased
  | cons c row =>
      simp only [Draft.replace, Draft.insert, hRow.linesOf_eq, List.isEmpty_cons,
        Bool.false_eq_true, if_false]
      exact hErased.insert_front (c :: row) _

end EndsWith

end ScriptEditor.Document
