import ScriptEditor.Proofs.Document.PageEnd

/-! The characters of a page in their order. An edit puts together what stands before it
and what stands behind it. -/
namespace ScriptEditor.Document

open ScriptEditor.Text (units isLineEnd splitLines splitLines_ne_nil)

namespace Rows

variable {α : Type}

@[simp] theorem flatten_weave (front : List α) (rows : List (List α)) (back : List α) :
    (weave front rows back).flatten = front ++ rows.flatten ++ back := by
  fun_induction weave front rows back with
  | case1 front back => simp
  | case2 front row back => simp
  | case3 front row rest back _ ih => simp [ih]

theorem length_weave (front : List α) {rows : List (List α)} (hRows : rows ≠ []) (back : List α) :
    (weave front rows back).length = rows.length := by
  fun_induction weave front rows back with
  | case1 front back => contradiction
  | case2 front row back => rfl
  | case3 front row rest back hRest ih => simp [ih hRest]

theorem weave_nil_concat (rows : List (List α)) (last back : List α) :
    weave [] (rows ++ [last]) back = rows ++ [last ++ back] := by
  induction rows with
  | nil => rfl
  | cons row rows ih =>
      rw [List.cons_append, weave, ih, List.nil_append, List.cons_append]
      exact List.append_ne_nil_of_right_ne_nil rows (List.cons_ne_nil last [])

/-- Of several rows, the first one goes behind the part before them, and the part behind
them goes behind the last one. -/
theorem weave_concat (front row : List α) (rows : List (List α)) (last back : List α) :
    weave front (row :: (rows ++ [last])) back = (front ++ row) :: (rows ++ [last ++ back]) := by
  rw [weave, weave_nil_concat]
  exact List.append_ne_nil_of_right_ne_nil rows (List.cons_ne_nil last [])

end Rows

namespace Pos

variable {p q a b : Pos}

theorem upTo_iff : p.upTo q = true ↔ p.line < q.line ∨ p.line = q.line ∧ p.column ≤ q.column := by
  simp only [upTo, before, Bool.not_eq_true', Bool.or_eq_false_iff, decide_eq_false_iff_not,
    Bool.and_eq_false_iff, beq_eq_false_iff_ne]
  omega

theorem upTo_refl (p : Pos) : p.upTo p = true := by
  rw [upTo_iff]
  omega

theorem upTo_antisymm (h : p.upTo q = true) (h' : q.upTo p = true) : p = q := by
  rw [upTo_iff] at h h'
  rcases p with ⟨line, column⟩
  rcases q with ⟨line', column'⟩
  simp only [mk.injEq] at h h' ⊢
  omega

/-- Both ends of a text that is taken out go to where it was. -/
theorem afterErase_ends (h : a.upTo b = true) : a.afterErase a b = a ∧ b.afterErase a b = a := by
  refine ⟨by simp [afterErase, upTo_refl], ?_⟩
  unfold afterErase
  by_cases hBack : b.upTo a = true
  · rw [if_pos hBack]
    exact upTo_antisymm hBack h
  · rw [if_neg hBack, if_pos (upTo_refl b)]

/-- Two places in their order. -/
theorem earlier_later (p q : Pos) :
    p.upTo q = true ∧ p.earlier q = p ∧ p.later q = q ∨
      q.upTo p = true ∧ p.earlier q = q ∧ p.later q = p := by
  cases hOrder : p.upTo q with
  | true => simp [earlier, later, hOrder]
  | false =>
      have hBack : q.upTo p = true := by
        rw [← Bool.not_eq_true, upTo_iff] at hOrder
        rw [upTo_iff]
        omega
      simp [earlier, later, hOrder, hBack]

theorem afterErase_line_lt {count : Nat} (hOrder : a.line ≤ b.line) (hb : b.line < count)
    (hp : p.line < count) : (p.afterErase a b).line < count - (b.line - a.line) := by
  unfold afterErase
  split_ifs with hBefore hWithin hSame
  · rw [upTo_iff] at hBefore
    omega
  · omega
  · change a.line < _
    omega
  -- A place on a later line goes up by as many lines as are taken out.
  · rw [upTo_iff] at hWithin
    change p.line - (b.line - a.line) < _
    omega

theorem afterInsert_line_lt {count : Nat} (hp : p.line < count) (a : Pos) (rows : List Text) :
    (p.afterInsert a rows).line < count + (rows.length - 1) := by
  have hLine : (p.afterInsert a rows).line ≤ p.line + (rows.length - 1) := by
    unfold afterInsert
    dsimp only
    split_ifs
    · exact Nat.le_add_right _ _
    · exact Nat.le_add_right _ _
    · exact Nat.le_refl _
    · exact Nat.le_refl _
  omega

end Pos

/-- No line of a text holds a line end. -/
theorem not_isLineEnd_of_mem_splitLines {t : Text} {c : Char} (h : c ∈ (splitLines t).flatten) :
    isLineEnd c = false := by
  fun_induction splitLines t with
  | case1 => simp at h
  | case2 t ih => exact ih (by simpa using h)
  | case3 c t _ hEnd ih => exact ih (by simpa using h)
  | case4 c t _ hEnd hNone ih => exact absurd hNone (splitLines_ne_nil t)
  | case5 c t _ hEnd line rest hRest ih =>
      rw [hRest] at ih
      rw [List.flatten_cons, List.cons_append] at h
      rcases List.mem_cons.mp h with rfl | hTail
      · simpa using hEnd
      · exact ih hTail

theorem linesOf_ne_nil (t : Text) : linesOf t ≠ [] :=
  splitLines_ne_nil _

theorem not_isLineEnd_of_mem_linesOf {t : Text} {c : Char} (h : c ∈ (linesOf t).flatten) :
    isLineEnd c = false :=
  not_isLineEnd_of_mem_splitLines h

namespace Page

variable {page : Page} {p a b : Pos} {n : Nat} {front back : Text}

/-- The part of its line before a place. -/
def lineBefore (page : Page) (p : Pos) : Text :=
  (page.lineAt p.line).take (page.index p)

/-- The part of its line behind a place. -/
def lineBehind (page : Page) (p : Pos) : Text :=
  (page.lineAt p.line).drop (page.index p)

/-- The characters before a place, without the line breaks. -/
def textBefore (page : Page) (p : Pos) : Text :=
  (page.lines.take p.line).flatten ++ page.lineBefore p

/-- The characters behind a place, without the line breaks. -/
def textBehind (page : Page) (p : Pos) : Text :=
  page.lineBehind p ++ (page.lines.drop (p.line + 1)).flatten

theorem lineBefore_append_lineBehind (page : Page) (p : Pos) :
    page.lineBefore p ++ page.lineBehind p = page.lineAt p.line :=
  List.take_append_drop _ _

theorem lineBefore_units (hLine : page.lineAt n = front ++ back) :
    page.lineBefore ⟨n, units front⟩ = front := by
  rw [lineBefore, index_units hLine]
  simp [hLine]

theorem lineBehind_units (hLine : page.lineAt n = front ++ back) :
    page.lineBehind ⟨n, units front⟩ = back := by
  rw [lineBehind, index_units hLine]
  simp [hLine]

/-- A place of a page that is at an end of a line or between two characters. -/
def IsPlace (page : Page) (p : Pos) : Prop :=
  p.line < page.lines.length ∧ p.column = units (page.lineBefore p)

instance (page : Page) (p : Pos) : Decidable (page.IsPlace p) :=
  inferInstanceAs (Decidable (_ ∧ _))

theorem flatten_drop (page : Page) (n : Nat) :
    (page.lines.drop n).flatten = page.lineAt n ++ (page.lines.drop (n + 1)).flatten := by
  rcases Nat.lt_or_ge n page.lines.length with hLt | hGe
  · rw [List.drop_eq_getElem_cons hLt, List.flatten_cons]
    simp [lineAt, hLt]
  · have hNext : page.lines.length ≤ n + 1 := by omega
    simp [lineAt, List.drop_eq_nil_of_le hGe, List.drop_eq_nil_of_le hNext, hGe]

theorem flatten_take (page : Page) (n : Nat) :
    (page.lines.take (n + 1)).flatten = (page.lines.take n).flatten ++ page.lineAt n := by
  rw [List.take_add_one, List.flatten_append, lineAt, List.getD_eq_getElem?_getD]
  cases page.lines[n]? <;> simp

theorem textBefore_append_textBehind (page : Page) (p : Pos) :
    page.textBefore p ++ page.textBehind p = page.lines.flatten := by
  calc
    page.textBefore p ++ page.textBehind p =
        (page.lines.take p.line).flatten ++
          (page.lineAt p.line ++ (page.lines.drop (p.line + 1)).flatten) := by
      rw [textBefore, textBehind, List.append_assoc, ← List.append_assoc (page.lineBefore p),
        lineBefore_append_lineBehind]
    _ = page.lines.flatten := by
      rw [← flatten_drop, ← List.flatten_append, List.take_append_drop]

/-- Between characters nothing is joined or lost at the seam. -/
theorem IsPlace.seam (ha : page.IsPlace a) (hb : page.IsPlace b) :
    page.seam a b = page.lineBefore a ++ page.lineBehind b := by
  have hSeam := seam_units (page.lineBefore_append_lineBehind a).symm
    (page.lineBefore_append_lineBehind b).symm
  rwa [← ha.2, ← hb.2] at hSeam

theorem flatten_erase (ha : page.IsPlace a) (hb : page.IsPlace b) :
    (page.erase a b).lines.flatten = page.textBefore a ++ page.textBehind b := by
  simp [erase, ha.seam hb, textBefore, textBehind]

@[simp] theorem flatten_insert (page : Page) (a : Pos) (rows : List Text) (stamp : Nat) :
    (page.insert a rows stamp).lines.flatten =
      page.textBefore a ++ rows.flatten ++ page.textBehind a := by
  simp [insert, Rows.graft, textBefore, textBehind, lineBefore, lineBehind, lineAt]

theorem length_erase (hOrder : a.line ≤ b.line) (hb : b.line < page.lines.length) :
    (page.erase a b).lines.length = page.lines.length - (b.line - a.line) := by
  simp only [erase, List.length_append, List.length_take, List.length_cons, List.length_drop]
  omega

theorem length_insert (ha : a.line < page.lines.length) {rows : List Text} (hRows : rows ≠ [])
    (stamp : Nat) :
    (page.insert a rows stamp).lines.length = page.lines.length + (rows.length - 1) := by
  have hPos : 0 < rows.length := List.length_pos_iff.mpr hRows
  simp only [insert, Rows.graft, List.length_append, List.length_take, List.length_drop,
    Rows.length_weave _ hRows]
  omega

theorem start_stop_of_not_hasSelection (h : ¬ page.hasSelection = true) :
    page.start = page.cursor ∧ page.stop = page.cursor := by
  have hSame : page.cursor = page.anchor := by simpa [hasSelection] using h
  simp [start, stop, Pos.earlier, Pos.later, ← hSame]

end Page

end ScriptEditor.Document
