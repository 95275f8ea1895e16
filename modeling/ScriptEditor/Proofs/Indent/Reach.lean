import ScriptEditor.Proofs.Indent.Level

/-! How far to the right indentation reaches. A space or a tabulator goes at most one tab
width further, and a line stands at most one tab width to the right of some line above
it. -/
namespace ScriptEditor.Indent

open ScriptEditor.Script (Role)

variable {mark : Text} {tabWidth : Int}

theorem advance_bounds (hWidth : 1 ≤ tabWidth) (column : Int) (c : Char) :
    column ≤ advance tabWidth column c ∧ advance tabWidth column c ≤ column + tabWidth := by
  have hNonneg := Int.fmod_nonneg_of_pos column (show 0 < tabWidth by omega)
  have hLt := Int.fmod_lt_of_pos column (show 0 < tabWidth by omega)
  unfold advance
  split_ifs <;> omega

theorem foldl_advance_bounds (hWidth : 1 ≤ tabWidth) (indent : Text) (column : Int) :
    column ≤ indent.foldl (advance tabWidth) column ∧
      indent.foldl (advance tabWidth) column ≤ column + indent.length * tabWidth := by
  induction indent generalizing column with
  | nil => simp
  | cons c indent ih =>
      obtain ⟨hFirst, hFirst'⟩ := advance_bounds hWidth column c
      obtain ⟨hRest, hRest'⟩ := ih (advance tabWidth column c)
      have hLength : ((c :: indent).length : Int) * tabWidth =
          indent.length * tabWidth + tabWidth := by
        rw [List.length_cons, Int.natCast_add, Int.add_mul, Int.natCast_one, Int.one_mul]
      rw [List.foldl_cons, hLength]
      omega

theorem width_le (hWidth : 1 ≤ tabWidth) (line : Text) :
    width tabWidth line ≤ line.length * tabWidth := by
  have hReach := (foldl_advance_bounds hWidth (leading line) 0).2
  have hLeading : (leading line).length ≤ line.length :=
    (List.takeWhile_sublist _).length_le
  have hMul := level_mul_le hWidth hLeading
  rw [width]
  omega

/-- A part of a line reaches no further than the line. -/
theorem width_take_le (hWidth : 1 ≤ tabWidth) (line : Text) (n : Nat) :
    width tabWidth (line.take n) ≤ width tabWidth line := by
  have hFront : leading (line.take n) <+: leading line := by
    have hParts := body_append (line.take n) (line.drop n)
    rw [List.take_append_drop] at hParts
    rcases hParts with ⟨hBlank, -, hLeading⟩ | ⟨-, hLeading⟩
    · have hWhole := leading_append_body (line.take n)
      rw [hBlank, List.append_nil] at hWhole
      rw [hLeading, hWhole]
      exact List.prefix_append _ _
    · simp [hLeading]
  obtain ⟨rest, hRest⟩ := hFront
  rw [width, width, ← hRest, List.foldl_append]
  exact (foldl_advance_bounds hWidth rest _).1

theorem mem_of_lastCode? {lines : List Text} {n : Nat} {line : Text}
    (h : lastCode? mark lines = some (n, line)) : line ∈ lines := by
  induction lines generalizing n with
  | nil => cases h
  | cons first rest ih =>
      rw [lastCode?] at h
      split at h
      · rename_i found hRest
        cases h
        exact List.mem_cons_of_mem _ (ih hRest)
      · split_ifs at h
        cases h
        exact List.mem_cons_self ..

theorem columnAt_nonneg (mark : Text) (tabWidth : Int) (lines : List Text) (n : Nat) :
    0 ≤ columnAt mark tabWidth lines n := by
  unfold columnAt columnOf
  cases decision? mark tabWidth lines n with
  | none => exact Int.le_refl 0
  | some decision => exact Int.le_max_left _ _

/-- A line stands at most one tab width to the right of the lines above it. -/
theorem columnAt_le (hWidth : 1 ≤ tabWidth) {lines : List Text} {n : Nat} {reach : Int}
    (hReach : 0 ≤ reach) (hLines : ∀ line ∈ lines.take n, width tabWidth line ≤ reach) :
    columnAt mark tabWidth lines n ≤ reach + tabWidth := by
  unfold columnAt decision? above?
  cases hAbove : lastCode? mark (lines.take n) with
  | none =>
      change (0 : Int) ≤ reach + tabWidth
      omega
  | some found =>
      obtain ⟨m, line⟩ := found
      have hLine := hLines line (mem_of_lastCode? hAbove)
      have hTarget := make_target tabWidth n (Role.ofLine mark (lines.getD n []))
        (.ofLine mark tabWidth m line)
      have hInner : innerColumn tabWidth (some (.ofLine mark tabWidth m line)) ≤
          reach + tabWidth := by
        simp only [innerColumn, Above.ofLine]
        split_ifs <;> omega
      simp only [columnOf, Option.map_some, Option.getD_some, Decision.column, hTarget]
      split_ifs <;> omega

end ScriptEditor.Indent
