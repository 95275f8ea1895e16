import ScriptEditor.Proofs.Indent.Reach

/-! One level of indentation taken from a line. Tab stops repeat after a tab width, so what
stands behind a whole level moves to the left by a tab width. Spaces that do not fill a level
are taken as well, and nothing moves then if a tabulator stands behind them: it goes to the
same tab stop as before. -/
namespace ScriptEditor.Indent

open ScriptEditor.Text (isIndent)

variable {tabWidth : Int}

/-- Fewer spaces than fill a level, and a tabulator behind them. -/
def TabBehindSpaces (tabWidth : Int) (line : Text) : Prop :=
  ∃ count rest, 0 < count ∧ count < tabWidth ∧ line = spaces count ++ '\t' :: rest

/-! ### Tab stops -/

theorem measure_eq_ok (hWidth : 1 ≤ tabWidth) (line : Text) :
    measure tabWidth line = .ok (width tabWidth line) := by
  have hStops : decide (tabWidth = 0) = false := decide_eq_false (by omega)
  rw [measure, hStops, Bool.false_and, if_neg Bool.false_ne_true]

theorem advance_shift (tabWidth column : Int) (c : Char) :
    advance tabWidth (column + tabWidth) c = advance tabWidth column c + tabWidth := by
  unfold advance
  rw [Int.add_fmod_right]
  split_ifs <;> omega

theorem foldl_advance_shift (tabWidth column : Int) (indent : Text) :
    indent.foldl (advance tabWidth) (column + tabWidth) =
      indent.foldl (advance tabWidth) column + tabWidth := by
  induction indent generalizing column with
  | nil => rfl
  | cons c indent ih => rw [List.foldl_cons, List.foldl_cons, advance_shift, ih]

/-- A tabulator within the first level goes to its end. -/
theorem advance_tab {column : Int} (hColumn : 0 ≤ column) (hLevel : column < tabWidth) :
    advance tabWidth column '\t' = tabWidth := by
  have hTab : ('\t' == ' ') = false := by decide
  rw [advance, hTab, Int.fmod_eq_of_lt hColumn hLevel]
  simp only [Bool.false_eq_true, if_false]
  omega

theorem width_indent_append (tabWidth : Int) {indent : Text}
    (hIndent : ∀ c ∈ indent, isIndent c = true) (line : Text) :
    width tabWidth (indent ++ line) =
      (leading line).foldl (advance tabWidth) (indent.foldl (advance tabWidth) 0) := by
  rw [width, leading, List.takeWhile_append_of_pos hIndent, List.foldl_append]
  rfl

/-- A whole level in front of a line moves it to the right by a tab width. -/
theorem width_level_append {indent : Text} (hIndent : ∀ c ∈ indent, isIndent c = true)
    (hLevel : indent.foldl (advance tabWidth) 0 = tabWidth) (line : Text) :
    width tabWidth (indent ++ line) = width tabWidth line + tabWidth := by
  have hShift := foldl_advance_shift tabWidth 0 (leading line)
  rw [Int.zero_add] at hShift
  rw [width_indent_append tabWidth hIndent, hLevel, hShift, width]

theorem width_tab (hWidth : 1 ≤ tabWidth) (line : Text) :
    width tabWidth ('\t' :: line) = width tabWidth line + tabWidth := by
  have hLevel : ['\t'].foldl (advance tabWidth) 0 = tabWidth := advance_tab (by omega) (by omega)
  have hIndent : ∀ c ∈ ['\t'], isIndent c = true := List.forall_mem_singleton.mpr rfl
  exact width_level_append hIndent hLevel line

theorem foldl_advance_spaces {count : Int} (hCount : 0 ≤ count) :
    (spaces count).foldl (advance tabWidth) 0 = count := by
  rw [spaces, foldl_advance_replicate]
  omega

theorem width_nonneg (hWidth : 1 ≤ tabWidth) (line : Text) : 0 ≤ width tabWidth line :=
  (foldl_advance_bounds hWidth (leading line) 0).1

/-! ### What is taken -/

theorem exists_spaces_append (line : Text) :
    ∃ (count : Nat) (rest : Text), line = List.replicate count ' ' ++ rest ∧
      rest.head? ≠ some ' ' := by
  induction line with
  | nil => exact ⟨0, [], rfl, nofun⟩
  | cons c line ih =>
      by_cases hSpace : c = ' '
      · obtain ⟨count, rest, rfl, hRest⟩ := ih
        exact ⟨count + 1, rest, by rw [hSpace, List.replicate_succ, List.cons_append], hRest⟩
      · exact ⟨0, c :: line, rfl, fun hHead => hSpace (Option.some.inj hHead)⟩

/-- From spaces as many are taken as fill a level, or all of them. -/
theorem outdent_replicate_append (hWidth : 1 ≤ tabWidth) {count : Nat} {rest : Text}
    (hRest : rest.head? ≠ some ' ') (hTab : count = 0 → rest.head? ≠ some '\t') :
    outdent tabWidth (List.replicate count ' ' ++ rest) =
      List.replicate (count - tabWidth.toNat) ' ' ++ rest := by
  have hHead : (List.replicate count ' ' ++ rest).head? ≠ some '\t' := by
    cases count with
    | zero => simpa using hTab rfl
    | succ count => simp [List.replicate_succ]
  have hSpaces : (List.replicate count ' ' ++ rest).takeWhile (· == ' ') =
      List.replicate count ' ' := by
    have hNone : rest.takeWhile (· == ' ') = [] := by
      cases rest with
      | nil => rfl
      | cons c rest => exact List.takeWhile_cons_of_neg fun hSpace => hRest (by simpa using hSpace)
    rw [List.takeWhile_append_of_pos (by simp), hNone, List.append_nil]
  have hCount : 0 ≤ min (count : Int) tabWidth := by omega
  rw [outdent, if_neg (by simpa using hHead), hSpaces, List.length_replicate]
  simp only [Sequence.dropSigned, if_pos hCount]
  rw [List.drop_append_of_le_length (by rw [List.length_replicate]; omega), List.drop_replicate]
  congr 2
  omega

/-- What is taken from a line is a whole level of indentation, or all the spaces it begins
with if they do not fill a level. -/
theorem outdent_cases (hWidth : 1 ≤ tabWidth) (line : Text) :
    (∃ level, line = level ++ outdent tabWidth line ∧ (∀ c ∈ level, isIndent c = true) ∧
        level.foldl (advance tabWidth) 0 = tabWidth) ∨
      ∃ count, 0 ≤ count ∧ count < tabWidth ∧ line = spaces count ++ outdent tabWidth line ∧
        (outdent tabWidth line).head? ≠ some ' ' ∧
        (count = 0 → (outdent tabWidth line).head? ≠ some '\t') := by
  by_cases hTab : line.head? = some '\t'
  · obtain ⟨rest, rfl⟩ := List.head?_eq_some_iff.mp hTab
    have hIndent : ∀ c ∈ ['\t'], isIndent c = true := List.forall_mem_singleton.mpr rfl
    exact Or.inl ⟨['\t'], rfl, hIndent, advance_tab (by omega) (by omega)⟩
  · obtain ⟨count, rest, rfl, hRest⟩ := exists_spaces_append line
    have hFirst : count = 0 → rest.head? ≠ some '\t' := by
      rintro rfl
      exact hTab
    have hTaken := outdent_replicate_append hWidth hRest hFirst
    by_cases hLevel : (count : Int) < tabWidth
    · have hNone : count - tabWidth.toNat = 0 := by omega
      rw [hNone, List.replicate_zero, List.nil_append] at hTaken
      refine Or.inr ⟨count, by omega, hLevel, ?_, ?_⟩
      · rw [hTaken, spaces, Int.toNat_natCast]
      · rw [hTaken]
        exact ⟨hRest, fun hZero => hFirst (by omega)⟩
    · refine Or.inl ⟨spaces tabWidth, ?_, fun _ => isIndent_of_mem_spaces,
        foldl_advance_spaces (by omega)⟩
      have hSum : tabWidth.toNat + (count - tabWidth.toNat) = count := by omega
      rw [hTaken, spaces, ← List.append_assoc, List.replicate_append_replicate, hSum]

/-- Taking a level of indentation from a line takes nothing but indentation. -/
theorem outdent_front (hWidth : 1 ≤ tabWidth) (line : Text) :
    ∃ front, line = front ++ outdent tabWidth line ∧ ∀ c ∈ front, isIndent c = true := by
  rcases outdent_cases hWidth line with ⟨level, hLine, hIndent, -⟩ | ⟨count, -, -, hLine, -⟩
  · exact ⟨level, hLine, hIndent⟩
  · exact ⟨spaces count, hLine, fun _ => isIndent_of_mem_spaces⟩

theorem body_outdent (hWidth : 1 ≤ tabWidth) (line : Text) :
    body (outdent tabWidth line) = body line := by
  obtain ⟨front, hLine, hIndent⟩ := outdent_front hWidth line
  conv_rhs => rw [hLine]
  exact (body_indent_append hIndent _).symm

/-! ### Where the line goes -/

/-- The tab stop behind a few spaces is the one that a tabulator goes to without them. -/
theorem width_outdent_of_tabBehindSpaces {line : Text} (h : TabBehindSpaces tabWidth line) :
    width tabWidth (outdent tabWidth line) = width tabWidth line ∧
      tabWidth ≤ width tabWidth line := by
  obtain ⟨count, rest, hPos, hLevel, rfl⟩ := h
  have hWidth : 1 ≤ tabWidth := by omega
  have hTaken : outdent tabWidth (spaces count ++ '\t' :: rest) = '\t' :: rest := by
    have hNone : count.toNat - tabWidth.toNat = 0 := by omega
    rw [spaces, outdent_replicate_append hWidth (by simp) (by omega), hNone,
      List.replicate_zero, List.nil_append]
  have hIndent : ∀ c ∈ spaces count ++ ['\t'], isIndent c = true := by
    intro c hc
    rcases List.mem_append.mp hc with hSpace | hTab
    · exact isIndent_of_mem_spaces hSpace
    · rw [List.mem_singleton.mp hTab]
      decide
  have hStop : (spaces count ++ ['\t']).foldl (advance tabWidth) 0 = tabWidth := by
    rw [List.foldl_append, foldl_advance_spaces (by omega)]
    exact advance_tab (by omega) hLevel
  have hSame : width tabWidth (spaces count ++ '\t' :: rest) = width tabWidth rest + tabWidth := by
    rw [List.append_cons]
    exact width_level_append hIndent hStop rest
  have hNonneg := width_nonneg hWidth rest
  rw [hTaken, hSame, width_tab hWidth]
  omega

theorem width_outdent (hWidth : 1 ≤ tabWidth) {line : Text}
    (h : ¬ TabBehindSpaces tabWidth line) :
    width tabWidth (outdent tabWidth line) = max 0 (width tabWidth line - tabWidth) := by
  have hNonneg := width_nonneg hWidth (outdent tabWidth line)
  rcases outdent_cases hWidth line with
    ⟨level, hLine, hIndent, hLevel⟩ | ⟨count, hCount, hLevel, hLine, hSpace, hTab⟩
  · have hWhole := width_level_append hIndent hLevel (outdent tabWidth line)
    rw [← hLine] at hWhole
    omega
  · -- Behind the spaces comes the body, since a tabulator is excluded.
    have hBody : leading (outdent tabWidth line) = [] := by
      cases hRest : outdent tabWidth line with
      | nil => rfl
      | cons c rest =>
          refine List.takeWhile_cons_of_neg fun hIndent => ?_
          rw [hRest] at hLine hSpace hTab
          rcases isIndent_iff.mp hIndent with rfl | rfl
          · exact hSpace rfl
          · have hPos : count ≠ 0 := fun hZero => hTab hZero rfl
            exact h ⟨count, rest, by omega, hLevel, hLine⟩
    have hSpaces : ∀ c ∈ spaces count, isIndent c = true := fun _ => isIndent_of_mem_spaces
    have hWhole := width_indent_append tabWidth hSpaces (outdent tabWidth line)
    rw [← hLine, hBody, List.foldl_nil, foldl_advance_spaces hCount] at hWhole
    rw [width, hBody, List.foldl_nil]
    omega

/-- A line without one level of indentation has its body as before and stands one tab width
to the left, or in the first column if it stood less to the right. The one exception is a
line that begins with spaces which do not fill a level, and a tabulator: it stays where it
was. -/
theorem measure_outdent (hWidth : 1 ≤ tabWidth) (line : Text) :
    body (outdent tabWidth line) = body line ∧
    ∃ column next, measure tabWidth line = .ok column ∧
      measure tabWidth (outdent tabWidth line) = .ok next ∧
      (next = max 0 (column - tabWidth) ↔ ¬ TabBehindSpaces tabWidth line) ∧
      (TabBehindSpaces tabWidth line → next = column) := by
  refine ⟨body_outdent hWidth line, _, _, measure_eq_ok hWidth line, measure_eq_ok hWidth _,
    ⟨fun hMoved hTab => ?_, width_outdent hWidth⟩, fun hTab => ?_⟩
  · obtain ⟨hSame, hFar⟩ := width_outdent_of_tabBehindSpaces hTab
    omega
  · exact (width_outdent_of_tabBehindSpaces hTab).1

theorem measure_outdent_mixed :
    (1 : Int) ≤ 4 ∧ body (outdent 4 "\t  \tx".toList) = ['x'] ∧
      measure 4 "\t  \tx".toList = .ok 8 ∧ measure 4 (outdent 4 "\t  \tx".toList) = .ok 4 ∧
      ¬ TabBehindSpaces 4 "\t  \tx".toList := by
  have hWidth : (1 : Int) ≤ 4 := by decide
  obtain ⟨hBody, column, next, hColumn, hNext, hMoved, -⟩ :=
    measure_outdent hWidth "\t  \tx".toList
  have hBefore : measure 4 "\t  \tx".toList = .ok 8 := by decide
  have hAfter : measure 4 (outdent 4 "\t  \tx".toList) = .ok 4 := by decide
  rw [hBefore] at hColumn
  rw [hAfter] at hNext
  cases hColumn
  cases hNext
  exact ⟨hWidth, hBody, hBefore, hAfter, hMoved.mp (by decide)⟩

/-- A space is taken from a line that stands one level to the right by a space and a
tabulator. The tabulator then goes to the same column alone. -/
theorem outdent_keeps_column :
    outdent 4 " \tx".toList = "\tx".toList ∧ measure 4 " \tx".toList = .ok 4 ∧
      measure 4 (outdent 4 " \tx".toList) = .ok 4 ∧ max 0 ((4 : Int) - 4) ≠ 4 := by
  decide

end ScriptEditor.Indent
