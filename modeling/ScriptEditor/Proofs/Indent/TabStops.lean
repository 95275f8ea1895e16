import Mathlib.Order.Bounds.Basic
import ScriptEditor.Proofs.Indent.Faults

/-! Tab stops are the multiples of the tab width. A tabulator goes to the nearest one behind
it, so the column that indentation reaches is its length once every tabulator is replaced by
the spaces up to its stop. Of spaces alone the column is the length, and placing a line at a
column is undone by measuring it. -/
namespace ScriptEditor.Indent

open ScriptEditor.Text (isIndent)

variable {tabWidth : Int}

/-- The nearest tab stop behind a column. -/
def IsNextStop (tabWidth column next : Int) : Prop :=
  IsLeast {stop : Int | tabWidth ∣ stop ∧ column < stop} next

/-- The second text is the first one, of spaces and tabulators, with each tabulator replaced by
the spaces that reach from where it stands to the nearest tab stop behind. -/
inductive Expands (tabWidth : Int) : Text → Text → Prop where
  | nil : Expands tabWidth [] []
  | space {indent expanded : Text} (prior : Expands tabWidth indent expanded) :
      Expands tabWidth (indent ++ [' ']) (expanded ++ [' '])
  | tab {indent expanded : Text} {count : Nat} (prior : Expands tabWidth indent expanded)
      (stop : IsNextStop tabWidth expanded.length (expanded.length + count)) :
      Expands tabWidth (indent ++ ['\t']) (expanded ++ List.replicate count ' ')

/-! ### The next stop -/

theorem isNextStop_advance (hWidth : 1 ≤ tabWidth) (column : Int) :
    IsNextStop tabWidth column (advance tabWidth column '\t') := by
  have hPast : 0 ≤ column.fmod tabWidth := Int.fmod_nonneg_of_pos column (by omega)
  have hLevel : column.fmod tabWidth < tabWidth := Int.fmod_lt_of_pos column (by omega)
  have hBefore : tabWidth ∣ column - column.fmod tabWidth := Int.dvd_self_sub_fmod
  have hNext : advance tabWidth column '\t' = column - column.fmod tabWidth + tabWidth := by
    simp [advance]
    omega
  rw [hNext]
  constructor
  · exact ⟨Int.dvd_add hBefore (Int.dvd_refl tabWidth), by omega⟩
  · rintro stop ⟨hStop, hBehind⟩
    -- From the stop at or before the column it is a positive multiple of the tab width as well.
    have hDistance : tabWidth ≤ stop - (column - column.fmod tabWidth) := by
      apply Int.le_of_dvd
      · omega
      · exact Int.dvd_sub hStop hBefore
    omega

/-! ### One more space or tabulator -/

theorem width_of_isIndent (tabWidth : Int) {indent : Text}
    (hIndent : ∀ c ∈ indent, isIndent c = true) :
    width tabWidth indent = indent.foldl (advance tabWidth) 0 := by
  rw [width, leading, List.takeWhile_eq_self_iff.mpr hIndent]

theorem isIndent_concat_iff {indent : Text} {c : Char} :
    (∀ x ∈ indent ++ [c], isIndent x = true) ↔
      (∀ x ∈ indent, isIndent x = true) ∧ isIndent c = true := by
  simp [or_imp, forall_and]

theorem width_concat (tabWidth : Int) {indent : Text} (hIndent : ∀ x ∈ indent, isIndent x = true)
    {c : Char} (hLast : isIndent c = true) :
    width tabWidth (indent ++ [c]) = advance tabWidth (width tabWidth indent) c := by
  have hWhole : ∀ x ∈ indent ++ [c], isIndent x = true := isIndent_concat_iff.mpr ⟨hIndent, hLast⟩
  rw [width_of_isIndent tabWidth hWhole, width_of_isIndent tabWidth hIndent, List.foldl_append,
    List.foldl_cons, List.foldl_nil]

theorem width_concat_space {indent : Text} (hIndent : ∀ x ∈ indent, isIndent x = true) :
    width tabWidth (indent ++ [' ']) = width tabWidth indent + 1 := by
  rw [width_concat tabWidth hIndent (by decide)]
  simp [advance]

theorem isNextStop_width_concat_tab (hWidth : 1 ≤ tabWidth) {indent : Text}
    (hIndent : ∀ x ∈ indent, isIndent x = true) :
    IsNextStop tabWidth (width tabWidth indent) (width tabWidth (indent ++ ['\t'])) := by
  rw [width_concat tabWidth hIndent (by decide)]
  exact isNextStop_advance hWidth _

/-! ### Tabulators as spaces -/

theorem spaces_append_replicate {column : Int} (hColumn : 0 ≤ column) (count : Nat) :
    spaces column ++ List.replicate count ' ' = spaces (column + count) := by
  have hSum : (column + count).toNat = column.toNat + count := by omega
  simp [spaces, hSum]

theorem length_spaces {column : Int} (hColumn : 0 ≤ column) :
    ((spaces column).length : Int) = column := by
  simp [spaces, hColumn]

theorem Expands.eq_spaces (hWidth : 1 ≤ tabWidth) {indent expanded : Text}
    (h : Expands tabWidth indent expanded) :
    (∀ c ∈ indent, isIndent c = true) ∧ expanded = spaces (width tabWidth indent) := by
  induction h with
  | nil => simp [spaces, width, leading]
  | @space indent expanded prior ih =>
      obtain ⟨hIndent, rfl⟩ := ih
      have hColumn := width_nonneg hWidth indent
      constructor
      · exact isIndent_concat_iff.mpr ⟨hIndent, by decide⟩
      · rw [width_concat_space hIndent]
        exact spaces_append_replicate hColumn 1
  | @tab indent expanded count prior stop ih =>
      obtain ⟨hIndent, rfl⟩ := ih
      have hColumn := width_nonneg hWidth indent
      rw [length_spaces hColumn] at stop
      constructor
      · exact isIndent_concat_iff.mpr ⟨hIndent, by decide⟩
      · have hSame := stop.unique (isNextStop_width_concat_tab hWidth hIndent)
        rw [spaces_append_replicate hColumn, hSame]

theorem expands_spaces (hWidth : 1 ≤ tabWidth) {indent : Text}
    (hIndent : ∀ c ∈ indent, isIndent c = true) :
    Expands tabWidth indent (spaces (width tabWidth indent)) := by
  -- A tabulator is expanded by where it stands, so the text in front of it comes first.
  induction indent using List.reverseRecOn with
  | nil => exact .nil
  | append_singleton indent c ih =>
      obtain ⟨hFront, hLast⟩ := isIndent_concat_iff.mp hIndent
      have hColumn := width_nonneg hWidth indent
      rcases isIndent_iff.mp hLast with rfl | rfl
      · rw [width_concat_space hFront]
        have hOne := spaces_append_replicate hColumn 1
        rw [Int.natCast_one] at hOne
        rw [← hOne]
        exact .space (ih hFront)
      · have hStop := isNextStop_width_concat_tab hWidth hFront
        obtain ⟨count, hCount⟩ := Int.le.dest (Int.le_of_lt hStop.1.2)
        rw [← hCount, ← spaces_append_replicate hColumn]
        apply Expands.tab (ih hFront)
        rw [length_spaces hColumn, hCount]
        exact hStop

/-- A text of spaces and tabulators is expanded in exactly one way, to as many spaces as it
reaches columns; no other text is expanded. -/
theorem expands_iff (hWidth : 1 ≤ tabWidth) {indent expanded : Text} :
    Expands tabWidth indent expanded ↔
      (∀ c ∈ indent, isIndent c = true) ∧ expanded = spaces (width tabWidth indent) := by
  constructor
  · exact Expands.eq_spaces hWidth
  · rintro ⟨hIndent, rfl⟩
    exact expands_spaces hWidth hIndent

theorem width_leading (tabWidth : Int) (line : Text) :
    width tabWidth (leading line) = width tabWidth line :=
  width_of_isIndent tabWidth fun _ => isIndent_of_mem_leading

/-! ### Placing and measuring -/

theorem body_ne_nil_iff {line : Text} : body line ≠ [] ↔ ∃ c ∈ line, isIndent c = false := by
  simp [body]

/-- To the left of the first column there is nothing, so a line goes no further than there. -/
theorem place_max_zero (line : Text) (column : Int) :
    place line (max 0 column) = place line column := by
  have hCount : (max 0 column).toNat = column.toNat := by omega
  simp [place, spaces, hCount]

theorem makePlaced_of_le {column : Int} (hRoom : column ≤ Number.greatestRoom) (line : Text) :
    makePlaced line column = .ok (place line column) := by
  rw [makePlaced_eq_ok_iff]
  simp [placeFault?, spacesFault?_eq_none_iff.mpr hRoom]

theorem measure_place (hWidth : 1 ≤ tabWidth) {line : Text} (hBody : body line ≠ [])
    (column : Int) : measure tabWidth (place line column) = .ok (max 0 column) := by
  rw [measure_eq_ok hWidth, ← place_max_zero, width_place tabWidth hBody (Int.le_max_left 0 column)]

/-- Columns and indentation are inverse, with tabulators that go to tab stops. A line with a
body measures the column where it was placed, and there is a place for it wherever there is
room for the spaces. A tabulator behind spaces and tabulators goes to the nearest multiple of
the tab width behind the column they reach. So what a line measures is the length of its
indentation once the tabulators are expanded, and the spaces up to that column are what the
indentation expands to. -/
theorem measure_tabStops (hWidth : 1 ≤ tabWidth) :
    (∀ (line : Text) (column : Int), (∃ c ∈ line, isIndent c = false) →
      (column ≤ Number.greatestRoom → ∃ placed, makePlaced line column = .ok placed ∧
        measure tabWidth placed = .ok (max 0 column)) ∧
      ∀ fault, makePlaced line column = .error fault ↔ TooFar column fault) ∧
    (∀ indent : Text, (∀ c ∈ indent, isIndent c = true) →
      ∃ column next, measure tabWidth indent = .ok column ∧
        measure tabWidth (indent ++ ['\t']) = .ok next ∧ IsNextStop tabWidth column next) ∧
    ∀ line : Text, ∃ expanded : Text,
      (∀ other, Expands tabWidth (leading line) other ↔ other = expanded) ∧
      measure tabWidth line = .ok expanded.length ∧ expanded = spaces expanded.length := by
  refine ⟨?_, ?_, ?_⟩
  · intro line column hInk
    have hBody : body line ≠ [] := body_ne_nil_iff.mpr hInk
    constructor
    · intro hRoom
      exact ⟨_, makePlaced_of_le hRoom line, measure_place hWidth hBody column⟩
    · intro fault
      simp [makePlaced_eq_error_iff, hBody]
  · intro indent hIndent
    exact ⟨_, _, measure_eq_ok hWidth _, measure_eq_ok hWidth _,
      isNextStop_width_concat_tab hWidth hIndent⟩
  · intro line
    have hLength := length_spaces (width_nonneg hWidth line)
    refine ⟨spaces (width tabWidth line), ?_, ?_, ?_⟩
    · intro other
      have hLeading : ∀ c ∈ leading line, isIndent c = true := fun _ => isIndent_of_mem_leading
      rw [expands_iff hWidth, width_leading]
      exact and_iff_right hLeading
    · rw [measure_eq_ok hWidth, hLength]
    · rw [hLength]

theorem measure_tabStops_four :
    (1 : Int) ≤ 4 ∧ (∃ c ∈ "\t x".toList, isIndent c = false) ∧ (6 : Int) ≤ Number.greatestRoom ∧
    makePlaced "\t x".toList 6 = .ok "      x".toList ∧ measure 4 "      x".toList = .ok 6 ∧
    (∀ c ∈ "\t ".toList, isIndent c = true) ∧ IsNextStop 4 5 8 ∧
    Expands 4 "  \t ".toList "     ".toList := by
  have hWidth : (1 : Int) ≤ 4 := by decide
  obtain ⟨hPlace, hStop, hExpand⟩ := measure_tabStops hWidth
  have hInk : ∃ c ∈ "\t x".toList, isIndent c = false := ⟨'x', by decide, rfl⟩
  have hRoom : (6 : Int) ≤ Number.greatestRoom := by decide
  have hIndent : ∀ c ∈ "\t ".toList, isIndent c = true := List.all_eq_true.mp rfl
  obtain ⟨placed, hPlaced, hMeasure⟩ := (hPlace "\t x".toList 6 hInk).1 hRoom
  have hText : makePlaced "\t x".toList 6 = .ok "      x".toList := by rfl
  obtain ⟨column, next, hColumn, hNext, hBehind⟩ := hStop "\t ".toList hIndent
  obtain ⟨expanded, hOnly, hLength, hSpaces⟩ := hExpand "  \t x".toList
  have hBefore : measure 4 "\t ".toList = .ok 5 := by decide
  have hAfter : measure 4 ("\t ".toList ++ ['\t']) = .ok 8 := by decide
  have hLine : measure 4 "  \t x".toList = .ok 5 := by decide
  rw [hText] at hPlaced
  cases hPlaced
  rw [hBefore] at hColumn
  cases hColumn
  rw [hAfter] at hNext
  cases hNext
  have hFive : (expanded.length : Int) = 5 := Except.ok.inj (hLength.symm.trans hLine)
  rw [hFive] at hSpaces
  exact ⟨hWidth, hInk, hRoom, hText, hMeasure, hIndent, hBehind, (hOnly _).mpr hSpaces.symm⟩

/-- There is no place for a line beyond every length. -/
theorem makePlaced_uncountable :
    ¬ ∀ (tabWidth : Int) (line : Text) (column : Int), 1 ≤ tabWidth →
      (∃ c ∈ line, isIndent c = false) →
      ∃ placed, makePlaced line column = .ok placed ∧
        measure tabWidth placed = .ok (max 0 column) := by
  intro hAll
  obtain ⟨placed, hPlaced, -⟩ := hAll 4 ['x'] 9223372036854775808 (by decide)
    ⟨'x', by decide, rfl⟩
  have hError : makePlaced ['x'] 9223372036854775808 = .error .uncountable := by rfl
  rw [hError] at hPlaced
  cases hPlaced

end ScriptEditor.Indent
