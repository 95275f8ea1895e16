import ScriptEditor.Proofs.Editor.Entering
import ScriptEditor.Proofs.Editor.OneStep
import ScriptEditor.Proofs.Indent.Reach

/-! Editors that can come about are well formed, and so the commands that lay out text can
always be carried out. All that can be missing is room for an indentation, and this takes a
tab width that is out of proportion to the text. -/
namespace ScriptEditor.Editor

open ScriptEditor.Document
open ScriptEditor.Indent
open ScriptEditor.Text (units)
open ScriptEditor.Script (commentMark)

variable {e : Editor} {d : Draft} {tabWidth reach : Int} {lines : List Text}

/-! ### How far lines reach -/

/-- No line begins further to the right. -/
def Reaches (tabWidth reach : Int) (lines : List Text) : Prop :=
  ∀ line ∈ lines, width tabWidth line ≤ reach

theorem units_le_of_sublist {t other : Text} (h : t.Sublist other) : units t ≤ units other := by
  induction h with
  | slnil => exact Nat.le_refl _
  | cons c _ ih =>
      rw [units]
      omega
  | cons_cons c _ ih =>
      rw [units, units]
      omega

/-- A text reaches as far as if it were all tabulators. -/
theorem reaches_units (hWidth : 1 ≤ tabWidth) (lines : List Text) :
    Reaches tabWidth (units lines.flatten * tabWidth) lines := by
  intro line hLine
  have hUnits : line.length ≤ units lines.flatten :=
    Nat.le_trans (length_le_units line) (units_le_of_sublist (List.sublist_flatten_of_mem hLine))
  exact Int.le_trans (width_le hWidth line) (level_mul_le hWidth hUnits)

theorem reaches_indentLine (hWidth : 1 ≤ tabWidth) (hReach : 0 ≤ reach)
    (h : Reaches tabWidth reach d.page.lines) {n : Nat} (hn : n < d.page.lines.length) :
    Reaches tabWidth (reach + tabWidth) (indentLine tabWidth d n).page.lines := by
  intro line hLine
  rw [lines_indentLine tabWidth hn] at hLine
  rcases List.mem_or_eq_of_mem_set hLine with hOld | rfl
  · have hOld := h line hOld
    omega
  · rw [columnIn, width_spaces_append tabWidth _ (columnAt_nonneg ..)]
    exact columnAt_le hWidth hReach fun line hLine => h line (List.mem_of_mem_take hLine)

/-- Lines are indented one after another as long as each one may go one tab width further
than the lines before. -/
theorem fault_indentLines (hWidth : 1 ≤ tabWidth) (hReach : 0 ≤ reach)
    (h : Reaches tabWidth reach d.page.lines) {ns : List Nat}
    (hns : ∀ n ∈ ns, n < d.page.lines.length)
    (hRoom : reach + ns.length * tabWidth ≤ Number.greatestRoom) :
    (indentLines tabWidth d ns).fault = none ∧
      Reaches tabWidth (reach + ns.length * tabWidth)
        (indentLines tabWidth d ns).draft.page.lines := by
  induction ns generalizing d reach with
  | nil => simpa [indentLines] using h
  | cons n rest ih =>
      have hn : n < d.page.lines.length := hns n (List.mem_cons_self ..)
      have hCount : reach + ((n :: rest).length : Int) * tabWidth =
          reach + tabWidth + rest.length * tabWidth := by
        rw [List.length_cons, Int.natCast_add, Int.add_mul, Int.natCast_one, Int.one_mul]
        omega
      rw [hCount] at hRoom ⊢
      have hNonneg := level_mul_nonneg hWidth rest.length
      have hColumn : columnIn tabWidth d n ≤ reach + tabWidth :=
        columnAt_le hWidth hReach fun line hLine => h line (List.mem_of_mem_take hLine)
      have hFits : spacesFault? (columnIn tabWidth d n) = none :=
        spacesFault?_eq_none_iff.mpr (by omega)
      rw [indentLines, hFits]
      exact ih (by omega) (reaches_indentLine hWidth hReach h hn)
        ((editsLine_indentLine tabWidth hn).bound_rest hns) hRoom

/-- Above the second half of a broken line are the lines above it and its first half. -/
theorem take_brokenLines {n : Nat} (hn : n < lines.length) (before after : Text) :
    (brokenLines lines n before after).take (n + 1) = lines.take n ++ [before] := by
  have hLength : (lines.take n ++ [before]).length = n + 1 := by
    simp [Nat.le_of_lt hn]
  rw [brokenLines_of_nat]
  exact List.take_left' hLength

theorem fault_breakAtCursor (hWidth : 1 ≤ tabWidth) (hReach : 0 ≤ reach)
    (h : Reaches tabWidth reach d.page.lines) (hCursor : d.page.cursor.line < d.page.lines.length)
    (hRoom : reach + tabWidth ≤ Number.greatestRoom) :
    (breakAtCursor tabWidth d).fault = none := by
  have hBroken : ∀ before after, width tabWidth before ≤ reach →
      spacesFault? (columnAt commentMark tabWidth
        (brokenLines d.page.lines d.page.cursor.line before after) (d.page.cursor.line + 1)) =
          none := by
    intro before after hBefore
    refine spacesFault?_eq_none_iff.mpr (Int.le_trans (columnAt_le hWidth hReach ?_) hRoom)
    intro line hLine
    rw [take_brokenLines hCursor] at hLine
    rcases List.mem_append.mp hLine with hAbove | hSame
    · exact h line (List.mem_of_mem_take hAbove)
    · rwa [List.mem_singleton.mp hSame]
  have hLine : d.page.lineAt d.page.cursor.line ∈ d.page.lines := by
    simp [Page.lineAt, hCursor]
  have hBefore := Int.le_trans (width_take_le hWidth (d.page.lineAt d.page.cursor.line)
    d.page.cursor.column) (h _ hLine)
  unfold breakAtCursor
  dsimp only
  rw [hBroken _ _ hBefore]

/-- Taking out text makes a page no longer. -/
theorem units_flatten_erase_le {page : Page} {a b : Pos} (ha : page.Holds a) (hb : page.Holds b)
    (hOrder : a.upTo b = true) :
    units (page.erase a b).lines.flatten ≤ units page.lines.flatten := by
  have hSeam := Page.units_seam ha b
  have hColumnA := ha.2
  have hColumnB := hb.2
  have hErased : units (page.erase a b).lines.flatten = units (page.lines.take a.line).flatten +
      (units (page.seam a b) + units (page.lines.drop (b.line + 1)).flatten) := by
    simp [Page.erase]
  have hWhole : units page.lines.flatten = units (page.lines.take a.line).flatten +
      (units (page.lineAt a.line) + units (page.lines.drop (a.line + 1)).flatten) := by
    conv_lhs => rw [← List.take_append_drop a.line page.lines]
    rw [List.flatten_append, Page.flatten_drop, Text.units_append, Text.units_append]
  rw [hErased, hWhole]
  rcases Pos.upTo_iff.mp hOrder with hLine | ⟨hLine, hColumn⟩
  · have hBelow : (page.lines.drop b.line).Sublist (page.lines.drop (a.line + 1)) :=
      List.drop_sublist_drop_left _ hLine
    have hUnits := units_le_of_sublist hBelow.flatten
    rw [Page.flatten_drop, Text.units_append] at hUnits
    omega
  · rw [hLine] at hColumnA ⊢
    omega

theorem units_flatten_eraseSelection_le (h : d.page.Sound) :
    units d.eraseSelection.page.lines.flatten ≤ units d.page.lines.flatten := by
  obtain ⟨hOrder, hStart, hStop⟩ := h.selection
  unfold Draft.eraseSelection
  dsimp only
  split_ifs
  · exact units_flatten_erase_le hStart hStop hOrder
  · exact Nat.le_refl _

/-! ### Why a command fails -/

/-- Why a command that lays out text fails, if it does. -/
def layoutFault? (e : Editor) : Layout → Option Indent.Fault
  | .breakLine => e.breakLine.fault
  | .indentCurrent => e.indentCurrent.fault
  | .indentSelection => e.indentSelection.fault
  | .outdentSelection => none
  | .indentAll => e.indentAllFault?

theorem fault_layout (e : Editor) (layout : Layout) :
    (e.run layout.command).2.fault = (e.layoutFault? layout).map .indent := by
  cases layout with
  | breakLine =>
      rw [Layout.command, run, fault_finishAttempt]
      rfl
  | indentCurrent => exact fault_finishAttempt e e.indentCurrent
  | indentSelection => exact fault_finishAttempt e e.indentSelection
  | outdentSelection => rfl
  | indentAll =>
      change e.indentAllLines.2.fault = e.indentAllFault?.map .indent
      unfold indentAllLines
      cases e.indentAllFault? <;> rfl

/-- There is no room for an indentation, or it cannot even be counted. -/
def LacksRoom (fault : Indent.Fault) : Prop :=
  fault = .uncountable ∨ fault = .noRoom

theorem lacksRoom_of_spacesFault? {column : Int} {fault : Indent.Fault}
    (h : spacesFault? column = some fault) : LacksRoom fault := by
  unfold spacesFault? at h
  split_ifs at h
  · exact Or.inl (Option.some.inj h).symm
  · exact Or.inr (Option.some.inj h).symm

theorem lacksRoom_of_indentLines {ns : List Nat} {fault : Indent.Fault}
    (h : (indentLines tabWidth d ns).fault = some fault) : LacksRoom fault := by
  induction ns generalizing d with
  | nil => cases h
  | cons n rest ih =>
      rw [indentLines] at h
      split at h
      · rename_i found hFault
        cases h
        exact lacksRoom_of_spacesFault? hFault
      · exact ih h

theorem lacksRoom_of_breakAtCursor {fault : Indent.Fault}
    (h : (breakAtCursor tabWidth d).fault = some fault) : LacksRoom fault := by
  unfold breakAtCursor at h
  dsimp only at h
  split at h
  · rename_i found hFault
    cases h
    exact lacksRoom_of_spacesFault? hFault
  · cases h

theorem lacksRoom_of_andThen {a : Attempt} {f : Draft → Attempt} {fault : Indent.Fault}
    (hFirst : ∀ found, a.fault = some found → LacksRoom found)
    (hNext : ∀ found, (f a.draft).fault = some found → LacksRoom found)
    (h : (a.andThen f).fault = some fault) : LacksRoom fault := by
  unfold Attempt.andThen at h
  split_ifs at h
  · exact hFirst fault h
  · exact hNext fault h

theorem lacksRoom_of_arrangeFault? (hWidth : 1 ≤ tabWidth) {fault : Indent.Fault}
    (h : arrangeFault? commentMark tabWidth lines = some fault) : LacksRoom fault := by
  have hPositive : ¬ tabWidth < 1 := by omega
  simp only [arrangeFault?, hPositive, decide_false, Bool.false_and, Bool.false_eq_true,
    if_false] at h
  have hNone : innerColumn tabWidth none = ((0 : Nat) : Int) * tabWidth := by simp [innerColumn]
  rw [arrangeFaultFrom?_eq_outline markApart_commentMark hWidth hNone] at h
  obtain ⟨entry, -, hFault⟩ := List.exists_of_findSome?_eq_some h
  unfold placeFault? at hFault
  split_ifs at hFault
  exact lacksRoom_of_spacesFault? hFault

theorem lacksRoom_of_layoutFault? (hWidth : 1 ≤ e.tabWidth) {layout : Layout}
    {fault : Indent.Fault} (h : e.layoutFault? layout = some fault) : LacksRoom fault := by
  have hCurrent : ∀ found, e.indentCurrent.fault = some found → LacksRoom found := fun found =>
    lacksRoom_of_andThen (fun _ => lacksRoom_of_indentLines) (fun _ => nofun)
  cases layout with
  | breakLine =>
      refine lacksRoom_of_andThen ?_ ?_ h
      · exact fun _ => lacksRoom_of_indentLines
      · exact fun _ => lacksRoom_of_breakAtCursor
  | indentCurrent => exact hCurrent fault h
  | indentSelection =>
      change (indentSelection e).fault = some fault at h
      unfold indentSelection at h
      split_ifs at h
      · exact lacksRoom_of_indentLines h
      · exact hCurrent fault h
  | outdentSelection => cases h
  | indentAll => exact lacksRoom_of_arrangeFault? hWidth h

/-! ### No command fails where there is room -/

/-- There is room for the text even if each of its characters and line breaks, and one
more, goes a whole tab width to the right. -/
def Roomy (e : Editor) : Prop :=
  ((units e.page.lines.flatten + e.page.lines.length + 1 : Nat) : Int) * e.tabWidth ≤
    Number.greatestRoom

instance (e : Editor) : Decidable e.Roomy :=
  inferInstanceAs (Decidable (_ ≤ _))

theorem fault_breakLine (h : e.Sound)
    (hRoom : units e.page.lines.flatten * e.tabWidth + e.tabWidth + e.tabWidth ≤
      Number.greatestRoom) : e.breakLine.fault = none := by
  have hWidth := h.tabWidth
  have hErase : e.draft.Leads e.draft.eraseSelection := .eraseSelection h.page
  have hErased := hErase.sound h.page
  have hUnits : units e.draft.eraseSelection.page.lines.flatten * e.tabWidth ≤
      units e.page.lines.flatten * e.tabWidth :=
    level_mul_le hWidth (@units_flatten_eraseSelection_le e.draft h.page)
  have hReach := level_mul_nonneg hWidth (units e.draft.eraseSelection.page.lines.flatten)
  have hLines := reaches_units hWidth e.draft.eraseSelection.page.lines
  obtain ⟨closers, hClosers, hBreak⟩ := breakLine_eq e
  have hns : ∀ n ∈ closers, n < e.draft.eraseSelection.page.lines.length := by
    intro n hn
    rcases hClosers with rfl | rfl
    · cases hn
    · rw [List.mem_singleton.mp hn]
      exact hErased.cursor.1
  have hCount : (closers.length : Int) * e.tabWidth ≤ e.tabWidth := by
    rcases hClosers with rfl | rfl
    · simp only [List.length_nil, Int.natCast_zero, Int.zero_mul]
      omega
    · simp
  obtain ⟨hFault, hIndented⟩ := fault_indentLines hWidth hReach hLines hns (by omega)
  have hNonneg := level_mul_nonneg hWidth closers.length
  have hSound := (leads_indentLines e.tabWidth hns).sound hErased
  rw [hBreak, Attempt.andThen, hFault]
  exact fault_breakAtCursor hWidth (by omega) hIndented hSound.cursor.1 (by omega)

theorem indentAllFault?_eq_none (hWidth : 1 ≤ e.tabWidth)
    (hRoom : e.page.lines.length * e.tabWidth ≤ Number.greatestRoom) :
    e.indentAllFault? = none := by
  have hArranged := @arrangeAll_of_room e.tabWidth hWidth e.page.lines fun k => by
    have hLevel := levelAfterAll_le commentMark 0 (e.page.lines.take k)
    have hTake : (e.page.lines.take k).length ≤ e.page.lines.length :=
      (List.take_sublist k _).length_le
    exact Int.le_trans (level_mul_le hWidth (by omega)) hRoom
  unfold arrangeAll at hArranged
  unfold indentAllFault?
  cases hFault : arrangeFault? commentMark e.tabWidth e.page.lines with
  | none => rfl
  | some fault =>
      rw [hFault] at hArranged
      cases hArranged

theorem layoutFault?_eq_none (h : e.Sound) (hRoomy : e.Roomy) (layout : Layout) :
    e.layoutFault? layout = none := by
  have hWidth := h.tabWidth
  have hReach := level_mul_nonneg hWidth (units e.page.lines.flatten)
  have hLines := reaches_units hWidth e.page.lines
  have hOne : (1 : Nat) * e.tabWidth ≤ e.page.lines.length * e.tabWidth :=
    level_mul_le hWidth h.page.lines_pos
  have hRoom : units e.page.lines.flatten * e.tabWidth + e.page.lines.length * e.tabWidth +
      e.tabWidth ≤ Number.greatestRoom := by
    have hWhole := hRoomy
    unfold Roomy at hWhole
    rwa [Int.natCast_add, Int.natCast_add, Int.add_mul, Int.add_mul, Int.natCast_one,
      Int.one_mul] at hWhole
  have hFits (ns : List Nat) (hns : ∀ n ∈ ns, n < e.page.lines.length)
      (hCount : ns.length ≤ e.page.lines.length) :
      (indentLines e.tabWidth e.draft ns).fault = none := by
    have hMul := level_mul_le hWidth hCount
    exact (@fault_indentLines e.draft _ _ hWidth hReach hLines ns hns (by omega)).1
  have hCurrent : e.indentCurrent.fault = none := by
    have hOnly := hFits [e.page.cursor.line] (cursorLine_lt h.page) h.page.lines_pos
    unfold indentCurrent Attempt.andThen
    dsimp only
    rw [hOnly]
    rfl
  cases layout with
  | breakLine => exact fault_breakLine h (by omega)
  | indentCurrent => exact hCurrent
  | indentSelection =>
      change (indentSelection e).fault = none
      unfold indentSelection
      split_ifs
      · refine hFits _ (selectedLines_lt h.page) ?_
        have hStop := h.page.selection.2.2.1
        rw [selectedLines, List.length_drop, List.length_range]
        omega
      · exact hCurrent
  | outdentSelection => rfl
  | indentAll => exact indentAllFault?_eq_none hWidth (by omega)

end ScriptEditor.Editor
