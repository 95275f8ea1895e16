import ScriptEditor.Proofs.Document.Sound
import ScriptEditor.Proofs.Editor.LineBreak
import ScriptEditor.Proofs.Indent.Outdent

/-! Edits of the indentation of single lines. Indenting a line and taking a level of
indentation from it both put another indentation before the body of the line, and leave
every other line alone. Commands on several lines are chains of such edits. -/
namespace ScriptEditor.Editor

open ScriptEditor.Document
open ScriptEditor.Indent
open ScriptEditor.Text (units isIndent)

/-- Lines that differ from others only in their indentation, and only in a range. -/
structure OnlyIndents (within : Nat → Prop) (lines others : List Text) : Prop where
  bodies : others.map body = lines.map body
  outside : ∀ i, ¬ within i → others[i]? = lines[i]?

namespace OnlyIndents

variable {within wider : Nat → Prop} {lines mid others : List Text}

theorem refl (within : Nat → Prop) (lines : List Text) : OnlyIndents within lines lines :=
  ⟨rfl, fun _ _ => rfl⟩

theorem trans (first : OnlyIndents within lines mid) (last : OnlyIndents within mid others) :
    OnlyIndents within lines others :=
  ⟨last.bodies.trans first.bodies, fun i hi => (last.outside i hi).trans (first.outside i hi)⟩

theorem mono (h : OnlyIndents within lines others) (hWider : ∀ i, within i → wider i) :
    OnlyIndents wider lines others :=
  ⟨h.bodies, fun i hi => h.outside i fun hWithin => hi (hWider i hWithin)⟩

theorem length_eq (h : OnlyIndents within lines others) : others.length = lines.length := by
  simpa using congrArg List.length h.bodies

/-- Another indentation before the body of one line. -/
theorem set {n : Nat} {line : Text} (hBody : body line = body (lines.getD n [])) :
    OnlyIndents (· = n) lines (lines.set n line) := by
  constructor
  · refine List.ext_getElem? fun i => ?_
    rw [List.getElem?_map, List.getElem?_map, List.getElem?_set]
    split_ifs with hLine hBound
    · subst hLine
      simp [hBody, hBound]
    · subst hLine
      simp [hBound]
    · rfl
  · intro i hi
    exact List.getElem?_set_ne fun hSame => hi hSame.symm

end OnlyIndents

/-- An edit of the indentation of one line, of which note is taken exactly if it changes
the line. -/
structure EditsLine (d : Draft) (n : Nat) (next : Draft) : Prop where
  leads : d.Leads next
  lines : ∃ line, body line = body (d.page.lineAt n) ∧ next.page.lines = d.page.lines.set n line
  edited_iff : next.edited = true ↔ d.edited = true ∨ next.page.lines ≠ d.page.lines

/-- Edits of the indentation of lines one after another. -/
inductive EditsLines : Draft → List Nat → Draft → Prop where
  | nil (d : Draft) : EditsLines d [] d
  | cons {d mid next : Draft} {n : Nat} {rest : List Nat} (first : EditsLine d n mid)
      (others : EditsLines mid rest next) : EditsLines d (n :: rest) next

variable {d next : Draft} {n : Nat} {front back : Text}

/-- Lines that are there are still there after one of them was edited. -/
theorem EditsLine.bound_rest (h : EditsLine d n next) {rest : List Nat}
    (hns : ∀ m ∈ n :: rest, m < d.page.lines.length) : ∀ m ∈ rest, m < next.page.lines.length := by
  intro m hm
  obtain ⟨line, -, hLines⟩ := h.lines
  rw [hLines, List.length_set]
  exact hns m (List.mem_cons_of_mem _ hm)

/-! ### Edits at the beginning of a line -/

theorem lines_erase_front (hn : n < d.page.lines.length) (hLine : d.page.lineAt n = front ++ back) :
    (d.erase ⟨n, 0⟩ ⟨n, units front⟩).page.lines = d.page.lines.set n back := by
  have hGet : d.page.lines.getD n [] = front ++ back := hLine
  unfold Draft.erase
  split_ifs with hSame
  · have hEmpty : front = [] := units_eq_zero_iff.mp (congrArg Pos.column hSame).symm
    have hBack : d.page.lines[n] = back := by simpa [hn, hEmpty] using hGet
    rw [← hBack, List.set_getElem_self]
  · have hSeam : d.page.seam ⟨n, 0⟩ ⟨n, units front⟩ = back :=
      @Page.seam_units d.page n n [] _ _ _ hLine hLine
    simp only [Page.erase, hSeam]
    rw [List.set_eq_take_append_cons_drop, if_pos hn]

theorem lines_insert_front (hn : n < d.page.lines.length) {row : Text} (hRow : IsRow row) :
    (d.insert ⟨n, 0⟩ row).page.lines = d.page.lines.set n (row ++ d.page.lineAt n) := by
  unfold Draft.insert
  dsimp only
  split_ifs with hEmpty
  · have hLine : d.page.lineAt n = d.page.lines[n] := by simp [Page.lineAt, hn]
    rw [List.isEmpty_iff.mp hEmpty, List.nil_append, hLine, List.set_getElem_self]
  · have hStart : d.page.index ⟨n, 0⟩ = 0 := @Page.index_units d.page n [] _ rfl
    simp only [Page.insert, Rows.graft, hStart, hRow.linesOf_eq, Rows.weave, List.take_zero,
      List.nil_append, List.drop_zero]
    rw [List.set_eq_take_append_cons_drop, if_pos hn, List.append_assoc]
    rfl

/-- Text within a line that takes the place of what the line begins with. -/
theorem lines_replace_front (hn : n < d.page.lines.length)
    (hLine : d.page.lineAt n = front ++ back) {row : Text} (hRow : IsRow row) :
    (d.replace ⟨n, 0⟩ ⟨n, units front⟩ row).page.lines = d.page.lines.set n (row ++ back) := by
  have hErased := lines_erase_front hn hLine
  have hBound : n < (d.erase ⟨n, 0⟩ ⟨n, units front⟩).page.lines.length := by
    simpa [hErased] using hn
  have hBack : (d.erase ⟨n, 0⟩ ⟨n, units front⟩).page.lineAt n = back := by
    simp [Page.lineAt, hErased, hn]
  rw [Draft.replace, lines_insert_front hBound hRow, hBack, hErased, List.set_set]

/-! ### One line -/

theorem set_eq_self_iff {lines : List Text} (hn : n < lines.length) {line : Text} :
    lines.set n line = lines ↔ line = lines.getD n [] := by
  have hGet : lines.getD n [] = lines[n] := by simp [hn]
  rw [hGet]
  constructor
  · intro hSame
    have hAt : (lines.set n line)[n]? = lines[n]? := by rw [hSame]
    simpa [hn] using hAt
  · rintro rfl
    exact List.set_getElem_self hn

theorem lines_indentLine (tabWidth : Int) (hn : n < d.page.lines.length) :
    (indentLine tabWidth d n).page.lines =
      d.page.lines.set n (spaces (columnIn tabWidth d n) ++ body (d.page.lineAt n)) := by
  unfold indentLine
  dsimp only
  split_ifs with hSame
  · rw [← hSame, leading_append_body]
    exact ((set_eq_self_iff hn).mpr rfl).symm
  · rw [← units_leading]
    exact lines_replace_front hn (leading_append_body _).symm (isRow_spaces _)

theorem editsLine_indentLine (tabWidth : Int) (hn : n < d.page.lines.length) :
    EditsLine d n (indentLine tabWidth d n) := by
  have hBody : body (spaces (columnIn tabWidth d n) ++ body (d.page.lineAt n)) =
      body (d.page.lineAt n) := by
    rw [body_spaces_append, body_body]
  have hLines := lines_indentLine tabWidth hn
  refine ⟨?_, ⟨_, hBody, hLines⟩, ?_⟩
  · unfold indentLine
    dsimp only
    split_ifs
    · exact .refl d
    · rw [← units_leading]
      exact .replace_front hn (List.takeWhile_prefix _) _
  · -- The line is another one exactly if its indentation is.
    rw [hLines, ne_eq, set_eq_self_iff hn]
    have hSame : spaces (columnIn tabWidth d n) ++ body (d.page.lineAt n) =
        d.page.lines.getD n [] ↔ leading (d.page.lineAt n) = spaces (columnIn tabWidth d n) := by
      change _ = d.page.lineAt n ↔ _
      conv_lhs => rhs; rw [← leading_append_body (d.page.lineAt n)]
      rw [List.append_left_inj, eq_comm]
    rw [hSame]
    unfold indentLine
    dsimp only
    split_ifs with hEqual
    · simp [hEqual]
    · have hNoted : (d.replace ⟨n, 0⟩ ⟨n, (leading (d.page.lineAt n)).length⟩
          (spaces (columnIn tabWidth d n))).edited = true := by
        by_contra hNot
        simp only [Draft.edited_replace, Bool.or_eq_true, not_or, decide_eq_true_eq, ne_eq, not_not,
          Pos.mk.injEq, true_and, Bool.not_eq_true', Bool.not_eq_false, List.isEmpty_iff] at hNot
        obtain ⟨⟨-, hOld⟩, hNew⟩ := hNot
        exact hEqual ((List.eq_nil_of_length_eq_zero hOld.symm).trans hNew.symm)
      exact iff_of_true hNoted (Or.inr hEqual)

theorem outdentLine_eq_erase {tabWidth : Int} (hWidth : 1 ≤ tabWidth) (d : Draft) (n : Nat) :
    ∃ front, d.page.lineAt n = front ++ outdent tabWidth (d.page.lineAt n) ∧
      outdentLine tabWidth d n = d.erase ⟨n, 0⟩ ⟨n, units front⟩ := by
  obtain ⟨front, hLine, hIndent⟩ := outdent_front hWidth (d.page.lineAt n)
  refine ⟨front, hLine, ?_⟩
  have hLength := congrArg List.length hLine
  rw [List.length_append] at hLength
  have hUnits : (d.page.lineAt n).length - (outdent tabWidth (d.page.lineAt n)).length =
      units front := by
    rw [units_of_isIndent hIndent]
    omega
  simp only [outdentLine, hUnits]

theorem editsLine_outdentLine {tabWidth : Int} (hWidth : 1 ≤ tabWidth)
    (hn : n < d.page.lines.length) : EditsLine d n (outdentLine tabWidth d n) := by
  obtain ⟨front, hLine, hErase⟩ := outdentLine_eq_erase hWidth d n
  have hLines := lines_erase_front hn hLine
  rw [hErase]
  -- Taking out is putting in nothing in its place.
  have hLeads : d.Leads (d.erase ⟨n, 0⟩ ⟨n, units front⟩) :=
    .replace_front hn ⟨_, hLine.symm⟩ []
  refine ⟨hLeads, ⟨_, body_outdent hWidth _, hLines⟩, ?_⟩
  have hSame : outdent tabWidth (d.page.lineAt n) = d.page.lines.getD n [] ↔ front = [] := by
    constructor
    · intro hEq
      have hFront : [] ++ outdent tabWidth (d.page.lineAt n) =
          front ++ outdent tabWidth (d.page.lineAt n) := hEq.trans hLine
      exact (List.append_cancel_right hFront).symm
    · rintro rfl
      exact hLine.symm
  have hPlace : (⟨n, 0⟩ : Pos) = ⟨n, units front⟩ ↔ front = [] := by
    rw [Pos.mk.injEq, eq_comm (a := 0), units_eq_zero_iff, eq_self, true_and]
  rw [hLines, ne_eq, set_eq_self_iff hn, hSame, Draft.edited_erase, Bool.or_eq_true,
    decide_eq_true_eq, ne_eq, hPlace]

/-! ### Several lines -/

namespace EditsLines

variable {ns : List Nat}

theorem leads (h : EditsLines d ns next) : d.Leads next := by
  induction h with
  | nil d => exact .refl d
  | cons first others ih => exact first.leads.trans ih

theorem onlyIndents (h : EditsLines d ns next) :
    OnlyIndents (· ∈ ns) d.page.lines next.page.lines := by
  induction h with
  | nil d => exact .refl _ _
  | cons first others ih =>
      obtain ⟨line, hBody, hLines⟩ := first.lines
      have hFirst := OnlyIndents.set hBody
      rw [← hLines] at hFirst
      refine (hFirst.mono fun i hi => ?_).trans (ih.mono fun i hi => ?_)
      · exact hi ▸ List.mem_cons_self ..
      · exact List.mem_cons_of_mem _ hi

/-- Edits of different lines are noted exactly if the lines differ in the end: no edit
takes back what another one did. -/
theorem edited_iff (h : EditsLines d ns next) (hDistinct : ns.Nodup) :
    next.edited = true ↔ d.edited = true ∨ next.page.lines ≠ d.page.lines := by
  induction h with
  | nil d => simp
  | @cons d mid next n rest first others ih =>
      obtain ⟨hNew, hRest⟩ := List.nodup_cons.mp hDistinct
      obtain ⟨line, -, hLines⟩ := first.lines
      -- The other edits leave line `n` alone, so its first edit is still there in the end.
      have hKept : next.page.lines = d.page.lines → mid.page.lines = d.page.lines := by
        intro hSame
        refine List.ext_getElem? fun i => ?_
        by_cases hi : i = n
        · subst hi
          rw [← others.onlyIndents.outside i hNew, hSame]
        · rw [hLines, List.getElem?_set_ne fun hEq => hi hEq.symm]
      rw [ih hRest, first.edited_iff, or_assoc]
      refine or_congr Iff.rfl ⟨?_, ?_⟩
      · rintro (hFirst | hLast) hSame
        · exact hFirst (hKept hSame)
        · exact hLast (hSame.trans (hKept hSame).symm)
      · intro hDiffer
        by_cases hMid : mid.page.lines = d.page.lines
        · exact Or.inr (hMid ▸ hDiffer)
        · exact Or.inl hMid

end EditsLines

theorem indentLines_singleton (tabWidth : Int) (d : Draft) (n : Nat) :
    (∃ fault, spacesFault? (columnIn tabWidth d n) = some fault ∧
        indentLines tabWidth d [n] = ⟨d, some fault⟩) ∨
      spacesFault? (columnIn tabWidth d n) = none ∧
        indentLines tabWidth d [n] = { draft := indentLine tabWidth d n } := by
  rw [indentLines]
  cases hFault : spacesFault? (columnIn tabWidth d n) with
  | some fault => exact Or.inl ⟨fault, rfl, rfl⟩
  | none => exact Or.inr ⟨rfl, rfl⟩

/-- Where a column goes that is carried along with its character. -/
theorem toNat_carry (offset before : Nat) (column : Int) :
    (carry offset before (max 0 column)).toNat = offset - before + column.toNat := by
  unfold carry
  split_ifs <;> omega

theorem editsLines_indentLines (tabWidth : Int) {ns : List Nat}
    (hns : ∀ n ∈ ns, n < d.page.lines.length) :
    ∃ done, done <+: ns ∧ EditsLines d done (indentLines tabWidth d ns).draft := by
  induction ns generalizing d with
  | nil => exact ⟨[], List.prefix_rfl, .nil d⟩
  | cons n rest ih =>
      rw [indentLines]
      split
      · exact ⟨[], List.nil_prefix, .nil d⟩
      · have hFirst := editsLine_indentLine tabWidth (hns n (List.mem_cons_self ..))
        obtain ⟨done, hDone, hOthers⟩ := ih (hFirst.bound_rest hns)
        exact ⟨n :: done, List.cons_prefix_cons.mpr ⟨rfl, hDone⟩, .cons hFirst hOthers⟩

theorem editsLines_outdentLines {tabWidth : Int} (hWidth : 1 ≤ tabWidth) {ns : List Nat}
    (hns : ∀ n ∈ ns, n < d.page.lines.length) :
    EditsLines d ns (ns.foldl (outdentLine tabWidth) d) := by
  induction ns generalizing d with
  | nil => exact .nil d
  | cons n rest ih =>
      have hFirst := editsLine_outdentLine hWidth (hns n (List.mem_cons_self ..))
      exact .cons hFirst (ih (hFirst.bound_rest hns))

end ScriptEditor.Editor
