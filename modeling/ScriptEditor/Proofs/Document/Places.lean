import ScriptEditor.Proofs.Document.Content

/-! Places of a page. A page holds a place if its line is there and its column is not
behind the end of the line; the place may be between the two units of one character. An edit
between two such places leaves every place on the page, and so does each way of the
cursor. -/
namespace ScriptEditor.Document

open ScriptEditor.Text (units takeUnits dropEndWhile beforeLastWord)

theorem units_le_of_begins {front line : Text} (h : front <+: line) : units front ≤ units line := by
  obtain ⟨back, rfl⟩ := h
  rw [Text.units_append]
  exact Nat.le_add_right _ _

theorem units_takeUnits_le (n : Nat) (t : Text) : units (takeUnits n t) ≤ n := by
  fun_induction takeUnits n t with
  | case1 n => exact Nat.zero_le n
  | case2 n c t hFits ih =>
      rw [units]
      omega
  | case3 n c t hFits => exact Nat.zero_le n

/-- At most one unit is left over before the next character. -/
theorem le_units_takeUnits {n : Nat} {t : Text} (h : n ≤ units t) : n ≤ units (takeUnits n t) + 1 := by
  fun_induction takeUnits n t with
  | case1 n => exact Nat.le_succ_of_le h
  | case2 n c t hFits ih =>
      rw [units] at h ⊢
      have hRest := ih (by omega)
      omega
  | case3 n c t hFits =>
      have hWidth := Utf16.unitWidth_le c
      omega

theorem dropEndWhile_begins (p : Char → Bool) (t : Text) : dropEndWhile p t <+: t := by
  have hSuffix := (List.dropWhile_suffix p (l := t.reverse)).reverse
  rwa [List.reverse_reverse] at hSuffix

theorem beforeLastWord_begins (t : Text) : beforeLastWord t <+: t := by
  unfold beforeLastWord
  dsimp only
  split_ifs
  · exact (dropEndWhile_begins _ _).trans (dropEndWhile_begins _ _)
  · exact (dropEndWhile_begins _ _).trans (dropEndWhile_begins _ _)

theorem Pos.before_iff {p q : Pos} :
    p.before q = true ↔ p.line < q.line ∨ p.line = q.line ∧ p.column < q.column := by
  simp [Pos.before]

namespace Page

variable {page : Page} {p q a b : Pos} {n : Nat}

/-- The page has the line, and the line reaches to the column. -/
def Holds (page : Page) (p : Pos) : Prop :=
  p.line < page.lines.length ∧ p.column ≤ units (page.lineAt p.line)

theorem units_lineBefore_le (page : Page) (p : Pos) : units (page.lineBefore p) ≤ p.column := by
  rw [lineBefore, index, Text.take_charsWithin]
  exact units_takeUnits_le _ _

theorem IsPlace.holds (h : page.IsPlace p) : page.Holds p := by
  refine ⟨h.1, ?_⟩
  rw [h.2]
  exact units_le_of_begins (List.take_prefix _ _)

/-- A place behind a part of a line. -/
theorem isPlace_of_begins {front : Text} (hn : n < page.lines.length)
    (h : front <+: page.lineAt n) : page.IsPlace ⟨n, units front⟩ := by
  obtain ⟨back, hLine⟩ := h
  refine ⟨hn, ?_⟩
  rw [lineBefore_units hLine.symm]

theorem isPlace_placeAt (hn : n < page.lines.length) (i : Nat) :
    page.IsPlace (page.placeAt n i) :=
  isPlace_of_begins hn (List.take_prefix _ _)

/-! ### Edits -/

theorem units_seam (ha : page.Holds a) (b : Pos) :
    units (page.seam a b) = a.column + (units (page.lineAt b.line) - b.column) := by
  rw [seam, Utf16.units_toText, List.length_append, List.length_take, List.length_drop,
    Utf16.length_ofText, Utf16.length_ofText, Nat.min_eq_left ha.2]

theorem lineAt_erase_above (ha : a.line < page.lines.length) (hn : n < a.line) :
    (page.erase a b).lineAt n = page.lineAt n := by
  have hTake : n < (page.lines.take a.line).length := by
    rw [List.length_take]
    omega
  simp only [lineAt, erase, List.getD_eq_getElem?_getD]
  rw [List.getElem?_append_left hTake, List.getElem?_take_of_lt hn]

theorem lineAt_erase_seam (ha : a.line < page.lines.length) :
    (page.erase a b).lineAt a.line = page.seam a b := by
  have hTake := List.length_take_of_le (Nat.le_of_lt ha)
  simp only [lineAt, erase, List.getD_eq_getElem?_getD]
  rw [List.getElem?_append_right (Nat.le_of_eq hTake), hTake, Nat.sub_self]
  rfl

theorem lineAt_erase_below (ha : a.line < page.lines.length) (hOrder : a.line ≤ b.line)
    (hn : b.line < n) : (page.erase a b).lineAt (n - (b.line - a.line)) = page.lineAt n := by
  have hTake := List.length_take_of_le (Nat.le_of_lt ha)
  simp only [lineAt, erase, List.getD_eq_getElem?_getD]
  rw [List.getElem?_append_right (by omega), hTake, List.getElem?_cons, if_neg (by omega),
    List.getElem?_drop]
  congr 2
  omega

/-- A place stays on the page when text before it or around it is taken out. -/
theorem Holds.afterErase (hp : page.Holds p) (ha : page.Holds a) (hb : page.Holds b)
    (hOrder : a.upTo b = true) : (page.erase a b).Holds (p.afterErase a b) := by
  have hSeam := units_seam ha b
  have hAbove : a.line ≤ b.line := by
    rw [Pos.upTo_iff] at hOrder
    omega
  refine ⟨?_, ?_⟩
  · rw [length_erase hAbove hb.1]
    exact Pos.afterErase_line_lt hAbove hb.1 hp.1
  · unfold Pos.afterErase
    split_ifs with hBefore hWithin hSame
    · rcases Pos.upTo_iff.mp hBefore with hLine | ⟨hLine, hColumn⟩
      · rw [lineAt_erase_above ha.1 hLine]
        exact hp.2
      · rw [hLine, lineAt_erase_seam ha.1]
        omega
    · rw [lineAt_erase_seam ha.1]
      omega
    · have hLine : p.line = b.line := by simpa using hSame
      have hColumn := hp.2
      rw [hLine] at hColumn
      change a.column + (p.column - b.column) ≤ units ((page.erase a b).lineAt a.line)
      rw [lineAt_erase_seam ha.1]
      omega
    -- A place on a later line goes up with its line.
    · have hLine : p.line ≠ b.line := by simpa using hSame
      rw [Pos.upTo_iff] at hWithin
      change p.column ≤ units ((page.erase a b).lineAt (p.line - (b.line - a.line)))
      rw [lineAt_erase_below ha.1 hAbove (by omega)]
      exact hp.2

theorem lineAt_insert_above (ha : a.line < page.lines.length) (hn : n < a.line) (rows : List Text)
    (stamp : Nat) : (page.insert a rows stamp).lineAt n = page.lineAt n := by
  have hTake : n < (page.lines.take a.line).length := by
    rw [List.length_take]
    omega
  simp only [lineAt, insert, Rows.graft, List.getD_eq_getElem?_getD, List.append_assoc]
  rw [List.getElem?_append_left hTake, List.getElem?_take_of_lt hn]

theorem lineAt_insert_below (ha : a.line < page.lines.length) (hn : a.line < n) {rows : List Text}
    (hRows : rows ≠ []) (stamp : Nat) :
    (page.insert a rows stamp).lineAt (n + (rows.length - 1)) = page.lineAt n := by
  have hTake := List.length_take_of_le (Nat.le_of_lt ha)
  have hPos : 0 < rows.length := List.length_pos_iff.mpr hRows
  simp only [lineAt, insert, Rows.graft, List.getD_eq_getElem?_getD, List.append_assoc]
  rw [List.getElem?_append_right (by omega), hTake,
    List.getElem?_append_right (by rw [Rows.length_weave _ hRows]; omega),
    Rows.length_weave _ hRows, List.getElem?_drop]
  congr 2
  omega

/-- The line where rows of text are put in begins with the part before them. -/
theorem lineBefore_prefix_insert (ha : a.line < page.lines.length) {rows : List Text}
    (hRows : rows ≠ []) (stamp : Nat) :
    page.lineBefore a <+: (page.insert a rows stamp).lineAt a.line := by
  have hTake := List.length_take_of_le (Nat.le_of_lt ha)
  obtain ⟨row, rest, rfl⟩ := List.exists_cons_of_ne_nil hRows
  simp only [lineAt, insert, Rows.graft, List.getD_eq_getElem?_getD, List.append_assoc]
  rw [List.getElem?_append_right (Nat.le_of_eq hTake), hTake, Nat.sub_self]
  cases rest with
  | nil =>
      rw [Rows.weave, List.append_assoc]
      exact List.prefix_append _ _
  | cons next rest => exact List.prefix_append _ _

theorem lineAt_insert_row (ha : a.line < page.lines.length) (row : Text) (stamp : Nat) :
    (page.insert a [row] stamp).lineAt a.line = page.lineBefore a ++ row ++ page.lineBehind a := by
  have hTake := List.length_take_of_le (Nat.le_of_lt ha)
  simp only [lineAt, insert, Rows.graft, List.getD_eq_getElem?_getD, List.append_assoc]
  rw [List.getElem?_append_right (Nat.le_of_eq hTake), hTake, Nat.sub_self]
  exact List.append_assoc _ _ _

/-- Behind the last of several rows of text comes what was behind the place. -/
theorem lineAt_insert_last (ha : a.line < page.lines.length) (row : Text) (rows : List Text)
    (last : Text) (stamp : Nat) :
    (page.insert a (row :: (rows ++ [last])) stamp).lineAt (a.line + (rows.length + 1)) =
      last ++ page.lineBehind a := by
  have hTake := List.length_take_of_le (Nat.le_of_lt ha)
  simp only [lineAt, insert, Rows.graft, Rows.weave_concat, List.getD_eq_getElem?_getD,
    List.append_assoc]
  rw [List.getElem?_append_right (by omega), hTake, Nat.add_sub_cancel_left]
  simp [lineBehind, lineAt]

/-- A place stays on the page when text is put in. -/
theorem Holds.afterInsert (hp : page.Holds p) (ha : page.Holds a) {rows : List Text}
    (hRows : rows ≠ []) (stamp : Nat) :
    (page.insert a rows stamp).Holds (p.afterInsert a rows) := by
  have hUnits := congrArg units (page.lineBefore_append_lineBehind a)
  rw [Text.units_append] at hUnits
  have hBefore := page.units_lineBefore_le a
  refine ⟨?_, ?_⟩
  · rw [length_insert ha.1 hRows]
    exact Pos.afterInsert_line_lt hp.1 a rows
  · unfold Pos.afterInsert
    dsimp only
    split_ifs with hEarlier hSame hRow
    · rcases Pos.before_iff.mp hEarlier with hLine | ⟨hLine, hColumn⟩
      · rw [lineAt_insert_above ha.1 hLine]
        exact hp.2
      -- Of the units before `a` at most one is missing in the part of the line before it.
      · have hNear : a.column ≤ units (page.lineBefore a) + 1 := by
          rw [lineBefore, index, Text.take_charsWithin]
          exact le_units_takeUnits ha.2
        have hFront := units_le_of_begins (lineBefore_prefix_insert ha.1 hRows stamp)
        rw [hLine]
        omega
    · have hLine : p.line = a.line := by simpa using hSame
      have hColumn := hp.2
      have hOne : rows.length = 1 := by
        have hPos := List.length_pos_iff.mpr hRows
        omega
      obtain ⟨row, rfl⟩ := List.length_eq_one_iff.mp hOne
      change p.column + units row ≤ units ((page.insert a [row] stamp).lineAt p.line)
      rw [hLine] at hColumn ⊢
      rw [lineAt_insert_row ha.1, Text.units_append, Text.units_append]
      omega
    · have hLine : p.line = a.line := by simpa using hSame
      have hColumn := hp.2
      obtain ⟨row, rest, rfl⟩ := List.exists_cons_of_ne_nil hRows
      obtain ⟨others, last, rfl⟩ : ∃ others last, rest = others ++ [last] := by
        rcases List.eq_nil_or_concat rest with rfl | ⟨others, last, rfl⟩
        · exact absurd rfl hRow
        · exact ⟨others, last, List.concat_eq_append⟩
      have hLast : (row :: (others ++ [last])).getLastD [] = last := by
        rw [← List.cons_append, List.getLastD_concat]
      have hCount : (row :: (others ++ [last])).length - 1 = others.length + 1 := by simp
      rw [hLine] at hColumn
      rw [hLast, hCount, hLine, lineAt_insert_last ha.1, Text.units_append]
      change units last + (p.column - a.column) ≤ units last + units (page.lineBehind a)
      omega
    · have hLine : p.line ≠ a.line := by simpa using hSame
      have hLater : a.line < p.line := by
        have hNot := mt Pos.before_iff.mpr hEarlier
        omega
      change p.column ≤ units ((page.insert a rows stamp).lineAt (p.line + (rows.length - 1)))
      rw [lineAt_insert_below ha.1 hLater hRows]
      exact hp.2

/-! ### Another beginning of a line -/

section

variable {next : Page} {front row back line : Text}

theorem lineAt_set (hn : n < page.lines.length) (hLines : next.lines = page.lines.set n line) :
    next.lineAt n = line := by
  simp [lineAt, hLines, hn]

theorem lineAt_set_ne {m : Nat} (hLines : next.lines = page.lines.set n line) (hm : m ≠ n) :
    next.lineAt m = page.lineAt m := by
  simp [lineAt, hLines, List.getElem?_set_ne (Ne.symm hm)]

theorem IsPlace.of_set (hp : page.IsPlace p) (hLines : next.lines = page.lines.set n line)
    (hLine : p.line ≠ n) : next.IsPlace p := by
  refine ⟨?_, ?_⟩
  · rw [hLines, List.length_set]
    exact hp.1
  · rw [lineBefore, index, lineAt_set_ne hLines hLine]
    exact hp.2

/-- A place goes with its character when the line begins in another way, or to the end of
the new beginning if its character is gone. -/
theorem Holds.shift (hp : page.Holds p)
    (hLines : next.lines = page.lines.set p.line (row ++ back))
    (hLine : page.lineAt p.line = front ++ back) :
    next.Holds ⟨p.line, p.column - units front + units row⟩ := by
  have hColumn := hp.2
  rw [hLine, Text.units_append] at hColumn
  refine ⟨?_, ?_⟩
  · rw [hLines, List.length_set]
    exact hp.1
  · change p.column - units front + units row ≤ units (next.lineAt p.line)
    rw [lineAt_set hp.1 hLines, Text.units_append]
    omega

theorem IsPlace.shift (hp : page.IsPlace p)
    (hLines : next.lines = page.lines.set p.line (row ++ back))
    (hLine : page.lineAt p.line = front ++ back) :
    next.IsPlace ⟨p.line, p.column - units front + units row⟩ := by
  have hBound : p.line < next.lines.length := by
    rw [hLines, List.length_set]
    exact hp.1
  have hNext := lineAt_set hp.1 hLines
  have hBefore : page.lineBefore p <+: front ++ back := hLine ▸ List.take_prefix _ _
  rw [hp.2]
  rcases List.prefix_or_prefix_of_prefix hBefore (List.prefix_append front back) with hIn | hOut
  · have hGone : units (page.lineBefore p) - units front + units row = units row := by
      have hLe := units_le_of_begins hIn
      omega
    rw [hGone]
    exact isPlace_of_begins hBound (hNext ▸ List.prefix_append _ _)
  · obtain ⟨rest, hRest⟩ := hOut
    have hKept : units (page.lineBefore p) - units front + units row = units (row ++ rest) := by
      rw [← hRest, Text.units_append, Text.units_append]
      omega
    rw [← hRest, List.prefix_append_right_inj] at hBefore
    rw [hKept]
    exact isPlace_of_begins hBound (hNext ▸ (List.prefix_append_right_inj row).mpr hBefore)

end

/-! ### Ways of the cursor -/

theorem isPlace_endAbove? (hn : n ≤ page.lines.length) (h : page.endAbove? n = some p) :
    page.IsPlace p ∧ p.line < n := by
  unfold endAbove? at h
  split_ifs at h with hFirst
  cases h
  exact ⟨isPlace_of_begins (by omega) List.prefix_rfl, by change n - 1 < n; omega⟩

theorem isPlace_left? (hp : p.line < page.lines.length) (h : page.left? p = some a) :
    page.IsPlace a ∧ a.upTo p = true := by
  unfold left? at h
  split_ifs at h
  · cases h
    refine ⟨isPlace_placeAt hp _, Pos.upTo_iff.mpr (Or.inr ⟨rfl, ?_⟩)⟩
    have hShorter : (page.lineAt p.line).take (page.index p - 1) <+: page.lineBefore p :=
      List.take_prefix_take_left (Nat.sub_le _ _)
    exact Nat.le_trans (units_le_of_begins hShorter) (page.units_lineBefore_le p)
  · obtain ⟨hPlace, hLine⟩ := isPlace_endAbove? (Nat.le_of_lt hp) h
    exact ⟨hPlace, Pos.upTo_iff.mpr (Or.inl hLine)⟩

theorem isPlace_wordLeft? (hp : p.line < page.lines.length) (h : page.wordLeft? p = some a) :
    page.IsPlace a := by
  unfold wordLeft? at h
  split_ifs at h
  · cases h
    exact isPlace_of_begins hp ((beforeLastWord_begins _).trans (List.take_prefix _ _))
  · exact (isPlace_endAbove? (Nat.le_of_lt hp) h).1

/-- The cursor goes to the right to a place between characters, or does not move. -/
theorem isPlace_right (hp : p.line < page.lines.length) :
    page.IsPlace (page.right p) ∨ page.right p = p := by
  unfold right
  split_ifs
  · unfold backward
    dsimp only
    split_ifs
    · exact Or.inl (isPlace_placeAt hp _)
    · cases hAbove : page.endAbove? p.line with
      | none => exact Or.inr rfl
      | some a => exact Or.inl (isPlace_endAbove? (Nat.le_of_lt hp) hAbove).1
  · unfold forward
    dsimp only
    split_ifs with hWithin hNext
    · exact Or.inl (isPlace_placeAt hp _)
    · exact Or.inl (isPlace_of_begins hNext List.nil_prefix)
    · exact Or.inr rfl

theorem isPlace_rightBy (n : Nat) (hp : p.line < page.lines.length) :
    page.IsPlace (page.rightBy n p) ∨ page.rightBy n p = p := by
  induction n generalizing p with
  | zero => exact Or.inr rfl
  | succ n ih =>
      rcases isPlace_right hp with hPlace | hSame
      · rcases ih hPlace.1 with hRest | hRest
        · exact Or.inl hRest
        · exact Or.inl (hRest.symm ▸ hPlace)
      · rw [rightBy, hSame]
        exact ih hp

theorem IsPlace.rightBy (h : page.IsPlace p) (n : Nat) : page.IsPlace (page.rightBy n p) :=
  (isPlace_rightBy n h.1).elim id fun hSame => hSame.symm ▸ h

theorem Holds.rightBy (h : page.Holds p) (n : Nat) : page.Holds (page.rightBy n p) :=
  (isPlace_rightBy n h.1).elim IsPlace.holds fun hSame => hSame.symm ▸ h

theorem isPlace_finish (hLines : 0 < page.lines.length) : page.IsPlace page.finish :=
  isPlace_of_begins (by omega) List.prefix_rfl

theorem holds_clamp (hLines : 0 < page.lines.length) (line column : Int) :
    page.Holds (page.clamp line column) := by
  unfold clamp
  dsimp only
  refine ⟨?_, ?_⟩
  · change (min line ((page.lines.length : Int) - 1)).toNat < page.lines.length
    omega
  · change (min column (units (page.lineAt (min line ((page.lines.length : Int) - 1)).toNat))).toNat ≤
      units (page.lineAt (min line ((page.lines.length : Int) - 1)).toNat)
    omega

/-- The two ends of a selection are the two places. -/
theorem earlier_later_of {P : Pos → Prop} (hp : P p) (hq : P q) :
    (p.earlier q).upTo (p.later q) = true ∧ P (p.earlier q) ∧ P (p.later q) := by
  rcases Pos.earlier_later p q with ⟨hOrder, hFirst, hLast⟩ | ⟨hOrder, hFirst, hLast⟩
  · rw [hFirst, hLast]
    exact ⟨hOrder, hp, hq⟩
  · rw [hFirst, hLast]
    exact ⟨hOrder, hq, hp⟩

end Page

end ScriptEditor.Document
