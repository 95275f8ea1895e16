import Mathlib.Tactic.Common
import ScriptEditor.Text.Lines
import ScriptEditor.Text.Units
import ScriptEditor.Text.Utf16

/-! Text as units and back. A text comes back as it was, and so do the parts of it before
and behind a boundary between two characters. Units that are no text give a text of the same
number of units, in which U+FFFD stands for a half that is alone. -/
namespace ScriptEditor.Utf16

open ScriptEditor.Text (units unitWidth isLineEnd)

variable {c : Char} {u v : UInt16} {rest : Utf16}

theorem isHighHalf_iff : isHighHalf u = true ↔ 0xD800 ≤ u.toNat ∧ u.toNat ≤ 0xDBFF := by
  simp [isHighHalf, UInt16.le_iff_toNat_le]

theorem isLowHalf_iff : isLowHalf u = true ↔ 0xDC00 ≤ u.toNat ∧ u.toNat ≤ 0xDFFF := by
  simp [isLowHalf, UInt16.le_iff_toNat_le]

/-- A character is none of the halves, and not beyond the last one. -/
theorem toNat_bounds (c : Char) :
    c.toNat < 0x110000 ∧ (c.toNat < 0xD800 ∨ 0xDFFF < c.toNat) := by
  have hValid := c.valid
  simp only [UInt32.isValidChar, Nat.isValidChar] at hValid
  change c.val.toNat < 0x110000 ∧ (c.val.toNat < 0xD800 ∨ 0xDFFF < c.val.toNat)
  omega

theorem unitWidth_eq_one_iff : unitWidth c = 1 ↔ c.toNat < 0x10000 := by
  unfold unitWidth
  split_ifs with hNarrow <;> simp [hNarrow]

theorem unitWidth_le (c : Char) : unitWidth c ≤ 2 := by
  unfold unitWidth
  split_ifs <;> decide

@[simp] theorem length_ofChar (c : Char) : (ofChar c).length = unitWidth c := by
  unfold ofChar unitWidth
  dsimp only
  split_ifs <;> rfl

@[simp] theorem ofText_cons (c : Char) (t : Text) : ofText (c :: t) = ofChar c ++ ofText t := rfl

@[simp] theorem ofText_append (s t : Text) : ofText (s ++ t) = ofText s ++ ofText t :=
  List.flatMap_append

@[simp] theorem length_ofText (t : Text) : (ofText t).length = units t := by
  induction t with
  | nil => rfl
  | cons c t ih => rw [ofText_cons, List.length_append, length_ofChar, ih, units]

/-! ### One character -/

theorem toText_cons_of_not_half (hHigh : isHighHalf u = false) (hLow : isLowHalf u = false)
    (rest : Utf16) : toText (u :: rest) = Char.ofNat u.toNat :: toText rest := by
  cases rest with
  | nil => simp [toText, hHigh, hLow]
  | cons v rest => simp [toText, hHigh, hLow]

theorem toText_cons_pair (hHigh : isHighHalf u = true) (hLow : isLowHalf v = true)
    (rest : Utf16) : toText (u :: v :: rest) = joinHalves u v :: toText rest := by
  simp [toText, hHigh, hLow]

/-- The unit of a narrow character is no half. -/
theorem ofChar_narrow (hNarrow : c.toNat < 0x10000) :
    ∃ u, ofChar c = [u] ∧ u.toNat = c.toNat ∧ isHighHalf u = false ∧ isLowHalf u = false := by
  have hBounds := toNat_bounds c
  have hUnit : (UInt16.ofNat c.toNat).toNat = c.toNat := UInt16.toNat_ofNat_of_lt' hNarrow
  refine ⟨UInt16.ofNat c.toNat, ?_, hUnit, ?_, ?_⟩
  · simp [ofChar, hNarrow]
  · rw [Bool.eq_false_iff, ne_eq, isHighHalf_iff, hUnit]
    omega
  · rw [Bool.eq_false_iff, ne_eq, isLowHalf_iff, hUnit]
    omega

/-- The units of a wide character are two halves that make it up. -/
theorem ofChar_wide (hWide : ¬c.toNat < 0x10000) :
    ∃ u v, ofChar c = [u, v] ∧ isHighHalf u = true ∧ isLowHalf v = true ∧ joinHalves u v = c := by
  have hBounds := toNat_bounds c
  have hSize : UInt16.size = 0x10000 := rfl
  have hHigh : (UInt16.ofNat (0xD800 + (c.toNat - 0x10000) / 0x400)).toNat =
      0xD800 + (c.toNat - 0x10000) / 0x400 := UInt16.toNat_ofNat_of_lt' (by omega)
  have hLow : (UInt16.ofNat (0xDC00 + (c.toNat - 0x10000) % 0x400)).toNat =
      0xDC00 + (c.toNat - 0x10000) % 0x400 := UInt16.toNat_ofNat_of_lt' (by omega)
  refine ⟨UInt16.ofNat (0xD800 + (c.toNat - 0x10000) / 0x400),
    UInt16.ofNat (0xDC00 + (c.toNat - 0x10000) % 0x400), ?_, ?_, ?_, ?_⟩
  · simp [ofChar, hWide]
  · rw [isHighHalf_iff, hHigh]
    omega
  · rw [isLowHalf_iff, hLow]
    omega
  · have hValue : 0x10000 + ((0xD800 + (c.toNat - 0x10000) / 0x400) - 0xD800) * 0x400 +
        ((0xDC00 + (c.toNat - 0x10000) % 0x400) - 0xDC00) = c.toNat := by omega
    rw [joinHalves, hHigh, hLow, hValue, Char.ofNat_toNat]

@[simp] theorem toText_ofChar_append (c : Char) (rest : Utf16) :
    toText (ofChar c ++ rest) = c :: toText rest := by
  by_cases hNarrow : c.toNat < 0x10000
  · obtain ⟨u, hUnits, hValue, hHigh, hLow⟩ := ofChar_narrow hNarrow
    rw [hUnits, List.singleton_append, toText_cons_of_not_half hHigh hLow, hValue, Char.ofNat_toNat]
  · obtain ⟨u, v, hUnits, hHigh, hLow, hJoin⟩ := ofChar_wide hNarrow
    rw [hUnits, List.cons_append, List.singleton_append, toText_cons_pair hHigh hLow, hJoin]

/-! ### Whole texts -/

theorem toText_ofText (t : Text) : toText (ofText t) = t := by
  induction t with
  | nil => rfl
  | cons c t ih => rw [ofText_cons, toText_ofChar_append, ih]

/-- What is before one boundary and what is behind another one come back as text. -/
theorem toText_take_append_drop (front skipped past back : Text) :
    toText ((ofText (front ++ skipped)).take (units front) ++
      (ofText (past ++ back)).drop (units past)) = front ++ back := by
  rw [ofText_append, ofText_append, ← length_ofText front, ← length_ofText past, List.take_left,
    List.drop_left, ← ofText_append, toText_ofText]

theorem toNat_joinHalves (hHigh : isHighHalf u = true) (hLow : isLowHalf v = true) :
    0x10000 ≤ (joinHalves u v).toNat := by
  rw [isHighHalf_iff] at hHigh
  rw [isLowHalf_iff] at hLow
  rw [joinHalves, Text.toNat_ofNat (Or.inr (by omega))]
  omega

theorem unitWidth_joinHalves (hHigh : isHighHalf u = true) (hLow : isLowHalf v = true) :
    unitWidth (joinHalves u v) = 2 := by
  have hWide := toNat_joinHalves hHigh hLow
  exact if_neg (by omega)

theorem unitWidth_replacement : unitWidth '\ufffd' = 1 := by decide

/-- A unit that is no half is a character of one unit. -/
theorem toNat_ofUnit (hHigh : isHighHalf u = false) (hLow : isLowHalf u = false) :
    (Char.ofNat u.toNat).toNat = u.toNat := by
  have hLt := u.toNat_lt
  rw [Bool.eq_false_iff, ne_eq, isHighHalf_iff] at hHigh
  rw [Bool.eq_false_iff, ne_eq, isLowHalf_iff] at hLow
  refine Text.toNat_ofNat ?_
  unfold Nat.isValidChar
  omega

theorem unitWidth_ofUnit (hHigh : isHighHalf u = false) (hLow : isLowHalf u = false) :
    unitWidth (Char.ofNat u.toNat) = 1 := by
  have hLt := u.toNat_lt
  rw [unitWidth_eq_one_iff, toNat_ofUnit hHigh hLow]
  omega

/-- Going to text keeps the number of units. -/
theorem units_toText (us : Utf16) : units (toText us) = us.length := by
  fun_induction toText us with
  | case1 => rfl
  | case2 u =>
      split_ifs with hHalf
      · rfl
      · rw [Bool.or_eq_true, not_or, Bool.not_eq_true, Bool.not_eq_true] at hHalf
        rw [units, unitWidth_ofUnit hHalf.1 hHalf.2]
        rfl
  | case3 u v rest hHigh hLow ih =>
      rw [units, unitWidth_joinHalves hHigh hLow, ih, List.length_cons, List.length_cons]
      omega
  | case4 u v rest hHigh hLow ih =>
      rw [units, unitWidth_replacement, ih]
      exact Nat.add_comm 1 (v :: rest).length
  | case5 u v rest hHigh hLow ih =>
      rw [units, unitWidth_replacement, ih]
      exact Nat.add_comm 1 (v :: rest).length
  | case6 u v rest hHigh hLow ih =>
      rw [units, unitWidth_ofUnit (Bool.eq_false_iff.mpr hHigh) (Bool.eq_false_iff.mpr hLow), ih]
      exact Nat.add_comm 1 (v :: rest).length

theorem ofChar_ofUnit (hHigh : isHighHalf u = false) (hLow : isLowHalf u = false) :
    ofChar (Char.ofNat u.toNat) = [u] := by
  have hLt := u.toNat_lt
  simp [ofChar, toNat_ofUnit hHigh hLow, hLt]

/-- A character that units can give: it is made up of two halves, stands for one, or is one of
the units. -/
def ComesOf (c : Char) (us : Utf16) : Prop :=
  unitWidth c = 2 ∨ c = '\ufffd' ∨ ∃ u ∈ us, ofChar c = [u]

theorem ComesOf.mono {us others : Utf16} (h : ComesOf c us) (hMore : us ⊆ others) :
    ComesOf c others := by
  rcases h with hWide | hLone | ⟨u, hu, hUnit⟩
  · exact Or.inl hWide
  · exact Or.inr (Or.inl hLone)
  · exact Or.inr (Or.inr ⟨u, hMore hu, hUnit⟩)

theorem comesOf_of_mem_toText {us : Utf16} (h : c ∈ toText us) : ComesOf c us := by
  fun_induction toText us with
  | case1 => cases h
  | case2 u =>
      rw [List.mem_singleton] at h
      split_ifs at h with hHalf
      · exact Or.inr (Or.inl h)
      · rw [Bool.or_eq_true, not_or, Bool.not_eq_true, Bool.not_eq_true] at hHalf
        rw [h]
        exact Or.inr (Or.inr ⟨u, List.mem_singleton_self u, ofChar_ofUnit hHalf.1 hHalf.2⟩)
  | case3 u v rest hHigh hLow ih =>
      rcases List.mem_cons.mp h with hc | hRest
      · rw [hc]
        exact Or.inl (unitWidth_joinHalves hHigh hLow)
      · have hMore := List.subset_cons_of_subset u (List.subset_cons_self v rest)
        exact (ih hRest).mono hMore
  | case4 u v rest hHigh hLow ih =>
      rcases List.mem_cons.mp h with hc | hRest
      · exact Or.inr (Or.inl hc)
      · exact (ih hRest).mono (List.subset_cons_self u (v :: rest))
  | case5 u v rest hHigh hLow ih =>
      rcases List.mem_cons.mp h with hc | hRest
      · exact Or.inr (Or.inl hc)
      · exact (ih hRest).mono (List.subset_cons_self u (v :: rest))
  | case6 u v rest hHigh hLow ih =>
      rcases List.mem_cons.mp h with hc | hRest
      · rw [hc]
        have hUnit := ofChar_ofUnit (Bool.eq_false_iff.mpr hHigh) (Bool.eq_false_iff.mpr hLow)
        exact Or.inr (Or.inr ⟨u, List.mem_cons_self .., hUnit⟩)
      · exact (ih hRest).mono (List.subset_cons_self u (v :: rest))

/-- A character of one unit is in a text if its unit is. -/
theorem mem_of_mem_ofText {t : Text} (hUnit : ofChar c = [u]) (h : u ∈ ofText t) : c ∈ t := by
  obtain ⟨x, hx, hMem⟩ := List.mem_flatMap.mp h
  have hNarrow : c.toNat < 0x10000 := by
    rw [← unitWidth_eq_one_iff, ← length_ofChar, hUnit]
    rfl
  obtain ⟨_, hSame, hValue, hHigh, hLow⟩ := ofChar_narrow hNarrow
  rw [hUnit] at hSame
  cases hSame
  by_cases hOther : x.toNat < 0x10000
  · obtain ⟨_, hUnits, hTheirs, -, -⟩ := ofChar_narrow hOther
    rw [hUnits, List.mem_singleton] at hMem
    subst hMem
    rwa [Char.toNat_inj.mp (hValue.symm.trans hTheirs)]
  -- The halves of a wide character are the unit of no character.
  · obtain ⟨_, _, hUnits, hFirst, hSecond, -⟩ := ofChar_wide hOther
    rw [hUnits, List.mem_cons, List.mem_singleton] at hMem
    rcases hMem with rfl | rfl
    · rw [hFirst] at hHigh
      cases hHigh
    · rw [hSecond] at hLow
      cases hLow

/-- Units of text without line ends give no line ends, however they are put together. -/
theorem not_isLineEnd_of_mem_toText {t : Text} {us : Utf16} (hUnits : us ⊆ ofText t)
    (hText : ∀ x ∈ t, isLineEnd x = false) (h : c ∈ toText us) : isLineEnd c = false := by
  rcases comesOf_of_mem_toText h with hWide | rfl | ⟨u, hu, hUnit⟩
  · by_contra hEnd
    rw [Bool.not_eq_false] at hEnd
    simp only [isLineEnd, Bool.or_eq_true, beq_iff_eq] at hEnd
    rcases hEnd with (((rfl | rfl) | rfl) | rfl) | rfl <;> exact absurd hWide (by decide)
  · decide
  · exact hText c (mem_of_mem_ofText hUnit (hUnits hu))

end ScriptEditor.Utf16
