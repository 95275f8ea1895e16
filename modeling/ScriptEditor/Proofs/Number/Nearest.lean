import ScriptEditor.Proofs.Number.Rounding

/-! Numbers next to a value. Rounding gives numbers of the format only, and every value that
is close enough to such a number, as seventeen digits are, is rounded to it. -/
namespace ScriptEditor.Number.Binary64

/-- The significands and exponents of finite numbers. -/
structure Normal (m : Nat) (e : Int) : Prop where
  bits : m < 2 ^ 53
  least : -1074 ≤ e
  greatest : e ≤ 971
  full : 2 ^ 52 ≤ m ∨ e = -1074

/-- The numbers that 64 bits can hold. -/
def Representable : Binary64 → Prop
  | .finite _ m e => Normal m e
  | _ => True

theorem representable_zero (negative : Bool) : (zero negative).Representable :=
  ⟨by norm_num, by omega, by omega, Or.inr rfl⟩

theorem packed_of_lt (negative : Bool) {m : Nat} {e : Int} (hBits : m < 2 ^ 53) (hExponent : e ≤ 971) :
    packed negative m e = .finite negative m e := by
  have hCarry : m ≠ Nat.pow 2 53 := by
    rw [Nat.pow_eq]
    exact hBits.ne
  unfold packed
  rw [if_neg hCarry]
  dsimp only
  rw [if_neg (by omega)]

theorem packed_of_large (negative : Bool) {m : Nat} {e : Int} (hBits : m < 2 ^ 53)
    (hExponent : 971 < e) : packed negative m e = .infinite negative := by
  have hCarry : m ≠ Nat.pow 2 53 := by
    rw [Nat.pow_eq]
    exact hBits.ne
  unfold packed
  rw [if_neg hCarry]
  dsimp only
  rw [if_pos hExponent]

theorem packed_carry (negative : Bool) (e : Int) :
    packed negative (2 ^ 53) e =
      if 971 < e + 1 then .infinite negative else .finite negative (2 ^ 52) (e + 1) := by
  have hCarry : 2 ^ 53 = Nat.pow 2 53 := rfl
  unfold packed
  rw [if_pos hCarry]
  rfl

theorem representable_packed (negative : Bool) {m : Nat} {e : Int} (hBits : m ≤ 2 ^ 53)
    (hLeast : -1074 ≤ e) (hFull : 2 ^ 52 ≤ m ∨ e = -1074) :
    (packed negative m e).Representable := by
  rcases hBits.lt_or_eq with hLess | rfl
  · by_cases hExponent : e ≤ 971
    · rw [packed_of_lt negative hLess hExponent]
      exact ⟨hLess, hLeast, hExponent, hFull⟩
    · rw [packed_of_large negative hLess (by omega)]
      trivial
  · rw [packed_carry]
    split_ifs with hExponent
    · trivial
    · exact ⟨by norm_num, by omega, by omega, Or.inl (Nat.le_refl _)⟩

/-! ### The grid of a value -/

/-- The value in steps of its grid. -/
theorem scaled_bounds {v : ℚ} (hPos : 0 < v) :
    v / 2 ^ gridExponent v < 2 ^ 53 ∧
      (2 ^ 52 ≤ v / 2 ^ gridExponent v ∨ gridExponent v = -1074) := by
  have hUnit : (0 : ℚ) < 2 ^ gridExponent v := zpow_pos two_pos _
  have hLog : Int.log 2 v ≤ gridExponent v + 52 := by
    unfold gridExponent
    omega
  refine ⟨?_, ?_⟩
  · rw [div_lt_iff₀ hUnit, ← zpow_natCast, ← zpow_add₀ two_ne_zero]
    have hBelow := (Int.lt_zpow_iff_log_lt one_lt_two hPos).mpr (Int.lt_add_one_iff.mpr hLog)
    rwa [Nat.cast_ofNat, show gridExponent v + 52 + 1 = (53 : Nat) + gridExponent v by omega] at hBelow
  · by_cases hLeast : gridExponent v = -1074
    · exact Or.inr hLeast
    · have hSame : Int.log 2 v = gridExponent v + 52 := by
        unfold gridExponent at hLeast ⊢
        omega
      have hAbove := (Int.zpow_le_iff_le_log one_lt_two hPos).mpr hSame.ge
      rw [Nat.cast_ofNat, show gridExponent v + 52 = (52 : Nat) + gridExponent v by omega] at hAbove
      left
      rwa [le_div_iff₀ hUnit, ← zpow_natCast, ← zpow_add₀ two_ne_zero]

theorem gridExponent_eq {v : ℚ} {e : Int} (hPos : 0 < v) (hLeast : -1074 ≤ e)
    (hHigh : v / 2 ^ e < 2 ^ 53) (hLow : 2 ^ 52 ≤ v / 2 ^ e ∨ e = -1074) : gridExponent v = e := by
  have hUnit : (0 : ℚ) < 2 ^ e := zpow_pos two_pos _
  rw [div_lt_iff₀ hUnit, ← zpow_natCast, ← zpow_add₀ two_ne_zero] at hHigh
  have hBelow := (Int.lt_zpow_iff_log_lt one_lt_two hPos).mp (by exact_mod_cast hHigh)
  unfold gridExponent
  rcases hLow with hLow | rfl
  · rw [le_div_iff₀ hUnit, ← zpow_natCast, ← zpow_add₀ two_ne_zero] at hLow
    have hAbove := (Int.zpow_le_iff_le_log one_lt_two hPos).mp (by exact_mod_cast hLow)
    omega
  · omega

theorem representable_ofRational (negative : Bool) {v : ℚ} (h : 0 ≤ v) :
    (ofRational negative v).Representable := by
  unfold ofRational
  split_ifs with hZero
  · exact representable_zero negative
  · have hPos : 0 < v := lt_of_le_of_ne h (Ne.symm hZero)
    obtain ⟨hHigh, hLow⟩ := scaled_bounds hPos
    obtain ⟨hFloor, hCeil⟩ := nearestEven_bounds (v := v / 2 ^ gridExponent v)
    have hNotNegative : 0 ≤ v / 2 ^ gridExponent v := div_nonneg h (zpow_nonneg zero_le_two _)
    apply representable_packed
    · have hLess : ⌊v / 2 ^ gridExponent v⌋₊ < 2 ^ 53 := by
        rw [Nat.floor_lt hNotNegative]
        exact_mod_cast hHigh
      omega
    · exact le_max_right _ _
    · refine hLow.imp_left fun hLow => ?_
      have hReached : 2 ^ 52 ≤ ⌊v / 2 ^ gridExponent v⌋₊ := Nat.le_floor (by exact_mod_cast hLow)
      omega

theorem representable_ofDecimal (negative : Bool) (digits : Nat) (exponent : Int) :
    (ofDecimal negative digits exponent).Representable := by
  rw [ofDecimal_eq]
  apply representable_ofRational
  exact mul_nonneg (Nat.cast_nonneg _) (zpow_nonneg (by norm_num) _)

/-! ### Values close to a number -/

/-- Half a step of the finest grid of seventeen digits is less than half a step between
significands. -/
theorem ofRational_of_near (negative : Bool) {m : Nat} {e : Int} {v : ℚ} (hNormal : Normal m e)
    (hPos : 0 < m) (hNear : |v - m * 2 ^ e| * (2 * 10 ^ 16) ≤ m * 2 ^ e) :
    ofRational negative v = .finite negative m e := by
  have hUnit : (0 : ℚ) < 2 ^ e := zpow_pos two_pos e
  obtain ⟨r, rfl⟩ : ∃ r, v = r * 2 ^ e := ⟨v / 2 ^ e, (div_mul_cancel₀ v hUnit.ne').symm⟩
  have hStep : |r - m| * (2 * 10 ^ 16) ≤ m := by
    rw [← sub_mul, abs_mul, abs_of_pos hUnit] at hNear
    nlinarith [hNear, hUnit]
  have hBits : (m : ℚ) + 1 ≤ 2 ^ 53 := by exact_mod_cast hNormal.bits
  have hOne : (1 : ℚ) ≤ m := by exact_mod_cast hPos
  have hClose : |r - m| < 1 / 2 := by linarith
  obtain ⟨hLow, hHigh⟩ := abs_lt.mp hClose
  have hValue : 0 < r * 2 ^ e := mul_pos (by linarith) hUnit
  rw [ofRational, if_neg hValue.ne']
  by_cases hGrid : 2 ^ 52 ≤ r ∨ e = -1074
  · have hExponent : gridExponent (r * 2 ^ e) = e := by
      apply gridExponent_eq hValue hNormal.least
      · rw [mul_div_cancel_right₀ _ hUnit.ne']
        linarith
      · rwa [mul_div_cancel_right₀ _ hUnit.ne']
    have hNearest : nearestEven r = m := nearestEven_eq_of_lt (by linarith) (by linarith)
    rw [hExponent, mul_div_cancel_right₀ _ hUnit.ne', hNearest]
    exact packed_of_lt negative hNormal.bits hNormal.greatest
  -- Below the least significand of all bits, the grid is twice as fine.
  · rw [not_or, not_le] at hGrid
    have hFull : 2 ^ 52 ≤ m := hNormal.full.resolve_right hGrid.2
    obtain rfl : m = 2 ^ 52 := by
      have hLess : (m : ℚ) < 2 ^ 52 + 1 := by linarith
      have hLess : m < 2 ^ 52 + 1 := by exact_mod_cast hLess
      omega
    have hTwice : r * 2 ^ e / 2 ^ (e - 1) = 2 * r := by
      rw [zpow_sub_one₀ two_ne_zero]
      field_simp
    push_cast at hStep hLow hHigh
    have hFine : |r - 2 ^ 52| < 1 / 4 := by linarith
    obtain ⟨hLow, hHigh⟩ := abs_lt.mp hFine
    have hExponent : gridExponent (r * 2 ^ e) = e - 1 := by
      apply gridExponent_eq hValue
      · have hLeast := hNormal.least
        omega
      · rw [hTwice]
        linarith
      · rw [hTwice]
        left
        linarith
    have hNearest : nearestEven (2 * r) = 2 ^ 53 := by
      apply nearestEven_eq_of_lt
      · push_cast
        linarith
      · push_cast
        linarith
    have hGreatest := hNormal.greatest
    rw [hExponent, hTwice, hNearest, packed_carry, Int.sub_add_cancel, if_neg (by omega)]

end ScriptEditor.Number.Binary64
