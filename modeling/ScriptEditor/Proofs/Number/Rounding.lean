import Mathlib.Data.Int.Log
import Mathlib.Algebra.Order.Floor.Semifield
import Mathlib.Data.Rat.Floor
import Mathlib.Tactic.FieldSimp
import Mathlib.Tactic.Linarith
import Mathlib.Tactic.NormNum
import Mathlib.Tactic.Positivity
import ScriptEditor.Number.Binary64
import ScriptEditor.Proofs.Number.Decimal

/-! Rounding to floating-point numbers. Reading a fraction or a decimal depends on its exact
value alone: it gives the number nearest to that value, a tie to the even significand. -/
namespace ScriptEditor.Number.Binary64

/-- The whole number nearest to a value that is not negative, a tie to even. -/
def nearestEven (v : ℚ) : Nat :=
  let q := ⌊v⌋₊
  if v - q < 1 / 2 then q else if 1 / 2 < v - q then q + 1 else q + q % 2

/-- The exponent of the grid on which a positive value is rounded. -/
def gridExponent (v : ℚ) : Int :=
  max (Int.log 2 v - 52) (-1074)

/-- The number nearest to a value that is not negative, with a sign. -/
def ofRational (negative : Bool) (v : ℚ) : Binary64 :=
  if v = 0 then zero negative
  else packed negative (nearestEven (v / 2 ^ gridExponent v)) (gridExponent v)

/-! ### Rounding to whole numbers -/

theorem nearestEven_bounds {v : ℚ} : ⌊v⌋₊ ≤ nearestEven v ∧ nearestEven v ≤ ⌊v⌋₊ + 1 := by
  unfold nearestEven
  dsimp only
  split_ifs <;> omega

theorem nearestEven_eq_of_lt {v : ℚ} {m : Nat} (hLow : m - 1 / 2 < v) (hHigh : v < m + 1 / 2) :
    nearestEven v = m := by
  unfold nearestEven
  dsimp only
  rcases le_or_gt (m : ℚ) v with hAbove | hBelow
  · have hFloor : ⌊v⌋₊ = m := Nat.floor_eq_on_Ico m v ⟨hAbove, by linarith⟩
    rw [hFloor, if_pos (by linarith)]
  -- Below a positive whole number, the floor is the whole number before it.
  · cases m with
    | zero =>
        have hFloor : ⌊v⌋₊ = 0 := Nat.floor_of_nonpos (by simpa using hBelow.le)
        rw [hFloor, if_pos (by simpa using hHigh)]
    | succ k =>
        push_cast at hLow hHigh hBelow
        have hFloor : ⌊v⌋₊ = k := Nat.floor_eq_on_Ico k v ⟨by linarith, by linarith⟩
        rw [hFloor, if_neg (by linarith), if_pos (by linarith)]

/-- What a division leaves over. -/
theorem div_sub_div (a : Nat) {b : Nat} (hb : 0 < b) :
    (a : ℚ) / b - (a / b : Nat) = (a % b : Nat) / b := by
  have hPos : (0 : ℚ) < b := by exact_mod_cast hb
  have hSplit : (b : ℚ) * (a / b : Nat) + (a % b : Nat) = a := by exact_mod_cast Nat.div_add_mod a b
  field_simp
  linarith

theorem divNearestEven_eq (a : Nat) {b : Nat} (hb : 0 < b) :
    divNearestEven a b = nearestEven (a / b) := by
  have hFloor : ⌊(a : ℚ) / b⌋₊ = a / b := Nat.floor_div_eq_div a b
  have hPos : (0 : ℚ) < b := by exact_mod_cast hb
  have hRest := div_sub_div a hb
  have hLess : (a % b : Nat) / (b : ℚ) < 1 / 2 ↔ 2 * (a % b) < b := by
    rw [div_lt_div_iff₀ hPos two_pos]
    norm_cast
    omega
  have hMore : 1 / 2 < (a % b : Nat) / (b : ℚ) ↔ b < 2 * (a % b) := by
    rw [div_lt_div_iff₀ two_pos hPos]
    norm_cast
    omega
  unfold divNearestEven nearestEven
  dsimp only
  simp only [hFloor, hRest, hLess, hMore]

/-! ### Rounding of fractions -/

theorem scaled_spec (num : Nat) {den : Nat} (hDen : 0 < den) (e : Int) :
    0 < (scaled num den e).2 ∧
      ((scaled num den e).1 : ℚ) / (scaled num den e).2 = num / den / 2 ^ e := by
  unfold scaled
  split_ifs with hSign
  · obtain ⟨k, rfl⟩ := Int.eq_ofNat_of_zero_le hSign
    refine ⟨Nat.mul_pos hDen (Nat.pow_pos two_pos), ?_⟩
    simp [div_mul_eq_div_div]
  · obtain ⟨k, hk⟩ := Int.eq_ofNat_of_zero_le (by omega : 0 ≤ -e)
    obtain rfl : e = -(k : Int) := by omega
    refine ⟨hDen, ?_⟩
    simp [div_eq_mul_inv]
    ring

/-- The powers around a numerator and a denominator tell the logarithm of the quotient up to
one. -/
theorem log_div_bounds {base num den k l : Nat} (hBase : 1 < base) (hNum : base ^ k ≤ num)
    (hNumHigh : num < base ^ (k + 1)) (hDen : base ^ l ≤ den) (hDenHigh : den < base ^ (l + 1)) :
    (k : Int) - l - 1 ≤ Int.log base ((num : ℚ) / den) ∧
      Int.log base ((num : ℚ) / den) ≤ (k : Int) - l := by
  have hBasePos : (0 : ℚ) < base := by exact_mod_cast Nat.lt_of_succ_lt hBase
  have hNumPos : (0 : ℚ) < num := lt_of_lt_of_le (pow_pos hBasePos k) (by exact_mod_cast hNum)
  have hDenPos : (0 : ℚ) < den := lt_of_lt_of_le (pow_pos hBasePos l) (by exact_mod_cast hDen)
  have hPos : (0 : ℚ) < num / den := div_pos hNumPos hDenPos
  refine ⟨?_, ?_⟩
  · rw [← Int.zpow_le_iff_le_log hBase hPos,
      show (k : Int) - l - 1 = (k : Nat) - (l + 1 : Nat) by push_cast; omega,
      zpow_sub₀ hBasePos.ne', zpow_natCast, zpow_natCast]
    exact div_le_div₀ hNumPos.le (by exact_mod_cast hNum) hDenPos (by exact_mod_cast hDenHigh.le)
  · rw [← Int.lt_add_one_iff, ← Int.lt_zpow_iff_log_lt hBase hPos,
      show (k : Int) - l + 1 = (k + 1 : Nat) - (l : Nat) by push_cast; omega,
      zpow_sub₀ hBasePos.ne', zpow_natCast, zpow_natCast]
    exact div_lt_div₀ (by exact_mod_cast hNumHigh) (by exact_mod_cast hDen)
      (pow_nonneg hBasePos.le _) (pow_pos hBasePos _)

theorem exponentFor_eq {num den : Nat} (hNum : 0 < num) (hDen : 0 < den) :
    exponentFor num den = gridExponent (num / den) := by
  have hPos : (0 : ℚ) < num / den := div_pos (by exact_mod_cast hNum) (by exact_mod_cast hDen)
  obtain ⟨hLow, hHigh⟩ := log_div_bounds one_lt_two (Nat.log2_self_le hNum.ne') Nat.lt_log2_self
    (Nat.log2_self_le hDen.ne') Nat.lt_log2_self
  unfold exponentFor gridExponent
  dsimp only
  generalize hGuess : (num.log2 : Int) - den.log2 - 52 = guess
  obtain ⟨hScale, hValue⟩ := scaled_spec num hDen guess
  have hScalePos : (0 : ℚ) < (scaled num den guess).2 := by exact_mod_cast hScale
  -- The guess is one too much exactly if the significand has less than 53 bits.
  have hShort : (scaled num den guess).1 < (scaled num den guess).2 * Nat.pow 2 52 ↔
      Int.log 2 ((num : ℚ) / den) < guess + 52 := by
    rw [← Int.lt_zpow_iff_log_lt one_lt_two hPos, Nat.cast_ofNat, zpow_add₀ two_ne_zero,
      mul_comm ((2 : ℚ) ^ guess), ← div_lt_iff₀ (zpow_pos two_pos _), ← hValue,
      div_lt_iff₀ hScalePos, mul_comm ((2 : ℚ) ^ (52 : Int))]
    exact_mod_cast Iff.rfl
  simp only [hShort]
  congr 1
  split_ifs <;> omega

theorem roundedTo_eq (negative : Bool) (num : Nat) {den : Nat} (hDen : 0 < den) (e : Int) :
    roundedTo negative num den e = packed negative (nearestEven (num / den / 2 ^ e)) e := by
  obtain ⟨hScale, hScaled⟩ := scaled_spec num hDen e
  rw [← hScaled, ← divNearestEven_eq _ hScale]
  rfl

/-- A fraction is rounded by its value. -/
theorem ofFraction_eq (negative : Bool) (num : Nat) {den : Nat} (hDen : 0 < den) :
    ofFraction negative num den = ofRational negative (num / den) := by
  rcases Nat.eq_zero_or_pos num with rfl | hNum
  · simp [ofFraction, ofRational]
  · have hValue : (num : ℚ) / den ≠ 0 :=
      div_ne_zero (Nat.cast_ne_zero.mpr hNum.ne') (Nat.cast_ne_zero.mpr hDen.ne')
    rw [ofFraction, if_neg hNum.ne', roundedTo_eq negative num hDen, exponentFor_eq hNum hDen,
      ofRational, if_neg hValue]

/-! ### Rounding of decimals -/

/-- The value of a decimal. -/
def decimalValue (digits : Nat) (exponent : Int) : ℚ :=
  digits * 10 ^ exponent

theorem decimalValue_pos {digits : Nat} (h : 0 < digits) (exponent : Int) :
    0 < decimalValue digits exponent :=
  mul_pos (Nat.cast_pos.mpr h) (zpow_pos (by norm_num) exponent)

/-- The exponent of the first digit. -/
theorem log_decimalValue {digits : Nat} (h : 0 < digits) (exponent : Int) :
    Int.log 10 (decimalValue digits exponent) = (Text.ofNat digits).length + exponent - 1 := by
  have hPos := decimalValue_pos h exponent
  have hLength : 0 < (Text.ofNat digits).length := List.length_pos_iff.mpr (ofNat_ne_nil digits)
  obtain ⟨hLow, hHigh⟩ := pow_length_ofNat h
  have hTen : (0 : ℚ) < 10 ^ exponent := zpow_pos (by norm_num) exponent
  apply le_antisymm
  · rw [← Int.lt_add_one_iff, ← Int.lt_zpow_iff_log_lt (by decide) hPos, Nat.cast_ofNat,
      show ((Text.ofNat digits).length : Int) + exponent - 1 + 1 =
        (Text.ofNat digits).length + exponent by omega, zpow_add₀ (by norm_num), zpow_natCast]
    exact mul_lt_mul_of_pos_right (by exact_mod_cast hHigh) hTen
  · rw [← Int.zpow_le_iff_le_log (by decide) hPos, Nat.cast_ofNat,
      show ((Text.ofNat digits).length : Int) + exponent - 1 =
        ((Text.ofNat digits).length - 1 : Nat) + exponent by omega, zpow_add₀ (by norm_num),
      zpow_natCast]
    exact mul_le_mul_of_nonneg_right (by exact_mod_cast hLow) hTen.le

theorem le_log_two {v : ℚ} (hPos : 0 < v) {m n : Nat} (hPowers : 2 ^ m ≤ 10 ^ n)
    (h : n ≤ Int.log 10 v) : m ≤ Int.log 2 v := by
  rw [← Int.zpow_le_iff_le_log (by decide) hPos, zpow_natCast] at h ⊢
  exact le_trans (by exact_mod_cast hPowers) h

theorem log_two_lt {v : ℚ} (hPos : 0 < v) {m n : Nat} (hPowers : 2 ^ m ≤ 10 ^ n)
    (h : Int.log 10 v < -n) : Int.log 2 v < -m := by
  rw [← Int.lt_zpow_iff_log_lt (by decide) hPos, zpow_neg, zpow_natCast] at h ⊢
  refine lt_of_lt_of_le h (inv_anti₀ (pow_pos (by norm_num) m) ?_)
  exact_mod_cast hPowers

theorem ofRational_of_large (negative : Bool) {v : ℚ} (hPos : 0 < v) (h : 310 ≤ Int.log 10 v) :
    ofRational negative v = .infinite negative := by
  have hLog : 1024 ≤ Int.log 2 v := le_log_two hPos (m := 1024) (n := 310) (by decide +kernel) h
  have hGrid : 971 < gridExponent v := by
    unfold gridExponent
    omega
  unfold ofRational packed
  rw [if_neg hPos.ne']
  dsimp only
  split_ifs <;> first | rfl | omega

theorem ofRational_of_small (negative : Bool) {v : ℚ} (hPos : 0 < v) (h : Int.log 10 v < -331) :
    ofRational negative v = zero negative := by
  have hLog : Int.log 2 v < -1075 := log_two_lt hPos (m := 1075) (n := 331) (by decide +kernel) h
  have hSmall : v < 2 ^ (-1075 : Int) := by
    rw [← Int.lt_zpow_iff_log_lt one_lt_two hPos] at hLog
    exact_mod_cast hLog
  have hGrid : gridExponent v = -1074 := by
    unfold gridExponent
    omega
  have hHalf : (2 : ℚ) ^ (-1075 : Int) = 1 / 2 * 2 ^ (-1074 : Int) := by
    rw [show (-1075 : Int) = -1 + -1074 by omega, zpow_add₀ two_ne_zero, zpow_neg_one, one_div]
  have hNearest : nearestEven (v / 2 ^ (-1074 : Int)) = 0 := by
    rw [hHalf] at hSmall
    have hUnit : (0 : ℚ) < 2 ^ (-1074 : Int) := zpow_pos two_pos _
    generalize (2 : ℚ) ^ (-1074 : Int) = unit at hSmall hUnit ⊢
    have hQuotient : 0 < v / unit := div_pos hPos hUnit
    apply nearestEven_eq_of_lt
    · push_cast
      linarith
    · rw [div_lt_iff₀ hUnit]
      push_cast
      linarith
  rw [ofRational, if_neg hPos.ne', hGrid, hNearest]
  rfl

/-- A decimal is rounded by its value. -/
theorem ofDecimal_eq (negative : Bool) (digits : Nat) (exponent : Int) :
    ofDecimal negative digits exponent = ofRational negative (decimalValue digits exponent) := by
  rcases Nat.eq_zero_or_pos digits with rfl | hDigits
  · simp [ofDecimal, ofRational, decimalValue]
  · have hPos := decimalValue_pos hDigits exponent
    have hLog := log_decimalValue hDigits exponent
    rw [Text.ofNat] at hLog
    unfold ofDecimal
    dsimp only
    rw [if_neg hDigits.ne']
    split_ifs with hLarge hSmall hSign
    · exact (ofRational_of_large negative hPos (by omega)).symm
    · exact (ofRational_of_small negative hPos (by omega)).symm
    · obtain ⟨k, rfl⟩ := Int.eq_ofNat_of_zero_le hSign
      rw [ofFraction_eq _ _ Nat.one_pos, decimalValue, zpow_natCast, Nat.cast_one, div_one]
      simp only [Int.toNat_natCast, Nat.pow_eq, Nat.cast_mul, Nat.cast_pow, Nat.cast_ofNat]
    · obtain ⟨k, hk⟩ := Int.eq_ofNat_of_zero_le (by omega : 0 ≤ -exponent)
      obtain rfl : exponent = -(k : Int) := by omega
      have hTen : 0 < Nat.pow 10 (- -(k : Int)).toNat := Nat.pow_pos (by decide)
      rw [ofFraction_eq _ _ hTen, decimalValue, zpow_neg, zpow_natCast,
        ← div_eq_mul_inv]
      simp only [neg_neg, Int.toNat_natCast, Nat.pow_eq, Nat.cast_pow, Nat.cast_ofNat]

end ScriptEditor.Number.Binary64
