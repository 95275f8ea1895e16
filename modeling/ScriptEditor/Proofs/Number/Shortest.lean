import ScriptEditor.Number.Shortest
import ScriptEditor.Proofs.Number.Nearest

/-! The shortest decimal of a number. It reads back as the same number, since the finest grid
that is searched always has a decimal next to it. -/
namespace ScriptEditor.Number.Binary64

theorem fraction_spec {m : Nat} (hPos : 0 < m) (e : Int) :
    0 < (fraction m e).1 ∧ 0 < (fraction m e).2 ∧
      ((fraction m e).1 : ℚ) / (fraction m e).2 = m * 2 ^ e := by
  unfold fraction
  split_ifs with hSign
  · obtain ⟨k, rfl⟩ := Int.eq_ofNat_of_zero_le hSign
    refine ⟨Nat.mul_pos hPos (Nat.pow_pos two_pos), Nat.one_pos, ?_⟩
    simp
  · obtain ⟨k, hk⟩ := Int.eq_ofNat_of_zero_le (by omega : 0 ≤ -e)
    obtain rfl : e = -(k : Int) := by omega
    refine ⟨hPos, Nat.pow_pos two_pos, ?_⟩
    simp [div_eq_mul_inv]

theorem leadingExponent_eq {num den : Nat} (hNum : 0 < num) (hDen : 0 < den) :
    leadingExponent num den = Int.log 10 ((num : ℚ) / den) := by
  have hPos : (0 : ℚ) < num / den := div_pos (by exact_mod_cast hNum) (by exact_mod_cast hDen)
  have hDenPos : (0 : ℚ) < den := by exact_mod_cast hDen
  have hSizes : ∀ {n : Nat}, 0 < n → ∃ k, (Nat.toDigits 10 n).length = k + 1 ∧ 10 ^ k ≤ n ∧
      n < 10 ^ (k + 1) := by
    intro n hn
    obtain ⟨hLow, hHigh⟩ := pow_length_ofNat hn
    obtain ⟨k, hk⟩ := Nat.exists_eq_succ_of_ne_zero
      (List.length_pos_iff.mpr (ofNat_ne_nil n)).ne'
    rw [hk] at hLow hHigh
    exact ⟨k, hk, hLow, hHigh⟩
  obtain ⟨k, hk, hNumLow, hNumHigh⟩ := hSizes hNum
  obtain ⟨l, hl, hDenLow, hDenHigh⟩ := hSizes hDen
  obtain ⟨hLow, hHigh⟩ := log_div_bounds (by decide) hNumLow hNumHigh hDenLow hDenHigh
  have hReaches : ∀ guess : Int,
      (if 0 ≤ guess then decide (den * Nat.pow 10 guess.toNat ≤ num)
        else decide (den ≤ num * Nat.pow 10 (-guess).toNat)) = true ↔
        guess ≤ Int.log 10 ((num : ℚ) / den) := by
    intro guess
    rw [← Int.zpow_le_iff_le_log (by decide) hPos]
    split_ifs with hSign
    · obtain ⟨n, rfl⟩ := Int.eq_ofNat_of_zero_le hSign
      rw [zpow_natCast, le_div_iff₀ hDenPos, mul_comm, decide_eq_true_iff]
      exact_mod_cast Iff.rfl
    · obtain ⟨n, hn⟩ := Int.eq_ofNat_of_zero_le (by omega : 0 ≤ -guess)
      obtain rfl : guess = -(n : Int) := by omega
      rw [zpow_neg, zpow_natCast, inv_le_iff_one_le_mul₀ (by positivity), div_mul_eq_mul_div,
        le_div_iff₀ hDenPos, one_mul, decide_eq_true_iff, neg_neg]
      exact_mod_cast Iff.rfl
  unfold leadingExponent
  dsimp only
  rw [hk, hl]
  simp only [hReaches]
  split_ifs <;> omega

/-! ### The finest grid -/

theorem ofDecimal_of_mem_gridHits {x : Binary64} {num den : Nat} {step : Int} {s : Scientific}
    (h : s ∈ gridHits x num den step) : ofDecimal false s.digits s.exponent = x :=
  eq_of_beq (List.mem_filter.mp h).2

/-- A fraction in steps is again a fraction of whole numbers. -/
theorem exists_fraction_in_steps (num : Nat) {den : Nat} (hDen : 0 < den) (step : Int) :
    ∃ a b : Nat, 0 < b ∧ (a : ℚ) / b * 10 ^ step = num / den ∧
      (if 0 ≤ step then (num, den * Nat.pow 10 step.toNat)
        else (num * Nat.pow 10 (-step).toNat, den)) = (a, b) := by
  by_cases hSign : 0 ≤ step
  · obtain ⟨k, rfl⟩ := Int.eq_ofNat_of_zero_le hSign
    refine ⟨_, _, Nat.mul_pos hDen (Nat.pow_pos (n := k) (by decide : 0 < 10)), ?_, if_pos hSign⟩
    rw [zpow_natCast]
    push_cast
    field_simp
  · obtain ⟨k, hk⟩ := Int.eq_ofNat_of_zero_le (by omega : 0 ≤ -step)
    refine ⟨_, _, hDen, ?_, if_neg hSign⟩
    rw [hk, Int.toNat_natCast, show step = -(k : Int) by omega, zpow_neg, zpow_natCast,
      Nat.pow_eq]
    push_cast
    field_simp

/-- One of the two whole numbers around a fraction is at most one half away. -/
theorem exists_near_quotient (a : Nat) {b : Nat} (hb : 0 < b) :
    ∃ n : Nat, (n = a / b ∨ n = a / b + 1) ∧ |(n : ℚ) - a / b| * 2 ≤ 1 := by
  have hRest := div_sub_div a hb
  have hbPos : (0 : ℚ) < b := by exact_mod_cast hb
  by_cases hLow : 2 * (a % b) ≤ b
  · refine ⟨a / b, Or.inl rfl, ?_⟩
    rw [abs_sub_comm, hRest, abs_of_nonneg (by positivity), div_mul_eq_mul_div, div_le_one hbPos]
    exact_mod_cast (by omega : a % b * 2 ≤ b)
  · refine ⟨a / b + 1, Or.inr rfl, ?_⟩
    have hGap : ((a / b + 1 : Nat) : ℚ) - a / b = 1 - (a % b : Nat) / b := by
      push_cast
      linarith
    have hLess : ((a % b : Nat) : ℚ) / b ≤ 1 := by
      rw [div_le_one hbPos]
      exact_mod_cast (Nat.mod_lt a hb).le
    have hHalf : 1 ≤ ((a % b : Nat) : ℚ) / b * 2 := by
      rw [div_mul_eq_mul_div, one_le_div hbPos]
      exact_mod_cast (by omega : b ≤ a % b * 2)
    rw [hGap, abs_of_nonneg (by linarith)]
    linarith

/-- A multiple of the step within half a step of the fraction is searched. -/
theorem exists_near_hit (num : Nat) {den : Nat} (hDen : 0 < den) (step : Int) :
    ∃ n : Nat, |(n : ℚ) * 10 ^ step - num / den| * 2 ≤ 10 ^ step ∧
      ∀ x, ofDecimal false n step = x → ⟨n, step⟩ ∈ gridHits x num den step := by
  have hStep : (0 : ℚ) < 10 ^ step := zpow_pos (by norm_num) step
  obtain ⟨a, b, hb, hQuotient, hPair⟩ := exists_fraction_in_steps num hDen step
  obtain ⟨n, hAround, hNear⟩ := exists_near_quotient a hb
  refine ⟨n, ?_, fun x hRead => ?_⟩
  · rw [← hQuotient, ← sub_mul, abs_mul, abs_of_pos hStep]
    nlinarith
  · have hSearched : n ∈ (if 2 * (a % b) < b || (2 * (a % b) == b && a / b % 2 == 0) then
        [a / b, a / b + 1] else [a / b + 1, a / b]) := by
      rcases hAround with rfl | rfl <;> split_ifs <;> simp
    unfold gridHits
    rw [hPair]
    exact List.mem_filter.mpr ⟨List.mem_map_of_mem hSearched, beq_iff_eq.mpr hRead⟩

/-- Seventeen digits suffice. -/
theorem gridHits_ne_nil {m : Nat} {e : Int} (hNormal : Normal m e) (hPos : 0 < m) {num den : Nat}
    (hDen : 0 < den) (hValue : (num : ℚ) / den = m * 2 ^ e) :
    gridHits (.finite false m e) num den (Int.log 10 ((num : ℚ) / den) - 16) ≠ [] := by
  obtain ⟨n, hNear, hMem⟩ :=
    exists_near_hit num hDen (Int.log 10 ((num : ℚ) / den) - 16)
  have hValuePos : (0 : ℚ) < num / den := by
    rw [hValue]
    exact mul_pos (by exact_mod_cast hPos) (zpow_pos two_pos e)
  have hLeading := Int.zpow_log_le_self (b := 10) (by decide) hValuePos
  rw [zpow_sub₀ (by norm_num), le_div_iff₀ (by norm_num)] at hNear
  refine List.ne_nil_of_mem (hMem _ ?_)
  rw [ofDecimal_eq]
  apply ofRational_of_near false hNormal hPos
  rw [← hValue, decimalValue, ← mul_assoc, zpow_sub₀ (by norm_num)]
  refine le_trans ?_ (by exact_mod_cast hLeading)
  exact_mod_cast hNear

theorem ofDecimal_shortestFrom {x : Binary64} {num den : Nat} {leading : Int}
    (hLast : gridHits x num den (leading - 16) ≠ []) (fuel : Nat) :
    ofDecimal false (shortestFrom x num den leading (fuel + 1)).digits
      (shortestFrom x num den leading (fuel + 1)).exponent = x := by
  induction fuel with
  | zero =>
      rw [shortestFrom, Nat.cast_zero, Int.sub_zero]
      split
      next s rest hHits => exact ofDecimal_of_mem_gridHits (hHits ▸ List.mem_cons_self)
      next hNone => exact absurd hNone hLast
  | succ fuel ih =>
      rw [shortestFrom]
      split
      next s rest hHits => exact ofDecimal_of_mem_gridHits (hHits ▸ List.mem_cons_self)
      next => exact ih

/-- The shortest decimal of a number reads back as that number. -/
theorem ofDecimal_shortest {m : Nat} {e : Int} (hNormal : Normal m e) (hPos : 0 < m) :
    ofDecimal false (shortest m e).digits (shortest m e).exponent = .finite false m e := by
  obtain ⟨hNum, hDen, hValue⟩ := fraction_spec hPos e
  have hLast := gridHits_ne_nil hNormal hPos hDen hValue
  rw [← leadingExponent_eq hNum hDen] at hLast
  exact ofDecimal_shortestFrom hLast 16

theorem shortest_digits_pos {m : Nat} {e : Int} (hNormal : Normal m e) (hPos : 0 < m) :
    0 < (shortest m e).digits := by
  rw [Nat.pos_iff_ne_zero]
  intro hZero
  have hRead := ofDecimal_shortest hNormal hPos
  simp only [hZero, ofDecimal, zero, reduceIte, finite.injEq] at hRead
  omega

end ScriptEditor.Number.Binary64
