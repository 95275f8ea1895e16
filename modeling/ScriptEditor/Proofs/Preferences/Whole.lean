import ScriptEditor.Proofs.Number.WholeText
import ScriptEditor.Proofs.Preferences.Stored
import ScriptEditor.Proofs.Text.Halves

/-! Which values stand for a positive whole number: whole numbers, floating-point numbers without
a fraction, and numerals. Every other value gives the default. -/
namespace ScriptEditor.Number.Binary64

variable {x : Binary64} {n : Int}

/-- The exact value of a finite number. -/
def value? : Binary64 → Option ℚ
  | .finite negative m e => some ((if negative then -1 else 1) * (m * 2 ^ e))
  | _ => none

/-- A significand and an exponent denote a whole number just if the power leaves no rest. -/
theorem mul_two_zpow_eq_iff (m : Nat) (e a : Int) :
    (m : ℚ) * 2 ^ e = a ↔ (0 ≤ e ∨ m % Nat.pow 2 (-e).toNat = 0) ∧
      a = (if 0 ≤ e then m * Nat.pow 2 e.toNat else m / Nat.pow 2 (-e).toNat : Nat) := by
  by_cases hSign : 0 ≤ e
  · obtain ⟨k, rfl⟩ := Int.eq_ofNat_of_zero_le hSign
    rw [if_pos hSign, Int.toNat_natCast, zpow_natCast, and_iff_right (Or.inl hSign), eq_comm]
    exact_mod_cast Iff.rfl
  · obtain ⟨k, hk⟩ := Int.eq_ofNat_of_zero_le (by omega : 0 ≤ -e)
    obtain rfl : e = -(k : Int) := by omega
    have hPower : (2 : ℚ) ^ k ≠ 0 := pow_ne_zero k two_ne_zero
    have hWhole : (m : ℚ) * (2 ^ k)⁻¹ = a ↔ (m : Int) = a * (2 ^ k : Nat) := by
      rw [← div_eq_mul_inv, div_eq_iff hPower]
      exact_mod_cast Iff.rfl
    rw [if_neg hSign, neg_neg, Int.toNat_natCast, zpow_neg, zpow_natCast, hWhole,
      or_iff_right hSign]
    change _ ↔ m % 2 ^ k = 0 ∧ a = (m / 2 ^ k : Nat)
    have hPositive : 0 < 2 ^ k := Nat.two_pow_pos k
    generalize 2 ^ k = power at hPositive
    constructor
    · intro hProduct
      have hFactor : 0 ≤ a := by
        refine nonneg_of_mul_nonneg_left (b := (power : Int)) ?_ (Int.natCast_pos.mpr hPositive)
        rw [← hProduct]
        exact Int.natCast_nonneg m
      obtain ⟨q, rfl⟩ := Int.eq_ofNat_of_zero_le hFactor
      obtain rfl : m = q * power := by exact_mod_cast hProduct
      exact ⟨Nat.mul_mod_left q power, by rw [Nat.mul_div_cancel q hPositive]⟩
    · rintro ⟨hRest, rfl⟩
      exact_mod_cast (Nat.div_mul_cancel (Nat.dvd_of_mod_eq_zero hRest)).symm

/-- A number has a whole value just if it has no fraction to drop. -/
theorem value?_eq_some_iff : x.value? = some (n : ℚ) ↔ x.isWhole = true ∧ x.truncated? = some n := by
  cases x with
  | nan => exact iff_of_false nofun nofun
  | infinite negative => exact iff_of_false nofun nofun
  | finite negative m e =>
      simp only [value?, isWhole, truncated?, Option.some.injEq, Bool.or_eq_true,
        decide_eq_true_eq, beq_iff_eq]
      cases negative with
      | false =>
          rw [if_neg Bool.false_ne_true, if_neg Bool.false_ne_true, one_mul, mul_two_zpow_eq_iff]
          exact and_congr_right fun _ => eq_comm
      | true =>
          rw [if_pos rfl, if_pos rfl, neg_one_mul, neg_eq_iff_eq_neg, ← Int.cast_neg,
            mul_two_zpow_eq_iff]
          exact and_congr_right fun _ => by rw [neg_eq_iff_eq_neg, eq_comm]

end ScriptEditor.Number.Binary64

namespace ScriptEditor.Preferences

open ScriptEditor.Json (Value)
open ScriptEditor.Number

variable {default n : Int} {v : Value}

/-- The whole number that a value stands for. -/
inductive Stands : Value → Int → Prop where
  | int (n : Int) : Stands (.int n) n
  | float {x : Binary64} {n : Int} (hValue : x.value? = some (n : ℚ)) : Stands (.float x) n
  | text {t : Utf16} {s : Int} {ds : List Nat} (hNumeral : Numeral t.toText s ds) :
      Stands (.text t) (s * (Nat.ofDigits 10 ds.reverse : Nat))

theorem stands_float_iff {x : Binary64} :
    Stands (.float x) n ↔ x.isWhole = true ∧ x.truncated? = some n := by
  rw [← Binary64.value?_eq_some_iff]
  exact ⟨fun h => by cases h; assumption, .float⟩

theorem stands_text_iff {t : Utf16} : Stands (.text t) n ↔ readWhole t.toText = .ok n := by
  rw [readWhole_eq_ok_iff]
  constructor
  · rintro ⟨⟩
    exact ⟨_, _, ‹_›, rfl⟩
  · rintro ⟨s, ds, hNumeral, rfl⟩
    exact .text hNumeral

/-- A value stands for a number just if it may and is converted to it. -/
theorem stands_iff : Stands v n ↔ mayBeWhole v = true ∧ wholeOf v = .ok n := by
  cases v with
  | null => exact iff_of_false nofun nofun
  | bool b => exact iff_of_false nofun nofun
  | list items => exact iff_of_false nofun nofun
  | object fields => exact iff_of_false nofun nofun
  | int m =>
      constructor
      · rintro ⟨⟩
        exact ⟨rfl, rfl⟩
      · rintro ⟨-, h⟩
        obtain rfl := Except.ok.inj h
        exact .int m
  | float x =>
      rw [stands_float_iff, mayBeWhole]
      refine and_congr_right fun hWhole => ?_
      cases x with
      | nan => cases hWhole
      | infinite negative => cases hWhole
      | finite negative m e =>
          obtain ⟨whole, hWhole⟩ : ∃ whole, (Binary64.finite negative m e).truncated? = some whole :=
            ⟨_, rfl⟩
          change _ ↔ Except.ok ((Binary64.finite negative m e).truncated?.getD 0) = Except.ok n
          rw [hWhole, Option.getD_some, Option.some.injEq, Except.ok.injEq]
  | text t =>
      rw [stands_text_iff]
      change _ ↔ true = true ∧ (readWhole t.toText).mapError ConversionFault.text = .ok n
      cases readWhole t.toText with
      | error fault => exact iff_of_false nofun nofun
      | ok m => simp [Except.mapError]

theorem positiveOr_of_stands (h : Stands v n) :
    positiveOr default v = if 0 < n then n else default := by
  obtain ⟨hMay, hWhole⟩ := stands_iff.mp h
  rw [positiveOr, if_pos hMay, hWhole]

theorem positiveOr_of_not_stands (h : ∀ n, 0 < n → ¬ Stands v n) :
    positiveOr default v = default := by
  unfold positiveOr
  split_ifs with hMay
  · split
    next n hWhole => exact if_neg fun hPositive => h n hPositive (stands_iff.mpr ⟨hMay, hWhole⟩)
    next => rfl
  · rfl

/-- Values that stand for the same number have the same result. -/
theorem positiveOr_congr {other : Value} (h : Stands v n) (hOther : Stands other n) :
    positiveOr default v = positiveOr default other := by
  rw [positiveOr_of_stands h, positiveOr_of_stands hOther]

theorem ofDigits_zeros_append (k : Nat) (ds : List Nat) :
    Nat.ofDigits 10 (List.replicate k 0 ++ ds).reverse = Nat.ofDigits 10 ds.reverse := by
  rw [← ofDigits_eq, ← ofDigits_eq, ofDigits_append, ofDigits_zeros, Nat.zero_mul, Nat.zero_add]

theorem stands_ofText {t : Text} {s : Int} {ds : List Nat} (h : Numeral t s ds) :
    Stands (.text (.ofText t)) (s * (Nat.ofDigits 10 ds.reverse : Nat)) :=
  .text (by rwa [Utf16.toText_ofText])

/-- The result is the positive whole number that a value stands for, and the default if it stands
for none. Zeros in front, underscores, blanks and the script of the digits of a text do not change
it. With a positive default it is positive, and is then the result for itself with every
default. -/
theorem positiveOr_stands (default : Int) (v : Value) :
    (∀ n, 0 < n → Stands v n → positiveOr default v = n) ∧
    ((∀ n, 0 < n → ¬ Stands v n) → positiveOr default v = default) ∧
    (∀ t u s k ds, Numeral t s (List.replicate k 0 ++ ds) → Numeral u s ds →
      positiveOr default (.text (.ofText t)) = positiveOr default (.text (.ofText u))) ∧
    (0 < default → 0 < positiveOr default v ∧
      ∀ other, positiveOr other (.int (positiveOr default v)) = positiveOr default v) := by
  refine ⟨fun n hPositive hStands => ?_, positiveOr_of_not_stands,
    fun t u s k ds hPadded hPlain => ?_, fun hDefault => ?_⟩
  · rw [positiveOr_of_stands hStands, if_pos hPositive]
  · have hStands := stands_ofText hPadded
    rw [ofDigits_zeros_append] at hStands
    exact positiveOr_congr hStands (stands_ofText hPlain)
  · have hPositive := positiveOr_pos hDefault v
    exact ⟨hPositive, fun other => positiveOr_int other hPositive⟩

/-- A no-break space, a sign, a zero, an underscore, and digits of two scripts. -/
theorem positiveOr_stands_two_scripts :
    let t : Text := ['\u00a0', '+', '0', '_', '4', '٢', '\n']
    Stands (.text (.ofText t)) 42 ∧ positiveOr 7 (.text (.ofText t)) = 42 ∧
      ∀ other, positiveOr other (.int (positiveOr 7 (.text (.ofText t)))) =
        positiveOr 7 (.text (.ofText t)) := by
  intro t
  have hRow : DigitRow ['0', '_', '4', '٢'] [0, 4, 2] :=
    .spaced (by decide +kernel) (.next (by decide +kernel) (.last (by decide +kernel)))
  have hNumeral : Numeral (['\u00a0'] ++ (['+'] ++ (['0', '_', '4', '٢'] ++ ['\n']))) 1 [0, 4, 2] :=
    .parts (List.forall_mem_singleton.mpr (by decide)) .plus hRow (by decide)
      (List.forall_mem_singleton.mpr (by decide))
  have hStands : Stands (.text (.ofText t)) 42 := stands_ofText hNumeral
  obtain ⟨hResult, -, -, hAgain⟩ := positiveOr_stands 7 (.text (.ofText t))
  exact ⟨hStands, hResult 42 (by decide) hStands, (hAgain (by decide)).2⟩

/-- The information separators are blanks, but around a number they are not passed over, also not
in a text that is not ASCII. -/
theorem positiveOr_information_separator :
    let t : Text := ['\x1c', '５']
    (∃ c ∈ t, 0x80 ≤ c.toNat) ∧ Text.trim t = ['５'] ∧ DigitRow (Text.trim t) [5] ∧
      positiveOr 7 (.text (.ofText t)) = 7 := by
  intro t
  have hTrim : Text.trim t = ['５'] := by decide +kernel
  refine ⟨⟨'５', by decide⟩, hTrim, ?_, by decide +kernel⟩
  rw [hTrim]
  exact .last (by decide +kernel)

end ScriptEditor.Preferences
