import Mathlib.Data.List.Induction
import Mathlib.Tactic.Common
import Mathlib.Tactic.Ring
import ScriptEditor.Number.WholeText
import ScriptEditor.Text.Identifier

/-! Decimal digits. The digits that are written for a number read back as that number, a
row of digits is a number below a power of ten, and zeros in front change nothing. -/
namespace ScriptEditor.Number

open ScriptEditor.Text (isAsciiDigit)

theorem isAsciiDigit_eq_isDigit (c : Char) : isAsciiDigit c = c.isDigit := by
  simp [isAsciiDigit, Char.isDigit, Char.le_def]

theorem asciiDigit?_of_isAsciiDigit {c : Char} (h : isAsciiDigit c = true) :
    asciiDigit? c = some (c.toNat - 48) :=
  if_pos h

theorem asciiDigit?_lt {c : Char} {d : Nat} (h : asciiDigit? c = some d) : d < 10 := by
  unfold asciiDigit? at h
  split_ifs at h with hDigit
  cases h
  simp only [Char.le_def, UInt32.le_iff_toNat_le, Bool.and_eq_true, decide_eq_true_eq] at hDigit
  have hLast := hDigit.2
  change c.toNat ≤ 57 at hLast
  omega

theorem digitValue?_lt {c : Char} {d : Nat} (h : digitValue? c = some d) : d < 10 := by
  obtain ⟨z, hFound, rfl⟩ := Option.map_eq_some_iff.mp h
  have hRange := List.find?_some hFound
  simp only [Bool.and_eq_true, decide_eq_true_eq] at hRange
  omega

/-- A row of digits is a number with at most as many digits. -/
theorem ofDigits_lt {ds : List Nat} (h : ∀ d ∈ ds, d < 10) : ofDigits ds < 10 ^ ds.length := by
  induction ds using List.reverseRecOn with
  | nil => exact Nat.one_pos
  | append_singleton ds d ih =>
      have hFront := ih fun x hx => h x (List.mem_append_left _ hx)
      have hLast := h d (by simp)
      have hValue : ofDigits (ds ++ [d]) = 10 * ofDigits ds + d := by simp [ofDigits]
      rw [hValue, List.length_append, List.length_singleton, Nat.pow_succ]
      omega

/-- Reading a row of ASCII digits is reading its characters. -/
theorem ofDigits_filterMap {t : Text} (h : ∀ c ∈ t, isAsciiDigit c = true) :
    ofDigits (t.filterMap asciiDigit?) = Nat.ofDigitChars 10 t 0 := by
  induction t using List.reverseRecOn with
  | nil => rfl
  | append_singleton t c ih =>
      have hFront := ih fun x hx => h x (List.mem_append_left _ hx)
      have hLast := asciiDigit?_of_isAsciiDigit (h c (by simp))
      have hRow : (t ++ [c]).filterMap asciiDigit? = t.filterMap asciiDigit? ++ [c.toNat - 48] := by
        simp [hLast]
      rw [hRow, Nat.ofDigitChars_append, ← hFront]
      simp [ofDigits, Nat.ofDigitChars]

/-- A row behind another one moves that one to higher places. -/
theorem ofDigits_append (s t : List Nat) :
    ofDigits (s ++ t) = ofDigits s * 10 ^ t.length + ofDigits t := by
  induction t using List.reverseRecOn with
  | nil => simp [ofDigits]
  | append_singleton t d ih =>
      have hLast : ∀ ds : List Nat, ofDigits (ds ++ [d]) = 10 * ofDigits ds + d := by
        intro ds
        simp [ofDigits]
      rw [← List.append_assoc, hLast, hLast, ih, List.length_append, List.length_singleton,
        Nat.pow_succ]
      ring

theorem ofDigits_zeros (k : Nat) : ofDigits (List.replicate k 0) = 0 := by
  induction k with
  | zero => rfl
  | succ k ih =>
      rw [List.replicate_succ', ofDigits_append, ih]
      rfl

theorem filterMap_zeros (k : Nat) :
    (List.replicate k '0').filterMap asciiDigit? = List.replicate k 0 := by
  have hZero : asciiDigit? '0' = some 0 := rfl
  induction k with
  | zero => rfl
  | succ k ih => rw [List.replicate_succ, List.replicate_succ, List.filterMap_cons_some hZero, ih]

theorem isAsciiDigit_of_mem_zeros {k : Nat} {c : Char} (h : c ∈ List.replicate k '0') :
    isAsciiDigit c = true := by
  rw [List.eq_of_mem_replicate h]
  rfl

theorem isAsciiDigit_of_mem_ofNat {n : Nat} {c : Char} (h : c ∈ Text.ofNat n) :
    isAsciiDigit c = true := by
  rw [isAsciiDigit_eq_isDigit]
  exact Nat.isDigit_of_mem_toDigits (by decide) (by decide) h

theorem ofNat_ne_nil (n : Nat) : Text.ofNat n ≠ [] :=
  Nat.toDigits_ne_nil

@[simp] theorem ofDigits_ofNat (n : Nat) : ofDigits ((Text.ofNat n).filterMap asciiDigit?) = n := by
  rw [ofDigits_filterMap fun _ => isAsciiDigit_of_mem_ofNat]
  exact Nat.ofDigitChars_ten_toDigits

/-- Only zero is written with a zero in front. -/
theorem head?_ofNat {n : Nat} (h : n ≠ 0) : (Text.ofNat n).head? ≠ some '0' := by
  induction n using Nat.strongRecOn with
  | _ n ih =>
      unfold Text.ofNat
      rw [Nat.toDigits_eq_if (by decide)]
      by_cases hSmall : n < 10
      · rw [if_pos hSmall]
        simpa using h
      · rw [if_neg hSmall, List.head?_append, List.head?_eq_some_head Nat.toDigits_ne_nil]
        have hFront := ih (n / 10) (by omega) (by omega)
        rwa [Text.ofNat, List.head?_eq_some_head Nat.toDigits_ne_nil] at hFront

theorem length_ofNat_le_iff {n k : Nat} (hk : 0 < k) : (Text.ofNat n).length ≤ k ↔ n < 10 ^ k :=
  Nat.length_toDigits_le_iff (by decide) hk

/-- The least power of ten above a positive number. -/
theorem pow_length_ofNat {n : Nat} (h : 0 < n) :
    10 ^ ((Text.ofNat n).length - 1) ≤ n ∧ n < 10 ^ (Text.ofNat n).length := by
  have hPos : 0 < (Text.ofNat n).length := List.length_pos_iff.mpr (ofNat_ne_nil n)
  refine ⟨?_, (length_ofNat_le_iff hPos).mp (Nat.le_refl _)⟩
  by_cases hOne : (Text.ofNat n).length = 1
  · rw [hOne]
    exact h
  · rw [← Nat.not_lt, ← length_ofNat_le_iff (by omega)]
    omega

end ScriptEditor.Number
