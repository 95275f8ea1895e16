import Mathlib.Tactic.Common
import ScriptEditor.Json.Reader
import ScriptEditor.Json.Writer

/-! Strings as they are written and read. A string is written in printable ASCII, and reading
it gives the same units back, halves of characters among them. -/
namespace ScriptEditor.Json

open ScriptEditor.Text (hexDigits backslash doubleQuote)

/-! ### Digits in base 16 -/

theorem hexValue?_digitChar {d : Nat} (h : d < 16) : hexValue? (Nat.digitChar d) = some d := by
  revert h d
  decide

theorem hexDigits_one {n : Nat} (h : n < 16) : hexDigits 1 n = [Nat.digitChar n] := by
  unfold hexDigits
  rw [Nat.toDigits_of_lt_base h]
  rfl

/-- The last digit behind the digits of the quotient. -/
theorem hexDigits_succ {width : Nat} (hWidth : 0 < width) (n : Nat) :
    hexDigits (width + 1) n = hexDigits width (n / 16) ++ [Nat.digitChar (n % 16)] := by
  unfold hexDigits
  dsimp only
  by_cases hSmall : n < 16
  · obtain ⟨k, rfl⟩ := Nat.exists_eq_succ_of_ne_zero (Nat.ne_of_gt hWidth)
    rw [Nat.toDigits_of_lt_base hSmall, Nat.div_eq_of_lt hSmall, Nat.mod_eq_of_lt hSmall,
      Nat.toDigits_of_lt_base (by decide : 0 < 16)]
    simp only [List.length_singleton, Nat.add_sub_cancel]
    rw [List.replicate_succ']
    rfl
  · have hDigits : Nat.toDigits 16 n = Nat.toDigits 16 (n / 16) ++ [Nat.digitChar (n % 16)] := by
      rw [Nat.toDigits_eq_if (by decide), if_neg hSmall]
    rw [hDigits, List.length_append, List.length_singleton, Nat.add_sub_add_right,
      List.append_assoc]

theorem hexDigits_four {n : Nat} (h : n < 65536) :
    hexDigits 4 n = [Nat.digitChar (n / 4096), Nat.digitChar (n / 256 % 16),
      Nat.digitChar (n / 16 % 16), Nat.digitChar (n % 16)] := by
  rw [hexDigits_succ (by decide), hexDigits_succ (by decide), hexDigits_succ (by decide),
    hexDigits_one (by omega), Nat.div_div_eq_div_mul n 16 16, Nat.div_div_eq_div_mul]
  rfl

theorem readHex4_hexDigits {n : Nat} (h : n < 65536) (rest : Text) :
    readHex4 (hexDigits 4 n ++ rest) = some (UInt16.ofNat n, rest) := by
  have hValue : ((n / 4096 * 16 + n / 256 % 16) * 16 + n / 16 % 16) * 16 + n % 16 = n := by omega
  rw [hexDigits_four h]
  simp only [List.cons_append, List.nil_append, readHex4, hexValue?_digitChar (by omega : n / 4096 < 16),
    hexValue?_digitChar (by omega : n / 256 % 16 < 16),
    hexValue?_digitChar (by omega : n / 16 % 16 < 16),
    hexValue?_digitChar (by omega : n % 16 < 16), Option.bind_eq_bind, Option.bind_some, hValue]

/-! ### Units -/

theorem plainEscape?_of_shortEscape? {u : UInt16} {c : Char} (h : shortEscape? u = some c) :
    plainEscape? c = some u ∧ c ≠ 'u' := by
  unfold shortEscape? at h
  split_ifs at h with h₁ h₂ h₃ h₄ h₅ h₆ h₇ <;>
    (obtain rfl := Option.some.inj h; simp only [beq_iff_eq] at *; subst u; decide)

theorem printable_spec {u : UInt16} (h : (decide (32 ≤ u) && decide (u < 127)) = true) :
    32 ≤ u.toNat ∧ u.toNat < 127 ∧ (Char.ofNat u.toNat).toNat = u.toNat := by
  simp only [Bool.and_eq_true, decide_eq_true_eq, UInt16.le_iff_toNat_le,
    UInt16.lt_iff_toNat_lt] at h
  obtain ⟨hLow, hHigh⟩ := h
  change 32 ≤ u.toNat at hLow
  change u.toNat < 127 at hHigh
  exact ⟨hLow, hHigh, Text.toNat_ofNat (Or.inl (by omega))⟩

/-- What is written for a unit begins neither with a quote nor with a control character and
reads back as that unit. -/
theorem readUnits_writeUnit (u : UInt16) (rest : Text) :
    readUnits (writeUnit u ++ rest) = some ([u], rest) ∧
      ∃ c t, writeUnit u = c :: t ∧ c ≠ doubleQuote := by
  unfold writeUnit
  cases hShort : shortEscape? u with
  | some c =>
      obtain ⟨hEscape, hNotUnit⟩ := plainEscape?_of_shortEscape? hShort
      refine ⟨?_, _, _, rfl, by decide⟩
      simp [readUnits, hNotUnit, hEscape]
  | none =>
      dsimp only
      split_ifs with hPrintable
      · obtain ⟨hLow, hHigh, hNat⟩ := printable_spec hPrintable
        have hOther : ∀ c : Char, shortEscape? (UInt16.ofNat c.toNat) ≠ none →
            Char.ofNat u.toNat ≠ c := by
          rintro c hEscape rfl
          rw [hNat, UInt16.ofNat_toNat] at hEscape
          exact hEscape hShort
        refine ⟨?_, _, _, rfl, hOther doubleQuote (by decide)⟩
        have hUnits : Utf16.ofChar (Char.ofNat u.toNat) = [u] := by
          unfold Utf16.ofChar
          dsimp only
          rw [hNat, if_pos (by omega), UInt16.ofNat_toNat]
        rw [List.singleton_append, readUnits.eq_def]
        dsimp only
        rw [if_neg, if_neg, hUnits]
        · rw [hNat]
          omega
        · rw [beq_iff_eq]
          exact hOther backslash (by decide)
      · refine ⟨?_, _, _, rfl, by decide⟩
        have hHex := readHex4_hexDigits u.toNat_lt rest
        rw [UInt16.ofNat_toNat] at hHex
        simp [unitEscape, readUnits, hHex]

theorem digitChar_ne_return {d : Nat} (h : d < 16) : '\r' ≠ Nat.digitChar d := by
  revert h d
  decide

theorem return_not_mem_writeUnit (u : UInt16) : '\r' ∉ writeUnit u := by
  unfold writeUnit
  cases hShort : shortEscape? u with
  | some c =>
      have hPlain := (plainEscape?_of_shortEscape? hShort).1
      have hEscaped : '\r' ≠ c := by
        rintro rfl
        cases hPlain
      exact List.not_mem_cons_of_ne_of_not_mem (by decide) (by simpa using hEscaped)
  | none =>
      dsimp only
      split_ifs with hPrintable
      · obtain ⟨hLow, -, hNat⟩ := printable_spec hPrintable
        rw [List.mem_singleton]
        intro hReturn
        rw [← hReturn] at hNat
        change 13 = u.toNat at hNat
        omega
      · rw [unitEscape, hexDigits_four u.toNat_lt]
        have hUnit := u.toNat_lt
        simp [digitChar_ne_return (by omega : u.toNat / 4096 < 16),
          digitChar_ne_return (by omega : u.toNat / 256 % 16 < 16),
          digitChar_ne_return (by omega : u.toNat / 16 % 16 < 16),
          digitChar_ne_return (by omega : u.toNat % 16 < 16), backslash]

/-! ### Strings -/

theorem readStringFuel_writeUnits (s : Utf16) (rest : Text) {fuel : Nat} (hFuel : s.length < fuel) :
    readStringFuel fuel (s.flatMap writeUnit ++ doubleQuote :: rest) = some (s, rest) := by
  induction s generalizing fuel with
  | nil =>
      obtain ⟨k, rfl⟩ := Nat.exists_eq_succ_of_ne_zero (Nat.pos_iff_ne_zero.mp hFuel)
      simp [readStringFuel]
  | cons u s ih =>
      obtain ⟨k, rfl⟩ := Nat.exists_eq_succ_of_ne_zero (Nat.pos_iff_ne_zero.mp (Nat.zero_lt_of_lt hFuel))
      have hRest := ih (Nat.lt_of_succ_lt_succ hFuel)
      obtain ⟨hRead, c, t, hUnit, hQuote⟩ :=
        readUnits_writeUnit u (s.flatMap writeUnit ++ doubleQuote :: rest)
      rw [List.flatMap_cons, List.append_assoc]
      rw [hUnit, List.cons_append] at hRead ⊢
      rw [readStringFuel, if_neg (by rwa [beq_iff_eq]), hRead]
      simp only [Option.bind_eq_bind, Option.bind_some, hRest]
      rfl

theorem length_le_length_flatMap_writeUnit (s : Utf16) : s.length ≤ (s.flatMap writeUnit).length := by
  induction s with
  | nil => exact Nat.le_refl _
  | cons u s ih =>
      obtain ⟨-, c, t, hUnit, -⟩ := readUnits_writeUnit u []
      rw [List.flatMap_cons, List.length_append, hUnit, List.length_cons, List.length_cons]
      omega

/-- A string reads back as its units, whatever is behind it. -/
theorem readString_writeUnits (s : Utf16) (rest : Text) :
    readString (s.flatMap writeUnit ++ doubleQuote :: rest) = some (s, rest) := by
  have hLength := length_le_length_flatMap_writeUnit s
  apply readStringFuel_writeUnits
  rw [List.length_append, List.length_cons]
  omega

theorem writeString_append (s : Utf16) (rest : Text) :
    writeString s ++ rest = doubleQuote :: (s.flatMap writeUnit ++ doubleQuote :: rest) := by
  simp [writeString]

end ScriptEditor.Json
