import Mathlib.Data.List.TakeWhile
import ScriptEditor.Proofs.Number.Shortest

/-! The text of a floating-point number. It has digits in front of a point and behind it, or a
power of ten, and what these stand for is the value of the shortest decimal. -/
namespace ScriptEditor.Number

open ScriptEditor.Text (isAsciiDigit)

/-- The parts of an unsigned decimal as they are written. -/
structure Spelling where
  whole : Text
  fraction : Text
  power : Option Int

namespace Spelling

/-- The digits behind a point, if there are any. -/
def pointed (fraction : Text) : Text :=
  if fraction = [] then [] else '.' :: fraction

/-- A power of ten with its sign and at least two digits. -/
def powered : Option Int → Text
  | none => []
  | some n =>
    let size := Text.ofNat n.natAbs
    'e' :: (if 0 ≤ n then '+' else '-') :: (List.replicate (2 - size.length) '0' ++ size)

def text (s : Spelling) : Text :=
  s.whole ++ (pointed s.fraction ++ powered s.power)

def parts (s : Spelling) : DecimalParts :=
  ⟨s.whole, s.fraction, s.power.getD 0⟩

/-- The parts are rows of digits, the first of them not empty and without needless zeros in
front, and they show that the number is not whole. -/
structure Valid (s : Spelling) : Prop where
  whole : ∀ c ∈ s.whole, isAsciiDigit c = true
  fraction : ∀ c ∈ s.fraction, isAsciiDigit c = true
  first : s.whole = ['0'] ∨ s.whole ≠ [] ∧ s.whole.head? ≠ some '0'
  shown : s.fraction ≠ [] ∨ s.power.isSome

/-- The number that the parts stand for. -/
def value (s : Spelling) : ℚ :=
  Binary64.decimalValue (ofDigits ((s.whole ++ s.fraction).filterMap asciiDigit?))
    (s.power.getD 0 - s.fraction.length)

theorem toBinary64_parts (s : Spelling) (negative : Bool) :
    s.parts.toBinary64 negative = Binary64.ofRational negative s.value :=
  Binary64.ofDecimal_eq _ _ _

end Spelling

namespace Binary64

/-! ### The layout of digits -/

theorem decimalValue_mul_pow (n k : Nat) (exponent : Int) :
    decimalValue (n * 10 ^ k) exponent = decimalValue n (exponent + k) := by
  unfold decimalValue
  rw [zpow_add₀ (by norm_num), zpow_natCast]
  push_cast
  ring

theorem ofDigits_append_zeros (t : Text) (k : Nat) :
    ofDigits ((t ++ List.replicate k '0').filterMap asciiDigit?) =
      ofDigits (t.filterMap asciiDigit?) * 10 ^ k := by
  rw [List.filterMap_append, filterMap_zeros, ofDigits_append, ofDigits_zeros,
    List.length_replicate, Nat.add_zero]

theorem ofDigits_zeros_append (t : Text) (k : Nat) :
    ofDigits ((List.replicate k '0' ++ t).filterMap asciiDigit?) =
      ofDigits (t.filterMap asciiDigit?) := by
  rw [List.filterMap_append, filterMap_zeros, ofDigits_append, ofDigits_zeros, Nat.zero_mul,
    Nat.zero_add]

variable {digits : Text} {leading : Int}

/-- Digits up to the unit and some behind it. -/
theorem spelling_long (hDigits : ∀ c ∈ digits, isAsciiDigit c = true)
    (hFirst : digits.head? ≠ some '0') (hLeading : 0 ≤ leading)
    (hLong : leading.toNat + 1 < digits.length) :
    let s : Spelling := ⟨digits.take (leading.toNat + 1), digits.drop (leading.toNat + 1), none⟩
    s.Valid ∧ s.value = decimalValue (ofDigits (digits.filterMap asciiDigit?))
      (leading + 1 - digits.length) := by
  refine ⟨⟨fun c hc => hDigits c (List.mem_of_mem_take hc),
    fun c hc => hDigits c (List.mem_of_mem_drop hc), Or.inr ⟨?_, ?_⟩, Or.inl ?_⟩, ?_⟩
  · exact List.ne_nil_of_length_pos (by rw [List.length_take]; omega)
  · rwa [List.head?_take, if_neg (Nat.succ_ne_zero _)]
  · exact List.ne_nil_of_length_pos (by rw [List.length_drop]; omega)
  · unfold Spelling.value
    rw [List.take_append_drop, List.length_drop]
    congr 1
    dsimp only [Option.getD_none]
    omega

/-- Digits that end at the unit or before it. -/
theorem spelling_short (hDigits : ∀ c ∈ digits, isAsciiDigit c = true) (hSome : digits ≠ [])
    (hFirst : digits.head? ≠ some '0') (hLeading : 0 ≤ leading)
    (hShort : digits.length ≤ leading.toNat + 1) :
    let s : Spelling :=
      ⟨digits ++ List.replicate (leading.toNat + 1 - digits.length) '0', ['0'], none⟩
    s.Valid ∧ s.value = decimalValue (ofDigits (digits.filterMap asciiDigit?))
      (leading + 1 - digits.length) := by
  refine ⟨⟨fun c hc => ?_, fun c hc => ?_, Or.inr ⟨?_, ?_⟩, Or.inl (List.cons_ne_nil _ _)⟩, ?_⟩
  · exact (List.mem_append.mp hc).elim (hDigits c) isAsciiDigit_of_mem_zeros
  · exact isAsciiDigit_of_mem_zeros (k := 1) hc
  · exact List.append_ne_nil_of_left_ne_nil hSome _
  · rwa [List.head?_append_of_ne_nil _ hSome]
  · unfold Spelling.value
    rw [List.append_assoc, ← List.replicate_succ' (n := leading.toNat + 1 - digits.length),
      ofDigits_append_zeros, decimalValue_mul_pow]
    congr 1
    dsimp only [Option.getD_none, List.length_singleton]
    omega

/-- Digits that begin behind the point. -/
theorem spelling_small (hDigits : ∀ c ∈ digits, isAsciiDigit c = true) (hSome : digits ≠ [])
    (hLeading : leading < 0) :
    let s : Spelling := ⟨['0'], List.replicate ((-leading).toNat - 1) '0' ++ digits, none⟩
    s.Valid ∧ s.value = decimalValue (ofDigits (digits.filterMap asciiDigit?))
      (leading + 1 - digits.length) := by
  refine ⟨⟨fun c hc => ?_, fun c hc => ?_, Or.inl rfl, Or.inl ?_⟩, ?_⟩
  · exact isAsciiDigit_of_mem_zeros (k := 1) hc
  · exact (List.mem_append.mp hc).elim isAsciiDigit_of_mem_zeros (hDigits c)
  · exact List.append_ne_nil_of_right_ne_nil _ hSome
  · unfold Spelling.value
    rw [← List.append_assoc, List.singleton_append, ← List.replicate_succ, ofDigits_zeros_append]
    congr 1
    dsimp only [Option.getD_none]
    rw [List.length_append, List.length_replicate]
    omega

/-- A digit in front of a power, with the others behind a point. -/
theorem spelling_power {d : Char} {rest : Text}
    (hDigits : ∀ c ∈ d :: rest, isAsciiDigit c = true) (hFirst : d ≠ '0') :
    let s : Spelling := ⟨[d], rest, some leading⟩
    s.Valid ∧ s.value = decimalValue (ofDigits ((d :: rest).filterMap asciiDigit?))
      (leading + 1 - (d :: rest).length) := by
  refine ⟨⟨fun c hc => ?_, fun c hc => hDigits c (List.mem_cons_of_mem d hc), Or.inr ⟨?_, ?_⟩,
    Or.inr rfl⟩, ?_⟩
  · exact hDigits c (List.mem_singleton.mp hc ▸ List.mem_cons_self)
  · exact List.cons_ne_nil _ _
  · simpa using hFirst
  · unfold Spelling.value
    congr 1
    dsimp only [Option.getD_some]
    rw [List.length_cons]
    omega

/-- Digits are laid out so that they stand for the number whose first digit has the given
exponent. -/
theorem exists_spelling_layout (hDigits : ∀ c ∈ digits, isAsciiDigit c = true)
    (hSome : digits ≠ []) (hFirst : digits.head? ≠ some '0') (leading : Int) :
    ∃ s : Spelling, s.text = layout digits leading ∧ s.Valid ∧
      s.value = decimalValue (ofDigits (digits.filterMap asciiDigit?))
        (leading + 1 - digits.length) := by
  by_cases hPositional : isPositional leading = true
  · by_cases hSign : 0 ≤ leading
    · by_cases hShort : digits.length ≤ leading.toNat + 1
      · refine ⟨_, ?_, spelling_short hDigits hSome hFirst hSign hShort⟩
        simp [layout, hPositional, hSign, Spelling.text, Spelling.pointed, Spelling.powered,
          List.take_of_length_le hShort, List.drop_of_length_le hShort]
      · refine ⟨_, ?_, spelling_long hDigits hFirst hSign (Nat.lt_of_not_le hShort)⟩
        have hRest : digits.drop (leading.toNat + 1) ≠ [] :=
          List.ne_nil_of_length_pos (by rw [List.length_drop]; omega)
        have hNone : leading.toNat + 1 - digits.length = 0 := by omega
        simp [layout, hPositional, hSign, Spelling.text, Spelling.pointed, Spelling.powered, hRest,
          hNone, -List.drop_eq_nil_iff]
    · refine ⟨_, ?_, spelling_small hDigits hSome (Int.lt_of_not_ge hSign)⟩
      simp [layout, hPositional, hSign, Spelling.text, Spelling.pointed, Spelling.powered, hSome]
  · obtain ⟨d, rest, rfl⟩ := List.exists_cons_of_ne_nil hSome
    refine ⟨_, ?_, spelling_power hDigits (by simpa using hFirst)⟩
    cases rest with
    | nil => simp [layout, hPositional, Spelling.text, Spelling.pointed, Spelling.powered]
    | cons d' rest => simp [layout, hPositional, Spelling.text, Spelling.pointed, Spelling.powered]

/-! ### Final zeros -/

theorem withoutFinalZeros_append (t : Text) :
    ∃ k, withoutFinalZeros t ++ List.replicate k '0' = t := by
  refine ⟨(t.reverse.takeWhile (· == '0')).length, ?_⟩
  have hZeros : t.reverse.takeWhile (· == '0') =
      List.replicate (t.reverse.takeWhile (· == '0')).length '0' :=
    List.eq_replicate_of_mem fun c hc => by simpa using List.mem_takeWhile_imp hc
  have hSplit := congrArg List.reverse (List.takeWhile_append_dropWhile (p := (· == '0')) (l := t.reverse))
  rw [List.reverse_append, List.reverse_reverse] at hSplit
  rw [withoutFinalZeros, Text.dropEndWhile, ← List.reverse_replicate, ← hZeros]
  exact hSplit

theorem packed_sign {m n : Nat} {e f : Int} (h : packed false m e = .finite false n f)
    (negative : Bool) : packed negative m e = .finite negative n f := by
  unfold packed at h ⊢
  by_cases hCarry : m = Nat.pow 2 53
  · rw [if_pos hCarry] at h ⊢
    dsimp only at h ⊢
    split_ifs at h ⊢ with hLarge
    obtain ⟨-, rfl, rfl⟩ := finite.inj h
    rfl
  · rw [if_neg hCarry] at h ⊢
    dsimp only at h ⊢
    split_ifs at h ⊢ with hLarge
    obtain ⟨-, rfl, rfl⟩ := finite.inj h
    rfl

theorem ofRational_sign {v : ℚ} {m : Nat} {e : Int} (h : ofRational false v = .finite false m e)
    (negative : Bool) : ofRational negative v = .finite negative m e := by
  unfold ofRational at h ⊢
  split_ifs at h ⊢ with hZero
  · obtain ⟨-, rfl, rfl⟩ := finite.inj h
    rfl
  · exact packed_sign h negative

theorem exists_spelling_shortest {m : Nat} {e : Int} (hNormal : Normal m e) (hPos : 0 < m) :
    ∃ s : Spelling, s.Valid ∧ (∀ negative, ofRational negative s.value = .finite negative m e) ∧
      ∀ negative, toText (.finite negative m e) = if negative then '-' :: s.text else s.text := by
  have hRead := ofDecimal_shortest hNormal hPos
  have hDigits := shortest_digits_pos hNormal hPos
  generalize hShortest : shortest m e = decimal at hRead hDigits
  obtain ⟨k, hSplit⟩ := withoutFinalZeros_append (Text.ofNat decimal.digits)
  have hNumber := ofDigits_ofNat decimal.digits
  rw [← hSplit, ofDigits_append_zeros] at hNumber
  have hSome : withoutFinalZeros (Text.ofNat decimal.digits) ≠ [] := by
    intro hNone
    rw [hNone, List.filterMap_nil] at hNumber
    exact hDigits.ne (by rw [← hNumber]; exact (Nat.zero_mul _).symm)
  obtain ⟨s, hText, hValid, hValue⟩ := exists_spelling_layout
    (fun c hc => isAsciiDigit_of_mem_ofNat (hSplit ▸ List.mem_append_left _ hc)) hSome
    (fun hFirst => head?_ofNat hDigits.ne' (by
      rw [← hSplit, List.head?_append_of_ne_nil _ hSome]
      exact hFirst))
    (decimal.exponent + (Text.ofNat decimal.digits).length - 1)
  refine ⟨s, hValid, ?_, ?_⟩
  · apply ofRational_sign
    have hLength := congrArg List.length hSplit
    rw [List.length_append, List.length_replicate] at hLength
    rw [hValue, show decimal.exponent + (Text.ofNat decimal.digits).length - 1 + 1 -
        (withoutFinalZeros (Text.ofNat decimal.digits)).length = decimal.exponent + k by omega,
      ← decimalValue_mul_pow, hNumber, ← ofDecimal_eq]
    exact hRead
  · intro negative
    unfold toText
    dsimp only
    rw [if_neg hPos.ne', hShortest, hText]

/-- The text of a finite number stands for that number. -/
theorem exists_spelling {m : Nat} {e : Int} (hNormal : Normal m e) :
    ∃ s : Spelling, s.Valid ∧ (∀ negative, ofRational negative s.value = .finite negative m e) ∧
      ∀ negative, toText (.finite negative m e) = if negative then '-' :: s.text else s.text := by
  rcases Nat.eq_zero_or_pos m with rfl | hPos
  · obtain rfl : e = -1074 := hNormal.full.resolve_left (by norm_num)
    have hZero : ∀ c ∈ ['0'], isAsciiDigit c = true := fun c => isAsciiDigit_of_mem_zeros (k := 1)
    refine ⟨⟨['0'], ['0'], none⟩, ⟨hZero, hZero, Or.inl rfl, Or.inl (List.cons_ne_nil _ _)⟩, ?_, ?_⟩
    · intro negative
      have hValue : (⟨['0'], ['0'], none⟩ : Spelling).value = 0 := by
        have hDigits : ofDigits ((['0'] ++ ['0']).filterMap asciiDigit?) = 0 := rfl
        rw [Spelling.value, hDigits, decimalValue, Nat.cast_zero, zero_mul]
      rw [hValue, ofRational, if_pos rfl]
      rfl
    · intro negative
      rfl
  · exact exists_spelling_shortest hNormal hPos

end Binary64

end ScriptEditor.Number
