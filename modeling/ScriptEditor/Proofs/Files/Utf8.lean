import Mathlib.Tactic.Common
import ScriptEditor.Files.Utf8
import ScriptEditor.Proofs.Failing

/-! Every text is read back from its bytes, and nothing else is read as text. -/
namespace ScriptEditor.Utf8

/-! ### Bytes -/

theorem toNat_continuation (n : Nat) : (continuation n).toNat = 0x80 + n % 64 :=
  UInt8.toNat_ofNat_of_lt' (by rw [UInt8.size]; omega)

theorem isContinuation_iff (b : UInt8) :
    isContinuation b = true ↔ 0x80 ≤ b.toNat ∧ b.toNat < 0xC0 := by
  simp [isContinuation, UInt8.le_iff_toNat_le, UInt8.lt_iff_toNat_lt]

theorem isContinuation_continuation (n : Nat) : isContinuation (continuation n) = true := by
  rw [isContinuation_iff, toNat_continuation]
  omega

theorem isSecond_iff (a b : UInt8) :
    isSecond a b = true ↔ (0x80 ≤ b.toNat ∧ b.toNat < 0xC0) ∧ (a.toNat = 0xE0 → 0xA0 ≤ b.toNat) ∧
      (a.toNat = 0xED → b.toNat < 0xA0) ∧ (a.toNat = 0xF0 → 0x90 ≤ b.toNat) ∧
      (a.toNat = 0xF4 → b.toNat < 0x90) := by
  have hNe : ∀ k : UInt8, (a != k) = true ↔ ¬a.toNat = k.toNat := by
    intro k
    rw [bne_iff_ne, ne_eq, UInt8.toNat_inj]
  simp only [isSecond, Bool.and_eq_true, Bool.or_eq_true, isContinuation_iff, hNe,
    decide_eq_true_eq, UInt8.le_iff_toNat_le, UInt8.lt_iff_toNat_lt, UInt8.reduceToNat]
  omega

theorem addBits_continuation (n k : Nat) : addBits n (continuation k) = n * 64 + k % 64 := by
  have hByte := toNat_continuation k
  unfold addBits
  omega

/-! ### Sequences of bytes -/

section Sequences

variable {a b c d : UInt8} (position : Nat) (rest : List UInt8)

theorem decodeFrom_one (h : a.toNat < 0x80) :
    decodeFrom position (a :: rest) =
      (decodeFrom (position + 1) rest).map (Char.ofNat a.toNat :: ·) := by
  rw [decodeFrom.eq_def]
  exact if_pos (by rwa [UInt8.lt_iff_toNat_lt])

theorem not_lt_of_le_toNat {k : UInt8} (h : k.toNat ≤ a.toNat) : ¬a < k := by
  rwa [UInt8.not_lt, UInt8.le_iff_toNat_le]

theorem not_refused (hLow : 0xC2 ≤ a.toNat) (hHigh : a.toNat ≤ 0xF4) :
    ¬(decide (a < 0xC2) || decide (0xF4 < a)) = true := by
  simp only [Bool.or_eq_true, decide_eq_true_eq, UInt8.lt_iff_toNat_lt, UInt8.reduceToNat]
  omega

theorem decodeFrom_two (hLow : 0xC2 ≤ a.toNat) (hHigh : a.toNat < 0xE0)
    (hSecond : isSecond a b = true) :
    decodeFrom position (a :: b :: rest) =
      (decodeFrom (position + 2) rest).map (Char.ofNat (addBits (a.toNat - 0xC0) b) :: ·) := by
  have hOne : ¬a < 0x80 := not_lt_of_le_toNat (Nat.le_trans (by decide) hLow)
  have hTwo : a < 0xE0 := UInt8.lt_iff_toNat_lt.mpr hHigh
  rw [decodeFrom.eq_def]
  dsimp only
  rw [if_neg hOne, if_neg (not_refused hLow (by omega)), hSecond]
  exact if_pos hTwo

theorem decodeFrom_three (hLow : 0xE0 ≤ a.toNat) (hHigh : a.toNat < 0xF0)
    (hSecond : isSecond a b = true) (hThird : isContinuation c = true) :
    decodeFrom position (a :: b :: c :: rest) =
      (decodeFrom (position + 3) rest).map
        (Char.ofNat (addBits (addBits (a.toNat - 0xE0) b) c) :: ·) := by
  have hOne : ¬a < 0x80 := not_lt_of_le_toNat (Nat.le_trans (by decide) hLow)
  have hTwo : ¬a < 0xE0 := not_lt_of_le_toNat hLow
  have hThree : a < 0xF0 := UInt8.lt_iff_toNat_lt.mpr hHigh
  rw [decodeFrom.eq_def]
  dsimp only
  rw [if_neg hOne, if_neg (not_refused (by omega) (by omega)), hSecond, hThird]
  exact (if_neg hTwo).trans (if_pos hThree)

theorem decodeFrom_four (hLow : 0xF0 ≤ a.toNat) (hHigh : a.toNat ≤ 0xF4)
    (hSecond : isSecond a b = true) (hThird : isContinuation c = true)
    (hFourth : isContinuation d = true) :
    decodeFrom position (a :: b :: c :: d :: rest) =
      (decodeFrom (position + 4) rest).map
        (Char.ofNat (addBits (addBits (addBits (a.toNat - 0xF0) b) c) d) :: ·) := by
  have hOne : ¬a < 0x80 := not_lt_of_le_toNat (Nat.le_trans (by decide) hLow)
  have hTwo : ¬a < 0xE0 := not_lt_of_le_toNat (Nat.le_trans (by decide) hLow)
  have hThree : ¬a < 0xF0 := not_lt_of_le_toNat hLow
  rw [decodeFrom.eq_def]
  dsimp only
  rw [if_neg hOne, if_neg (not_refused (by omega) hHigh), hSecond, hThird, hFourth]
  exact (if_neg hTwo).trans (if_neg hThree)

end Sequences

/-! ### Characters -/

/-- The bytes of a character are read as that character, and then what is behind them. -/
theorem decodeFrom_encodeChar (position : Nat) (c : Char) (rest : List UInt8) :
    decodeFrom position (encodeChar c ++ rest) =
      (decodeFrom (position + (encodeChar c).length) rest).map (c :: ·) := by
  have hValid : c.toNat < 0xD800 ∨ 0xDFFF < c.toNat ∧ c.toNat < 0x110000 := c.valid
  have hChar : ∀ {n}, n = c.toNat → Char.ofNat n = c := by
    rintro n rfl
    exact Char.ofNat_toNat c
  have hByte : ∀ {k}, k < 256 → (UInt8.ofNat k).toNat = k :=
    fun h => UInt8.toNat_ofNat_of_lt' h
  unfold encodeChar
  dsimp only
  split_ifs with hOne hTwo hThree
  · have hFirst := hByte (by omega : c.toNat < 256)
    rw [List.singleton_append, decodeFrom_one position rest (by omega), hFirst, hChar rfl]
    rfl
  · have hFirst := hByte (by omega : 0xC0 + c.toNat / 64 < 256)
    have hSecond : isSecond (UInt8.ofNat (0xC0 + c.toNat / 64)) (continuation c.toNat) = true := by
      rw [isSecond_iff, hFirst, toNat_continuation]
      omega
    have hBits : addBits (0xC0 + c.toNat / 64 - 0xC0) (continuation c.toNat) = c.toNat := by
      rw [addBits_continuation]
      omega
    rw [List.cons_append, List.singleton_append,
      decodeFrom_two position rest (by omega) (by omega) hSecond, hFirst, hChar hBits]
    rfl
  · have hFirst := hByte (by omega : 0xE0 + c.toNat / 4096 < 256)
    have hSecond : isSecond (UInt8.ofNat (0xE0 + c.toNat / 4096)) (continuation (c.toNat / 64)) =
        true := by
      rw [isSecond_iff, hFirst, toNat_continuation]
      omega
    have hBits : addBits (addBits (0xE0 + c.toNat / 4096 - 0xE0) (continuation (c.toNat / 64)))
        (continuation c.toNat) = c.toNat := by
      rw [addBits_continuation, addBits_continuation]
      omega
    rw [List.cons_append, List.cons_append, List.singleton_append,
      decodeFrom_three position rest (by omega) (by omega) hSecond (isContinuation_continuation _),
      hFirst, hChar hBits]
    rfl
  · have hFirst := hByte (by omega : 0xF0 + c.toNat / 262144 < 256)
    have hSecond : isSecond (UInt8.ofNat (0xF0 + c.toNat / 262144))
        (continuation (c.toNat / 4096)) = true := by
      rw [isSecond_iff, hFirst, toNat_continuation]
      omega
    have hBits : addBits (addBits (addBits (0xF0 + c.toNat / 262144 - 0xF0)
        (continuation (c.toNat / 4096))) (continuation (c.toNat / 64))) (continuation c.toNat) =
        c.toNat := by
      rw [addBits_continuation, addBits_continuation, addBits_continuation]
      omega
    rw [List.cons_append, List.cons_append, List.cons_append, List.singleton_append,
      decodeFrom_four position rest (by omega) (by omega) hSecond (isContinuation_continuation _)
        (isContinuation_continuation _), hFirst, hChar hBits]
    rfl

/-- A text is read back from its bytes. -/
theorem decode_encode (t : Text) : decode (encode t) = .ok t := by
  have hFrom : ∀ position, decodeFrom position (encode t) = .ok t := by
    induction t with
    | nil => exact fun _ => rfl
    | cons c t ih =>
        intro position
        have hRest := ih (position + (encodeChar c).length)
        rw [encode] at hRest ⊢
        rw [List.flatMap_cons, decodeFrom_encodeChar, hRest]
        rfl
  exact hFrom 0

/-! ### Bytes that are read -/

section Bytes

variable {a b c d : UInt8}

theorem ofNat_eq {n : Nat} (h : n = a.toNat) : UInt8.ofNat n = a := by
  rw [h]
  exact UInt8.ofNat_toNat

theorem continuation_eq {n : Nat} (hByte : isContinuation b = true)
    (hBits : n % 64 = b.toNat - 0x80) : continuation n = b := by
  rw [isContinuation_iff] at hByte
  rw [continuation, hBits]
  exact ofNat_eq (by omega)

theorem isContinuation_of_isSecond (h : isSecond a b = true) : isContinuation b = true :=
  (isContinuation_iff b).mpr ((isSecond_iff a b).mp h).1

theorem encodeChar_one (h : a.toNat < 0x80) : encodeChar (Char.ofNat a.toNat) = [a] := by
  have hChar : (Char.ofNat a.toNat).toNat = a.toNat := Text.toNat_ofNat (Or.inl (by omega))
  unfold encodeChar
  dsimp only
  rw [hChar, if_pos h, ofNat_eq rfl]

theorem encodeChar_two (hLow : 0xC2 ≤ a.toNat) (hHigh : a.toNat < 0xE0)
    (hSecond : isSecond a b = true) :
    encodeChar (Char.ofNat (addBits (a.toNat - 0xC0) b)) = [a, b] := by
  have hContinues := isContinuation_of_isSecond hSecond
  have hByte := (isContinuation_iff b).mp hContinues
  have hBits : addBits (a.toNat - 0xC0) b = (a.toNat - 0xC0) * 64 + (b.toNat - 0x80) := rfl
  generalize addBits (a.toNat - 0xC0) b = n at hBits ⊢
  have hChar : (Char.ofNat n).toNat = n := Text.toNat_ofNat (Or.inl (by omega))
  unfold encodeChar
  dsimp only
  rw [hChar, if_neg (by omega), if_pos (by omega), ofNat_eq (a := a) (by omega),
    continuation_eq hContinues (by omega)]

theorem encodeChar_three (hLow : 0xE0 ≤ a.toNat) (hHigh : a.toNat < 0xF0)
    (hSecond : isSecond a b = true) (hThird : isContinuation c = true) :
    encodeChar (Char.ofNat (addBits (addBits (a.toNat - 0xE0) b) c)) = [a, b, c] := by
  have hContinues := isContinuation_of_isSecond hSecond
  obtain ⟨hByte, hShort, hHalf, -, -⟩ := (isSecond_iff a b).mp hSecond
  have hLast := (isContinuation_iff c).mp hThird
  have hBits : addBits (addBits (a.toNat - 0xE0) b) c =
      ((a.toNat - 0xE0) * 64 + (b.toNat - 0x80)) * 64 + (c.toNat - 0x80) := rfl
  generalize addBits (addBits (a.toNat - 0xE0) b) c = n at hBits ⊢
  have hChar : (Char.ofNat n).toNat = n := by
    apply Text.toNat_ofNat
    unfold Nat.isValidChar
    omega
  unfold encodeChar
  dsimp only
  rw [hChar, if_neg (by omega), if_neg (by omega), if_pos (by omega), ofNat_eq (a := a) (by omega),
    continuation_eq hContinues (by omega), continuation_eq hThird (by omega)]

theorem encodeChar_four (hLow : 0xF0 ≤ a.toNat) (hHigh : a.toNat ≤ 0xF4)
    (hSecond : isSecond a b = true) (hThird : isContinuation c = true)
    (hFourth : isContinuation d = true) :
    encodeChar (Char.ofNat (addBits (addBits (addBits (a.toNat - 0xF0) b) c) d)) = [a, b, c, d] := by
  have hContinues := isContinuation_of_isSecond hSecond
  obtain ⟨hByte, -, -, hShort, hBeyond⟩ := (isSecond_iff a b).mp hSecond
  have hMiddle := (isContinuation_iff c).mp hThird
  have hLast := (isContinuation_iff d).mp hFourth
  have hBits : addBits (addBits (addBits (a.toNat - 0xF0) b) c) d =
      (((a.toNat - 0xF0) * 64 + (b.toNat - 0x80)) * 64 + (c.toNat - 0x80)) * 64 +
        (d.toNat - 0x80) := rfl
  generalize addBits (addBits (addBits (a.toNat - 0xF0) b) c) d = n at hBits ⊢
  have hChar : (Char.ofNat n).toNat = n := by
    apply Text.toNat_ofNat
    unfold Nat.isValidChar
    omega
  unfold encodeChar
  dsimp only
  rw [hChar, if_neg (by omega), if_neg (by omega), if_neg (by omega), ofNat_eq (a := a) (by omega),
    continuation_eq hContinues (by omega), continuation_eq hThird (by omega),
    continuation_eq hFourth (by omega)]

end Bytes

/-- The first byte of a longer sequence, if it is not refused. -/
theorem bounds_of_not_refused {a : UInt8}
    (h : ¬(decide (a < 0xC2) || decide (0xF4 < a)) = true) : 0xC2 ≤ a.toNat ∧ a.toNat ≤ 0xF4 := by
  simp only [Bool.or_eq_true, decide_eq_true_eq, UInt8.lt_iff_toNat_lt, UInt8.reduceToNat] at h
  omega

theorem encode_cons_of_decode {bytes front rest : List UInt8} {x : Char} {t : Text}
    {position : Nat} (hChar : encodeChar x = front) (hBytes : bytes = front ++ rest)
    (ih : ∀ {t}, decodeFrom position rest = .ok t → encode t = rest)
    (h : (decodeFrom position rest).map (x :: ·) = .ok t) : encode t = bytes := by
  obtain ⟨others, hOthers, rfl⟩ := exists_of_map_eq_ok h
  rw [hBytes, ← ih hOthers, ← hChar]
  exact List.flatMap_cons

/-- Only the bytes of a text are read as that text. -/
theorem encode_of_decodeFrom {position : Nat} {bytes : List UInt8} {t : Text}
    (h : decodeFrom position bytes = .ok t) : encode t = bytes := by
  fun_induction decodeFrom position bytes generalizing t with
  | case1 =>
      cases h
      rfl
  | case2 position a rest hOne ih =>
      exact encode_cons_of_decode (encodeChar_one (UInt8.lt_iff_toNat_lt.mp hOne)) rfl ih h
  | case6 position a hOne hFirst b rest hSecond hTwo ih =>
      have hBounds := bounds_of_not_refused hFirst
      exact encode_cons_of_decode (encodeChar_two hBounds.1 (UInt8.lt_iff_toNat_lt.mp hTwo)
        (by simpa using hSecond)) rfl ih h
  | case9 position a hOne hFirst b hSecond hTwo c rest hThird hThree ih =>
      exact encode_cons_of_decode (encodeChar_three
        (Nat.le_of_not_lt fun hLt => hTwo (UInt8.lt_iff_toNat_lt.mpr hLt))
        (UInt8.lt_iff_toNat_lt.mp hThree) (by simpa using hSecond) (by simpa using hThird)) rfl ih h
  | case12 position a hOne hFirst b hSecond hTwo c hThird hThree d rest hFourth ih =>
      have hBounds := bounds_of_not_refused hFirst
      exact encode_cons_of_decode (encodeChar_four
        (Nat.le_of_not_lt fun hLt => hThree (UInt8.lt_iff_toNat_lt.mpr hLt)) hBounds.2
        (by simpa using hSecond) (by simpa using hThird) (by simpa using hFourth)) rfl ih h
  -- All other cases are faults.
  | _ => cases h

theorem decode_eq_ok_iff {bytes : List UInt8} {t : Text} : decode bytes = .ok t ↔ bytes = encode t := by
  constructor
  · intro h
    exact (encode_of_decodeFrom h).symm
  · rintro rfl
    exact decode_encode t

end ScriptEditor.Utf8
