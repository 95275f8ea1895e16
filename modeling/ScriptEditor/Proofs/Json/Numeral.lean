import ScriptEditor.Json.Reader
import ScriptEditor.Json.Writer
import ScriptEditor.Proofs.Number.Spelling
import ScriptEditor.Proofs.Text.Runs

/-! Numbers and words as they are written and read. A whole number with few enough digits reads
back as itself, and so does every floating-point number. -/
namespace ScriptEditor.Json

open ScriptEditor.Number
open ScriptEditor.Text (isAsciiDigit afterWord? doubleQuote takeWhile_run dropWhile_run)

/-- What may stand behind a value: a comma, a new line, or nothing. -/
def Follows (rest : Text) : Prop :=
  ∀ c ∈ rest.head?, c = ',' ∨ c = '\n'

theorem follows_nil : Follows [] :=
  nofun

theorem follows_comma (t : Text) : Follows (',' :: t) := by
  rintro c ⟨⟩
  exact Or.inl rfl

theorem follows_newLine (level : Nat) (t : Text) : Follows (newLine level ++ t) := by
  rintro c ⟨⟩
  exact Or.inr rfl

/-! ### Rows of digits -/

theorem takeWhile_digits {digits rest : Text} (hDigits : ∀ c ∈ digits, isAsciiDigit c = true)
    (hEnd : ∀ c ∈ rest.head?, isAsciiDigit c = false) :
    (digits ++ rest).takeWhile isAsciiDigit = digits ∧
      (digits ++ rest).dropWhile isAsciiDigit = rest := by
  have hStop : rest.head?.any isAsciiDigit = false := by
    cases rest with
    | nil => rfl
    | cons c t => exact hEnd c rfl
  exact ⟨takeWhile_run hDigits hStop, dropWhile_run hDigits hStop⟩

theorem readWholePart_append {whole rest : Text} (hDigits : ∀ c ∈ whole, isAsciiDigit c = true)
    (hFirst : whole = ['0'] ∨ whole ≠ [] ∧ whole.head? ≠ some '0')
    (hEnd : ∀ c ∈ rest.head?, isAsciiDigit c = false) :
    readWholePart (whole ++ rest) = (whole, rest) := by
  rcases hFirst with rfl | ⟨hSome, hHead⟩
  · rfl
  · obtain ⟨c, t, rfl⟩ := List.exists_cons_of_ne_nil hSome
    obtain ⟨hTake, hDrop⟩ := takeWhile_digits hDigits hEnd
    have hZero : c ≠ '0' := by simpa using hHead
    rw [List.cons_append] at hTake hDrop ⊢
    rw [readWholePart, hTake, hDrop]
    simpa using hZero

theorem readFraction_append {fraction rest : Text}
    (hDigits : ∀ c ∈ fraction, isAsciiDigit c = true)
    (hEnd : ∀ c ∈ rest.head?, isAsciiDigit c = false ∧ c ≠ '.') :
    readFraction (Spelling.pointed fraction ++ rest) = (fraction, rest) := by
  unfold Spelling.pointed
  split_ifs with hNone
  · subst hNone
    cases rest with
    | nil => rfl
    | cons c t => simp [readFraction, (hEnd c rfl).2]
  · obtain ⟨hTake, hDrop⟩ := takeWhile_digits hDigits fun c hc => (hEnd c hc).1
    simp [readFraction, hTake, hDrop, hNone]

/-- The digits of a power, with zeros in front. -/
theorem ofDigits_padded (n : Nat) (k : Nat) :
    ofDigits ((List.replicate k '0' ++ Text.ofNat n).filterMap asciiDigit?) = n := by
  rw [Binary64.ofDigits_zeros_append, ofDigits_ofNat]

theorem readExponent_append (power : Option Int) {rest : Text} (hRest : Follows rest) :
    readExponent (Spelling.powered power ++ rest) = (power, rest) := by
  cases power with
  | none =>
      cases rest with
      | nil => rfl
      | cons c t =>
          rcases hRest c rfl with rfl | rfl <;> simp [readExponent, Spelling.powered]
  | some n =>
      unfold Spelling.powered
      dsimp only
      generalize hDigits : List.replicate (2 - (Text.ofNat n.natAbs).length) '0' ++
        Text.ofNat n.natAbs = digits
      have hValue : ofDigits (digits.filterMap asciiDigit?) = n.natAbs := by
        rw [← hDigits, ofDigits_padded]
      have hSome : digits ≠ [] := by
        rw [← hDigits]
        exact List.append_ne_nil_of_right_ne_nil _ (ofNat_ne_nil _)
      obtain ⟨hTake, hDrop⟩ := @takeWhile_digits digits rest
        (by
          intro c hc
          rw [← hDigits] at hc
          exact (List.mem_append.mp hc).elim isAsciiDigit_of_mem_zeros isAsciiDigit_of_mem_ofNat)
        (by
          intro c hc
          rcases hRest c hc with rfl | rfl <;> rfl)
      split_ifs with hSign
      · simp [readExponent, hTake, hDrop, hValue, hSome, abs_of_nonneg hSign]
      · simp [readExponent, hTake, hDrop, hValue, hSome, abs_of_neg (Int.lt_of_not_ge hSign)]

/-! ### Numbers -/

theorem readNumber_of_parts (negative : Bool) {t whole fraction afterWhole afterFraction rest : Text}
    {power : Option Int} (hSign : t.head? ≠ some '-') (hWhole : readWholePart t = (whole, afterWhole))
    (hFraction : readFraction afterWhole = (fraction, afterFraction))
    (hPower : readExponent afterFraction = (power, rest)) (hSome : whole ≠ []) :
    readNumber (if negative then '-' :: t else t) =
      if fraction ≠ [] ∨ power.isSome then
        some (.float (DecimalParts.toBinary64 negative ⟨whole, fraction, power.getD 0⟩), rest)
      else if digitLimit < whole.length then none
      else
        some (.int (if negative then -ofDigits (whole.filterMap asciiDigit?)
          else ofDigits (whole.filterMap asciiDigit?)), rest) := by
  unfold readNumber
  cases negative with
  | true => simp [hWhole, hFraction, hPower, hSome]
  | false =>
      cases t with
      | nil =>
          cases hWhole
          exact absurd rfl hSome
      | cons c t =>
          have hNotSign : c ≠ '-' := by simpa using hSign
          simp [hNotSign, hWhole, hFraction, hPower, hSome]

theorem readNumber_spelling (negative : Bool) {s : Spelling} (hValid : s.Valid) {rest : Text}
    (hRest : Follows rest) :
    readNumber ((if negative then '-' :: s.text else s.text) ++ rest) =
      some (.float (Binary64.ofRational negative s.value), rest) := by
  have hSome : s.whole ≠ [] := by
    rcases hValid.first with hZero | hFirst
    · rw [hZero]
      exact List.cons_ne_nil _ _
    · exact hFirst.1
  -- Neither a point nor a power begins with a digit.
  have hEndFraction : ∀ c ∈ (Spelling.powered s.power ++ rest).head?,
      isAsciiDigit c = false ∧ c ≠ '.' := by
    intro c hc
    cases hPower : s.power with
    | none =>
        rw [hPower] at hc
        rcases hRest c hc with rfl | rfl <;> decide
    | some n =>
        rw [hPower] at hc
        cases hc
        decide
  have hEndWhole : ∀ c ∈ (Spelling.pointed s.fraction ++ (Spelling.powered s.power ++ rest)).head?,
      isAsciiDigit c = false := by
    intro c hc
    unfold Spelling.pointed at hc
    split_ifs at hc
    · exact (hEndFraction c hc).1
    · cases hc
      rfl
  have hSign : (s.text ++ rest).head? ≠ some '-' := by
    obtain ⟨d, t, hWhole⟩ := List.exists_cons_of_ne_nil hSome
    have hDigit := hValid.whole d (by rw [hWhole]; exact List.mem_cons_self)
    rw [Spelling.text, hWhole, List.cons_append, List.cons_append, List.head?_cons]
    rintro ⟨⟩
    cases hDigit
  have hWhole := readWholePart_append hValid.whole hValid.first hEndWhole
  rw [← List.append_assoc (Spelling.pointed s.fraction), ← List.append_assoc] at hWhole
  have hRead := readNumber_of_parts negative hSign hWhole
    (by rw [List.append_assoc]; exact readFraction_append hValid.fraction hEndFraction)
    (readExponent_append s.power hRest) hSome
  rw [if_pos hValid.shown] at hRead
  rw [← s.toBinary64_parts negative]
  cases negative with
  | true => exact hRead
  | false => exact hRead

theorem readNumber_ofInt {n : Int} (hLimit : (Text.ofNat n.natAbs).length ≤ digitLimit) {rest : Text}
    (hRest : Follows rest) : readNumber (Text.ofInt n ++ rest) = some (.int n, rest) := by
  have hEnd : ∀ c ∈ rest.head?, isAsciiDigit c = false ∧ c ≠ '.' := by
    intro c hc
    rcases hRest c hc with rfl | rfl <;> decide
  have hFirst : Text.ofNat n.natAbs = ['0'] ∨
      Text.ofNat n.natAbs ≠ [] ∧ (Text.ofNat n.natAbs).head? ≠ some '0' := by
    by_cases hZero : n.natAbs = 0
    · left
      rw [hZero]
      rfl
    · exact Or.inr ⟨ofNat_ne_nil _, head?_ofNat hZero⟩
  have hSign : (Text.ofNat n.natAbs ++ rest).head? ≠ some '-' := by
    obtain ⟨d, t, hDigits⟩ := List.exists_cons_of_ne_nil (ofNat_ne_nil n.natAbs)
    have hDigit := isAsciiDigit_of_mem_ofNat (n := n.natAbs) (c := d)
      (by rw [hDigits]; exact List.mem_cons_self)
    rw [hDigits, List.cons_append, List.head?_cons]
    rintro ⟨⟩
    cases hDigit
  have hRead := fun negative => readNumber_of_parts negative hSign
    (readWholePart_append (fun _ => isAsciiDigit_of_mem_ofNat) hFirst fun c hc => (hEnd c hc).1)
    (@readFraction_append [] rest nofun hEnd) (readExponent_append none hRest)
    (ofNat_ne_nil n.natAbs)
  simp only [ne_eq, not_true_eq_false, Option.isSome_none, Bool.false_eq_true, or_self, if_false,
    if_neg (Nat.not_lt.mpr hLimit), ofDigits_ofNat] at hRead
  cases n with
  | ofNat n => exact hRead false
  | negSucc n => exact hRead true

/-! ### Words -/

theorem readWord_ofDigit {c : Char} (hDigit : isAsciiDigit c = true) (t : Text) (negative : Bool) :
    readWord (if negative then '-' :: c :: t else c :: t) = none := by
  have hOther : ∀ d : Char, isAsciiDigit d = false → (c == d) = false := by
    intro d hd
    rw [beq_eq_false_iff_ne]
    rintro rfl
    rw [hDigit] at hd
    cases hd
  cases negative with
  | true => simp [readWord, words, afterWord?, hOther 'I' rfl]
  | false =>
      simp [readWord, words, afterWord?, hOther 'n' rfl, hOther 't' rfl, hOther 'f' rfl,
        hOther 'N' rfl, hOther 'I' rfl, hOther '-' rfl]

end ScriptEditor.Json
