import ScriptEditor.Proofs.Highlight.Words

/-! Numbers, as the colouring reads them: digits, perhaps a fraction, perhaps an exponent, up to
the end of a run. A number can go over several runs, but the only letter in it is behind a
digit. -/
namespace ScriptEditor.Highlight

open ScriptEditor.Text (isAsciiDigit isAsciiLetter isIdentChar any_head?_append any_getLast?_or)

variable {t whole fraction exponent left right : Text} {c : Char} {before : Option Char} {hit : Hit}

/-- One or more digits. -/
def IsDigits (t : Text) : Prop :=
  t ≠ [] ∧ ∀ c ∈ t, isAsciiDigit c = true

/-- A point and digits, or nothing. -/
inductive IsFraction : Text → Prop where
  | absent : IsFraction []
  | point {digits : Text} (hDigits : IsDigits digits) : IsFraction ('.' :: digits)

/-- A letter for the exponent, perhaps a sign, and digits, or nothing. -/
inductive IsExponent : Text → Prop where
  | absent : IsExponent []
  | power {e : Char} {sign digits : Text} (hLetter : e = 'e' ∨ e = 'E')
      (hSign : sign ∈ [[], ['+'], ['-']]) (hDigits : IsDigits digits) :
      IsExponent (e :: (sign ++ digits))

/-- Digits with a fraction and an exponent, both of which may be absent. -/
inductive IsNumber : Text → Prop where
  | parts {whole fraction exponent : Text} (hWhole : IsDigits whole)
      (hFraction : IsFraction fraction) (hExponent : IsExponent exponent) :
      IsNumber (whole ++ fraction ++ exponent)

/-! ### What the recogniser takes -/

theorem take_length_takeWhile (p : Char → Bool) (t : Text) :
    t.take (t.takeWhile p).length = t.takeWhile p :=
  (List.prefix_iff_eq_take.mp (List.takeWhile_prefix p)).symm

theorem isDigits_takeWhile (h : (t.takeWhile isAsciiDigit).length ≠ 0) :
    IsDigits (t.takeWhile isAsciiDigit) :=
  ⟨fun hNil => h (congrArg List.length hNil), fun _ hc => List.mem_takeWhile_imp hc⟩

theorem isFraction_take (t : Text) :
    IsFraction (t.take (fractionLength t)) ∧ fractionLength t ≤ t.length := by
  unfold fractionLength
  split
  next t =>
    dsimp only
    split_ifs with hNone
    · exact ⟨.absent, Nat.zero_le _⟩
    · rw [List.take_succ_cons, take_length_takeWhile]
      exact ⟨.point (isDigits_takeWhile hNone),
        Nat.succ_le_succ (List.takeWhile_prefix _).length_le⟩
  next => exact ⟨.absent, Nat.zero_le _⟩

/-- A letter, so many characters that are a sign or none, and the digits behind them. -/
theorem isExponent_take_sign (e : Char) {k : Nat} (hSign : t.take k ∈ [[], ['+'], ['-']])
    (hLength : k ≤ t.length) :
    let digits := ((t.drop k).takeWhile isAsciiDigit).length
    let n := if (e == 'e' || e == 'E') && digits != 0 then 1 + k + digits else 0
    IsExponent ((e :: t).take n) ∧ n ≤ (e :: t).length := by
  dsimp only
  split_ifs with hPower
  · rw [Bool.and_eq_true, Bool.or_eq_true, beq_iff_eq, beq_iff_eq, bne_iff_ne] at hPower
    rw [Nat.add_assoc, Nat.add_comm, List.take_succ_cons, List.take_add, take_length_takeWhile,
      List.length_cons]
    refine ⟨.power hPower.1 hSign (isDigits_takeWhile hPower.2), Nat.succ_le_succ ?_⟩
    refine Nat.le_trans (Nat.add_le_add_left (List.takeWhile_prefix _).length_le _) ?_
    rw [List.length_drop]
    exact Nat.le_of_eq (Nat.add_sub_cancel' hLength)
  · exact ⟨.absent, Nat.zero_le _⟩

theorem isExponent_take (t : Text) :
    IsExponent (t.take (exponentLength t)) ∧ exponentLength t ≤ t.length := by
  unfold exponentLength
  split
  next e t =>
    dsimp only
    split
    next => exact isExponent_take_sign e (by simp) (by simp)
    next => exact isExponent_take_sign e (by simp) (by simp)
    next => exact isExponent_take_sign e (by simp) (by simp)
  next => exact ⟨.absent, Nat.zero_le _⟩

/-- The recogniser takes a number that no word goes on from. -/
theorem isNumber_of_number_eq_some (h : number before t = some hit) :
    hit.passed = 0 ∧ hit.coloured ≤ t.length ∧ IsNumber (t.take hit.coloured) ∧
      (t.drop hit.coloured).head?.any isIdentChar = false := by
  unfold number at h
  dsimp only at h
  split_ifs at h with hNone
  rw [Bool.or_eq_true, decide_eq_true_eq, not_or] at hNone
  obtain ⟨n, hFound, rfl⟩ := Option.map_eq_some_iff.mp h
  have hStop := List.find?_some hFound
  have hLength := List.mem_of_find?_eq_some hFound
  have hWhole := isDigits_takeWhile hNone.1
  have hRest : (t.takeWhile isAsciiDigit).length ≤ t.length := (List.takeWhile_prefix _).length_le
  rw [← take_length_takeWhile] at hWhole
  generalize (t.takeWhile isAsciiDigit).length = whole at hLength hWhole hRest
  obtain ⟨hFraction, hFractionLength⟩ := isFraction_take (t.drop whole)
  generalize fractionLength (t.drop whole) = fraction at hLength hFraction hFractionLength
  obtain ⟨hExponent, hExponentLength⟩ := isExponent_take ((t.drop whole).drop fraction)
  obtain ⟨hPower, hPowerLength⟩ := isExponent_take (t.drop whole)
  simp only [List.length_drop] at hFractionLength hExponentLength hPowerLength
  simp only [List.mem_cons, List.not_mem_nil, or_false] at hLength
  dsimp only
  refine ⟨rfl, by omega, ?_, by simpa using hStop⟩
  -- The lengths in the order in which they are tried: later ones leave out parts.
  rcases hLength with rfl | rfl | rfl | rfl
  · rw [List.take_add, List.take_add, ← List.drop_drop]
    exact .parts hWhole hFraction hExponent
  · have hNumber := IsNumber.parts hWhole hFraction .absent
    rwa [List.append_nil, ← List.take_add] at hNumber
  · have hNumber := IsNumber.parts hWhole .absent hPower
    rwa [List.append_nil, ← List.take_add] at hNumber
  · have hNumber := IsNumber.parts hWhole .absent .absent
    rwa [List.append_nil, List.append_nil] at hNumber

/-! ### Letters and ends -/

theorem IsDigits.letter (h : IsDigits t) (hc : c ∈ t) : isAsciiLetter c = false := by
  by_contra hLetter
  rw [Bool.not_eq_false] at hLetter
  have hDigit := isAsciiDigit_of_isAsciiLetter hLetter
  rw [h.2 c hc] at hDigit
  cases hDigit

theorem IsDigits.last (h : IsDigits t) (front : Text) :
    (front ++ t).getLast?.any isAsciiDigit = true := by
  rw [List.getLast?_append]
  exact any_getLast?_or h.2 h.1 _

/-- Digits and a fraction have no letters and end in a digit. -/
theorem IsFraction.behind (h : IsFraction fraction) (hWhole : IsDigits whole) :
    (∀ c ∈ whole ++ fraction, isAsciiLetter c = false) ∧
      (whole ++ fraction).getLast?.any isAsciiDigit = true := by
  cases h with
  | absent =>
      rw [List.append_nil]
      exact ⟨fun c hc => hWhole.letter hc, hWhole.last []⟩
  | @point digits hDigits =>
      have hLast := hDigits.last (whole ++ ['.'])
      rw [List.append_assoc, List.singleton_append] at hLast
      refine ⟨fun c hc => ?_, hLast⟩
      rcases List.mem_append.mp hc with hc | hc
      · exact hWhole.letter hc
      · rcases List.mem_cons.mp hc with rfl | hc
        · decide
        · exact hDigits.letter hc

/-- Behind the first letter of an exponent there are no more letters. -/
theorem IsExponent.letter_tail (h : IsExponent exponent) (hc : c ∈ exponent.tail) :
    isAsciiLetter c = false := by
  cases h with
  | absent => cases hc
  | @power e sign digits hLetter hSign hDigits =>
      rcases List.mem_append.mp hc with hc | hc
      · have hSigns : ∀ sign ∈ [[], ['+'], ['-']], sign.all (!isAsciiLetter ·) = true := by decide
        simpa using List.all_eq_true.mp (hSigns sign hSign) c hc
      · exact hDigits.letter hc

/-- Every letter of a number is behind a digit. -/
theorem IsNumber.letter_behind (h : IsNumber t) (hText : t = left ++ c :: right)
    (hLetter : isAsciiLetter c = true) : left.getLast?.any isAsciiDigit = true := by
  cases h with
  | @parts whole fraction exponent hWhole hFraction hExponent =>
      obtain ⟨hNoLetter, hLast⟩ := hFraction.behind hWhole
      have hOther {d : Char} (h : isAsciiLetter d = false) : d ≠ c := by
        rintro rfl
        rw [hLetter] at h
        cases h
      rcases List.append_eq_append_iff.mp hText with ⟨more, hLeft, hRight⟩ | ⟨more, hFront, hRight⟩
      · cases more with
        | nil => rwa [hLeft, List.append_nil]
        | cons e more =>
            have hTail : c ∈ exponent.tail := by simp [hRight]
            exact absurd rfl (hOther (hExponent.letter_tail hTail))
      · cases more with
        | nil =>
            rw [List.append_nil] at hFront
            rwa [← hFront]
        | cons d more =>
            obtain ⟨rfl, -⟩ := List.cons.inj hRight
            exact absurd rfl (hOther (hNoLetter c (by simp [hFront])))

theorem IsNumber.head (h : IsNumber t) : t.head?.any isIdentChar = true := by
  cases h with
  | @parts whole fraction exponent hWhole hFraction hExponent =>
      rw [List.append_assoc]
      exact any_head?_append (fun c hc => isIdentChar_of_isAsciiDigit (hWhole.2 c hc)) hWhole.1 _

/-- A number ends in a digit. -/
theorem IsNumber.last (h : IsNumber t) : t.getLast?.any isAsciiDigit = true := by
  cases h with
  | @parts whole fraction exponent hWhole hFraction hExponent =>
      cases hExponent with
      | absent =>
          rw [List.append_nil]
          exact (hFraction.behind hWhole).2
      | @power e sign digits hLetter hSign hDigits =>
          have hLast := hDigits.last (whole ++ fraction ++ e :: sign)
          rwa [List.append_assoc _ (e :: sign), List.cons_append] at hLast

end ScriptEditor.Highlight
