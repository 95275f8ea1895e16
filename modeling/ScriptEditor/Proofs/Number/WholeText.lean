import Mathlib.Data.Nat.Digits.Defs
import ScriptEditor.Proofs.Number.Decimal
import ScriptEditor.Proofs.Script.Grammar
import ScriptEditor.Proofs.Text.Runs

/-! Whole numbers written as text. Reading accepts exactly the texts that have, between blanks,
perhaps a sign and a row of digits with single underscores between them, and gives the decimal
value of the digits with the sign. -/
namespace ScriptEditor.Number

open ScriptEditor.Script (blankNumbers toNat_mem_blankNumbers)
open ScriptEditor.Text (isBlank isAsciiBlank takeWhile_run dropWhile_run)

variable {t left right sign row body : Text} {s n : Int} {ds : List Nat} {c : Char} {d : Nat}

/-- A row of digits with single underscores allowed between them, and the values of the
digits. -/
inductive DigitRow : Text → List Nat → Prop where
  | last {c : Char} {d : Nat} (hDigit : digitValue? c = some d) : DigitRow [c] [d]
  | next {c : Char} {d : Nat} {t : Text} {ds : List Nat} (hDigit : digitValue? c = some d)
      (hRest : DigitRow t ds) : DigitRow (c :: t) (d :: ds)
  | spaced {c : Char} {d : Nat} {t : Text} {ds : List Nat} (hDigit : digitValue? c = some d)
      (hRest : DigitRow t ds) : DigitRow (c :: '_' :: t) (d :: ds)

/-- A sign, if there is one, and the factor it stands for. -/
inductive Sign : Text → Int → Prop where
  | absent : Sign [] 1
  | plus : Sign ['+'] 1
  | minus : Sign ['-'] (-1)

/-- A text that is a whole number with a sign and digits. -/
inductive Numeral : Text → Int → List Nat → Prop where
  | parts {left sign row right : Text} {s : Int} {ds : List Nat}
      (hLeft : ∀ c ∈ left, isMargin c = true) (hSign : Sign sign s) (hRow : DigitRow row ds)
      (hLimit : ds.length ≤ digitLimit) (hRight : ∀ c ∈ right, isMargin c = true) :
      Numeral (left ++ (sign ++ (row ++ right))) s ds

/-! ### Characters -/

theorem isBlank_of_isMargin (h : isMargin c = true) : isBlank c = true := by
  simp only [isMargin, isAsciiBlank, Bool.or_eq_true, Bool.and_eq_true, decide_eq_true_eq,
    beq_iff_eq] at h
  rcases h with hAscii | hOther
  · simp only [isBlank, Bool.or_eq_true, Bool.and_eq_true, decide_eq_true_eq, beq_iff_eq]
    omega
  · exact hOther.2

theorem isDigitOrSpacer_of_isMargin (h : isMargin c = true) : isDigitOrSpacer c = false := by
  have hBlanks : ∀ n ∈ blankNumbers, isDigitOrSpacer (Char.ofNat n) = false := by decide +kernel
  rw [← Char.ofNat_toNat c]
  exact hBlanks _ (toNat_mem_blankNumbers (isBlank_of_isMargin h))

theorem isDigitOrSpacer_of_digit (h : digitValue? c = some d) : isDigitOrSpacer c = true := by
  rw [isDigitOrSpacer, h]
  rfl

theorem isMargin_of_isDigitOrSpacer (h : isDigitOrSpacer c = true) : isMargin c = false := by
  by_contra hMargin
  rw [Bool.not_eq_false] at hMargin
  rw [isDigitOrSpacer_of_isMargin hMargin] at h
  cases h

theorem ne_of_digit {x : Char} (h : digitValue? c = some d) (hx : digitValue? x = none) :
    c ≠ x := by
  rintro rfl
  rw [hx] at h
  cases h

/-! ### Rows of digits -/

/-- Digits and underscores that are well spaced are a row, also behind one more digit. -/
theorem digitRow_of_wellSpaced (hRow : ∀ c ∈ t, isDigitOrSpacer c = true) :
    (wellSpaced false t = true → DigitRow t (t.filterMap digitValue?)) ∧
    (wellSpaced true t = true → ∀ c d, digitValue? c = some d →
      DigitRow (c :: t) (d :: t.filterMap digitValue?)) := by
  induction t with
  | nil => exact ⟨nofun, fun _ c d hDigit => .last hDigit⟩
  | cons x t ih =>
      rw [List.forall_mem_cons] at hRow
      obtain ⟨hHere, hBehind⟩ := ih hRow.2
      by_cases hSpacer : x = '_'
      · subst hSpacer
        have hNone : digitValue? '_' = none := by decide +kernel
        rw [List.filterMap_cons_none hNone]
        exact ⟨nofun, fun hSpaced c d hDigit => .spaced hDigit (hHere hSpaced)⟩
      · have hOther : (x == '_') = false := beq_eq_false_iff_ne.mpr hSpacer
        obtain ⟨e, he⟩ : ∃ e, digitValue? x = some e := by
          have hDigit := hRow.1
          rw [isDigitOrSpacer, hOther, Bool.or_false] at hDigit
          exact Option.isSome_iff_exists.mp hDigit
        rw [List.filterMap_cons_some he, wellSpaced, wellSpaced, hOther,
          if_neg Bool.false_ne_true, if_neg Bool.false_ne_true]
        exact ⟨fun hSpaced => hBehind hSpaced x e he,
          fun hSpaced c d hDigit => .next hDigit (hBehind hSpaced x e he)⟩

/-- What is known about a row: its characters, its spacing and its digits. -/
theorem DigitRow.spec (h : DigitRow t ds) :
    (∀ c ∈ t, isDigitOrSpacer c = true) ∧ (∀ after, wellSpaced after t = true) ∧
      t.filterMap digitValue? = ds ∧ ∃ c d rest, t = c :: rest ∧ digitValue? c = some d := by
  have hNone : digitValue? '_' = none := by decide +kernel
  have hStep {c : Char} {d : Nat} (hDigit : digitValue? c = some d) (after : Bool) (t : Text) :
      wellSpaced after (c :: t) = wellSpaced true t := by
    rw [wellSpaced, beq_eq_false_iff_ne.mpr (ne_of_digit hDigit hNone), if_neg Bool.false_ne_true]
  induction h with
  | @last c d hDigit =>
      refine ⟨?_, fun after => hStep hDigit after [], ?_, c, d, [], rfl, hDigit⟩
      · simpa using isDigitOrSpacer_of_digit hDigit
      · rw [List.filterMap_cons_some hDigit, List.filterMap_nil]
  | @next c d t ds hDigit hRest ih =>
      obtain ⟨hChars, hSpaced, hDigits, -⟩ := ih
      refine ⟨?_, fun after => (hStep hDigit after t).trans (hSpaced true), ?_, c, d, t, rfl, hDigit⟩
      · exact List.forall_mem_cons.mpr ⟨isDigitOrSpacer_of_digit hDigit, hChars⟩
      · rw [List.filterMap_cons_some hDigit, hDigits]
  | @spaced c d t ds hDigit hRest ih =>
      obtain ⟨hChars, hSpaced, hDigits, -⟩ := ih
      refine ⟨?_, fun after => (hStep hDigit after _).trans (hSpaced false), ?_, c, d, _, rfl, hDigit⟩
      · exact List.forall_mem_cons.mpr ⟨isDigitOrSpacer_of_digit hDigit,
          List.forall_mem_cons.mpr ⟨rfl, hChars⟩⟩
      · rw [List.filterMap_cons_some hDigit, List.filterMap_cons_none hNone, hDigits]

/-- Digits are read with the most significant one first. -/
theorem ofDigits_eq (ds : List Nat) : ofDigits ds = Nat.ofDigits 10 ds.reverse := by
  induction ds using List.reverseRecOn with
  | nil => rfl
  | append_singleton ds d ih =>
      have hLast : ofDigits (ds ++ [d]) = 10 * ofDigits ds + d := by simp [ofDigits]
      rw [hLast, ih, List.reverse_append, List.reverse_singleton, List.singleton_append,
        Nat.ofDigits_cons]
      exact Nat.add_comm ..

/-! ### Signs -/

theorem exists_sign (t : Text) :
    ∃ sign s, Sign sign s ∧ t = sign ++ (splitSign t).2 ∧
      ∀ n : Int, (if (splitSign t).1 then -n else n) = s * n := by
  unfold splitSign
  split
  next t => exact ⟨_, _, .plus, rfl, fun n => by simp⟩
  next t => exact ⟨_, _, .minus, rfl, fun n => by simp⟩
  next => exact ⟨_, _, .absent, rfl, fun n => by simp⟩

/-- In front of a row of digits the sign is found. -/
theorem splitSign_append (hSign : Sign sign s) (hRow : DigitRow row ds) (rest : Text) :
    splitSign (sign ++ (row ++ rest)) = (decide (s < 0), row ++ rest) := by
  cases hSign with
  | plus => rfl
  | minus => rfl
  | absent =>
      obtain ⟨-, -, -, c, d, more, rfl, hDigit⟩ := hRow.spec
      have hPlus : c ≠ '+' := ne_of_digit hDigit (by decide +kernel)
      have hMinus : c ≠ '-' := ne_of_digit hDigit (by decide +kernel)
      rw [List.nil_append, List.cons_append]
      unfold splitSign
      split
      next hText => exact absurd (List.cons.inj hText).1 hPlus
      next hText => exact absurd (List.cons.inj hText).1 hMinus
      next => rfl

/-! ### Reading -/

theorem numeral_of_readWhole (h : readWhole t = .ok n) :
    ∃ s ds, Numeral t s ds ∧ n = s * (Nat.ofDigits 10 ds.reverse : Nat) := by
  obtain ⟨sign, s, hSign, hText, hValue⟩ := exists_sign (t.dropWhile isMargin)
  unfold readWhole at h
  dsimp only at h
  generalize splitSign (t.dropWhile isMargin) = split at h hText hValue
  obtain ⟨negative, body⟩ := split
  dsimp only at h hText hValue
  rw [hValue] at h
  split_ifs at h with hSpaced hLong hBehind
  rw [Bool.not_eq_true, Bool.not_eq_false'] at hSpaced
  have hRow : ∀ c ∈ body.takeWhile isDigitOrSpacer, isDigitOrSpacer c = true := fun c hc =>
    List.mem_takeWhile_imp hc
  have hRight : ∀ c ∈ body.dropWhile isDigitOrSpacer, isMargin c = true := by
    simpa using hBehind
  have hNumeral := Numeral.parts (fun c (hc : c ∈ t.takeWhile isMargin) => List.mem_takeWhile_imp hc)
    hSign ((digitRow_of_wellSpaced hRow).1 hSpaced) (Nat.not_lt.mp hLong) hRight
  rw [List.takeWhile_append_dropWhile, ← hText, List.takeWhile_append_dropWhile] at hNumeral
  exact ⟨s, _, hNumeral, by rw [← ofDigits_eq]; exact (Except.ok.inj h).symm⟩

theorem readWhole_of_numeral (h : Numeral t s ds) :
    readWhole t = .ok (s * (Nat.ofDigits 10 ds.reverse : Nat)) := by
  cases h with
  | @parts left sign row right s ds hLeft hSign hRow hLimit hRight =>
      obtain ⟨hChars, hSpaced, hDigits, c, d, more, hFirst, hDigit⟩ := hRow.spec
      have hInk : (sign ++ (row ++ right)).head?.any isMargin = false := by
        cases hSign with
        | plus => rfl
        | minus => rfl
        | absent =>
            rw [hFirst]
            exact isMargin_of_isDigitOrSpacer (isDigitOrSpacer_of_digit hDigit)
      have hStop : right.head?.any isDigitOrSpacer = false := by
        cases right with
        | nil => rfl
        | cons c right => exact isDigitOrSpacer_of_isMargin (hRight c List.mem_cons_self)
      have hBehind : right.any (!isMargin ·) = false := by simpa using hRight
      have hValue : ∀ n : Int, (if decide (s < 0) = true then -n else n) = s * n := by
        cases hSign <;> simp
      unfold readWhole
      dsimp only
      rw [dropWhile_run hLeft hInk, splitSign_append hSign hRow]
      dsimp only
      rw [takeWhile_run hChars hStop, dropWhile_run hChars hStop, hSpaced, hDigits, hBehind, hValue,
        ofDigits_eq, if_neg (by decide), if_neg (Nat.not_lt.mpr hLimit), if_neg Bool.false_ne_true]

/-- Reading accepts exactly the numerals, and gives the decimal value with the sign. -/
theorem readWhole_eq_ok_iff :
    readWhole t = .ok n ↔ ∃ s ds, Numeral t s ds ∧ n = s * (Nat.ofDigits 10 ds.reverse : Nat) := by
  refine ⟨numeral_of_readWhole, ?_⟩
  rintro ⟨s, ds, hNumeral, rfl⟩
  exact readWhole_of_numeral hNumeral

end ScriptEditor.Number
