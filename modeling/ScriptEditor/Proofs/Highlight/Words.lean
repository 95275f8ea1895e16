import ScriptEditor.Proofs.Highlight.Scan
import ScriptEditor.Proofs.Script.Grammar
import ScriptEditor.Proofs.Text.Runs

/-! What the recognisers read in ASCII. Words of a list are whole runs of letters, digits and
underscores, and words, numbers and declarations begin where such a run begins. -/
namespace ScriptEditor.Highlight

open ScriptEditor.Script
open ScriptEditor.Text (isBlank isAsciiBlank isAsciiDigit isAsciiLetter isIdentStart isIdentChar
  isWordChar afterWord? foldCase foldCaseDotted asciiLower any_head?_append any_getLast?_or
  any_head?_apart any_head?_of_takeWhile any_head?_dropWhile takeWhile_run)

/-- Text of ASCII characters. -/
def IsAscii (t : Text) : Prop :=
  ∀ c ∈ t, c.toNat < 0x80

instance (t : Text) : Decidable (IsAscii t) :=
  List.decidableBAll _ t

variable {c : Char} {t front rest w : Text} {words : List Text} {before : Option Char} {hit : Hit}

theorem IsAscii.mono (h : IsAscii t) (hSub : front ⊆ t) : IsAscii front :=
  fun c hc => h c (hSub hc)

/-! ### Characters -/

theorem foldCaseDotted_of_ascii (h : c.toNat < 0x80) : foldCaseDotted c = asciiLower c := by
  have hOther {d : Char} (hd : 0x80 ≤ d.toNat) : (c == d) = false := by
    rw [beq_eq_false_iff_ne]
    rintro rfl
    omega
  rw [foldCaseDotted, foldCase, hOther (by decide), hOther (by decide), hOther (by decide),
    hOther (by decide)]
  rfl

theorem foldCase_of_ascii (h : c.toNat < 0x80) : foldCase c = asciiLower c := by
  have hDotted := foldCaseDotted_of_ascii h
  rw [foldCaseDotted] at hDotted
  split_ifs at hDotted with hOther
  · rw [Bool.or_eq_true, beq_iff_eq, beq_iff_eq] at hOther
    rcases hOther with rfl | rfl <;> exact absurd h (by decide)
  · exact hDotted

theorem IsAscii.map_foldCaseDotted (h : IsAscii t) : t.map foldCaseDotted = t.map asciiLower :=
  List.map_congr_left fun c hc => foldCaseDotted_of_ascii (h c hc)

theorem IsAscii.map_foldCase (h : IsAscii t) : t.map foldCase = t.map asciiLower :=
  List.map_congr_left fun c hc => foldCase_of_ascii (h c hc)

theorem isWordChar_of_ascii (h : c.toNat < 0x80) : isWordChar c = isIdentChar c :=
  if_pos h

/-- Blanks are neither in words nor quotes. -/
theorem isBlank_apart (h : isBlank c = true) : isIdentChar c = false ∧ isQuote c = false := by
  have hBlanks : ∀ n ∈ blankNumbers,
      isIdentChar (Char.ofNat n) = false ∧ isQuote (Char.ofNat n) = false := by decide +kernel
  rw [← Char.ofNat_toNat c]
  exact hBlanks _ (toNat_mem_blankNumbers h)

theorem isQuote_of_isIdentChar (h : isIdentChar c = true) : isQuote c = false := by
  by_contra hQuote
  rw [Bool.not_eq_false, isQuote, Bool.or_eq_true, beq_iff_eq, beq_iff_eq] at hQuote
  rcases hQuote with rfl | rfl <;> exact absurd h (by decide)

theorem isIdentChar_of_isAsciiLetter (h : isAsciiLetter c = true) : isIdentChar c = true := by
  rw [isIdentChar, isIdentStart, h, Bool.true_or, Bool.true_or]

theorem isIdentChar_of_isAsciiDigit (h : isAsciiDigit c = true) : isIdentChar c = true := by
  rw [isIdentChar, h, Bool.or_true]

theorem isAsciiDigit_of_isAsciiLetter (h : isAsciiLetter c = true) : isAsciiDigit c = false := by
  by_contra hDigit
  simp only [isAsciiLetter, isAsciiDigit, Bool.not_eq_false, Bool.or_eq_true, Bool.and_eq_true,
    decide_eq_true_eq] at h hDigit
  rcases h with ⟨hFirst, -⟩ | ⟨hFirst, -⟩
  · exact absurd (Char.le_trans hFirst hDigit.2) (by decide)
  · exact absurd (Char.le_trans hFirst hDigit.2) (by decide)

theorem isIdentChar_of_isAsciiBlank (h : isAsciiBlank c = true) : isIdentChar c = false := by
  refine (isBlank_apart ?_).1
  simp only [isAsciiBlank, Bool.or_eq_true, Bool.and_eq_true, decide_eq_true_eq, beq_iff_eq] at h
  simp only [isBlank, Bool.or_eq_true, Bool.and_eq_true, decide_eq_true_eq, beq_iff_eq]
  omega

/-- What is read as a letter of a word in ASCII is a letter. -/
theorem isAsciiLetter_of_foldCase (hAscii : IsAscii front) (hWord : IsWord w)
    (hFront : front.map foldCase = w) : ∀ c ∈ front, isAsciiLetter c = true := by
  intro c hc
  have hLetter : 'a' ≤ foldCase c ∧ foldCase c ≤ 'z' := by
    apply hWord
    rw [← hFront]
    exact List.mem_map_of_mem hc
  rw [foldCase_of_ascii (hAscii c hc), ← foldCaseDotted_of_ascii (hAscii c hc)] at hLetter
  refine (letter_of_foldCaseDotted hLetter).resolve_right fun hOther => ?_
  have hHere := hAscii c hc
  simp only [List.mem_cons, List.not_mem_nil, or_false] at hOther
  rcases hOther with rfl | rfl | rfl | rfl <;> exact absurd hHere (by decide)

/-! ### Words of a list -/

theorem isBoundary_iff_of_left {after : Option Char} (h : before.any isIdentChar = true) :
    isBoundary before after = true ↔ after.any isIdentChar = false := by
  simp [isBoundary, h]

theorem isBoundary_iff_of_right {after : Option Char} (h : after.any isIdentChar = true) :
    isBoundary before after = true ↔ before.any isIdentChar = false := by
  simp [isBoundary, h]

/-- What is read as a word in ASCII is made of characters of words. -/
theorem exists_front_of_afterWord? (hAscii : IsAscii t) (hWord : IsWord w ∧ w ≠ [])
    (h : afterWord? foldCase w t = some rest) :
    ∃ front, t = front ++ rest ∧ front.map foldCase = w ∧ front ≠ [] ∧
      ∀ c ∈ front, isIdentChar c = true := by
  obtain ⟨front, rfl, hFront⟩ := afterWord?_eq_some_iff.mp h
  refine ⟨front, rfl, hFront, fun hNil => hWord.2 (by rw [← hFront, hNil, List.map_nil]), ?_⟩
  intro c hc
  have hLetters := isAsciiLetter_of_foldCase (hAscii.mono (List.subset_append_left ..)) hWord.1 hFront
  exact isIdentChar_of_isAsciiLetter (hLetters c hc)

/-- A recogniser of words in ASCII reads nothing but a run that is one of its words. -/
theorem run_of_word_eq_some (hWords : ∀ w ∈ words, IsWord w ∧ w ≠ []) (hAscii : IsAscii t)
    (h : word words before t = some hit) :
    before.any isIdentChar = false ∧ (t.takeWhile isIdentChar).map foldCase ∈ words ∧
      hit = ⟨0, (t.takeWhile isIdentChar).length⟩ := by
  unfold word at h
  split_ifs at h with hStart
  obtain ⟨w, hw, hHit⟩ := List.exists_of_findSome?_eq_some h
  split at hHit
  next rest hRest =>
    split_ifs at hHit with hEnd
    cases hHit
    obtain ⟨front, rfl, hFront, hSome, hLetters⟩ := exists_front_of_afterWord? hAscii (hWords w hw) hRest
    have hLength : w.length = front.length := by rw [← hFront, List.length_map]
    have hLast := any_getLast?_or hLetters hSome none
    rw [Option.or_none] at hLast
    rw [hLength, List.take_left, isBoundary_iff_of_left hLast] at hEnd
    rw [takeWhile_run hLetters hEnd, hFront, hLength]
    exact ⟨(isBoundary_iff_of_right (any_head?_append hLetters hSome rest)).mp hStart, hw, rfl⟩
  next => cases hHit

/-- A recogniser of words in ASCII reads a run that is one of its words. -/
theorem word_eq_some_of_run (hWords : ∀ w ∈ words, IsWord w ∧ w ≠ []) (hAscii : IsAscii t)
    (hBefore : before.any isIdentChar = false)
    (hMem : (t.takeWhile isIdentChar).map foldCase ∈ words) :
    word words before t = some ⟨0, (t.takeWhile isIdentChar).length⟩ := by
  have hSome : t.takeWhile isIdentChar ≠ [] := fun hNil =>
    (hWords _ hMem).2 (by rw [hNil, List.map_nil])
  have hLetters : ∀ c ∈ t.takeWhile isIdentChar, isIdentChar c = true := fun c hc =>
    List.mem_takeWhile_imp hc
  have hText : t.takeWhile isIdentChar ++ t.dropWhile isIdentChar = t :=
    List.takeWhile_append_dropWhile
  have hStart : isBoundary before t.head? = true := by
    rw [isBoundary_iff_of_right, hBefore]
    rw [← hText]
    exact any_head?_append hLetters hSome _
  have hEnd : isBoundary (t.take (t.takeWhile isIdentChar).length).getLast?
      (t.dropWhile isIdentChar).head? = true := by
    have hLast := any_getLast?_or hLetters hSome none
    rw [Option.or_none] at hLast
    rw [← List.prefix_iff_eq_take.mp (List.takeWhile_prefix _), isBoundary_iff_of_left hLast]
    exact any_head?_dropWhile isIdentChar t
  have hFound : (word words before t).isSome = true := by
    have hRest : afterWord? foldCase ((t.takeWhile isIdentChar).map foldCase) t =
        some (t.dropWhile isIdentChar) := afterWord?_eq_some_iff.mpr ⟨_, hText.symm, rfl⟩
    rw [word, if_pos hStart, List.findSome?_isSome_iff]
    refine ⟨_, hMem, ?_⟩
    rw [hRest]
    simp [hEnd]
  obtain ⟨hit, hHit⟩ := Option.isSome_iff_exists.mp hFound
  rw [hHit, (run_of_word_eq_some hWords hAscii hHit).2.2]

/-! ### Other recognisers -/

theorem start_of_number_eq_some (h : number before t = some hit) :
    before.any isIdentChar = false ∧ t.head?.any isAsciiDigit = true := by
  unfold number at h
  dsimp only at h
  split_ifs at h with hNone
  rw [Bool.or_eq_true, decide_eq_true_eq, not_or, Bool.not_eq_true] at hNone
  exact ⟨hNone.2, any_head?_of_takeWhile hNone.1⟩

/-- A declaration passes over the whole run it begins with, and over at least one blank. -/
theorem passes_of_declaredName_eq_some (hAscii : IsAscii t) (h : declaredName before t = some hit) :
    before.any isIdentChar = false ∧ t.head?.any isIdentChar = true ∧
      (t.takeWhile isIdentChar).length < hit.passed := by
  unfold declaredName at h
  split_ifs at h with hStart
  obtain ⟨w, hw, hHit⟩ := List.exists_of_findSome?_eq_some h
  split at hHit
  next rest hRest =>
    dsimp only at hHit
    split_ifs at hHit with hName
    cases hHit
    rw [Bool.and_eq_true, bne_iff_ne] at hName
    have hWords : ∀ w ∈ ["program".toList, "function".toList], IsWord w ∧ w ≠ [] := by decide
    obtain ⟨front, rfl, hFront, hSome, hLetters⟩ := exists_front_of_afterWord? hAscii (hWords w hw) hRest
    have hStop : rest.head?.any isIdentChar = false :=
      any_head?_apart (fun _ => isIdentChar_of_isAsciiBlank) (any_head?_of_takeWhile hName.1)
    have hHead := any_head?_append hLetters hSome rest
    refine ⟨(isBoundary_iff_of_right hHead).mp hStart, hHead, ?_⟩
    rw [takeWhile_run hLetters hStop, ← hFront, List.length_map]
    exact Nat.lt_add_of_pos_right (Nat.pos_of_ne_zero hName.1)
  next => cases hHit

theorem head_of_string_eq_some (h : string before t = some hit) : t.head?.any isQuote = true := by
  unfold string at h
  split at h
  next => cases h
  next q rest =>
    split_ifs at h with hQuote
    exact hQuote

end ScriptEditor.Highlight
