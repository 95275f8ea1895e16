import Mathlib.Data.List.Nodup
import Mathlib.Data.List.Pairwise
import ScriptEditor.Proofs.Highlight.LeadingWord
import ScriptEditor.Proofs.Highlight.Numbers

/-! Words and numbers never compete. In ASCII each of them begins and ends with a run, a word is
one run, and a run of letters is not part of a number, so the rules for words and numbers colour
different characters and their order plays no role. -/
namespace ScriptEditor.Highlight

open ScriptEditor.Appearance (Palette)
open ScriptEditor.Script
open ScriptEditor.Text (Stretch IsRun isAsciiDigit isAsciiLetter isIdentChar foldCase units
  any_head?_append any_head?_of_takeWhile any_getLast?_or isRun_starting isRun_ending)

variable {code : Text} {s other : Span} {words : List Text}

/-- Two stretches that have no character in common. -/
def Span.Apart (s other : Span) : Prop :=
  s.start + s.length ≤ other.start ∨ other.start + other.length ≤ s.start

instance (s other : Span) : Decidable (s.Apart other) :=
  inferInstanceAs (Decidable (_ ∨ _))

/-- A stretch that begins where a run begins and ends where a run ends. -/
def Span.OfRuns (code : Text) (s : Span) : Prop :=
  (∃ r, IsRun code r ∧ r.start = s.start) ∧ ∃ r, IsRun code r ∧ r.stop = s.start + s.length

/-! ### What is found -/

/-- A word that is found is a run of letters that is one of the words. -/
theorem run_of_mem_spans_word (hWords : ∀ w ∈ words, IsWord w ∧ w ≠ []) (hAscii : IsAscii code)
    (hs : s ∈ spans (word words) code) :
    ∃ r, IsRun code r ∧ s = ⟨r.start, r.word.length⟩ ∧ r.word.map foldCase ∈ words ∧
      ∀ c ∈ r.word, isAsciiLetter c = true := by
  obtain ⟨left, right, hit, rfl, hHit, rfl⟩ := readIn_of_mem_spans hs
  rw [Option.or_none] at hHit
  have hRight : IsAscii right := hAscii.mono (List.subset_append_right ..)
  obtain ⟨hBefore, hMem, rfl⟩ := run_of_word_eq_some hWords hRight hHit
  obtain ⟨hWord, hSome⟩ := hWords _ hMem
  have hRun : (right.takeWhile isIdentChar).length ≠ 0 := fun hNone => hSome (by
    rw [List.eq_nil_of_length_eq_zero hNone, List.map_nil])
  refine ⟨⟨left.length, right.takeWhile isIdentChar⟩,
    isRun_starting hBefore (any_head?_of_takeWhile hRun), by simp, hMem, ?_⟩
  exact isAsciiLetter_of_foldCase (hRight.mono (List.takeWhile_subset ..)) hWord rfl

/-- A number that is found, with what is before and behind it. -/
theorem number_of_mem_spans (hs : s ∈ spans number code) :
    ∃ left digits right, code = left ++ (digits ++ right) ∧ s = ⟨left.length, digits.length⟩ ∧
      IsNumber digits ∧ left.getLast?.any isIdentChar = false ∧ right.head?.any isIdentChar = false := by
  obtain ⟨left, right, hit, rfl, hHit, rfl⟩ := readIn_of_mem_spans hs
  rw [Option.or_none] at hHit
  obtain ⟨hPassed, hLength, hNumber, hStop⟩ := isNumber_of_number_eq_some hHit
  obtain ⟨hBefore, hDigit⟩ := start_of_number_eq_some hHit
  refine ⟨left, right.take hit.coloured, right.drop hit.coloured, ?_, ?_, hNumber, hBefore, hStop⟩
  · rw [List.take_append_drop]
  · rw [List.length_take, Nat.min_eq_left hLength, hPassed, Nat.zero_add, Nat.add_zero]

theorem any_getLast?_of_digit {t : Text} (h : t.getLast?.any isAsciiDigit = true) (front : Text) :
    (front ++ t).getLast?.any isIdentChar = true := by
  obtain ⟨c, hLast, hc⟩ := (Option.any_eq_true ..).mp h
  rw [List.getLast?_append, hLast]
  exact isIdentChar_of_isAsciiDigit hc

/-! ### Runs at the ends -/

theorem ofRuns_word (hWords : ∀ w ∈ words, IsWord w ∧ w ≠ []) (hAscii : IsAscii code)
    (hs : s ∈ spans (word words) code) : s.OfRuns code := by
  obtain ⟨r, hRun, rfl, -, -⟩ := run_of_mem_spans_word hWords hAscii hs
  exact ⟨⟨r, hRun, rfl⟩, r, hRun, rfl⟩

theorem ofRuns_number (hs : s ∈ spans number code) : s.OfRuns code := by
  obtain ⟨left, digits, right, rfl, rfl, hNumber, hBefore, hStop⟩ := number_of_mem_spans hs
  refine ⟨⟨_, isRun_starting hBefore ?_, rfl⟩, ?_⟩
  · obtain ⟨c, hHead, hc⟩ := (Option.any_eq_true ..).mp hNumber.head
    rw [List.head?_append, hHead]
    exact hc
  · obtain ⟨r, hRun, hEnd⟩ := isRun_ending (any_getLast?_of_digit hNumber.last left) hStop
    rw [List.append_assoc] at hRun
    exact ⟨r, hRun, by rw [hEnd, List.length_append]⟩

/-! ### Stretches that are apart -/

/-- Two runs have a character in common only if they are one run. -/
theorem apart_of_runs {r other : Stretch} (h : IsRun code r) (hOther : IsRun code other)
    (hNe : r ≠ other) : Span.Apart ⟨r.start, r.word.length⟩ ⟨other.start, other.word.length⟩ := by
  by_contra hOverlap
  simp only [Span.Apart, not_or, Nat.not_le] at hOverlap
  -- The later one of the two beginnings is a place that both touch.
  refine hNe (h.unique hOther (Nat.le_max_left r.start other.start) ?_ (Nat.le_max_right ..) ?_)
  · rw [Stretch.stop]
    omega
  · rw [Stretch.stop]
    omega

/-- A run of letters is not part of a number, and a number does not begin inside of a run. -/
theorem apart_of_letters {r : Stretch} (h : IsRun code r)
    (hLetters : ∀ c ∈ r.word, isAsciiLetter c = true) (hs : s ∈ spans number code) :
    Span.Apart ⟨r.start, r.word.length⟩ s := by
  obtain ⟨left, digits, right, hNumberText, rfl, hNumber, hBefore, -⟩ := number_of_mem_spans hs
  obtain ⟨front, back, hRunText, hStart, hSome, hWord, hFront, -⟩ := h
  by_contra hOverlap
  simp only [Span.Apart, not_or, Nat.not_le, hStart] at hOverlap
  have hText : front ++ (r.word ++ back) = left ++ (digits ++ right) :=
    hRunText.symm.trans hNumberText
  rcases Nat.lt_or_ge front.length left.length with hInside | hLater
  · -- The number would begin behind a character of the run.
    obtain ⟨more, rfl⟩ := List.prefix_of_prefix_length_le (List.prefix_append front _)
      (hText ▸ List.prefix_append left _) (Nat.le_of_lt hInside)
    rw [List.append_assoc] at hText
    rw [List.length_append] at hOverlap hInside
    have hRest := List.append_cancel_left hText
    have hMore : more <+: r.word := List.prefix_of_prefix_length_le (List.prefix_append more _)
      (hRest ▸ List.prefix_append r.word _) (by omega)
    have hNonempty : more ≠ [] := by
      rintro rfl
      exact Nat.lt_irrefl _ hInside
    have hLast := any_getLast?_or (fun c hc => hWord c (hMore.subset hc)) hNonempty front.getLast?
    rw [← List.getLast?_append, hBefore] at hLast
    cases hLast
  · -- The run would begin with a letter of the number, which is behind a digit.
    obtain ⟨c, word, hc⟩ := List.exists_cons_of_ne_nil hSome
    obtain ⟨more, rfl⟩ := List.prefix_of_prefix_length_le (List.prefix_append left _)
      (hText ▸ List.prefix_append front _) hLater
    rw [List.append_assoc, hc] at hText
    rw [List.length_append] at hOverlap
    have hRest := List.append_cancel_left hText
    have hBegins : more ++ [c] <+: digits ++ right := by
      rw [← hRest, List.cons_append]
      exact ⟨word ++ back, by rw [List.append_assoc, List.singleton_append]⟩
    obtain ⟨tail, hDigits⟩ := List.prefix_of_prefix_length_le hBegins
      (List.prefix_append digits right) (by rw [List.length_append, List.length_singleton]; omega)
    rw [List.append_assoc, List.singleton_append] at hDigits
    have hDigit := hNumber.letter_behind hDigits.symm (hLetters c (hc ▸ List.mem_cons_self))
    rw [any_getLast?_of_digit hDigit left] at hFront
    cases hFront

theorem apart_words {category kind : Category} (hNe : category ≠ kind) (hAscii : IsAscii code)
    (hs : s ∈ spans (word (wordsOf category)) code)
    (hOther : other ∈ spans (word (wordsOf kind)) code) : s.Apart other := by
  obtain ⟨r, hRun, rfl, hWord, -⟩ :=
    run_of_mem_spans_word (isWord_of_mem_wordsOf category) hAscii hs
  obtain ⟨run, hOtherRun, rfl, hOtherWord, -⟩ :=
    run_of_mem_spans_word (isWord_of_mem_wordsOf kind) hAscii hOther
  refine apart_of_runs hRun hOtherRun ?_
  rintro rfl
  -- No word is in two categories.
  have hKeys : (vocabulary.map (·.1)).Nodup := by decide +kernel
  exact hNe (congrArg Prod.snd
    (List.inj_on_of_nodup_map hKeys (mem_wordsOf.mp hWord) (mem_wordsOf.mp hOtherWord) rfl))

theorem apart_word_number {category : Category} (hAscii : IsAscii code)
    (hs : s ∈ spans (word (wordsOf category)) code) (hOther : other ∈ spans number code) :
    s.Apart other := by
  obtain ⟨r, hRun, rfl, -, hLetters⟩ :=
    run_of_mem_spans_word (isWord_of_mem_wordsOf category) hAscii hs
  exact apart_of_letters hRun hLetters hOther

/-! ### Order of rules -/

/-- Stretches that are apart in characters are apart in units. -/
theorem Span.Apart.inUnits (h : s.Apart other) (code : Text) :
    (s.inUnits code).Apart (other.inUnits code) := by
  have hStop (s : Span) : (s.inUnits code).start + (s.inUnits code).length =
      units (code.take (s.start + s.length)) := by
    rw [List.take_add, Text.units_append]
    rfl
  have hMono {m n : Nat} (hLe : m ≤ n) : units (code.take m) ≤ units (code.take n) := by
    obtain ⟨k, rfl⟩ := Nat.exists_eq_add_of_le hLe
    rw [List.take_add, Text.units_append]
    exact Nat.le_add_right ..
  rw [Span.Apart, hStop, hStop]
  exact h.imp hMono hMono

/-- Rules that find nothing in common can be applied in either order. -/
theorem applyRule_comm {a b : Recogniser × Format}
    (h : ∀ s ∈ spans a.1 code, ∀ other ∈ spans b.1 code, s.Apart other) (formats : Formats) :
    applyRule code (applyRule code formats a) b = applyRule code (applyRule code formats b) a := by
  refine List.ext_getElem? fun i => ?_
  have hApart : ¬ (Covers ((spans a.1 code).map (Span.inUnits code)) i ∧
      Covers ((spans b.1 code).map (Span.inUnits code)) i) := by
    rintro ⟨⟨s, hs, hFirst, hLast⟩, other, hOther, hOtherFirst, hOtherLast⟩
    obtain ⟨s, hFound, rfl⟩ := List.mem_map.mp hs
    obtain ⟨other, hOtherFound, rfl⟩ := List.mem_map.mp hOther
    rcases (h s hFound other hOtherFound).inUnits code with hBefore | hBehind
    · omega
    · omega
  simp only [getElem?_applyRule, Option.map_map]
  refine congrArg (fun g => Option.map g formats[i]?) (funext fun old => ?_)
  dsimp only [Function.comp_apply]
  split_ifs with hb ha <;> first | rfl | exact absurd ⟨ha, hb⟩ hApart

theorem foldl_applyRule_of_perm {row order : List (Recogniser × Format)}
    (hApart : row.Pairwise fun a b =>
      ∀ s ∈ spans a.1 code, ∀ other ∈ spans b.1 code, s.Apart other)
    (hPerm : order.Perm row) (formats : Formats) :
    order.foldl (applyRule code) formats = row.foldl (applyRule code) formats := by
  have hSymm : Std.Symm fun a b : Recogniser × Format => ∀ formats,
      applyRule code (applyRule code formats a) b = applyRule code (applyRule code formats b) a :=
    ⟨fun a b hComm formats => (hComm formats).symm⟩
  have hComm := (hApart.imp applyRule_comm).forall_of_forall fun a _ formats => rfl
  exact (hPerm.symm.foldl_eq' (fun a ha b hb => hComm ha hb) formats).symm

/-- The rule for the words of a category. -/
def wordRule (p : Palette) (category : Category) : Recogniser × Format :=
  (word (wordsOf category),
    match category with
    | .keyword => ⟨p.keyword, true, false⟩
    | .type => ⟨p.type, false, false⟩
    | .builtin => ⟨p.builtin, false, false⟩
    | .constant => ⟨p.constant, false, false⟩)

/-- The first rules are those for words, and the one for numbers. -/
theorem take_rules (p : Palette) :
    (rules p).take 5 = Category.all.map (wordRule p) ++ [(number, ⟨p.number, false, false⟩)] :=
  rfl

/-- The formats of a line if other rules, or the same in another order, are applied to its code. -/
def formatsBy (row : List (Recogniser × Format)) (p : Palette) (mark line : Text) : Formats :=
  let code := codePart mark line
  let blank : Formats := List.replicate (Text.units line) none
  let painted := row.foldl (applyRule (Text.withoutMark code)) blank
  if code.length < line.length then
    paint code.length (line.length - code.length) (commentFormat p) painted
  else painted

theorem formatsBy_rules (p : Palette) (mark line : Text) :
    formatsBy (rules p) p mark line = formatsOf p mark line :=
  rfl

/-- In a line of ASCII no two of the rules for words and numbers find a character in common, all
that they find begins where a run begins and ends where a run ends, and so the order in which they
are applied plays no role. -/
theorem formatsBy_wordRules (p : Palette) (mark : Text) {line : Text}
    (hAscii : ∀ c ∈ line, c.toNat < 0x80) :
    let code := codePart mark line
    ((rules p).take 5).Pairwise (fun a b =>
      ∀ s ∈ spans a.1 code, ∀ other ∈ spans b.1 code, s.Apart other) ∧
    (∀ rule ∈ (rules p).take 5, ∀ s ∈ spans rule.1 code, s.OfRuns code) ∧
    ∀ order, order.Perm ((rules p).take 5) →
      (∀ formats, order.foldl (applyRule code) formats =
        ((rules p).take 5).foldl (applyRule code) formats) ∧
      formatsBy (order ++ (rules p).drop 5) p mark line = formatsOf p mark line := by
  intro code
  have hCode : IsAscii code := IsAscii.mono hAscii (codePart_begins mark line).subset
  have hApart : ((rules p).take 5).Pairwise (fun a b =>
      ∀ s ∈ spans a.1 code, ∀ other ∈ spans b.1 code, s.Apart other) := by
    rw [take_rules, List.pairwise_append, List.pairwise_map]
    have hCategories : Category.all.Pairwise (· ≠ ·) := by decide
    refine ⟨hCategories.imp fun hNe s hs other hOther => apart_words hNe hCode hs hOther,
      List.pairwise_singleton .., ?_⟩
    intro rule hRule numbers hNumbers s hs other hOther
    obtain ⟨category, -, rfl⟩ := List.mem_map.mp hRule
    rw [List.mem_singleton.mp hNumbers] at hOther
    exact apart_word_number hCode hs hOther
  have hRuns : ∀ rule ∈ (rules p).take 5, ∀ s ∈ spans rule.1 code, s.OfRuns code := by
    intro rule hRule s hs
    rw [take_rules, List.mem_append] at hRule
    rcases hRule with hRule | hRule
    · obtain ⟨category, -, rfl⟩ := List.mem_map.mp hRule
      exact ofRuns_word (isWord_of_mem_wordsOf category) hCode hs
    · rw [List.mem_singleton.mp hRule] at hs
      exact ofRuns_number hs
  refine ⟨hApart, hRuns, fun order hPerm => ⟨foldl_applyRule_of_perm hApart hPerm, ?_⟩⟩
  rw [formatsBy, hCode.withoutMark, List.foldl_append, foldl_applyRule_of_perm hApart hPerm,
    ← List.foldl_append, List.take_append_drop, formatsOf, hCode.withoutMark]

/-- Only the first digit of `1.5e-3to` is a number, and all of `2.5e+1` is one. -/
theorem formatsBy_wordRules_numbers :
    let line := "For x = 1.5e-3to 2.5e+1 PI # 7".toList
    let code := codePart commentMark line
    let p := Appearance.darkPalette
    (∀ c ∈ line, c.toNat < 0x80) ∧ spans number code = [⟨8, 1⟩, ⟨17, 6⟩] ∧
      Span.OfRuns code ⟨17, 6⟩ ∧ (∀ s ∈ spans (word (wordsOf .keyword)) code, s.Apart ⟨8, 1⟩) ∧
      formatsBy (((rules p).take 5).reverse ++ (rules p).drop 5) p commentMark line =
        formatsOf p commentMark line := by
  intro line code p
  have hAscii : IsAscii line := by decide +kernel
  have hNumbers : spans number code = [⟨8, 1⟩, ⟨17, 6⟩] := by decide +kernel
  have hFirst : (⟨8, 1⟩ : Span) ∈ spans number code := by simp [hNumbers]
  have hSecond : (⟨17, 6⟩ : Span) ∈ spans number code := by simp [hNumbers]
  obtain ⟨hApart, hRuns, hOrder⟩ := formatsBy_wordRules p commentMark hAscii
  refine ⟨hAscii, hNumbers, ?_, fun s hs => ?_, (hOrder _ (List.reverse_perm _)).2⟩
  · exact hRuns (number, ⟨p.number, false, false⟩) (by simp [rules]) _ hSecond
  · rw [take_rules, List.pairwise_append] at hApart
    exact hApart.2.2 (wordRule p .keyword) (List.mem_map_of_mem (by decide)) _
      List.mem_cons_self s hs _ hFirst

end ScriptEditor.Highlight
