import Mathlib.Data.List.Pairwise
import Mathlib.Data.List.TakeWhile
import ScriptEditor.Proofs.Script.Quotes

/-! The grammar of lines that have a role. Each form of the table begins with a word of its
own, and a line begins with one word only, so at most one form fits and the order of the table
plays no role. -/
namespace ScriptEditor.Script

open ScriptEditor.Text (isBlank isWordChar isAsciiLetter afterWord? foldCaseDotted foldCase
  asciiLower)

/-- The text is the word, apart from the case of its letters. -/
def Spells (word t : Text) : Prop :=
  t.map foldCaseDotted = word

/-- The code begins with the word, which does not go on. -/
def BeginsWith (word code : Text) : Prop :=
  ∃ front rest, code = front ++ rest ∧ Spells word front ∧ ∀ c ∈ rest.head?, isWordChar c = false

/-- The code ends with the word, and no word goes on into it. -/
def EndsWith (word code : Text) : Prop :=
  ∃ front c back, code = front ++ c :: back ∧ isWordChar c = false ∧ Spells word back

/-- The code begins with two words that have blanks and nothing else between them. -/
def BeginsWithPair (first second code : Text) : Prop :=
  ∃ front gap rest, code = front ++ gap ++ rest ∧ Spells first front ∧ gap ≠ [] ∧
    (∀ c ∈ gap, isBlank c = true) ∧ BeginsWith second rest

/-- The code of lines that have a role in block structure. -/
inductive Phrase : Role → Text → Prop where
  | block {word code : Text} (begins : BeginsWith word code)
      (known : word ∈ ["program".toList, "function".toList, "for".toList, "loop".toList,
        "handle".toList, "exercise".toList]) : Phrase .opener code
  | declaration {code : Text} (spells : Spells "declare".toList code) : Phrase .opener code
  | condition {code : Text} (begins : BeginsWith "if".toList code)
      (ends : EndsWith "then".toList code) : Phrase .opener code
  | arming {code : Text} (begins : BeginsWithPair "arm".toList "device".toList code) :
      Phrase .opener code
  | alternative {code : Text} (begins : BeginsWith "else".toList code) : Phrase .divider code
  | ending {word code : Text} (begins : BeginsWith word code)
      (known : word ∈ ["end".toList, "next".toList]) : Phrase .closer code
  | readout {code : Text} (begins : BeginsWithPair "readout".toList "device".toList code) :
      Phrase .closer code

/-! ### Letters and blanks -/

/-- A word as the table has it, in small letters of ASCII. -/
def IsWord (word : Text) : Prop :=
  ∀ c ∈ word, 'a' ≤ c ∧ c ≤ 'z'

instance (word : Text) : Decidable (IsWord word) :=
  decidable_of_iff (word.all fun c => 'a' ≤ c ∧ c ≤ 'z') (by simp [IsWord])

/-- What folds to a small letter of ASCII is a letter of ASCII or one of the four others. -/
theorem letter_of_foldCaseDotted {c : Char}
    (h : 'a' ≤ foldCaseDotted c ∧ foldCaseDotted c ≤ 'z') :
    isAsciiLetter c = true ∨ c ∈ ['ſ', '\u212a', 'ı', 'İ'] := by
  unfold foldCaseDotted foldCase at h
  split_ifs at h with hDotted hLong hKelvin
  · rw [Bool.or_eq_true, beq_iff_eq, beq_iff_eq] at hDotted
    rcases hDotted with rfl | rfl <;> exact Or.inr (by decide)
  · obtain rfl := beq_iff_eq.mp hLong
    exact Or.inr (by decide)
  · obtain rfl := beq_iff_eq.mp hKelvin
    exact Or.inr (by decide)
  · left
    unfold asciiLower at h
    split_ifs at h with hCapital
    · rw [isAsciiLetter, hCapital, Bool.or_true]
    · simp [isAsciiLetter, h]

theorem isWordChar_of_isAsciiLetter {c : Char} (h : isAsciiLetter c = true) :
    isWordChar c = true := by
  have hRange : c.toNat < 0x80 := by
    simp only [isAsciiLetter, Bool.or_eq_true, Bool.and_eq_true, decide_eq_true_eq,
      Char.le_def, UInt32.le_iff_toNat_le] at h
    change c.val.toNat < 0x80
    rcases h with ⟨-, hLast⟩ | ⟨-, hLast⟩
    · exact Nat.lt_of_le_of_lt hLast (by decide)
    · exact Nat.lt_of_le_of_lt hLast (by decide)
  simp [isWordChar, hRange, Text.isIdentChar, Text.isIdentStart, h]

/-- Whatever is read as a letter of a word belongs to words. -/
theorem isWordChar_of_foldCaseDotted {c : Char}
    (h : 'a' ≤ foldCaseDotted c ∧ foldCaseDotted c ≤ 'z') : isWordChar c = true := by
  rcases letter_of_foldCaseDotted h with hLetter | hOther
  · exact isWordChar_of_isAsciiLetter hLetter
  · have hOthers : ['ſ', '\u212a', 'ı', 'İ'].all isWordChar = true := by decide +kernel
    exact List.all_eq_true.mp hOthers c hOther

/-- The numbers of all blanks. -/
def blankNumbers : List Nat :=
  List.range' 9 5 ++ List.range' 28 5 ++ List.range' 0x2000 11 ++
    [0x85, 0xA0, 0x1680, 0x2028, 0x2029, 0x202F, 0x205F, 0x3000]

theorem toNat_mem_blankNumbers {c : Char} (h : isBlank c = true) : c.toNat ∈ blankNumbers := by
  simp only [isBlank, Bool.or_eq_true, Bool.and_eq_true, decide_eq_true_eq, beq_iff_eq] at h
  simp only [blankNumbers, List.mem_append, List.mem_range'_1, List.mem_cons, List.not_mem_nil,
    or_false]
  omega

theorem isWordChar_of_isBlank {c : Char} (h : isBlank c = true) : isWordChar c = false := by
  have hBlanks : ∀ n ∈ blankNumbers, isWordChar (Char.ofNat n) = false := by decide +kernel
  rw [← Char.ofNat_toNat c]
  exact hBlanks _ (toNat_mem_blankNumbers h)

/-! ### Words at the beginning -/

variable {word first second t rest : Text} {c : Char}

theorem isWordChar_of_spells (hWord : IsWord word) (h : Spells word t) (hc : c ∈ t) :
    isWordChar c = true := by
  refine isWordChar_of_foldCaseDotted (hWord _ ?_)
  rw [← h]
  exact List.mem_map_of_mem hc

theorem afterWord?_eq_some_iff {fold : Char → Char} :
    afterWord? fold word t = some rest ↔ ∃ front, t = front ++ rest ∧ front.map fold = word := by
  induction word generalizing t with
  | nil =>
      rw [afterWord?, Option.some.injEq]
      constructor
      · rintro rfl
        exact ⟨[], rfl, rfl⟩
      · rintro ⟨front, rfl, hFront⟩
        rw [List.map_eq_nil_iff.mp hFront, List.nil_append]
  | cons w word ih =>
      cases t with
      | nil =>
          rw [afterWord?]
          refine iff_of_false nofun ?_
          rintro ⟨front, hNil, hFront⟩
          rw [(List.append_eq_nil_iff.mp hNil.symm).1] at hFront
          cases hFront
      | cons x t =>
          rw [afterWord?]
          split_ifs with hLetter
          · rw [ih]
            constructor
            · rintro ⟨front, rfl, rfl⟩
              exact ⟨x :: front, rfl, by rw [List.map_cons, beq_iff_eq.mp hLetter]⟩
            · rintro ⟨front, hText, hFront⟩
              obtain ⟨y, front, rfl, -, hRest⟩ := List.map_eq_cons_iff.mp hFront
              obtain ⟨-, rfl⟩ := List.cons.inj hText
              exact ⟨front, rfl, hRest⟩
          · refine iff_of_false nofun ?_
            rintro ⟨front, hText, hFront⟩
            obtain ⟨y, front, rfl, hFirst, -⟩ := List.map_eq_cons_iff.mp hFront
            obtain ⟨rfl, -⟩ := List.cons.inj hText
            exact hLetter (beq_iff_eq.mpr hFirst)

theorem atWordEnd_iff : atWordEnd t = true ↔ ∀ c ∈ t.head?, isWordChar c = false := by
  cases t <;> simp [atWordEnd]

theorem afterWholeWord?_isSome_iff : (afterWholeWord? word t).isSome = true ↔ BeginsWith word t := by
  simp only [afterWholeWord?, Option.isSome_iff_exists, Option.filter_eq_some_iff,
    afterWord?_eq_some_iff, atWordEnd_iff]
  constructor
  · rintro ⟨rest, ⟨front, hText, hFront⟩, hEnd⟩
    exact ⟨front, rest, hText, hFront, hEnd⟩
  · rintro ⟨front, rest, hText, hFront, hEnd⟩
    exact ⟨rest, ⟨front, hText, hFront⟩, hEnd⟩

/-- No word reaches beyond a place where none goes on. -/
theorem Spells.front_of_begins {front front' : Text} (hWord : IsWord word) (h : Spells word front')
    (hEnd : ∀ c ∈ rest.head?, isWordChar c = false) (hBegins : front' <+: front ++ rest) :
    front' <+: front := by
  rcases List.prefix_or_prefix_of_prefix hBegins (List.prefix_append front rest) with
    hWithin | ⟨more, rfl⟩
  · exact hWithin
  · rw [List.prefix_append_right_inj] at hBegins
    cases more with
    | nil => simp
    | cons c more =>
        obtain ⟨back, rfl⟩ := hBegins
        have hLetter : isWordChar c = true := isWordChar_of_spells hWord h (by simp)
        rw [hEnd c rfl] at hLetter
        cases hLetter

/-- A text begins with one word only: the longer one of two would go on behind the shorter. -/
theorem BeginsWith.unique (hFirst : IsWord first) (hSecond : IsWord second)
    (h : BeginsWith first t) (h' : BeginsWith second t) : first = second := by
  obtain ⟨front, rest, hText, hFront, hEnd⟩ := h
  obtain ⟨front', rest', hText', hFront', hEnd'⟩ := h'
  have hShorter : front' <+: front :=
    hFront'.front_of_begins hSecond hEnd ⟨rest', hText'.symm.trans hText⟩
  have hLonger : front <+: front' :=
    hFront.front_of_begins hFirst hEnd' ⟨rest, hText.symm.trans hText'⟩
  have hSame : front = front' := hLonger.eq_of_length_le hShorter.length_le
  rw [← hFront, ← hFront', hSame]

/-! ### Forms -/

theorem fits_startsWith {words : List Text} :
    (Shape.startsWith words).fits t = true ↔ ∃ word ∈ words, BeginsWith word t := by
  simp only [Shape.fits, List.any_eq_true, afterWholeWord?_isSome_iff]

theorem fits_is (hBreak : '\n' ∉ t) : (Shape.is word).fits t = true ↔ Spells word t := by
  simp only [Shape.fits, Option.any_eq_true, afterWord?_eq_some_iff, atLineEnd, Bool.or_eq_true,
    List.isEmpty_iff, beq_iff_eq]
  constructor
  · rintro ⟨rest, ⟨front, rfl, hFront⟩, rfl | rfl⟩
    · rwa [List.append_nil]
    · exact absurd (by simp) hBreak
  · intro hSpells
    exact ⟨[], ⟨t, (List.append_nil t).symm, hSpells⟩, Or.inl rfl⟩

theorem endsWithWord_iff (hBreak : '\n' ∉ t) : endsWithWord word t = true ↔ EndsWith word t := by
  have hWhole : withoutFinalBreak t = t := by
    refine if_neg fun hLast => hBreak ?_
    exact List.mem_of_getLast? (beq_iff_eq.mp hLast)
  have hFront : (t.take (t.length - word.length)).contains '\n' = false := by
    rw [← Bool.not_eq_true, List.contains_iff_mem]
    exact fun hMem => hBreak (List.mem_of_mem_take hMem)
  simp only [endsWithWord, hWhole, hFront, Bool.not_false, Bool.and_true, Bool.and_eq_true,
    beq_iff_eq, Option.map_eq_some_iff, afterWord?_eq_some_iff, List.append_nil]
  constructor
  · rintro ⟨⟨back, hBack, hSpells⟩, c, hLast, hOther⟩
    obtain ⟨front, hBefore⟩ := List.getLast?_eq_some_iff.mp hLast
    refine ⟨front, c, back, ?_, hOther, hSpells⟩
    rw [← hBack, ← List.singleton_append, ← List.append_assoc, ← hBefore, List.take_append_drop]
  · rintro ⟨front, c, back, rfl, hOther, hSpells⟩
    have hLength : back.length = word.length := by rw [← hSpells, List.length_map]
    have hCut : (front ++ c :: back).length - word.length = (front ++ [c]).length := by
      simp only [List.length_append, List.length_cons, List.length_nil]
      omega
    have hText : front ++ c :: back = front ++ [c] ++ back := List.append_cons ..
    rw [hCut, hText, List.take_left, List.drop_left]
    exact ⟨⟨back, rfl, hSpells⟩, c, by simp, hOther⟩

theorem fits_spans {last : Text} (hFirst : IsWord first) (hBreak : '\n' ∉ t) :
    (Shape.spans first last).fits t = true ↔ BeginsWith first t ∧ EndsWith last t := by
  simp only [Shape.fits, afterWholeWord?, Option.any_eq_true, Option.filter_eq_some_iff,
    afterWord?_eq_some_iff, atWordEnd_iff]
  constructor
  · rintro ⟨rest, ⟨⟨front, rfl, hFront⟩, hEnd⟩, hEnds⟩
    have hRest : '\n' ∉ rest := fun hMem => hBreak (List.mem_append_right _ hMem)
    obtain ⟨between, c, back, rfl, hOther, hBack⟩ := (endsWithWord_iff hRest).mp hEnds
    exact ⟨⟨front, _, rfl, hFront, hEnd⟩,
      front ++ between, c, back, (List.append_assoc ..).symm, hOther, hBack⟩
  · rintro ⟨⟨front, rest, rfl, hFront, hEnd⟩, before, c, back, hText, hOther, hBack⟩
    have hRest : '\n' ∉ rest := fun hMem => hBreak (List.mem_append_right _ hMem)
    refine ⟨rest, ⟨⟨front, rfl, hFront⟩, hEnd⟩, (endsWithWord_iff hRest).mpr ?_⟩
    -- The character before the last word is none of a word, so it is not in the first one.
    rcases List.append_eq_append_iff.mp hText with ⟨between, -, hBehind⟩ | ⟨more, hMore, hBehind⟩
    · exact ⟨between, c, back, hBehind, hOther, hBack⟩
    · cases more with
      | nil => exact ⟨[], c, back, hBehind.symm, hOther, hBack⟩
      | cons x more =>
          obtain ⟨rfl, -⟩ := List.cons.inj hBehind
          have hLetter : isWordChar c = true := isWordChar_of_spells hFirst hFront (by simp [hMore])
          rw [hOther] at hLetter
          cases hLetter

theorem fits_startsWithPair (hSecond : IsWord second) (hNonempty : second ≠ []) :
    (Shape.startsWithPair first second).fits t = true ↔ BeginsWithPair first second t := by
  simp only [Shape.fits, Option.any_eq_true, afterWord?_eq_some_iff, Bool.and_eq_true,
    afterWholeWord?_isSome_iff]
  constructor
  · rintro ⟨rest, ⟨front, rfl, hFront⟩, ⟨c, hHead, hBlank⟩, hBegins⟩
    refine ⟨front, rest.takeWhile isBlank, rest.dropWhile isBlank, ?_, hFront, ?_,
      fun x hx => List.mem_takeWhile_imp hx, hBegins⟩
    · rw [List.append_assoc, List.takeWhile_append_dropWhile]
    · obtain ⟨tail, rfl⟩ := List.head?_eq_some_iff.mp hHead
      simp [hBlank]
  · rintro ⟨front, gap, rest, rfl, hFront, hGap, hBlank, hBegins⟩
    obtain ⟨c, gap, rfl⟩ := List.exists_cons_of_ne_nil hGap
    -- The second word begins with a letter, so the blanks end there.
    have hRest : rest.dropWhile isBlank = rest := by
      obtain ⟨word, back, rfl, hWord, -⟩ := hBegins
      obtain ⟨x, word, rfl⟩ := List.exists_cons_of_ne_nil (show word ≠ [] by
        rintro rfl
        exact hNonempty hWord.symm)
      have hLetter : isWordChar x = true := isWordChar_of_spells hSecond hWord (List.mem_cons_self ..)
      have hInk : isBlank x = false := by
        by_contra hNot
        rw [isWordChar_of_isBlank (Bool.not_eq_false _ ▸ hNot)] at hLetter
        cases hLetter
      simp [hInk]
    refine ⟨c :: gap ++ rest, ⟨front, List.append_assoc .., hFront⟩,
      ⟨c, rfl, hBlank c (List.mem_cons_self ..)⟩, ?_⟩
    rw [List.dropWhile_append_of_pos hBlank, hRest]
    exact hBegins

/-! ### The table -/

/-- The words one of which a text of a form begins with. -/
def Shape.heads : Shape → List Text
  | .startsWith words => words
  | .is word => [word]
  | .spans first _ => [first]
  | .startsWithPair first _ => [first]

theorem Shape.begins_of_fits {shape : Shape} (h : shape.fits t = true) :
    ∃ word ∈ shape.heads, BeginsWith word t := by
  cases shape with
  | startsWith words => exact fits_startsWith.mp h
  | is word =>
      simp only [fits, Option.any_eq_true, afterWord?_eq_some_iff, atLineEnd, Bool.or_eq_true,
        List.isEmpty_iff, beq_iff_eq] at h
      obtain ⟨rest, ⟨front, hText, hFront⟩, hRest⟩ := h
      refine ⟨word, List.mem_singleton_self word, front, rest, hText, hFront, ?_⟩
      rcases hRest with rfl | rfl
      · exact nofun
      · rintro c ⟨⟩
        decide
  | spans first last =>
      rw [fits, Option.any_eq_true] at h
      obtain ⟨rest, hRest, -⟩ := h
      exact ⟨first, List.mem_singleton_self first,
        afterWholeWord?_isSome_iff.mp (Option.isSome_iff_exists.mpr ⟨rest, hRest⟩)⟩
  | startsWithPair first second =>
      simp only [fits, Option.any_eq_true, afterWord?_eq_some_iff, Bool.and_eq_true] at h
      obtain ⟨rest, ⟨front, hText, hFront⟩, ⟨c, hHead, hBlank⟩, -⟩ := h
      refine ⟨first, List.mem_singleton_self first, front, rest, hText, hFront, fun x hx => ?_⟩
      obtain rfl : c = x := Option.some.inj (hHead.symm.trans hx)
      exact isWordChar_of_isBlank hBlank

theorem isWord_of_mem_heads :
    ∀ entry ∈ roleTable, ∀ word ∈ entry.2.heads, IsWord word := by
  decide

theorem pairwise_heads :
    roleTable.Pairwise fun entry other => ∀ word ∈ entry.2.heads, word ∉ other.2.heads := by
  decide

/-- No text has two forms of the table. -/
theorem pairwise_fits (t : Text) :
    roleTable.Pairwise fun entry other => entry.2.fits t = true → other.2.fits t = false := by
  refine pairwise_heads.imp_of_mem fun {entry other} hEntry hOther hHeads hFits => ?_
  by_contra hBoth
  rw [Bool.not_eq_false] at hBoth
  obtain ⟨word, hWord, hBegins⟩ := Shape.begins_of_fits hFits
  obtain ⟨word', hWord', hBegins'⟩ := Shape.begins_of_fits hBoth
  have hSame : word = word' := hBegins.unique (isWord_of_mem_heads entry hEntry word hWord)
    (isWord_of_mem_heads other hOther word' hWord') hBegins'
  exact hHeads word hWord (hSame ▸ hWord')

/-- The role of a text is that of any form it has, wherever the form is in the table. -/
theorem ofStatement_of_fits {entry : Role × Shape} (hEntry : entry ∈ roleTable)
    (hFits : entry.2.fits t = true) : Role.ofStatement t = entry.1 := by
  have hSome : (roleTable.find? fun entry => entry.2.fits t).isSome = true :=
    List.find?_isSome.mpr ⟨entry, hEntry, hFits⟩
  obtain ⟨found, hFound⟩ := Option.isSome_iff_exists.mp hSome
  obtain ⟨hFoundFits, before, behind, hTable, hBefore⟩ := List.find?_eq_some_iff_append.mp hFound
  have hSame : entry = found := by
    rw [hTable, List.mem_append, List.mem_cons] at hEntry
    rcases hEntry with hEarlier | hSame | hLater
    · have hNot := hBefore entry hEarlier
      rw [hFits] at hNot
      cases hNot
    · exact hSame
    · have hApart := pairwise_fits t
      rw [hTable, List.pairwise_append, List.pairwise_cons] at hApart
      have hNot := hApart.2.1.1 entry hLater hFoundFits
      rw [hFits] at hNot
      cases hNot
  rw [Role.ofStatement, hFound, hSame]
  rfl

/-- A text is plain unless it has a form of the table. -/
theorem ofStatement_cases (t : Text) :
    (∃ entry ∈ roleTable, entry.2.fits t = true ∧ Role.ofStatement t = entry.1) ∨
      (∀ entry ∈ roleTable, entry.2.fits t = false) ∧ Role.ofStatement t = .plain := by
  by_cases hFits : ∃ entry ∈ roleTable, entry.2.fits t = true
  · obtain ⟨entry, hEntry, hFit⟩ := hFits
    exact Or.inl ⟨entry, hEntry, hFit, ofStatement_of_fits hEntry hFit⟩
  · have hNone : ∀ entry ∈ roleTable, entry.2.fits t = false := fun entry hEntry =>
      Bool.eq_false_iff.mpr fun hFit => hFits ⟨entry, hEntry, hFit⟩
    refine Or.inr ⟨hNone, ?_⟩
    rw [Role.ofStatement, List.find?_eq_none.mpr fun entry hEntry hFit => ?_]
    · rfl
    · exact hFits ⟨entry, hEntry, hFit⟩

theorem ne_plain_of_mem_roleTable : ∀ entry ∈ roleTable, entry.1 ≠ .plain := by
  decide

/-- The phrases are the forms of the table, in texts of one line. -/
theorem phrase_iff_fits {role : Role} (hBreak : '\n' ∉ t) :
    Phrase role t ↔ ∃ entry ∈ roleTable, entry.1 = role ∧ entry.2.fits t = true := by
  constructor
  · intro hPhrase
    cases hPhrase with
    | block begins known =>
        exact ⟨roleTable[0], List.getElem_mem _, rfl, fits_startsWith.mpr ⟨_, known, begins⟩⟩
    | declaration spells => exact ⟨roleTable[1], List.getElem_mem _, rfl, (fits_is hBreak).mpr spells⟩
    | condition begins ends =>
        exact ⟨roleTable[2], List.getElem_mem _, rfl, (fits_spans (by decide) hBreak).mpr ⟨begins, ends⟩⟩
    | arming begins =>
        exact ⟨roleTable[3], List.getElem_mem _, rfl,
          (fits_startsWithPair (by decide) (by decide)).mpr begins⟩
    | alternative begins =>
        exact ⟨roleTable[4], List.getElem_mem _, rfl, fits_startsWith.mpr ⟨_, by decide, begins⟩⟩
    | ending begins known =>
        exact ⟨roleTable[5], List.getElem_mem _, rfl, fits_startsWith.mpr ⟨_, known, begins⟩⟩
    | readout begins =>
        exact ⟨roleTable[6], List.getElem_mem _, rfl,
          (fits_startsWithPair (by decide) (by decide)).mpr begins⟩
  · rintro ⟨entry, hEntry, rfl, hFits⟩
    simp only [roleTable, List.mem_cons, List.not_mem_nil, or_false] at hEntry
    rcases hEntry with rfl | rfl | rfl | rfl | rfl | rfl | rfl
    · obtain ⟨word, hWord, hBegins⟩ := fits_startsWith.mp hFits
      exact .block hBegins hWord
    · exact .declaration ((fits_is hBreak).mp hFits)
    · obtain ⟨hBegins, hEnds⟩ := (fits_spans (by decide) hBreak).mp hFits
      exact .condition hBegins hEnds
    · exact .arming ((fits_startsWithPair (by decide) (by decide)).mp hFits)
    · obtain ⟨word, hWord, hBegins⟩ := fits_startsWith.mp hFits
      exact .alternative (List.mem_singleton.mp hWord ▸ hBegins)
    · obtain ⟨word, hWord, hBegins⟩ := fits_startsWith.mp hFits
      exact .ending hBegins hWord
    · exact .readout ((fits_startsWithPair (by decide) (by decide)).mp hFits)

/-! ### Lines -/

theorem mem_of_mem_trim (h : c ∈ Text.trim t) : c ∈ t := by
  have hEnd : c ∈ (t.dropWhile isBlank).reverse.dropWhile isBlank := List.mem_reverse.mp h
  have hStart : c ∈ t.dropWhile isBlank := List.mem_reverse.mp (List.dropWhile_subset _ hEnd)
  exact List.dropWhile_subset _ hStart

/-- The role of a line is that of the phrase which its code is, without comment and blanks
around it. A line whose code is no phrase is plain. -/
theorem ofLine_eq_iff_phrase (mark : Text) {line : Text} (hLine : '\n' ∉ line) :
    (∀ role, role ≠ .plain →
      (Role.ofLine mark line = role ↔ Phrase role (Text.trim (codePart mark line)))) ∧
    (Role.ofLine mark line = .plain ↔ ∀ role, ¬ Phrase role (Text.trim (codePart mark line))) := by
  have hBreak : '\n' ∉ Text.trim (codePart mark line) := fun hMem =>
    hLine ((codePart_begins mark line).subset (mem_of_mem_trim hMem))
  have hRole : Role.ofLine mark line = Role.ofStatement (Text.trim (codePart mark line)) := rfl
  simp only [hRole, phrase_iff_fits hBreak]
  rcases ofStatement_cases (Text.trim (codePart mark line)) with
    ⟨entry, hEntry, hFits, hOf⟩ | ⟨hNone, hOf⟩
  · rw [hOf]
    refine ⟨fun role _ => ⟨fun hSame => ⟨entry, hEntry, hSame, hFits⟩, ?_⟩, ?_⟩
    · rintro ⟨other, hOther, rfl, hFits'⟩
      rw [← hOf, ofStatement_of_fits hOther hFits']
    · refine iff_of_false (ne_plain_of_mem_roleTable entry hEntry) fun hNo => ?_
      exact hNo entry.1 ⟨entry, hEntry, rfl, hFits⟩
  · have hNo : ∀ role, ¬ ∃ entry ∈ roleTable, entry.1 = role ∧
        entry.2.fits (Text.trim (codePart mark line)) = true := by
      rintro role ⟨entry, hEntry, -, hFits⟩
      rw [hNone entry hEntry] at hFits
      cases hFits
    rw [hOf]
    exact ⟨fun role hPlain => iff_of_false (Ne.symm hPlain) (hNo role), iff_of_true rfl hNo⟩

theorem ofLine_eq_iff_phrase_condition :
    '\n' ∉ "  İF a=1\tTHEN # 'then".toList ∧
      Phrase .opener "İF a=1\tTHEN".toList ∧ ¬ Phrase .divider "İF a=1\tTHEN".toList ∧
      '\n' ∉ "endif".toList ∧ ∀ role, ¬ Phrase role "endif".toList := by
  have hLine : '\n' ∉ "  İF a=1\tTHEN # 'then".toList := by decide +kernel
  have hCode : Text.trim (codePart commentMark "  İF a=1\tTHEN # 'then".toList) =
      "İF a=1\tTHEN".toList := by decide +kernel
  have hOpens := (ofLine_eq_iff_phrase commentMark hLine).1 .opener (by decide)
  have hDivides := (ofLine_eq_iff_phrase commentMark hLine).1 .divider (by decide)
  have hPlain := (ofLine_eq_iff_phrase commentMark (show '\n' ∉ "endif".toList by decide)).2
  have hWhole : Text.trim (codePart commentMark "endif".toList) = "endif".toList := by decide +kernel
  rw [hCode] at hOpens hDivides
  rw [hWhole] at hPlain
  exact ⟨hLine, hOpens.mp (by decide +kernel), fun hElse => absurd (hDivides.mpr hElse)
    (by decide +kernel), by decide, hPlain.mp (by decide +kernel)⟩

end ScriptEditor.Script
