import ScriptEditor.Proofs.Highlight.Painted
import ScriptEditor.Proofs.Highlight.Words

/-! The first word of a line. A line that has a role in block structure begins with a keyword, and
no rule that is applied later reaches back to it. -/
namespace ScriptEditor.Highlight

open ScriptEditor.Appearance (Palette)
open ScriptEditor.Document (units_eq_length_iff)
open ScriptEditor.Script
open ScriptEditor.Text (isBlank isAsciiLetter isIdentChar foldCase asciiLower unitWidth hasWide
  any_head?_append any_getLast?_or any_head?_apart any_head?_of_takeWhile takeWhile_run)

/-- Text that has blanks and a whole word at its beginning. -/
structure Leads (t gap keyword back : Text) : Prop where
  text : t = gap ++ (keyword ++ back)
  blank : ∀ c ∈ gap, isBlank c = true
  letters : ∀ c ∈ keyword, isAsciiLetter c = true
  nonempty : keyword ≠ []
  stops : back.head?.any isIdentChar = false

/-- A recogniser that reads nothing in front of a blank and nothing inside of a word. -/
def KeepsWords (r : Recogniser) : Prop :=
  ∀ before t hit, IsAscii t → r before t = some hit →
    t.head?.any isBlank = false ∧ (t.head?.any isIdentChar = true → before.any isIdentChar = false)

variable {t gap keyword back left right code : Text} {r : Recogniser} {words : List Text} {i : Nat}

/-! ### Places around the word -/

theorem isBlank_of_isIdentChar {c : Char} (h : isIdentChar c = true) : isBlank c = false := by
  by_contra hBlank
  rw [Bool.not_eq_false] at hBlank
  rw [(isBlank_apart hBlank).1] at h
  cases h

theorem isBlank_of_isQuote {c : Char} (h : isQuote c = true) : isBlank c = false := by
  by_contra hBlank
  rw [Bool.not_eq_false] at hBlank
  rw [(isBlank_apart hBlank).2] at h
  cases h

theorem Leads.wordChars (h : Leads t gap keyword back) : ∀ c ∈ keyword, isIdentChar c = true :=
  fun c hc => isIdentChar_of_isAsciiLetter (h.letters c hc)

/-- The places before the end of the word are in front of a blank, at the beginning of the word,
and inside of it. -/
theorem Leads.place_cases (h : Leads t gap keyword back) (hText : t = left ++ right)
    (hEarly : left.length < gap.length + keyword.length) :
    right.head?.any isBlank = true ∨
    (left = gap ∧ right = keyword ++ back) ∨
    (right.head?.any isIdentChar = true ∧ left.getLast?.any isIdentChar = true) := by
  rw [h.text] at hText
  rcases List.append_eq_append_iff.mp hText with ⟨more, hLeft, hRight⟩ | ⟨more, hGap, hRight⟩
  · by_cases hMore : more = []
    · rw [hMore, List.append_nil] at hLeft
      rw [hMore, List.nil_append] at hRight
      exact Or.inr (Or.inl ⟨hLeft, hRight.symm⟩)
    · rw [hLeft, List.length_append] at hEarly
      rcases List.append_eq_append_iff.mp hRight with ⟨rest, hRest, -⟩ | ⟨rest, hKeyword, hBack⟩
      · rw [hRest, List.length_append] at hEarly
        omega
      · have hRest : rest ≠ [] := by
          rintro rfl
          rw [hKeyword, List.append_nil] at hEarly
          omega
        have hLetters : ∀ c ∈ more ++ rest, isIdentChar c = true := hKeyword ▸ h.wordChars
        refine Or.inr (Or.inr ⟨?_, ?_⟩)
        · rw [hBack]
          exact any_head?_append (fun c hc => hLetters c (List.mem_append_right _ hc)) hRest back
        · rw [hLeft, List.getLast?_append]
          exact any_getLast?_or (fun c hc => hLetters c (List.mem_append_left _ hc)) hMore _
  · by_cases hMore : more = []
    · rw [hMore, List.append_nil] at hGap
      rw [hMore, List.nil_append] at hRight
      exact Or.inr (Or.inl ⟨hGap.symm, hRight⟩)
    · have hBlank : ∀ c ∈ more, isBlank c = true := fun c hc =>
        h.blank c (hGap ▸ List.mem_append_right _ hc)
      rw [hRight]
      exact Or.inl (any_head?_append hBlank hMore _)

theorem KeepsWords.not_covers (hKeeps : KeepsWords r) (h : Leads t gap keyword back)
    (hAscii : IsAscii t)
    (hStart : ∀ before hit, r before (keyword ++ back) = some hit → keyword.length ≤ hit.passed)
    (hBound : i < gap.length + keyword.length) : ¬ Covers (spans r t) i := by
  rintro ⟨s, hs, hFirst, -⟩
  obtain ⟨left, right, hit, hText, hHit, rfl⟩ := readIn_of_mem_spans hs
  rw [Option.or_none] at hHit
  dsimp only at hFirst
  have hRight : IsAscii right := hAscii.mono (hText ▸ List.subset_append_right ..)
  obtain ⟨hInk, hBefore⟩ := hKeeps _ _ _ hRight hHit
  rcases h.place_cases hText (by omega) with hBlank | ⟨rfl, rfl⟩ | ⟨hHead, hLast⟩
  · rw [hBlank] at hInk
    cases hInk
  · have hPassed := hStart _ hit hHit
    omega
  · rw [hBefore hHead] at hLast
    cases hLast

/-- A recogniser that reads the word finds it. -/
theorem KeepsWords.covers (hKeeps : KeepsWords r) (h : Leads t gap keyword back)
    (hAscii : IsAscii t)
    (hWord : ∀ before : Option Char, before.any isIdentChar = false →
      r before (keyword ++ back) = some ⟨0, keyword.length⟩)
    (hFirst : gap.length ≤ i) (hBound : i < gap.length + keyword.length) :
    Covers (spans r t) i := by
  have hGap : spans r t = spansFrom r (0 + gap.length) 0 (gap.getLast?.or none) (keyword ++ back) := by
    rw [spans, h.text]
    refine spansFrom_of_none fun left c right hSplit => ?_
    have hRest : IsAscii (c :: right ++ (keyword ++ back)) := by
      refine hAscii.mono ?_
      rw [h.text, hSplit, List.append_assoc]
      exact List.subset_append_right ..
    by_contra hSome
    obtain ⟨hit, hHit⟩ := Option.ne_none_iff_exists'.mp hSome
    have hInk := (hKeeps _ _ _ hRest hHit).1
    rw [List.cons_append, List.head?_cons, Option.any_some, h.blank c (by simp [hSplit])] at hInk
    cases hInk
  have hBefore : (gap.getLast?.or none).any isIdentChar = false := by
    rw [Option.or_none]
    by_contra hLetter
    rw [Bool.not_eq_false] at hLetter
    obtain ⟨c, hLast, hc⟩ := (Option.any_eq_true ..).mp hLetter
    rw [(isBlank_apart (h.blank c (List.mem_of_getLast? hLast))).1] at hc
    cases hc
  have hSome : keyword ++ back ≠ [] := fun hNil => h.nonempty (List.append_eq_nil_iff.mp hNil).1
  refine ⟨_, hGap ▸ mem_spansFrom_here hSome (hWord _ hBefore), ?_, ?_⟩
  · dsimp only
    omega
  · dsimp only
    omega

/-! ### Recognisers -/

theorem keepsWords_of_start
    (h : ∀ before t hit, IsAscii t → r before t = some hit →
      before.any isIdentChar = false ∧ t.head?.any isIdentChar = true) : KeepsWords r := by
  intro before t hit hAscii hHit
  obtain ⟨hBefore, hHead⟩ := h before t hit hAscii hHit
  exact ⟨any_head?_apart (fun _ => isBlank_of_isIdentChar) hHead, fun _ => hBefore⟩

theorem keepsWords_word (hWords : ∀ w ∈ words, IsWord w ∧ w ≠ []) : KeepsWords (word words) := by
  refine keepsWords_of_start fun before t hit hAscii hHit => ?_
  obtain ⟨hBefore, hMem, -⟩ := run_of_word_eq_some hWords hAscii hHit
  refine ⟨hBefore, any_head?_of_takeWhile fun hNone => (hWords _ hMem).2 ?_⟩
  rw [List.eq_nil_of_length_eq_zero hNone, List.map_nil]

theorem keepsWords_number : KeepsWords number := by
  refine keepsWords_of_start fun before t hit _ hHit => ?_
  obtain ⟨hBefore, hDigit⟩ := start_of_number_eq_some hHit
  obtain ⟨c, hHead, hc⟩ := (Option.any_eq_true ..).mp hDigit
  rw [hHead]
  exact ⟨hBefore, isIdentChar_of_isAsciiDigit hc⟩

theorem keepsWords_declaredName : KeepsWords declaredName := by
  refine keepsWords_of_start fun before t hit hAscii hHit => ?_
  obtain ⟨hBefore, hHead, -⟩ := passes_of_declaredName_eq_some hAscii hHit
  exact ⟨hBefore, hHead⟩

theorem keepsWords_string : KeepsWords string := by
  intro before t hit _ hHit
  have hQuote := head_of_string_eq_some hHit
  refine ⟨any_head?_apart (fun _ => isBlank_of_isQuote) hQuote, fun hLetter => ?_⟩
  rw [any_head?_apart (fun _ => isQuote_of_isIdentChar) hLetter] at hQuote
  cases hQuote

/-! ### The vocabulary -/

theorem mem_wordsOf {category : Category} {w : Text} :
    w ∈ wordsOf category ↔ (w, category) ∈ vocabulary := by
  simp [wordsOf]

theorem isWord_of_mem_wordsOf (category : Category) :
    ∀ w ∈ wordsOf category, IsWord w ∧ w ≠ [] := by
  have hWords : ∀ entry ∈ vocabulary, IsWord entry.1 ∧ entry.1 ≠ [] := by decide +kernel
  exact fun w hw => hWords _ (mem_wordsOf.mp hw)

/-- The words that the forms of lines begin with are keywords and of no other category. -/
theorem mem_wordsOf_of_mem_heads {entry : Role × Shape} (hEntry : entry ∈ roleTable) {w : Text}
    (hw : w ∈ entry.2.heads) (category : Category) :
    w ∈ wordsOf category ↔ category = .keyword := by
  have hHeads : ∀ entry ∈ roleTable, ∀ w ∈ entry.2.heads, ∀ category ∈ Category.all,
      (w, category) ∈ vocabulary ↔ category = .keyword := by decide +kernel
  rw [mem_wordsOf]
  exact hHeads entry hEntry w hw category (by cases category <;> decide)

/-! ### Roles -/

theorem exists_trim (t : Text) :
    ∃ gap tail, t = gap ++ (Text.trim t ++ tail) ∧ (∀ c ∈ gap, isBlank c = true) ∧
      ∀ c ∈ tail, isBlank c = true := by
  refine ⟨t.takeWhile isBlank, ((t.dropWhile isBlank).reverse.takeWhile isBlank).reverse, ?_,
    fun c hc => List.mem_takeWhile_imp hc,
    fun c hc => List.mem_takeWhile_imp (List.mem_reverse.mp hc)⟩
  rw [Text.trim, Text.stripWhile, Text.dropEndWhile, ← List.reverse_append,
    List.takeWhile_append_dropWhile, List.reverse_reverse, List.takeWhile_append_dropWhile]

/-- The code of a line that has a role leads with a word of the form it has. -/
theorem exists_leads {mark line : Text} (hAscii : IsAscii line)
    (hRole : Role.ofLine mark line ≠ .plain) :
    ∃ entry ∈ roleTable, entry.1 = Role.ofLine mark line ∧
      entry.2.fits (statement mark line) = true ∧
      ∃ gap keyword back, Leads (codePart mark line) gap keyword back ∧
        (statement mark line).takeWhile isIdentChar = keyword ∧
        keyword.map asciiLower ∈ entry.2.heads := by
  rcases ofStatement_cases (statement mark line) with ⟨entry, hEntry, hFits, hOf⟩ | ⟨-, hOf⟩
  · obtain ⟨w, hw, keyword, rest, hStatement, hSpells, hStop⟩ := Shape.begins_of_fits hFits
    have hWord := isWord_of_mem_heads entry hEntry w hw
    have hSome : w ≠ [] := (isWord_of_mem_wordsOf .keyword w
      ((mem_wordsOf_of_mem_heads hEntry hw .keyword).mpr rfl)).2
    obtain ⟨gap, tail, hCode, hGap, hTail⟩ := exists_trim (codePart mark line)
    rw [← statement, hStatement, List.append_assoc] at hCode
    have hParts : IsAscii (gap ++ (keyword ++ (rest ++ tail))) :=
      hCode ▸ hAscii.mono (codePart_begins mark line).subset
    have hKeyword : IsAscii keyword := hParts.mono (by simp)
    have hRest : ∀ c ∈ rest.head?, isIdentChar c = false := fun c hc => by
      have hAsciiHead : c.toNat < 0x80 := hParts c (by simp [List.mem_of_mem_head? hc])
      rw [← isWordChar_of_ascii hAsciiHead]
      exact hStop c hc
    have hLower : keyword.map asciiLower = w := hKeyword.map_foldCaseDotted.symm.trans hSpells
    have hLetters :=
      isAsciiLetter_of_foldCase hKeyword hWord (hKeyword.map_foldCase.trans hLower)
    refine ⟨entry, hEntry, hOf.symm, hFits, gap, keyword, rest ++ tail, ⟨hCode, hGap, hLetters,
      fun hNil => hSome (by rw [← hLower, hNil, List.map_nil]), ?_⟩, ?_, hLower ▸ hw⟩
    · cases rest with
      | nil =>
          cases tail with
          | nil => rfl
          | cons c tail => exact (isBlank_apart (hTail c List.mem_cons_self)).1
      | cons c rest => exact hRest c rfl
    · rw [hStatement]
      refine takeWhile_run (fun c hc => isIdentChar_of_isAsciiLetter (hLetters c hc)) ?_
      cases rest with
      | nil => rfl
      | cons c rest => exact hRest c rfl
  · exact absurd hOf hRole

/-! ### Colouring -/

theorem IsAscii.hasWide (h : IsAscii t) : hasWide t = false := by
  rw [Text.hasWide, List.any_eq_false]
  intro c hc
  have hNarrow : c.toNat < 0x10000 := Nat.lt_trans (h c hc) (by decide)
  simp [unitWidth, hNarrow]

theorem IsAscii.units (h : IsAscii t) : Text.units t = t.length :=
  units_eq_length_iff.mpr h.hasWide

theorem IsAscii.withoutMark (h : IsAscii t) : Text.withoutMark t = t := by
  rw [Text.withoutMark, h.hasWide, Bool.and_false, if_neg Bool.false_ne_true]

/-- In ASCII a unit is a character. -/
theorem covers_inUnits (hAscii : IsAscii code) (found : List Span) (hBound : i < code.length) :
    Covers (found.map (Span.inUnits code)) i ↔ Covers found i := by
  have hSpan (s : Span) : ((s.inUnits code).start ≤ i ∧
      i < (s.inUnits code).start + (s.inUnits code).length) ↔
        s.start ≤ i ∧ i < s.start + s.length := by
    have hStart := (hAscii.mono (List.take_subset s.start code)).units
    have hLength := (hAscii.mono (List.Subset.trans (List.take_subset s.length _)
      (List.drop_subset s.start code))).units
    rw [Span.inUnits, hStart, hLength, List.length_take, List.length_take, List.length_drop]
    dsimp only
    omega
  simp only [Covers, List.mem_map, exists_exists_and_eq_and, hSpan]

/-- A rule gives its format to what it finds and no later rule does. -/
theorem formatAt?_cons {rule : Recogniser × Format} {row : List (Recogniser × Format)}
    (hAscii : IsAscii code) (hBound : i < code.length) (hFound : Covers (spans rule.1 code) i)
    (hLater : ∀ other ∈ row, ¬ Covers (spans other.1 code) i) :
    formatAt? code (rule :: row) i = some rule.2 := by
  have hNone : (row.reverse.find? fun other =>
      decide (Covers ((spans other.1 code).map (Span.inUnits code)) i)) = none := by
    rw [List.find?_eq_none]
    intro other hOther
    rw [decide_eq_true_eq, covers_inUnits hAscii _ hBound]
    exact hLater other (List.mem_reverse.mp hOther)
  rw [formatAt?, List.reverse_cons, List.find?_append, hNone]
  simp [covers_inUnits hAscii _ hBound, hFound]

/-- The rules behind the first one do not reach the word that leads the code. -/
theorem not_covers_rules (p : Palette) (hAscii : IsAscii code) (h : Leads code gap keyword back)
    (hOther : ∀ category, category ≠ .keyword → keyword.map foldCase ∉ wordsOf category)
    (hBound : i < gap.length + keyword.length) :
    ∀ rule ∈ (rules p).tail, ¬ Covers (spans rule.1 code) i := by
  have hWord : (keyword ++ back).takeWhile isIdentChar = keyword := takeWhile_run h.wordChars h.stops
  have hBack : IsAscii (keyword ++ back) := hAscii.mono (h.text ▸ List.subset_append_right ..)
  have hCategory (category : Category) (hNot : category ≠ .keyword) :
      ¬ Covers (spans (word (wordsOf category)) code) i := by
    refine (keepsWords_word (isWord_of_mem_wordsOf category)).not_covers h hAscii ?_ hBound
    intro before hit hHit
    have hMem := (run_of_word_eq_some (isWord_of_mem_wordsOf category) hBack hHit).2.1
    rw [hWord] at hMem
    exact absurd hMem (hOther category hNot)
  have hLetter := any_head?_append h.letters h.nonempty back
  intro rule hRule
  simp only [rules, List.tail_cons, List.mem_cons, List.not_mem_nil, or_false] at hRule
  rcases hRule with rfl | rfl | rfl | rfl | rfl | rfl
  · exact hCategory .type (by decide)
  · exact hCategory .builtin (by decide)
  · exact hCategory .constant (by decide)
  · refine keepsWords_number.not_covers h hAscii (fun before hit hHit => ?_) hBound
    have hDigit := (start_of_number_eq_some hHit).2
    rw [any_head?_apart (fun _ => isAsciiDigit_of_isAsciiLetter) hLetter] at hDigit
    cases hDigit
  · refine keepsWords_declaredName.not_covers h hAscii (fun before hit hHit => ?_) hBound
    have hPassed := (passes_of_declaredName_eq_some hBack hHit).2.2
    rw [hWord] at hPassed
    exact Nat.le_of_lt hPassed
  · refine keepsWords_string.not_covers h hAscii (fun before hit hHit => ?_) hBound
    have hQuote := head_of_string_eq_some hHit
    have hWordHead := any_head?_append h.wordChars h.nonempty back
    rw [any_head?_apart (fun _ => isQuote_of_isIdentChar) hWordHead] at hQuote
    cases hQuote

/-- The word that leads the code of a line has the format of keywords if it is one and is of no
other category. -/
theorem getElem?_formatsOf_leads (p : Palette) {mark line : Text} (hAscii : IsAscii line)
    (h : Leads (codePart mark line) gap keyword back)
    (hWord : ∀ category, keyword.map foldCase ∈ wordsOf category ↔ category = .keyword)
    (hFirst : gap.length ≤ i) (hBound : i < gap.length + keyword.length) :
    (formatsOf p mark line)[i]? = some (some ⟨p.keyword, true, false⟩) := by
  have hCode : IsAscii (codePart mark line) := hAscii.mono (codePart_begins mark line).subset
  have hBack : IsAscii (keyword ++ back) := hCode.mono (h.text ▸ List.subset_append_right ..)
  have hRun : (keyword ++ back).takeWhile isIdentChar = keyword := takeWhile_run h.wordChars h.stops
  have hInside : i < (codePart mark line).length := by
    rw [h.text, List.length_append, List.length_append]
    omega
  have hLine := (codePart_begins mark line).length_le
  have hWords := isWord_of_mem_wordsOf .keyword
  have hFound : Covers (spans (word (wordsOf .keyword)) (codePart mark line)) i := by
    refine (keepsWords_word hWords).covers h hCode (fun before hBefore => ?_) hFirst hBound
    have hMem : ((keyword ++ back).takeWhile isIdentChar).map foldCase ∈ wordsOf .keyword := by
      rw [hRun]
      exact (hWord .keyword).mpr rfl
    rw [word_eq_some_of_run hWords hBack hBefore hMem, hRun]
  have hLater := not_covers_rules p hCode h (fun category hNot => (hWord category).not.mpr hNot) hBound
  rw [getElem?_formatsOf, hAscii.units, if_pos (Nat.lt_of_lt_of_le hInside hLine),
    if_neg (by omega), hCode.withoutMark]
  exact congrArg some (formatAt?_cons hCode hInside hFound hLater)

/-- A line of ASCII that has a role in block structure begins, behind its blanks, with the word
that its role comes from, and all of this word has the bold format of keywords. -/
theorem formatsOf_leadingWord (p : Palette) (mark : Text) {line : Text}
    (hAscii : ∀ c ∈ line, c.toNat < 0x80) (hRole : Role.ofLine mark line ≠ .plain) :
    let keyword := (statement mark line).takeWhile isIdentChar
    let start := (line.takeWhile isBlank).length
    (∃ entry ∈ roleTable, entry.1 = Role.ofLine mark line ∧
      entry.2.fits (statement mark line) = true ∧ keyword.map asciiLower ∈ entry.2.heads) ∧
    keyword ≠ [] ∧ keyword <+: line.drop start ∧
    ∀ i, start ≤ i → i < start + keyword.length →
      (formatsOf p mark line)[i]? = some (some ⟨p.keyword, true, false⟩) := by
  obtain ⟨entry, hEntry, hOf, hFits, gap, keyword, back, hLeads, hKeyword, hHead⟩ :=
    exists_leads hAscii hRole
  obtain ⟨comment, hLine⟩ := codePart_begins mark line
  rw [hLeads.text, List.append_assoc, List.append_assoc] at hLine
  have hStart : line.takeWhile isBlank = gap := by
    rw [← hLine]
    exact takeWhile_run hLeads.blank
      (any_head?_apart (fun _ => isBlank_of_isIdentChar)
        (any_head?_append hLeads.wordChars hLeads.nonempty _))
  have hKeywordAscii : IsAscii keyword := by
    refine IsAscii.mono hAscii ?_
    rw [← hLine]
    simp
  dsimp only
  rw [hKeyword, hStart]
  refine ⟨⟨entry, hEntry, hOf, hFits, hHead⟩, hLeads.nonempty, ?_, fun i hFirst hBound => ?_⟩
  · rw [← hLine, List.drop_left]
    exact List.prefix_append ..
  · refine getElem?_formatsOf_leads p hAscii hLeads (fun category => ?_) hFirst hBound
    rw [hKeywordAscii.map_foldCase]
    exact mem_wordsOf_of_mem_heads hEntry hHead category

theorem formatsOf_leadingWord_readout :
    let line := " \tReadout  DEVICE 1 # next".toList
    (∀ c ∈ line, c.toNat < 0x80) ∧ Role.ofLine commentMark line = .closer ∧
      ∀ i, 2 ≤ i → i < 2 + "Readout".toList.length →
        (formatsOf Appearance.darkPalette commentMark line)[i]? =
          some (some ⟨Appearance.darkPalette.keyword, true, false⟩) := by
  intro line
  have hAscii : IsAscii line := by decide +kernel
  have hRole : Role.ofLine commentMark line = .closer := by decide +kernel
  have hKeyword : (statement commentMark line).takeWhile isIdentChar = "Readout".toList := by
    decide +kernel
  have hStart : (line.takeWhile isBlank).length = 2 := by decide +kernel
  have hNotPlain : Role.ofLine commentMark line ≠ .plain := by
    rw [hRole]
    decide
  have hFormats :=
    (formatsOf_leadingWord Appearance.darkPalette commentMark hAscii hNotPlain).2.2.2
  rw [hKeyword, hStart] at hFormats
  exact ⟨hAscii, hRole, hFormats⟩

end ScriptEditor.Highlight
