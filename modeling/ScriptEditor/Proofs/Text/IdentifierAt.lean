import ScriptEditor.Proofs.Text.Runs

/-! The identifier that touches a column. The scan goes over the whole text, but what it finds at
a column depends on the run around it only: nothing further left shifts or takes what is found. -/
namespace ScriptEditor.Text

variable {t front rest word left right : Text} {i taken : Nat} {column : Int} {r s : Stretch}

/-- A column is inside of a stretch or at one of its ends. -/
def Stretch.touches (s : Stretch) (column : Int) : Bool :=
  s.start ≤ column && column ≤ s.stop

/-- The part of a stretch behind the digits it begins with. -/
def Stretch.behindDigits (s : Stretch) : Stretch :=
  ⟨s.start + (s.word.takeWhile isAsciiDigit).length, s.word.dropWhile isAsciiDigit⟩

/-- The run that touches a column, looked for to both sides of the column. -/
def runAt? (t : Text) (column : Int) : Option Stretch :=
  if 0 ≤ column ∧ column ≤ t.length ∧ (runAround t column.toNat).word ≠ [] then
    some (runAround t column.toNat)
  else none

/-- The run that touches a column, without the digits it begins with. A name that begins behind
the column does not count. -/
def nameAround? (t : Text) (column : Int) : Option Text :=
  (runAt? t column).bind fun r =>
    if r.behindDigits.word ≠ [] ∧ r.behindDigits.start ≤ column then some r.behindDigits.word
    else none

/-- The identifiers in a run: one behind its digits, or none. -/
def identifiersIn (r : Stretch) : List Stretch :=
  if r.behindDigits.word = [] then [] else [r.behindDigits]

theorem Stretch.stop_behindDigits (s : Stretch) : s.behindDigits.stop = s.stop := by
  have hWord : s.word.takeWhile isAsciiDigit ++ s.word.dropWhile isAsciiDigit = s.word :=
    List.takeWhile_append_dropWhile
  have hLength := congrArg List.length hWord
  rw [List.length_append] at hLength
  simp only [Stretch.stop, Stretch.behindDigits]
  omega

/-- At the run around a column, a name touches the column if it does not begin behind it. -/
theorem Stretch.touches_behindDigits (h : r.touches column = true) :
    r.behindDigits.touches column = decide ((r.behindDigits.start : Int) ≤ column) := by
  rw [Stretch.touches, Bool.and_eq_true, decide_eq_true_eq, decide_eq_true_eq] at h
  rw [Stretch.touches, Stretch.stop_behindDigits, decide_eq_true h.2, Bool.and_true]

/-! ### What the scan finds in a part of a text -/

theorem isIdentStart_of_isAsciiDigit {c : Char} (h : isAsciiDigit c = true) :
    isIdentStart c = false := by
  by_contra hStart
  simp only [isIdentStart, isAsciiLetter, isAsciiDigit, Bool.not_eq_false, Bool.or_eq_true,
    Bool.and_eq_true, decide_eq_true_eq, beq_iff_eq] at h hStart
  rcases hStart with (⟨hFirst, -⟩ | ⟨hFirst, -⟩) | rfl
  · exact absurd (Char.le_trans hFirst h.2) (by decide)
  · exact absurd (Char.le_trans hFirst h.2) (by decide)
  · exact absurd h.2 (by decide)

/-- What belongs to the last identifier is passed. -/
theorem identifiersFrom_passed (i : Nat) (front rest : Text) :
    identifiersFrom i front.length (front ++ rest) =
      identifiersFrom (i + front.length) 0 rest := by
  induction front generalizing i with
  | nil => rfl
  | cons c front ih =>
      rw [List.cons_append, List.length_cons, identifiersFrom, ih, Nat.add_right_comm,
        Nat.add_assoc]

theorem identifiersFrom_of_not_start (i : Nat) (hFront : ∀ c ∈ front, isIdentStart c = false)
    (rest : Text) :
    identifiersFrom i 0 (front ++ rest) = identifiersFrom (i + front.length) 0 rest := by
  induction front generalizing i with
  | nil => rfl
  | cons c front ih =>
      rw [List.forall_mem_cons] at hFront
      rw [List.cons_append, List.length_cons, identifiersFrom, hFront.1,
        if_neg Bool.false_ne_true, ih _ hFront.2, Nat.add_right_comm, Nat.add_assoc]

/-- In a whole run the scan passes the digits and takes all that is behind them. -/
theorem identifiersFrom_run (i : Nat) (hWord : ∀ c ∈ word, isIdentChar c = true)
    (hStop : rest.head?.any isIdentChar = false) :
    identifiersFrom i 0 (word ++ rest) =
      identifiersIn ⟨i, word⟩ ++ identifiersFrom (i + word.length) 0 rest := by
  have hText : word.takeWhile isAsciiDigit ++ word.dropWhile isAsciiDigit = word :=
    List.takeWhile_append_dropWhile
  have hDigits : ∀ c ∈ word.takeWhile isAsciiDigit, isIdentStart c = false := fun c hc =>
    isIdentStart_of_isAsciiDigit (List.mem_takeWhile_imp hc)
  have hLength := congrArg List.length hText
  rw [List.length_append] at hLength
  conv_lhs => rw [← hText, List.append_assoc, identifiersFrom_of_not_start i hDigits]
  rw [identifiersIn, Stretch.behindDigits]
  cases hName : word.dropWhile isAsciiDigit with
  | nil =>
      rw [hName, List.length_nil, Nat.add_zero] at hLength
      rw [if_pos rfl, List.nil_append, List.nil_append, hLength]
  | cons c name =>
      have hHead := any_head?_dropWhile isAsciiDigit word
      rw [hName, List.head?_cons, Option.any_some] at hHead
      have hChars : ∀ d ∈ c :: name, isIdentChar d = true := fun d hd =>
        hWord d (hText ▸ List.mem_append_right _ (hName ▸ hd))
      rw [List.forall_mem_cons, isIdentChar, hHead, Bool.or_false] at hChars
      rw [hName, List.length_cons] at hLength
      rw [if_neg (List.cons_ne_nil _ _), List.cons_append, identifiersFrom, if_pos hChars.1,
        takeWhile_run hChars.2 hStop]
      dsimp only
      rw [identifiersFrom_passed, List.singleton_append, ← hLength]
      congr 2
      omega

theorem takeWhile_append_of_stop {p : Char → Bool} (hSome : front ≠ [])
    (hStop : front.getLast?.any p = false) (rest : Text) :
    (front ++ rest).takeWhile p = front.takeWhile p := by
  rw [List.takeWhile_append, if_neg]
  intro hWhole
  have hAll : front.takeWhile p = front :=
    (List.takeWhile_prefix p).eq_of_length hWhole
  have hLast := any_getLast?_or (fun c hc => List.mem_takeWhile_imp (hAll.symm ▸ hc)) hSome none
  rw [Option.or_none, hStop] at hLast
  cases hLast

/-- The scan starts anew behind a character that belongs to no identifier. -/
theorem identifiersFrom_append (hTaken : taken ≤ left.length)
    (hStop : left.getLast?.any isIdentChar = false) (rest : Text) :
    identifiersFrom i taken (left ++ rest) =
      identifiersFrom i taken left ++ identifiersFrom (i + left.length) 0 rest := by
  induction left generalizing i taken with
  | nil =>
      obtain rfl := Nat.le_zero.mp hTaken
      rfl
  | cons c left ih =>
      have hLater : left.getLast?.any isIdentChar = false := by
        cases left with
        | nil => rfl
        | cons d left => rwa [List.getLast?_cons_cons] at hStop
      have hNext (taken : Nat) (h : taken ≤ left.length) :
          identifiersFrom (i + 1) taken (left ++ rest) =
            identifiersFrom (i + 1) taken left ++
              identifiersFrom (i + (c :: left).length) 0 rest := by
        rw [ih h hLater, List.length_cons, Nat.add_right_comm, Nat.add_assoc]
      cases taken with
      | succ taken => exact hNext taken (Nat.le_of_succ_le_succ hTaken)
      | zero =>
          by_cases hStart : isIdentStart c = true
          · have hSome : left ≠ [] := by
              rintro rfl
              rw [List.getLast?_singleton, Option.any_some, isIdentChar, hStart] at hStop
              cases hStop
            simp only [List.cons_append, identifiersFrom, if_pos hStart,
              takeWhile_append_of_stop hSome hLater]
            rw [hNext _ (List.takeWhile_prefix _).length_le]
          · simp only [List.cons_append, identifiersFrom, if_neg hStart]
            exact hNext 0 (Nat.zero_le _)

/-- Identifiers are inside of the text, and one at its end ends in a character of identifiers. -/
theorem bounds_of_mem_identifiersFrom (h : s ∈ identifiersFrom i taken t) :
    i ≤ s.start ∧ s.stop ≤ i + t.length ∧
      (s.stop = i + t.length → t.getLast?.any isIdentChar = true) := by
  have hLater {i : Nat} {c : Char} {t : Text}
      (h : i + 1 ≤ s.start ∧ s.stop ≤ i + 1 + t.length ∧
        (s.stop = i + 1 + t.length → t.getLast?.any isIdentChar = true)) :
      i ≤ s.start ∧ s.stop ≤ i + (c :: t).length ∧
        (s.stop = i + (c :: t).length → (c :: t).getLast?.any isIdentChar = true) := by
    obtain ⟨hFirst, hLast, hEnd⟩ := h
    rw [List.length_cons]
    refine ⟨by omega, by omega, fun hStop => ?_⟩
    have hEnds := hEnd (by omega)
    cases t with
    | nil => cases hEnds
    | cons d t => rwa [List.getLast?_cons_cons]
  fun_induction identifiersFrom i taken t with
  | case1 => cases h
  | case2 i taken c t ih => exact hLater (ih h)
  | case3 i c t hStart tail ih =>
      rcases List.mem_cons.mp h with rfl | h
      · have hTail : tail.length ≤ t.length := (List.takeWhile_prefix _).length_le
        simp only [Stretch.stop, List.length_cons]
        refine ⟨Nat.le_refl i, by omega, fun hStop => ?_⟩
        have hSame : tail.length = t.length := by omega
        have hWhole : tail = t := (List.takeWhile_prefix _).eq_of_length hSame
        have hChars : ∀ d ∈ c :: t, isIdentChar d = true := by
          rw [List.forall_mem_cons, isIdentChar, hStart]
          exact ⟨rfl, fun d hd => List.mem_takeWhile_imp (hWhole.symm ▸ hd)⟩
        have hLast := any_getLast?_or hChars (List.cons_ne_nil _ _) none
        rwa [Option.or_none] at hLast
      · exact hLater (ih h)
  | case4 i c t hStart ih => exact hLater (ih h)

/-- Behind a character that belongs to no identifier, the next one begins later. -/
theorem lt_start_of_mem_identifiersFrom (hRight : right.head?.any isIdentChar = false)
    (h : s ∈ identifiersFrom i 0 right) : i < s.start := by
  cases right with
  | nil => cases h
  | cons c right =>
      rw [List.head?_cons, Option.any_some, isIdentChar, Bool.or_eq_false_iff] at hRight
      rw [identifiersFrom, hRight.1, if_neg Bool.false_ne_true] at h
      exact (bounds_of_mem_identifiersFrom h).1

/-! ### What touches a column -/

theorem filter_touches_of_outside (h : column < 0 ∨ t.length < column) :
    (identifiers t).filter (·.touches column) = [] := by
  rw [List.filter_eq_nil_iff]
  intro s hs
  obtain ⟨-, hLast, -⟩ := bounds_of_mem_identifiersFrom hs
  simp only [Stretch.touches, Bool.and_eq_true, decide_eq_true_eq]
  omega

/-- Of all identifiers, those in the run around a column are the only ones that can touch it. -/
theorem filter_touches_eq {n : Nat} (hn : n ≤ t.length) :
    (identifiers t).filter (·.touches n) =
      (identifiersIn (runAround t n)).filter (·.touches n) := by
  obtain ⟨left, right, hText, hStart, hWord, hLeft, hRight⟩ := runAround_split t hn
  obtain ⟨hFirst, hLast⟩ := runAround_touches t n
  have hRun : (⟨left.length, (runAround t n).word⟩ : Stretch) = runAround t n := by rw [← hStart]
  rw [Stretch.stop, hStart] at hLast
  rw [hStart] at hFirst
  have hBefore : (identifiersFrom 0 0 left).filter (·.touches n) = [] := by
    rw [List.filter_eq_nil_iff]
    intro s hs
    obtain ⟨-, hInside, hEnd⟩ := bounds_of_mem_identifiersFrom hs
    have hApart : s.stop ≠ 0 + left.length := fun hStop => by
      rw [hEnd hStop] at hLeft
      cases hLeft
    simp only [Stretch.touches, Bool.and_eq_true, decide_eq_true_eq]
    omega
  have hBehind : (identifiersFrom (0 + left.length + (runAround t n).word.length) 0 right).filter
      (·.touches n) = [] := by
    rw [List.filter_eq_nil_iff]
    intro s hs
    have hApart := lt_start_of_mem_identifiersFrom hRight hs
    simp only [Stretch.touches, Bool.and_eq_true, decide_eq_true_eq]
    omega
  have hFound : identifiers t = identifiersFrom 0 0 left ++ (identifiersIn (runAround t n) ++
      identifiersFrom (0 + left.length + (runAround t n).word.length) 0 right) := by
    conv_lhs => rw [hText, identifiers, identifiersFrom_append (Nat.zero_le _) hLeft,
      identifiersFrom_run _ hWord hRight, Nat.zero_add, hRun]
    rw [Nat.zero_add]
  rw [hFound, List.filter_append, List.filter_append, hBefore, hBehind, List.nil_append,
    List.append_nil]

theorem runAt?_eq_some_iff :
    runAt? t column = some r ↔ IsRun t r ∧ r.touches column = true := by
  rw [Stretch.touches, Bool.and_eq_true, decide_eq_true_eq, decide_eq_true_eq, runAt?]
  constructor
  · intro h
    split_ifs at h with hInside
    obtain ⟨hFirst, hLast, hSome⟩ := hInside
    obtain ⟨n, rfl⟩ := Int.eq_ofNat_of_zero_le hFirst
    obtain rfl := Option.some.inj h
    rw [Int.toNat_natCast] at hSome ⊢
    have hTouches := runAround_touches t n
    exact ⟨isRun_runAround (by omega) hSome, by omega, by omega⟩
  · rintro ⟨hRun, hFirst, hLast⟩
    obtain ⟨n, rfl⟩ := Int.eq_ofNat_of_zero_le (Int.le_trans (Int.natCast_nonneg _) hFirst)
    have hAround := hRun.eq_runAround (Int.ofNat_le.mp hFirst) (Int.ofNat_le.mp hLast)
    obtain ⟨left, right, hText, hStart, hSome, -, -, -⟩ := hRun
    have hLength := congrArg List.length hText
    rw [List.length_append, List.length_append] at hLength
    rw [Stretch.stop] at hLast
    rw [Int.toNat_natCast, ← hAround, if_pos ⟨by omega, by omega, hSome⟩]

/-- Of all identifiers, those in the run that touches a column are the only ones to touch it. -/
theorem filter_touches_eq_runAt? (t : Text) (column : Int) :
    (identifiers t).filter (·.touches column) =
      ((runAt? t column).toList.flatMap identifiersIn).filter (·.touches column) := by
  by_cases hInside : 0 ≤ column ∧ column ≤ t.length
  · obtain ⟨n, rfl⟩ := Int.eq_ofNat_of_zero_le hInside.1
    rw [filter_touches_eq (Int.ofNat_le.mp hInside.2), runAt?, Int.toNat_natCast]
    by_cases hSome : (runAround t n).word = []
    · rw [if_neg (by simp [hSome]), identifiersIn, Stretch.behindDigits, hSome]
      rfl
    · rw [if_pos ⟨hInside.1, hInside.2, hSome⟩]
      simp
  · rw [filter_touches_of_outside (by omega), runAt?, if_neg fun h => hInside ⟨h.1, h.2.1⟩]
    rfl

/-- At every column at most one identifier is found by the scan of the whole text. The run that
touches the column is the only one to look at: what is left of it without the digits in front is
the identifier, unless nothing is left or it begins behind the column. -/
theorem identifierAt?_eq_nameAround? (t : Text) (column : Int) :
    ((identifiers t).filter fun s => s.start ≤ column && column ≤ s.stop).length ≤ 1 ∧
    (∀ r, runAt? t column = some r ↔ IsRun t r ∧ r.start ≤ column ∧ column ≤ r.stop) ∧
    identifierAt? t column = nameAround? t column := by
  have hFilter := filter_touches_eq_runAt? t column
  have hAt : identifierAt? t column =
      ((identifiers t).filter (·.touches column)).head?.map (·.word) := by
    rw [List.head?_filter]
    rfl
  refine ⟨?_, fun r => ?_, ?_⟩
  · change ((identifiers t).filter (·.touches column)).length ≤ 1
    rw [hFilter]
    refine Nat.le_trans (List.length_filter_le _ _) ?_
    cases runAt? t column with
    | none => exact Nat.zero_le 1
    | some r =>
        rw [Option.toList_some, List.flatMap_singleton, identifiersIn]
        split_ifs <;> simp
  · rw [runAt?_eq_some_iff, Stretch.touches, Bool.and_eq_true, decide_eq_true_eq,
      decide_eq_true_eq]
  · rw [hAt, hFilter, nameAround?]
    cases hRun : runAt? t column with
    | none => rfl
    | some r =>
        have hTouches := Stretch.touches_behindDigits (runAt?_eq_some_iff.mp hRun).2
        rw [Option.toList_some, List.flatMap_singleton, Option.bind_some, identifiersIn]
        by_cases hName : r.behindDigits.word = []
        · simp [hName]
        · by_cases hStart : (r.behindDigits.start : Int) ≤ column <;>
            simp [hName, hTouches, hStart]

example : identifierAt? "12ab é3 c".toList 4 = some "ab".toList ∧
    nameAround? "12ab é3 c".toList 4 = some "ab".toList ∧
    nameAround? "12ab é3 c".toList 1 = none ∧ nameAround? "12ab é3 c".toList 7 = none := by
  decide +kernel

end ScriptEditor.Text
