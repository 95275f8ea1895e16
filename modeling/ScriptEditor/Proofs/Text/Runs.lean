import Mathlib.Data.List.DropRight
import Mathlib.Tactic.Common
import ScriptEditor.Text.Identifier

/-! Runs of characters of identifiers. A run is as long as it can be, so at most one of them
touches a place, and it is found by looking to both sides of that place only. -/
namespace ScriptEditor.Text

variable {p : Char → Bool} {t front back rest left right : Text} {n : Nat} {r : Stretch}

/-! ### Classes of characters -/

theorem any_head?_append (hFront : ∀ c ∈ front, p c = true) (hSome : front ≠ []) (rest : Text) :
    (front ++ rest).head?.any p = true := by
  obtain ⟨c, front, rfl⟩ := List.exists_cons_of_ne_nil hSome
  exact hFront c List.mem_cons_self

theorem any_getLast?_or (hFront : ∀ c ∈ front, p c = true) (hSome : front ≠ [])
    (before : Option Char) : (front.getLast?.or before).any p = true := by
  rw [List.getLast?_eq_some_getLast hSome]
  exact hFront _ (List.getLast_mem hSome)

theorem any_head?_apart {q : Char → Bool} (hApart : ∀ c, p c = true → q c = false)
    (h : t.head?.any p = true) : t.head?.any q = false := by
  obtain ⟨c, hHead, hc⟩ := (Option.any_eq_true ..).mp h
  rw [hHead]
  exact hApart c hc

/-- A run of characters of a class goes up to where it stops. -/
theorem takeWhile_run (hFront : ∀ c ∈ front, p c = true) (hStop : rest.head?.any p = false) :
    (front ++ rest).takeWhile p = front := by
  have hRest : rest.takeWhile p = [] := by
    cases rest with
    | nil => rfl
    | cons c rest => exact List.takeWhile_cons_of_neg (by simpa using hStop)
  rw [List.takeWhile_append_of_pos hFront, hRest, List.append_nil]

theorem dropWhile_run (hFront : ∀ c ∈ front, p c = true) (hStop : rest.head?.any p = false) :
    (front ++ rest).dropWhile p = rest := by
  have hText : (front ++ rest).takeWhile p ++ (front ++ rest).dropWhile p = front ++ rest :=
    List.takeWhile_append_dropWhile
  rw [takeWhile_run hFront hStop] at hText
  exact List.append_cancel_left hText

/-- A run of characters of a class goes back to where it stops. -/
theorem rtakeWhile_run (hBack : ∀ c ∈ back, p c = true) (hStop : front.getLast?.any p = false) :
    (front ++ back).rtakeWhile p = back := by
  have hRun : (back.reverse ++ front.reverse).takeWhile p = back.reverse :=
    takeWhile_run (fun c hc => hBack c (List.mem_reverse.mp hc)) (by rwa [List.head?_reverse])
  rw [List.rtakeWhile, List.reverse_append, hRun, List.reverse_reverse]

theorem any_head?_of_takeWhile (h : (t.takeWhile p).length ≠ 0) : t.head?.any p = true := by
  cases t with
  | nil => exact absurd rfl h
  | cons c t =>
      by_contra hHead
      have hOther : ¬ p c = true := hHead
      exact h (congrArg List.length (List.takeWhile_cons_of_neg hOther))

theorem any_head?_dropWhile (p : Char → Bool) (t : Text) : (t.dropWhile p).head?.any p = false := by
  cases hRest : t.dropWhile p with
  | nil => rfl
  | cons c rest =>
      have hHead := List.head?_dropWhile_not p t
      rw [hRest] at hHead
      simpa using hHead

theorem any_getLast?_rdropWhile (p : Char → Bool) (t : Text) :
    (t.rdropWhile p).getLast?.any p = false := by
  rw [List.rdropWhile, List.getLast?_reverse]
  exact any_head?_dropWhile p t.reverse

/-! ### Runs -/

/-- A stretch of a text that is a run of characters of identifiers and cannot be made longer. -/
def IsRun (t : Text) (r : Stretch) : Prop :=
  ∃ left right, t = left ++ (r.word ++ right) ∧ r.start = left.length ∧ r.word ≠ [] ∧
    (∀ c ∈ r.word, isIdentChar c = true) ∧
    left.getLast?.any isIdentChar = false ∧ right.head?.any isIdentChar = false

/-- The characters of identifiers on both sides of a place. -/
def runAround (t : Text) (n : Nat) : Stretch :=
  let before := (t.take n).rtakeWhile isIdentChar
  ⟨n - before.length, before ++ (t.drop n).takeWhile isIdentChar⟩

/-- A run is found from every place that it touches. -/
theorem IsRun.eq_runAround (h : IsRun t r) (hFirst : r.start ≤ n) (hLast : n ≤ r.stop) :
    r = runAround t n := by
  obtain ⟨start, word⟩ := r
  obtain ⟨left, right, rfl, rfl, -, hWord, hLeft, hRight⟩ := h
  obtain ⟨k, rfl⟩ := Nat.exists_eq_add_of_le hFirst
  have hk : k ≤ word.length := Nat.le_of_add_le_add_left hLast
  have hTake : (left ++ (word ++ right)).take (left.length + k) = left ++ word.take k := by
    rw [List.take_length_add_append, List.take_append_of_le_length hk]
  have hDrop : (left ++ (word ++ right)).drop (left.length + k) = word.drop k ++ right := by
    rw [List.drop_length_add_append, List.drop_append_of_le_length hk]
  have hBefore : (left ++ word.take k).rtakeWhile isIdentChar = word.take k :=
    rtakeWhile_run (fun c hc => hWord c (List.mem_of_mem_take hc)) hLeft
  have hBehind : (word.drop k ++ right).takeWhile isIdentChar = word.drop k :=
    takeWhile_run (fun c hc => hWord c (List.mem_of_mem_drop hc)) hRight
  rw [runAround, hTake, hDrop, hBefore, hBehind, List.take_append_drop, List.length_take,
    Nat.min_eq_left hk, Nat.add_sub_cancel]

/-- At most one run touches a place. -/
theorem IsRun.unique {other : Stretch} (h : IsRun t r) (hOther : IsRun t other)
    (hFirst : r.start ≤ n) (hLast : n ≤ r.stop) (hOtherFirst : other.start ≤ n)
    (hOtherLast : n ≤ other.stop) : r = other := by
  rw [h.eq_runAround hFirst hLast, hOther.eq_runAround hOtherFirst hOtherLast]

theorem length_before_le (t : Text) (n : Nat) :
    ((t.take n).rtakeWhile isIdentChar).length ≤ n :=
  Nat.le_trans (List.rtakeWhile_suffix isIdentChar _).length_le (List.length_take_le n t)

theorem runAround_touches (t : Text) (n : Nat) :
    (runAround t n).start ≤ n ∧ n ≤ (runAround t n).stop := by
  have hBefore := length_before_le t n
  rw [runAround, Stretch.stop]
  dsimp only
  rw [List.length_append]
  omega

/-- What is around a place in a text, with the text on both sides of it. -/
theorem runAround_split (t : Text) (hn : n ≤ t.length) :
    ∃ left right, t = left ++ ((runAround t n).word ++ right) ∧
      (runAround t n).start = left.length ∧
      (∀ c ∈ (runAround t n).word, isIdentChar c = true) ∧
      left.getLast?.any isIdentChar = false ∧ right.head?.any isIdentChar = false := by
  refine ⟨(t.take n).rdropWhile isIdentChar, (t.drop n).dropWhile isIdentChar, ?_, ?_, ?_,
    any_getLast?_rdropWhile _ _, any_head?_dropWhile _ _⟩
  · rw [runAround, List.append_assoc, List.takeWhile_append_dropWhile, ← List.append_assoc,
      List.rdropWhile_append_rtakeWhile, List.take_append_drop]
  · have hWhole : (t.take n).rdropWhile isIdentChar ++ (t.take n).rtakeWhile isIdentChar = t.take n :=
      List.rdropWhile_append_rtakeWhile
    have hLength := congrArg List.length hWhole
    rw [List.length_append, List.length_take, Nat.min_eq_left hn] at hLength
    rw [runAround]
    dsimp only
    omega
  · intro c hc
    rcases List.mem_append.mp hc with hBefore | hBehind
    · exact List.mem_rtakeWhile_imp hBefore
    · exact List.mem_takeWhile_imp hBehind

theorem isRun_runAround (hn : n ≤ t.length) (hSome : (runAround t n).word ≠ []) :
    IsRun t (runAround t n) := by
  obtain ⟨left, right, hText, hStart, hWord, hLeft, hRight⟩ := runAround_split t hn
  exact ⟨left, right, hText, hStart, hSome, hWord, hLeft, hRight⟩

/-- A run begins where a character of identifiers is behind one that is not. -/
theorem isRun_starting (hLeft : left.getLast?.any isIdentChar = false)
    (hRight : right.head?.any isIdentChar = true) :
    IsRun (left ++ right) ⟨left.length, right.takeWhile isIdentChar⟩ := by
  refine ⟨left, right.dropWhile isIdentChar, ?_, rfl, ?_, fun c hc => List.mem_takeWhile_imp hc,
    hLeft, any_head?_dropWhile _ _⟩
  · rw [List.takeWhile_append_dropWhile]
  · cases right with
    | nil => cases hRight
    | cons c right =>
        have hHead : isIdentChar c = true := hRight
        simp [hHead]

/-- A run ends where a character of identifiers is before one that is not. -/
theorem isRun_ending (hLeft : left.getLast?.any isIdentChar = true)
    (hRight : right.head?.any isIdentChar = false) :
    ∃ r, IsRun (left ++ right) r ∧ r.stop = left.length := by
  have hWhole : left.rdropWhile isIdentChar ++ left.rtakeWhile isIdentChar = left :=
    List.rdropWhile_append_rtakeWhile
  have hBefore : left.rtakeWhile isIdentChar ≠ [] := by
    intro hNil
    rw [hNil, List.append_nil] at hWhole
    have hLast := any_getLast?_rdropWhile isIdentChar left
    rw [hWhole, hLeft] at hLast
    cases hLast
  refine ⟨⟨(left.rdropWhile isIdentChar).length, left.rtakeWhile isIdentChar⟩,
    ⟨left.rdropWhile isIdentChar, right, ?_, rfl, hBefore, fun c hc => List.mem_rtakeWhile_imp hc,
      any_getLast?_rdropWhile _ _, hRight⟩, ?_⟩
  · rw [← List.append_assoc, hWhole]
  · rw [Stretch.stop, ← List.length_append, hWhole]

end ScriptEditor.Text
