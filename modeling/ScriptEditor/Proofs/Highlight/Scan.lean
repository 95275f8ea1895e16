import Mathlib.Data.List.Basic
import Mathlib.Tactic.Common
import ScriptEditor.Highlight.Recogniser

/-! What a scan finds. The recogniser is asked at every place that does not belong to what it
found last, so each stretch comes from a place at which it reads something. -/
namespace ScriptEditor.Highlight

/-- One of the stretches holds the character at an index. -/
def Covers (found : List Span) (i : Nat) : Prop :=
  ∃ s ∈ found, s.start ≤ i ∧ i < s.start + s.length

instance (found : List Span) (i : Nat) : Decidable (Covers found i) :=
  inferInstanceAs (Decidable (∃ s ∈ found, s.start ≤ i ∧ i < s.start + s.length))

theorem not_covers_nil (i : Nat) : ¬ Covers [] i :=
  nofun

theorem covers_singleton {s : Span} {i : Nat} :
    Covers [s] i ↔ s.start ≤ i ∧ i < s.start + s.length := by
  simp [Covers]

theorem covers_append {found more : List Span} {i : Nat} :
    Covers (found ++ more) i ↔ Covers found i ∨ Covers more i := by
  simp only [Covers, List.mem_append, or_and_right, exists_or]

variable {r : Recogniser} {before : Option Char} {front rest t : Text} {i skip : Nat}

theorem getLast?_cons_or (c : Char) (front : Text) (before : Option Char) :
    (c :: front).getLast?.or before = front.getLast?.or (some c) := by
  rw [List.getLast?_cons]
  cases front.getLast? <;> rfl

/-- What belongs to the last find is passed. -/
theorem spansFrom_passed (r : Recogniser) (i : Nat) (before : Option Char) (front rest : Text) :
    spansFrom r i front.length before (front ++ rest) =
      spansFrom r (i + front.length) 0 (front.getLast?.or before) rest := by
  induction front generalizing i before with
  | nil => rfl
  | cons c front ih =>
      rw [List.cons_append, List.length_cons, spansFrom, ih, getLast?_cons_or]
      congr 1
      omega

/-- Places at which nothing is read are passed. -/
theorem spansFrom_of_none
    (hNone : ∀ left c right, front = left ++ c :: right →
      r (left.getLast?.or before) (c :: right ++ rest) = none) :
    spansFrom r i 0 before (front ++ rest) =
      spansFrom r (i + front.length) 0 (front.getLast?.or before) rest := by
  induction front generalizing i before with
  | nil => rfl
  | cons c front ih =>
      have hHere : r before (c :: (front ++ rest)) = none := hNone [] c front rfl
      rw [List.cons_append, spansFrom, hHere, getLast?_cons_or, List.length_cons]
      dsimp only
      rw [ih, Nat.add_right_comm, Nat.add_assoc]
      intro left d right hFront
      have hLater := hNone (c :: left) d right (by rw [hFront, List.cons_append])
      rwa [getLast?_cons_or] at hLater

theorem mem_spansFrom_here {hit : Hit} (hSome : t ≠ []) (h : r before t = some hit) :
    ⟨i + hit.passed, hit.coloured⟩ ∈ spansFrom r i 0 before t := by
  obtain ⟨c, t, rfl⟩ := List.exists_cons_of_ne_nil hSome
  rw [spansFrom, h]
  exact List.mem_cons_self

/-- A stretch that is read at one of the places of a text whose first character has an
index. -/
def ReadIn (r : Recogniser) (i : Nat) (before : Option Char) (t : Text) (s : Span) : Prop :=
  ∃ left right hit, t = left ++ right ∧ r (left.getLast?.or before) right = some hit ∧
    s = ⟨i + left.length + hit.passed, hit.coloured⟩

theorem ReadIn.cons {c : Char} {s : Span} (h : ReadIn r (i + 1) (some c) t s) :
    ReadIn r i before (c :: t) s := by
  obtain ⟨left, right, hit, rfl, hHit, rfl⟩ := h
  refine ⟨c :: left, right, hit, rfl, by rwa [getLast?_cons_or], ?_⟩
  rw [List.length_cons, Nat.add_right_comm i, Nat.add_assoc i]

theorem readIn_of_mem_spansFrom {s : Span} (h : s ∈ spansFrom r i skip before t) :
    ReadIn r i before t s := by
  fun_induction spansFrom r i skip before t with
  | case1 => cases h
  | case2 i skip before c t ih => exact (ih h).cons
  | case3 i before c t hNone ih => exact (ih h).cons
  | case4 i before c t hit hHit ih =>
      rcases List.mem_cons.mp h with rfl | hLater
      · exact ⟨[], c :: t, hit, rfl, hHit, rfl⟩
      · exact (ih hLater).cons

theorem readIn_of_mem_spans {s : Span} (h : s ∈ spans r t) : ReadIn r 0 none t s :=
  readIn_of_mem_spansFrom h

theorem le_of_covers_spansFrom {k : Nat} (h : Covers (spansFrom r i skip before t) k) : i ≤ k := by
  obtain ⟨s, hs, hStart, -⟩ := h
  obtain ⟨left, right, hit, -, -, rfl⟩ := readIn_of_mem_spansFrom hs
  dsimp only at hStart
  omega

end ScriptEditor.Highlight
