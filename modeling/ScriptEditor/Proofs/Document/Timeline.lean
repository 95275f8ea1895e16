import Mathlib.Tactic.Common
import ScriptEditor.Document.History

/-! The states of a document in the order in which they came about. Undoing and redoing
only change the place on this line of states, and a new step takes the place of what could
be redone. A document that counts as unmodified is therefore in the state that was saved,
as long as no command was broken off. -/
namespace ScriptEditor.Document.History

variable {σ τ : Type} {h before after : History σ} {present state next : σ}

/-- The states before the present one, the present one, and those that can be redone, in
the order in which they came about. The number of steps in the past is the place of the
present state. -/
def timeline (h : History σ) (present : σ) : List σ :=
  (h.past.map (·.state)).reverse ++ present :: h.future.map (·.state)

@[simp] theorem getElem?_timeline_present (h : History σ) (present : σ) :
    (h.timeline present)[h.past.length]? = some present := by
  simp [timeline]

theorem length_past_lt_timeline (h : History σ) (present : σ) :
    h.past.length < (h.timeline present).length := by
  simp [timeline]

/-- The states of the past come first, whatever the present state is. -/
theorem getElem?_timeline_of_lt {i : Nat} (hi : i < h.past.length) (present : σ) :
    (h.timeline present)[i]? = (h.past.map (·.state)).reverse[i]? :=
  List.getElem?_append_left (by simpa using hi)

theorem getElem?_timeline_of_le {i : Nat} (hi : i ≤ h.past.length) (present : σ) :
    (h.timeline present)[i]? = (present :: h.past.map (·.state)).reverse[i]? := by
  rw [timeline, List.append_cons, ← List.reverse_cons]
  exact List.getElem?_append_left (by simpa using Nat.lt_succ_of_le hi)

theorem timeline_map (h : History σ) (f : σ → τ) {other : σ} (hSame : f other = f present) :
    (h.timeline other).map f = (h.timeline present).map f := by
  simp [timeline, hSame]

theorem mem_timeline {present : σ} :
    state ∈ h.timeline present ↔
      state ∈ h.past.map (·.state) ∨ state = present ∨ state ∈ h.future.map (·.state) := by
  simp only [timeline, List.mem_append, List.mem_reverse, List.mem_cons]

theorem mem_timeline_of_other {other : σ} (hState : state ∈ h.timeline other) :
    state = other ∨ state ∈ h.timeline present := by
  rw [mem_timeline] at hState ⊢
  rcases hState with hPast | hOther | hFuture
  · exact Or.inr (Or.inl hPast)
  · exact Or.inl hOther
  · exact Or.inr (Or.inr (Or.inr hFuture))

/-! ### Undoing and redoing -/

theorem undo?_eq_none_iff : h.undo? present = none ↔ h.past.length = 0 := by
  unfold undo?
  cases h.past <;> simp

theorem redo?_eq_none_iff :
    h.redo? present = none ↔ h.past.length + 1 = (h.timeline present).length := by
  unfold redo?
  cases hFuture : h.future <;> simp [timeline, hFuture]

/-- Undoing takes the present state back by one place. -/
theorem undo?_spec (hUndo : h.undo? present = some (state, before)) :
    before.timeline state = h.timeline present ∧ before.past.length + 1 = h.past.length ∧
      before.saved = h.saved ∧ before.frozen = h.frozen := by
  unfold undo? at hUndo
  cases hPast : h.past with
  | nil => simp [hPast] at hUndo
  | cons s rest =>
      rw [hPast] at hUndo
      cases hUndo
      simp [timeline, hPast]

/-- Redoing takes the present state forward by one place. -/
theorem redo?_spec (hRedo : h.redo? present = some (state, after)) :
    after.timeline state = h.timeline present ∧ after.past.length = h.past.length + 1 ∧
      after.saved = h.saved ∧ after.frozen = h.frozen := by
  unfold redo? at hRedo
  cases hFuture : h.future with
  | nil => simp [hFuture] at hRedo
  | cons s rest =>
      rw [hFuture] at hRedo
      cases hRedo
      simp [timeline, hFuture]

/-! ### New steps -/

theorem record_eq (hFrozen : h.frozen = none) (state : σ) (tail : Option Stroke) :
    h.record state tail = h.withPast (⟨state, tail, false⟩ :: h.past) := by
  simp [record, hFrozen]

@[simp] theorem frozen_record (h : History σ) (state : σ) (tail : Option Stroke) :
    (h.record state tail).frozen = h.frozen := by
  unfold record
  split
  · split
    · split <;> rfl
    · rfl
  · rfl

@[simp] theorem frozen_recordStroke (h : History σ) (state : σ) (stroke : Stroke) :
    (h.recordStroke state stroke).frozen = h.frozen := by
  unfold recordStroke
  split
  · rfl
  · exact frozen_record h state _

theorem length_past_record (hFrozen : h.frozen = none) (state : σ) (tail : Option Stroke) :
    (h.record state tail).past.length = h.past.length + 1 := by
  rw [record_eq hFrozen]
  rfl

/-- A new step leaves the states up to the one that it begins with. -/
theorem getElem?_timeline_record (hFrozen : h.frozen = none) (tail : Option Stroke) {i : Nat}
    (hi : i ≤ h.past.length) :
    ((h.record present tail).timeline next)[i]? = (h.timeline present)[i]? := by
  have hRecorded : i < (h.record present tail).past.length := by
    rw [length_past_record hFrozen]
    omega
  rw [getElem?_timeline_of_lt hRecorded, getElem?_timeline_of_le hi, record_eq hFrozen]
  rfl

/-- A stroke that goes on from a step takes the place of the present state, which is not
the saved one. -/
theorem extend?_spec {stroke : Stroke} {s : Step σ} {rest : List (Step σ)}
    (hExtend : h.extend? stroke = some (s, rest)) :
    h.frozen = none ∧ h.saved ≠ some h.past.length ∧
      (s :: rest).map (·.state) = h.past.map (·.state) := by
  unfold extend? at hExtend
  cases hPast : h.past with
  | nil => simp [hPast] at hExtend
  | cons first others =>
      simp only [hPast] at hExtend
      split_ifs at hExtend with hOpen
      obtain ⟨tail, -, hStep⟩ := Option.map_eq_some_iff.mp hExtend
      cases hStep
      rw [Bool.and_eq_true, Option.isNone_iff_eq_none] at hOpen
      obtain ⟨hModified, hFrozen⟩ := hOpen
      refine ⟨hFrozen, ?_, by simp⟩
      simpa [isModified, hFrozen, hPast] using hModified

/-- A recorded step adds at most the state that it begins with, and nothing can be redone. -/
theorem record_states (h : History σ) (state : σ) (tail : Option Stroke) :
    (h.record state tail).future = [] ∧
      ∀ s ∈ (h.record state tail).past.map (·.state), s = state ∨ s ∈ h.past.map (·.state) := by
  unfold record
  split
  · split
    · rename_i first rest hPast
      split
      · exact ⟨rfl, fun s hs => Or.inr (hPast ▸ hs)⟩
      · refine ⟨rfl, fun s hs => ?_⟩
        rw [hPast]
        exact List.mem_cons.mp hs
    · rename_i hPast
      refine ⟨rfl, fun s hs => ?_⟩
      rw [hPast]
      exact List.mem_cons.mp hs
  · exact ⟨rfl, fun s hs => List.mem_cons.mp hs⟩

theorem recordStroke_states (h : History σ) (state : σ) (stroke : Stroke) :
    (h.recordStroke state stroke).future = [] ∧
      ∀ s ∈ (h.recordStroke state stroke).past.map (·.state),
        s = state ∨ s ∈ h.past.map (·.state) := by
  unfold recordStroke
  split
  · rename_i first rest hExtend
    refine ⟨rfl, fun s hs => Or.inr ?_⟩
    rw [← (extend?_spec hExtend).2.2]
    exact hs
  · exact record_states h state _

/-- After a new step, each state is the new one or was there before. -/
theorem mem_timeline_of_states {past : σ}
    (hStates : after.future = [] ∧
      ∀ s ∈ after.past.map (·.state), s = past ∨ s ∈ h.past.map (·.state))
    (hState : state ∈ after.timeline next) : state = next ∨ state ∈ h.timeline past := by
  rw [mem_timeline, hStates.1] at hState
  rcases hState with hPast | hNext | hFuture
  · rcases hStates.2 state hPast with rfl | hOld
    · exact Or.inr (mem_timeline.mpr (Or.inr (Or.inl rfl)))
    · exact Or.inr (mem_timeline.mpr (Or.inl hOld))
  · exact Or.inl hNext
  · cases hFuture

/-! ### The saved state -/

/-- The state that was saved, if it can still be reached. -/
def savedState? (h : History σ) (present : σ) : Option σ :=
  h.saved.bind fun n => (h.timeline present)[n]?

theorem savedState?_eq_some_iff :
    h.savedState? present = some state ↔
      ∃ n, h.saved = some n ∧ (h.timeline present)[n]? = some state := by
  simp [savedState?, Option.bind_eq_some_iff]

theorem map_savedState? (h : History σ) (f : σ → τ) {other : σ} (hSame : f other = f present) :
    (h.savedState? other).map f = (h.savedState? present).map f := by
  unfold savedState?
  cases h.saved with
  | none => rfl
  | some n =>
      rw [Option.bind_some, Option.bind_some, ← List.getElem?_map, ← List.getElem?_map,
        timeline_map h f hSame]

/-- Going to another place on the line of states leaves the saved state. -/
theorem savedState?_of_timeline (hTimeline : after.timeline state = h.timeline present)
    (hSaved : after.saved = h.saved) : after.savedState? state = h.savedState? present := by
  rw [savedState?, savedState?, hTimeline, hSaved]

/-- A document that counts as unmodified is in the saved state. -/
theorem savedState?_of_not_isModified (hFrozen : h.frozen = none) (hModified : h.isModified = false)
    (present : σ) : h.savedState? present = some present := by
  have hSaved : h.saved = some h.past.length := by
    simpa [isModified, hFrozen] using hModified
  simp [savedState?, hSaved]

theorem savedState?_save (h : History σ) (present : σ) :
    h.save.savedState? present = some present := by
  simp [savedState?, save]

/-- A new step keeps the saved state, unless it can no longer be reached. -/
theorem savedState?_of_record (hFrozen : h.frozen = none) {tail : Option Stroke}
    (hSaved : (h.record present tail).savedState? next = some state) :
    h.savedState? present = some state := by
  -- A save that is in the future is forgotten, and no other state goes elsewhere.
  obtain ⟨n, hPlace, hState⟩ := savedState?_eq_some_iff.mp hSaved
  rw [record_eq hFrozen] at hPlace
  obtain ⟨hOld, hLe⟩ := Option.filter_eq_some_iff.mp hPlace
  rw [getElem?_timeline_record hFrozen tail (by simpa using hLe)] at hState
  exact savedState?_eq_some_iff.mpr ⟨n, hOld, hState⟩

/-- A stroke keeps the saved state, unless it can no longer be reached. -/
theorem savedState?_of_recordStroke (hFrozen : h.frozen = none) {stroke : Stroke}
    (hSaved : (h.recordStroke present stroke).savedState? next = some state) :
    h.savedState? present = some state := by
  unfold recordStroke at hSaved
  split at hSaved
  · rename_i s rest hExtend
    obtain ⟨-, hElsewhere, hStates⟩ := extend?_spec hExtend
    obtain ⟨n, hPlace, hState⟩ := savedState?_eq_some_iff.mp hSaved
    obtain ⟨hOld, hLe⟩ := Option.filter_eq_some_iff.mp hPlace
    have hLength : (s :: rest).length = h.past.length := by
      simpa using congrArg List.length hStates
    -- The stroke replaces the present state, and that is never the saved one.
    have hPast : n < h.past.length := by
      have hOther : n ≠ h.past.length := fun hSame => hElsewhere (hSame ▸ hOld)
      have hUpTo : n ≤ h.past.length := by simpa using hLe
      omega
    have hExtended : n < (h.withPast (s :: rest)).past.length := by
      change n < (s :: rest).length
      omega
    refine savedState?_eq_some_iff.mpr ⟨n, hOld, ?_⟩
    rw [getElem?_timeline_of_lt hPast, ← hStates, ← hState]
    exact (getElem?_timeline_of_lt hExtended next).symm
  · exact savedState?_of_record hFrozen hSaved

end ScriptEditor.Document.History
