import Mathlib.Tactic.Common

/-! Computations that may fail: what is known if one has succeeded, and what if it has failed. -/
namespace ScriptEditor

variable {ε δ α β : Type}

theorem ok_bind (a : α) (f : α → Except ε β) : Except.ok a >>= f = f a :=
  rfl

theorem exists_of_bind_eq_ok {x : Except ε α} {f : α → Except ε β} {b : β} (h : x >>= f = .ok b) :
    ∃ a, x = .ok a ∧ f a = .ok b := by
  cases x with
  | error fault => cases h
  | ok a => exact ⟨a, rfl, h⟩

theorem exists_of_map_eq_ok {x : Except ε α} {f : α → β} {b : β} (h : x.map f = .ok b) :
    ∃ a, x = .ok a ∧ f a = b := by
  cases x with
  | error fault => cases h
  | ok a => exact ⟨a, rfl, Except.ok.inj h⟩

theorem eq_ok_of_mapError_eq_ok {x : Except ε α} {f : ε → δ} {a : α} (h : x.mapError f = .ok a) :
    x = .ok a := by
  cases x with
  | error fault => cases h
  | ok b => exact congrArg Except.ok (Except.ok.inj h)

theorem bind_eq_error_iff {x : Except ε α} {f : α → Except ε β} {fault : ε} :
    x >>= f = .error fault ↔ x = .error fault ∨ ∃ a, x = .ok a ∧ f a = .error fault := by
  cases x with
  | error found => simp [bind, Except.bind]
  | ok a => simp [bind, Except.bind]

theorem map_eq_error_iff {x : Except ε α} {f : α → β} {fault : ε} :
    x.map f = .error fault ↔ x = .error fault := by
  cases x with
  | error found => simp [Except.map]
  | ok a => simp [Except.map]

/-- A loop over a list fails at the first element for which its step fails. -/
theorem foldlM_eq_error_iff {step : β → α → Except ε β} {items : List α} {b : β} {fault : ε} :
    items.foldlM step b = .error fault ↔
      ∃ front item rest reached, items = front ++ item :: rest ∧
        front.foldlM step b = .ok reached ∧ step reached item = .error fault := by
  induction items generalizing b with
  | nil => simp [pure, Except.pure]
  | cons first items ih =>
      rw [List.foldlM_cons, bind_eq_error_iff]
      constructor
      · rintro (hFirst | ⟨next, hNext, hItems⟩)
        · exact ⟨[], first, items, b, rfl, rfl, hFirst⟩
        · obtain ⟨front, item, rest, reached, rfl, hFront, hItem⟩ := ih.mp hItems
          refine ⟨first :: front, item, rest, reached, rfl, ?_, hItem⟩
          rw [List.foldlM_cons, hNext, ok_bind, hFront]
      · rintro ⟨front, item, rest, reached, hItems, hFront, hItem⟩
        rcases List.cons_eq_append_iff.mp hItems with ⟨rfl, hFirst⟩ | ⟨front, rfl, rfl⟩
        · cases hFront
          cases hFirst
          exact .inl hItem
        · rw [List.foldlM_cons] at hFront
          obtain ⟨next, hNext, hFront⟩ := exists_of_bind_eq_ok hFront
          exact .inr ⟨next, hNext, ih.mpr ⟨front, item, rest, reached, rfl, hFront, hItem⟩⟩

theorem exists_of_any_toOption {x : Except ε α} {p : α → Bool} (h : x.toOption.any p) :
    ∃ a, x = .ok a ∧ p a = true := by
  cases x with
  | error fault => cases h
  | ok a => exact ⟨a, rfl, h⟩

end ScriptEditor
