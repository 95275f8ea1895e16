import Mathlib.Data.List.Nodup
import Mathlib.Tactic.Common
import ScriptEditor.Json.Value

/-! The fields of an object. Putting in a value changes the value of one key only, and a row
of fields whose keys differ makes up an object as it is. -/
namespace ScriptEditor.Json

namespace Fields

variable {fields : Fields} {key : Utf16} {value : Value}

theorem put_of_not_mem (h : key ∉ fields.map (·.1)) : fields.put key value = fields ++ [(key, value)] := by
  induction fields with
  | nil => rfl
  | cons f rest ih =>
      rw [List.map_cons, List.mem_cons, not_or] at h
      rw [put, if_neg (by rw [beq_iff_eq]; exact Ne.symm h.1), ih h.2]
      rfl

/-- A key that is there keeps its place, and only its value changes. -/
theorem put_of_mem (hKeys : (fields.map (·.1)).Nodup) (h : key ∈ fields.map (·.1)) :
    fields.put key value = fields.map fun f => if f.1 = key then (key, value) else f := by
  induction fields with
  | nil => cases h
  | cons f rest ih =>
      rw [List.map_cons, List.nodup_cons] at hKeys
      rw [put, List.map_cons]
      by_cases hKey : f.1 = key
      · have hRest : ∀ g ∈ rest, (if g.1 = key then (key, value) else g) = g := by
          intro g hg
          rw [if_neg]
          rintro rfl
          exact hKeys.1 (hKey ▸ List.mem_map_of_mem hg)
        rw [if_pos (by rwa [beq_iff_eq]), if_pos hKey, List.map_congr_left hRest, List.map_id']
      · have hMem : key ∈ rest.map (·.1) :=
          (List.mem_cons.mp h).resolve_left (Ne.symm hKey)
        rw [if_neg (by rwa [beq_iff_eq]), if_neg hKey, ih hKeys.2 hMem]

theorem keys_put (fields : Fields) (key : Utf16) (value : Value) :
    (fields.put key value).map (·.1) =
      if key ∈ fields.map (·.1) then fields.map (·.1) else fields.map (·.1) ++ [key] := by
  induction fields with
  | nil => rfl
  | cons f rest ih =>
      rw [put]
      by_cases hKey : f.1 = key
      · rw [if_pos (by rwa [beq_iff_eq]), if_pos (by simp [hKey])]
        simp [hKey]
      · have hHere : key ∈ (f :: rest).map (·.1) ↔ key ∈ rest.map (·.1) := by
          rw [List.map_cons, List.mem_cons, or_iff_right (Ne.symm hKey)]
        rw [if_neg (by rwa [beq_iff_eq]), List.map_cons, ih]
        simp only [hHere]
        split_ifs <;> rfl

theorem nodup_keys_put (hKeys : (fields.map (·.1)).Nodup) (key : Utf16) (value : Value) :
    ((fields.put key value).map (·.1)).Nodup := by
  rw [keys_put]
  split_ifs with hMem
  · exact hKeys
  · exact hKeys.append (List.nodup_singleton key) (by simpa using hMem)

theorem mem_put {f : Utf16 × Value} (h : f ∈ fields.put key value) : f = (key, value) ∨ f ∈ fields := by
  induction fields with
  | nil => exact Or.inl (List.mem_singleton.mp h)
  | cons g rest ih =>
      rw [put] at h
      split_ifs at h
      · exact (List.mem_cons.mp h).imp_right (List.mem_cons_of_mem g)
      · rcases List.mem_cons.mp h with rfl | h
        · exact Or.inr List.mem_cons_self
        · exact (ih h).imp_right (List.mem_cons_of_mem g)

@[simp] theorem get?_put (fields : Fields) (key other : Utf16) (value : Value) :
    (fields.put key value).get? other = if other = key then some value else fields.get? other := by
  induction fields with
  | nil =>
      by_cases hKey : other = key
      · simp [put, get?, hKey]
      · simp [put, get?, hKey, Ne.symm hKey]
  | cons f rest ih =>
      rw [put]
      unfold get? at ih ⊢
      by_cases hHere : f.1 = key
      · by_cases hKey : other = key
        · simp [hHere, hKey]
        · simp [hHere, hKey, Ne.symm hKey]
      · by_cases hOther : f.1 = other
        · simp [hOther, hOther ▸ hHere]
        · simpa [hHere, hOther] using ih

theorem isSome_get? (fields : Fields) (key : Utf16) :
    (fields.get? key).isSome = true ↔ key ∈ fields.map (·.1) := by
  simp [get?, List.find?_isSome]

theorem get?_of_mem (hKeys : (fields.map (·.1)).Nodup) {f : Utf16 × Value} (h : f ∈ fields) :
    fields.get? f.1 = some f.2 := by
  induction fields with
  | nil => cases h
  | cons g rest ih =>
      rw [List.map_cons, List.nodup_cons] at hKeys
      unfold get? at ih ⊢
      rcases List.mem_cons.mp h with rfl | h
      · simp
      · have hOther : g.1 ≠ f.1 := fun hEq => hKeys.1 (hEq ▸ List.mem_map_of_mem h)
        simpa [hOther] using ih hKeys.2 h

theorem put_of_get? (h : fields.get? key = some value) : fields.put key value = fields := by
  induction fields with
  | nil => cases h
  | cons f rest ih =>
      unfold get? at ih h
      by_cases hKey : f.1 = key
      · rw [List.find?_cons_of_pos (by simpa using hKey)] at h
        rw [put, if_pos (by simpa using hKey), ← hKey, ← Option.some.inj h]
      · rw [List.find?_cons_of_neg (by simpa using hKey)] at h
        rw [put, if_neg (by simpa using hKey), ih h]

/-! ### Rows -/

theorem foldl_put_eq_append {row : List (Utf16 × Value)} (fields : Fields)
    (hKeys : ((fields ++ row).map (·.1)).Nodup) :
    row.foldl (fun fs f => fs.put f.1 f.2) fields = fields ++ row := by
  induction row generalizing fields with
  | nil => exact (List.append_nil _).symm
  | cons f row ih =>
      have hNew : f.1 ∉ fields.map (·.1) := by
        rw [List.map_append, List.map_cons] at hKeys
        exact fun hMem => (List.disjoint_of_nodup_append hKeys) hMem List.mem_cons_self
      rw [List.foldl_cons, put_of_not_mem hNew, ih, List.append_assoc]
      · rfl
      · simpa using hKeys

theorem ofRow_eq_self (hKeys : (fields.map (·.1)).Nodup) : ofRow fields = fields :=
  foldl_put_eq_append [] hKeys

/-- What holds of the fields of a row, and of their keys, holds of the object that the row
makes up. -/
theorem ofRow_spec {row : List (Utf16 × Value)} {p : Value → Prop} (hRow : ∀ f ∈ row, p f.2) :
    ((ofRow row).map (·.1)).Nodup ∧ ∀ f ∈ ofRow row, p f.2 := by
  have hFold : ∀ fields : Fields, (fields.map (·.1)).Nodup → (∀ f ∈ fields, p f.2) →
      ((row.foldl (fun fs f => fs.put f.1 f.2) fields).map (·.1)).Nodup ∧
        ∀ f ∈ row.foldl (fun fs f => fs.put f.1 f.2) fields, p f.2 := by
    induction row with
    | nil => exact fun fields hKeys hFields => ⟨hKeys, hFields⟩
    | cons g row ih =>
        intro fields hKeys hFields
        refine ih (fun f hf => hRow f (List.mem_cons_of_mem g hf)) _ (nodup_keys_put hKeys _ _) ?_
        intro f hf
        rcases mem_put hf with rfl | hf
        · exact hRow g List.mem_cons_self
        · exact hFields f hf
  exact hFold [] List.nodup_nil nofun

end Fields

/-! ### Depth -/

theorem itemsDepth_le_iff {items : List Value} {depth : Nat} :
    itemsDepth items ≤ depth ↔ ∀ v ∈ items, v.depth ≤ depth := by
  induction items with
  | nil => simp [itemsDepth]
  | cons item items ih => rw [itemsDepth, Nat.max_le, ih, List.forall_mem_cons]

theorem fieldsDepth_le_iff {fields : Fields} {depth : Nat} :
    fieldsDepth fields ≤ depth ↔ ∀ f ∈ fields, f.2.depth ≤ depth := by
  induction fields with
  | nil => simp [fieldsDepth]
  | cons f fields ih => rw [fieldsDepth, Nat.max_le, ih, List.forall_mem_cons]

end ScriptEditor.Json
