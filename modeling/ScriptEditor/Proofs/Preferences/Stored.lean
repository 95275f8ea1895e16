import ScriptEditor.Preferences.Record
import ScriptEditor.Proofs.Files.Utf8
import ScriptEditor.Proofs.Files.Written
import ScriptEditor.Proofs.Json.Sound

/-! Preferences that were saved. They are loaded again with the defaults that were missing and
with usable whole numbers, and what was loaded stays as it is from then on. -/
namespace ScriptEditor.Preferences

open ScriptEditor.Json
open ScriptEditor.Number
open ScriptEditor.Files (Path Store)

/-- A preference as it is used: the ones that are whole numbers are positive. -/
def usable (key : Utf16) (value : Value) : Value :=
  match wholeKeys.find? fun w => w.1 == key with
  | some (_, default) => .int (positiveOr default value)
  | none => value

/-- Preferences in their order, the missing ones behind them in the order of the defaults, each
as it is used. -/
def completed (fields : Fields) : Fields :=
  (fields ++ defaults.filter fun d => !fields.any fun f => f.1 == d.1).map fun f =>
    (f.1, usable f.1 f.2)

/-! ### Whole numbers -/

theorem storable_of_lt {n : Int} (h : n.natAbs < 10 ^ digitLimit) : (Value.int n).Storable :=
  .int ((length_ofNat_le_iff (by decide)).mpr h)

theorem natAbs_readWhole_lt {t : Text} {n : Int} (h : readWhole t = .ok n) :
    n.natAbs < 10 ^ digitLimit := by
  unfold readWhole at h
  dsimp only at h
  split_ifs at h with hSpaced hLong hBehind hSign
  all_goals
    cases h
    have hDigits : ∀ d ∈ ((splitSign (t.dropWhile isMargin)).2.takeWhile isDigitOrSpacer).filterMap
        digitValue?, d < 10 := by
      intro d hd
      obtain ⟨c, -, hc⟩ := List.mem_filterMap.mp hd
      exact digitValue?_lt hc
    have hValue := Nat.lt_of_lt_of_le (ofDigits_lt hDigits)
      (Nat.pow_le_pow_right (by decide) (Nat.not_lt.mp hLong))
    simpa using hValue

theorem two_pow_le {k : Nat} (h : k ≤ digitLimit) : Nat.pow 2 k ≤ 10 ^ digitLimit :=
  Nat.le_trans (Nat.pow_le_pow_left (by decide) k) (Nat.pow_le_pow_right (by decide) h)

theorem natAbs_truncated_lt {x : Binary64} (hx : x.Representable) :
    (x.truncated?.getD 0).natAbs < 10 ^ digitLimit := by
  cases x with
  | nan => exact Nat.pow_pos (by decide)
  | infinite negative => exact Nat.pow_pos (by decide)
  | finite negative m e =>
      have hBits : m < 2 ^ 53 := hx.bits
      have hExponent : e ≤ 971 := hx.greatest
      have hLimit : 53 + e.toNat ≤ digitLimit := Nat.le_trans (by omega) (by decide : 1024 ≤ digitLimit)
      have hWhole : (if 0 ≤ e then m * Nat.pow 2 e.toNat else m / Nat.pow 2 (-e).toNat) <
          2 ^ (53 + e.toNat) := by
        rw [Nat.pow_add]
        split_ifs with hSign
        · exact Nat.mul_lt_mul_of_pos_right hBits (Nat.pow_pos (by decide))
        · calc
            m / Nat.pow 2 (-e).toNat ≤ m := Nat.div_le_self _ _
            _ < 2 ^ 53 := hBits
            _ ≤ 2 ^ 53 * 2 ^ e.toNat := Nat.le_mul_of_pos_right _ (Nat.pow_pos (by decide))
      unfold Binary64.truncated?
      dsimp only [Option.getD_some]
      generalize (if 0 ≤ e then m * Nat.pow 2 e.toNat else m / Nat.pow 2 (-e).toNat) = n at hWhole ⊢
      calc
        (if negative then -(n : Int) else n).natAbs = n := by cases negative <;> simp
        _ < 2 ^ (53 + e.toNat) := hWhole
        _ ≤ 10 ^ digitLimit := two_pow_le hLimit

theorem natAbs_wholeOf_lt {v : Value} (hv : v.Storable) {n : Int} (h : wholeOf v = .ok n) :
    n.natAbs < 10 ^ digitLimit := by
  cases hv with
  | bool b =>
      cases h
      have hOne : 1 < 10 ^ digitLimit := Nat.one_lt_pow (by decide) (by decide)
      cases b with
      | true => exact hOne
      | false => exact Nat.zero_lt_of_lt hOne
  | int digits =>
      cases h
      exact (length_ofNat_le_iff (by decide)).mp digits
  | @float x representable =>
      have hNumber := natAbs_truncated_lt representable
      cases x with
      | nan => cases h
      | infinite negative => cases h
      | finite negative m e =>
          cases h
          exact hNumber
  | text t => exact natAbs_readWhole_lt (eq_ok_of_mapError_eq_ok h)
  | null => cases h
  | list _ => cases h
  | object _ _ => cases h

theorem positiveOr_cases (default : Int) (v : Value) :
    positiveOr default v = default ∨
      0 < positiveOr default v ∧ wholeOf v = .ok (positiveOr default v) := by
  unfold positiveOr
  split_ifs
  · split
    next n hWhole =>
      split_ifs with hPositive
      · exact Or.inr ⟨hPositive, hWhole⟩
      · exact Or.inl rfl
    next => exact Or.inl rfl
  · exact Or.inl rfl

theorem positiveOr_pos {default : Int} (hDefault : 0 < default) (v : Value) :
    0 < positiveOr default v := by
  rcases positiveOr_cases default v with hSame | ⟨hPositive, -⟩
  · rwa [hSame]
  · exact hPositive

theorem positiveOr_int (default : Int) {n : Int} (h : 0 < n) : positiveOr default (.int n) = n :=
  if_pos h

theorem storable_positiveOr {default : Int} (hDefault : (Value.int default).Storable) {v : Value}
    (hv : v.Storable) : (Value.int (positiveOr default v)).Storable := by
  rcases positiveOr_cases default v with hSame | ⟨-, hWhole⟩
  · rwa [hSame]
  · exact storable_of_lt (natAbs_wholeOf_lt hv hWhole)

theorem wholeKeys_spec : ∀ w ∈ wholeKeys, 0 < w.2 ∧ (Value.int w.2).Storable := by
  have hSmall : ∀ w ∈ wholeKeys, 0 < w.2 ∧ (Text.ofNat w.2.natAbs).length ≤ digitLimit := by decide
  exact fun w hw => (hSmall w hw).imp_right .int

/-! ### Completing -/

theorem keys_defaults : (defaults.map (·.1)).Nodup := by
  decide

theorem keys_wholeKeys : (wholeKeys.map (·.1)).Nodup := by
  decide

theorem any_eq_isSome_get? (fields : Fields) (key : Utf16) :
    (fields.any fun f => f.1 == key) = (fields.get? key).isSome := by
  rw [Bool.eq_iff_iff, Fields.isSome_get?, List.any_eq_true, List.mem_map]
  simp only [beq_iff_eq]

theorem foldl_putNew {row : List (Utf16 × Value)} (hRow : (row.map (·.1)).Nodup) (fields : Fields) :
    row.foldl (fun fs d => fs.putNew d.1 d.2) fields =
      fields ++ row.filter fun d => !fields.any fun f => f.1 == d.1 := by
  induction row generalizing fields with
  | nil => exact (List.append_nil _).symm
  | cons d row ih =>
      rw [List.map_cons, List.nodup_cons] at hRow
      rw [List.foldl_cons, ih hRow.2, Fields.putNew, ← any_eq_isSome_get?, List.filter_cons]
      by_cases hAny : (fields.any fun f => f.1 == d.1) = true
      · simp only [hAny, if_true, Bool.not_true, Bool.false_eq_true, if_false]
      · have hNone : (fields.any fun f => f.1 == d.1) = false := Bool.eq_false_iff.mpr hAny
        -- The keys of the row differ, so the new field stands for none of the others.
        have hRest : (row.filter fun e => !(fields ++ [(d.1, d.2)]).any fun f => f.1 == e.1) =
            row.filter fun e => !fields.any fun f => f.1 == e.1 := by
          apply List.filter_congr
          intro e he
          have hOther : (d.1 == e.1) = false := by
            rw [beq_eq_false_iff_ne]
            exact fun hEq => hRow.1 (hEq ▸ List.mem_map_of_mem he)
          simp [List.any_append, hOther]
        simp only [hNone, Bool.false_eq_true, if_false, Bool.not_false, if_true, hRest]
        rw [List.append_assoc]
        rfl

theorem fill_eq (fields : Fields) :
    fill fields = fields ++ defaults.filter fun d => !fields.any fun f => f.1 == d.1 :=
  foldl_putNew keys_defaults fields

theorem keys_fill {fields : Fields} (hKeys : (fields.map (·.1)).Nodup) :
    ((fill fields).map (·.1)).Nodup ∧ ∀ d ∈ defaults, d.1 ∈ (fill fields).map (·.1) := by
  rw [fill_eq, List.map_append]
  refine ⟨?_, ?_⟩
  · refine hKeys.append (keys_defaults.sublist (List.filter_sublist.map _)) ?_
    intro key hOld hNew
    obtain ⟨d, hd, rfl⟩ := List.mem_map.mp hNew
    obtain ⟨f, hf, hKey⟩ := List.mem_map.mp hOld
    have hMissing := (List.mem_filter.mp hd).2
    simp only [Bool.not_eq_true', List.any_eq_false, beq_iff_eq] at hMissing
    exact hMissing f hf hKey
  · intro d hd
    by_cases hAny : (fields.any fun f => f.1 == d.1) = true
    · obtain ⟨f, hf, hKey⟩ := List.any_eq_true.mp hAny
      exact List.mem_append_left _ (List.mem_map.mpr ⟨f, hf, beq_iff_eq.mp hKey⟩)
    · have hMissing : (!fields.any fun f => f.1 == d.1) = true := by
        rw [Bool.eq_false_iff.mpr hAny]
        rfl
      exact List.mem_append_right _ (List.mem_map_of_mem (List.mem_filter.mpr ⟨hd, hMissing⟩))

/-- One repair changes the value of one key. -/
theorem fst_repairOne {fields : Fields} (hKeys : (fields.map (·.1)).Nodup) {w : Utf16 × Int}
    (hKey : w.1 ∈ fields.map (·.1)) (warnings : List Warning) :
    (repairOne (fields, warnings) w).1 =
      fields.map fun f => if f.1 = w.1 then (f.1, .int (positiveOr w.2 f.2)) else f := by
  unfold repairOne
  dsimp only
  rw [Fields.put_of_mem hKeys hKey]
  apply List.map_congr_left
  intro f hf
  split_ifs with hHere
  · rw [← hHere, Fields.get?_of_mem hKeys hf]
    rfl
  · rfl

theorem fst_foldl_repairOne {whole : List (Utf16 × Int)} (hWhole : (whole.map (·.1)).Nodup)
    {fields : Fields} (hKeys : (fields.map (·.1)).Nodup)
    (hThere : ∀ w ∈ whole, w.1 ∈ fields.map (·.1)) (warnings : List Warning) :
    (whole.foldl repairOne (fields, warnings)).1 =
      fields.map fun f => (f.1,
        match whole.find? fun w => w.1 == f.1 with
        | some (_, default) => .int (positiveOr default f.2)
        | none => f.2) := by
  induction whole generalizing fields warnings with
  | nil => simp
  | cons w whole ih =>
      rw [List.map_cons, List.nodup_cons] at hWhole
      have hFirst := fst_repairOne hKeys (hThere w List.mem_cons_self) warnings
      have hSame : ((repairOne (fields, warnings) w).1).map (·.1) = fields.map (·.1) := by
        rw [hFirst, List.map_map]
        apply List.map_congr_left
        intro f hf
        dsimp only [Function.comp_apply]
        split_ifs <;> rfl
      rw [List.foldl_cons]
      rw [show repairOne (fields, warnings) w =
        ((repairOne (fields, warnings) w).1, (repairOne (fields, warnings) w).2) from rfl,
        ih hWhole.2 (hSame ▸ hKeys)
          (fun x hx => hSame ▸ hThere x (List.mem_cons_of_mem w hx)), hFirst, List.map_map]
      apply List.map_congr_left
      intro f hf
      dsimp only [Function.comp_apply]
      by_cases hHere : f.1 = w.1
      · have hNone : (whole.find? fun x => x.1 == f.1) = none := by
          rw [List.find?_eq_none]
          intro x hx
          rw [beq_iff_eq]
          exact fun hEq => hWhole.1 (List.mem_map.mpr ⟨x, hx, hEq.trans hHere⟩)
        rw [if_pos hHere, List.find?_cons_of_pos (by simp [hHere])]
        dsimp only
        rw [hNone]
      · rw [if_neg hHere, List.find?_cons_of_neg (by simpa using Ne.symm hHere)]

theorem mem_keys_defaults {w : Utf16 × Int} (hw : w ∈ wholeKeys) :
    ∃ d ∈ defaults, d.1 = w.1 := by
  revert w
  decide

/-- Loading completes what is in the file. -/
theorem fst_repair_fill {fields : Fields} (hKeys : (fields.map (·.1)).Nodup) :
    (repair (fill fields)).1 = completed fields := by
  obtain ⟨hFill, hDefaults⟩ := keys_fill hKeys
  have hThere : ∀ w ∈ wholeKeys, w.1 ∈ (fill fields).map (·.1) := by
    intro w hw
    obtain ⟨d, hd, hKey⟩ := mem_keys_defaults hw
    exact hKey ▸ hDefaults d hd
  rw [repair, fst_foldl_repairOne keys_wholeKeys hFill hThere, fill_eq]
  rfl

/-! ### What stays as it is -/

/-- Preferences that loading leaves as they are: none is missing, and the ones that are whole
numbers are positive. -/
structure Settled (fields : Fields) : Prop where
  keys : (fields.map (·.1)).Nodup
  complete : ∀ d ∈ defaults, d.1 ∈ fields.map (·.1)
  whole : ∀ w ∈ wholeKeys, ∃ n, fields.get? w.1 = some (.int n) ∧ 0 < n

theorem usable_of_mem {w : Utf16 × Int} (hw : w ∈ wholeKeys) (v : Value) :
    usable w.1 v = .int (positiveOr w.2 v) := by
  have hFound : wholeKeys.find? (fun x => x.1 == w.1) = some w := by
    revert w
    decide
  rw [usable, hFound]

theorem usable_cases (key : Utf16) (v : Value) :
    usable key v = v ∨ ∃ w ∈ wholeKeys, usable key v = .int (positiveOr w.2 v) := by
  unfold usable
  split
  next hFound => exact Or.inr ⟨_, List.mem_of_find?_eq_some hFound, rfl⟩
  next => exact Or.inl rfl

theorem keys_completed (fields : Fields) : (completed fields).map (·.1) = (fill fields).map (·.1) := by
  rw [completed, ← fill_eq, List.map_map]
  rfl

theorem settled_completed {fields : Fields} (hKeys : (fields.map (·.1)).Nodup) :
    Settled (completed fields) := by
  obtain ⟨hFill, hDefaults⟩ := keys_fill hKeys
  rw [← keys_completed] at hFill hDefaults
  refine ⟨hFill, hDefaults, ?_⟩
  intro w hw
  obtain ⟨d, hd, hKey⟩ := mem_keys_defaults hw
  obtain ⟨f, hf, hField⟩ := List.mem_map.mp (hDefaults d hd)
  have hValue := Fields.get?_of_mem hFill hf
  obtain ⟨g, -, rfl⟩ := List.mem_map.mp hf
  dsimp only at hField hValue
  rw [hField, hKey, usable_of_mem hw] at hValue
  exact ⟨_, hValue, positiveOr_pos (wholeKeys_spec w hw).1 _⟩

theorem repairOne_of_get? {fields : Fields} {w : Utf16 × Int} {n : Int}
    (hValue : fields.get? w.1 = some (.int n)) (hPositive : 0 < n) (warnings : List Warning) :
    repairOne (fields, warnings) w = (fields, warnings) := by
  unfold repairOne
  dsimp only
  rw [hValue, Option.getD_some, positiveOr_int _ hPositive, Fields.put_of_get? hValue]
  simp [isWholeNumber]

theorem repair_fill_of_settled {fields : Fields} (h : Settled fields) :
    repair (fill fields) = (fields, []) := by
  have hNone : (defaults.filter fun d => !fields.any fun f => f.1 == d.1) = [] := by
    rw [List.filter_eq_nil_iff]
    intro d hd
    obtain ⟨f, hf, hKey⟩ := List.mem_map.mp (h.complete d hd)
    simp only [Bool.not_eq_true', Bool.not_eq_false, List.any_eq_true, beq_iff_eq]
    exact ⟨f, hf, hKey⟩
  have hFold : ∀ whole : List (Utf16 × Int), (∀ w ∈ whole, w ∈ wholeKeys) →
      whole.foldl repairOne (fields, []) = (fields, []) := by
    intro whole hWhole
    induction whole with
    | nil => rfl
    | cons w whole ih =>
        obtain ⟨n, hValue, hPositive⟩ := h.whole w (hWhole w List.mem_cons_self)
        rw [List.foldl_cons, repairOne_of_get? hValue hPositive]
        exact ih fun x hx => hWhole x (List.mem_cons_of_mem w hx)
  rw [fill_eq, hNone, List.append_nil]
  exact hFold wholeKeys fun _ => id

/-! ### What can be stored -/

theorem storableWithin_defaults (depth : Nat) : ∀ d ∈ defaults, d.2.StorableWithin depth := by
  intro d hd
  simp only [defaults, List.mem_cons, List.not_mem_nil, or_false] at hd
  rcases hd with rfl | rfl | rfl | rfl | rfl | rfl
  · exact ⟨.text _, Nat.zero_le _⟩
  · exact ⟨.bool _, Nat.zero_le _⟩
  · exact ⟨(wholeKeys_spec (fontSizeKey, _) (by decide)).2, Nat.zero_le _⟩
  · exact ⟨.bool _, Nat.zero_le _⟩
  · exact ⟨(wholeKeys_spec (tabWidthKey, _) (by decide)).2, Nat.zero_le _⟩
  · exact ⟨(wholeKeys_spec (timeoutKey, _) (by decide)).2, Nat.zero_le _⟩

theorem storableWithin_usable {depth : Nat} {v : Value} (hv : v.StorableWithin depth) (key : Utf16) :
    (usable key v).StorableWithin depth := by
  rcases usable_cases key v with hSame | ⟨w, hw, hUsable⟩
  · rwa [hSame]
  · rw [hUsable]
    exact ⟨storable_positiveOr (wholeKeys_spec w hw).2 hv.1, Nat.zero_le _⟩

/-- Completing goes no deeper. -/
theorem storableWithin_completed {depth : Nat} {fields : Fields}
    (h : (Value.object fields).StorableWithin depth) :
    (Value.object (completed fields)).StorableWithin depth := by
  obtain ⟨hDepth, hKeys, hFields⟩ := storableWithin_fields h
  rw [← Nat.sub_add_cancel hDepth]
  apply storableWithin_object (settled_completed hKeys).keys
  intro f hf
  obtain ⟨g, hg, rfl⟩ := List.mem_map.mp hf
  apply storableWithin_usable
  rcases List.mem_append.mp hg with hOld | hNew
  · exact hFields g hOld
  · exact storableWithin_defaults _ g (List.mem_filter.mp hNew).1

/-! ### Files -/

theorem objectOf_encode_render {fields : Fields}
    (h : (Value.object fields).StorableWithin nestingLimit) :
    objectOf (Utf8.encode (render (.object fields))) = .ok (fields, []) := by
  unfold objectOf
  rw [Utf8.decode_encode]
  dsimp only
  rw [render, Text.unifyLineEnds_of_not_mem (return_not_mem_write h.1 0), ← render, read_render h.1 h.2]

theorem save_eq_ok {s next : Store} {p : Path} {fields : Fields} (h : save s p fields = .ok next) :
    s.write p (Utf8.encode (render (.object fields))) = .ok next ∧
      (Value.object fields).depth ≤ nestingLimit := by
  unfold save at h
  split at h
  next => cases h
  next store hWrite =>
    split_ifs at h with hDepth
    cases h
    exact ⟨hWrite, hDepth⟩

theorem readObject_of_save {s next : Store} {p : Path} {fields : Fields}
    (hStorable : (Value.object fields).Storable) (h : save s p fields = .ok next) :
    readObject next p = .ok (fields, []) := by
  obtain ⟨hWrite, hDepth⟩ := save_eq_ok h
  unfold readObject
  rw [Store.has_of_write hWrite, Store.read_of_write hWrite]
  exact objectOf_encode_render ⟨hStorable, hDepth⟩

/-- A path that was written can be saved to again. -/
theorem save_of_save {s next : Store} {p : Path} {fields more : Fields}
    (h : save s p fields = .ok next) (hDepth : (Value.object more).depth ≤ nestingLimit) :
    ∃ last, save next p more = .ok last := by
  obtain ⟨last, hLast⟩ := Store.write_of_write (save_eq_ok h).1 (Utf8.encode (render (.object more)))
  refine ⟨last, ?_⟩
  unfold save
  rw [hLast]
  exact if_pos hDepth

theorem load_of_readObject {s : Store} {p : Path} {fields : Fields} {warnings : List Warning}
    (h : readObject s p = .ok (fields, warnings)) :
    load s p = .ok ((repair (fill fields)).1, warnings ++ (repair (fill fields)).2) := by
  unfold load
  rw [h]
  dsimp only [Except.map]

/-- Preferences of all kinds, one of them a whole number that is written as a text. -/
def mixedPreferences : Fields := [
  (tabWidthKey, .text (.ofText " 8".toList)),
  (.ofText "é\n😀".toList, .list [.object [([0xD800], .null)], .float (.finite true (2 ^ 52) (-53))]),
  (wrapKey, .bool false),
  (timeoutKey, .int (-1))]

theorem storable_mixedPreferences : (Value.object mixedPreferences).Storable := by
  have hInner : (Value.object [([0xD800], .null)]).Storable :=
    .object (by decide) (List.forall_mem_singleton.mpr .null)
  have hHalf : (Value.float (.finite true (2 ^ 52) (-53))).Storable :=
    .float ⟨by decide, by decide, by decide, Or.inl (Nat.le_refl _)⟩
  refine .object (by decide) (List.forall_mem_cons.mpr ⟨.text _, List.forall_mem_cons.mpr ⟨?_,
    List.forall_mem_cons.mpr ⟨.bool false, List.forall_mem_singleton.mpr (.int (by decide))⟩⟩⟩)
  exact .list (List.forall_mem_cons.mpr ⟨hInner, List.forall_mem_singleton.mpr hHalf⟩)

end ScriptEditor.Preferences
