import ScriptEditor.Proofs.Json.RoundTrip

/-! What the reader can give. Every value that is read from a text can be stored again and is
not nested deeper than was allowed. -/
namespace ScriptEditor.Json

open ScriptEditor.Number
open ScriptEditor.Text (doubleQuote)

theorem eq_some_of_expect_eq_ok {α : Type} {x : Option α} {a : α} (h : expect x = .ok a) : x = some a := by
  cases x with
  | none => cases h
  | some b => exact congrArg some (Except.ok.inj h)

/-- A value that can be stored within a depth. -/
def Value.StorableWithin (depth : Nat) (v : Value) : Prop :=
  v.Storable ∧ v.depth ≤ depth

theorem length_ofNat_ofDigits_le {ds : List Nat} (hDigits : ∀ d ∈ ds, d < 10) {limit : Nat}
    (hPos : 0 < limit) (hLength : ds.length ≤ limit) : (Text.ofNat (ofDigits ds)).length ≤ limit := by
  rw [length_ofNat_le_iff hPos]
  exact Nat.lt_of_lt_of_le (ofDigits_lt hDigits) (Nat.pow_le_pow_right (by decide) hLength)

theorem storable_int {whole : Text} (hLimit : whole.length ≤ digitLimit) (negative : Bool) :
    (Value.int (if negative then -ofDigits (whole.filterMap asciiDigit?)
      else ofDigits (whole.filterMap asciiDigit?))).Storable := by
  have hDigits : ∀ d ∈ whole.filterMap asciiDigit?, d < 10 := by
    intro d hd
    obtain ⟨c, -, hc⟩ := List.mem_filterMap.mp hd
    exact asciiDigit?_lt hc
  have hLength := Nat.le_trans (List.length_filterMap_le asciiDigit? whole) hLimit
  constructor
  cases negative with
  | true => simpa using length_ofNat_ofDigits_le hDigits (by decide) hLength
  | false => simpa using length_ofNat_ofDigits_le hDigits (by decide) hLength

theorem storable_of_readNumber {t rest : Text} {v : Value} (h : readNumber t = some (v, rest)) :
    v.Storable ∧ v.depth = 0 := by
  unfold readNumber at h
  split at h
  next negative unsigned hSigned =>
  rcases hWhole : readWholePart unsigned with ⟨whole, afterWhole⟩
  rcases hFraction : readFraction afterWhole with ⟨fraction, afterFraction⟩
  rcases hPower : readExponent afterFraction with ⟨power, afterPower⟩
  simp only [hWhole, hFraction, hPower] at h
  split_ifs at h with hNone hFloat hLimit hSign
  · obtain ⟨rfl, -⟩ := Prod.mk.inj (Option.some.inj h)
    exact ⟨.float (Binary64.representable_ofDecimal _ _ _), rfl⟩
  · obtain ⟨rfl, -⟩ := Prod.mk.inj (Option.some.inj h)
    exact ⟨storable_int (Nat.not_lt.mp hLimit) true, rfl⟩
  · obtain ⟨rfl, -⟩ := Prod.mk.inj (Option.some.inj h)
    exact ⟨storable_int (Nat.not_lt.mp hLimit) false, rfl⟩

theorem storable_of_readWord {t rest : Text} {v : Value} (h : readWord t = some (v, rest)) :
    v.Storable ∧ v.depth = 0 := by
  obtain ⟨w, hWord, hRead⟩ := List.exists_of_findSome?_eq_some h
  obtain ⟨after, -, hPair⟩ := Option.map_eq_some_iff.mp hRead
  obtain ⟨rfl, -⟩ := Prod.mk.inj hPair
  simp only [words, List.mem_cons, List.not_mem_nil, or_false] at hWord
  rcases hWord with rfl | rfl | rfl | rfl | rfl | rfl
  · exact ⟨.null, rfl⟩
  · exact ⟨.bool true, rfl⟩
  · exact ⟨.bool false, rfl⟩
  all_goals exact ⟨.float trivial, rfl⟩

/-! ### Nested values -/

/-- The three readers with a certain amount of fuel give only values that can be stored. -/
structure SoundReaders (fuel : Nat) : Prop where
  value {depth : Nat} {t rest : Text} {v : Value} (h : readValue fuel depth t = .ok (v, rest)) :
    v.StorableWithin depth
  items {depth : Nat} {t rest : Text} {items : List Value}
    (h : readItems fuel depth t = .ok (items, rest)) : ∀ v ∈ items, v.StorableWithin depth
  fields {depth : Nat} {t rest : Text} {row : List (Utf16 × Value)}
    (h : readFields fuel depth t = .ok (row, rest)) : ∀ f ∈ row, f.2.StorableWithin depth

theorem storableWithin_list {depth : Nat} {items : List Value}
    (h : ∀ v ∈ items, v.StorableWithin depth) : (Value.list items).StorableWithin (depth + 1) := by
  refine ⟨.list fun v hv => (h v hv).1, ?_⟩
  rw [Value.depth, Nat.add_le_add_iff_right, itemsDepth_le_iff]
  exact fun v hv => (h v hv).2

theorem storableWithin_object {depth : Nat} {fields : Fields} (hKeys : (fields.map (·.1)).Nodup)
    (h : ∀ f ∈ fields, f.2.StorableWithin depth) :
    (Value.object fields).StorableWithin (depth + 1) := by
  refine ⟨.object hKeys fun f hf => (h f hf).1, ?_⟩
  rw [Value.depth, Nat.add_le_add_iff_right, fieldsDepth_le_iff]
  exact fun f hf => (h f hf).2

theorem storableWithin_fields {depth : Nat} {fields : Fields}
    (h : (Value.object fields).StorableWithin depth) :
    0 < depth ∧ (fields.map (·.1)).Nodup ∧ ∀ f ∈ fields, f.2.StorableWithin (depth - 1) := by
  obtain ⟨hStorable, hDepth⟩ := h
  rw [Value.depth] at hDepth
  have hFields := fieldsDepth_le_iff.mp (Nat.le_sub_one_of_lt hDepth)
  cases hStorable with
  | object keys values =>
      exact ⟨Nat.zero_lt_of_lt hDepth, keys, fun f hf => ⟨values f hf, hFields f hf⟩⟩

theorem SoundReaders.succ_value {fuel : Nat} (sound : SoundReaders fuel) {depth : Nat}
    {t rest : Text} {v : Value} (h : readValue (fuel + 1) depth t = .ok (v, rest)) :
    v.StorableWithin depth := by
  cases t with
  | nil =>
      rw [readValue] at h
      cases h
  | cons c t =>
      by_cases hText : c = doubleQuote
      · subst hText
        rw [readValue_quote] at h
        obtain ⟨⟨s, after⟩, -, h⟩ := exists_of_bind_eq_ok h
        cases h
        exact ⟨.text s, Nat.zero_le _⟩
      by_cases hList : c = '['
      · subst hList
        cases depth with
        | zero =>
            rw [readValue, if_neg (by decide), if_pos BEq.rfl] at h
            cases h
        | succ depth =>
            rw [readValue, if_neg (by decide), if_pos BEq.rfl] at h
            split at h
            next =>
              cases h
              exact storableWithin_list (List.forall_mem_nil _)
            next =>
              obtain ⟨⟨items, after⟩, hItems, h⟩ := exists_of_bind_eq_ok h
              cases h
              exact storableWithin_list (sound.items hItems)
      by_cases hObject : c = '\x7b'
      · subst hObject
        cases depth with
        | zero =>
            rw [readValue, if_neg (by decide), if_neg (by decide), if_pos BEq.rfl] at h
            cases h
        | succ depth =>
            rw [readValue, if_neg (by decide), if_neg (by decide), if_pos BEq.rfl] at h
            split at h
            next =>
              cases h
              exact storableWithin_object List.nodup_nil (List.forall_mem_nil _)
            next =>
              obtain ⟨⟨row, after⟩, hRow, h⟩ := exists_of_bind_eq_ok h
              cases h
              obtain ⟨hKeys, hFields⟩ := Fields.ofRow_spec (sound.fields hRow)
              exact storableWithin_object hKeys hFields
      · rw [readValue_plain hText hList hObject] at h
        have hScalar : v.Storable ∧ v.depth = 0 := by
          have hRead := eq_some_of_expect_eq_ok h
          cases hWord : readWord (c :: t) with
          | none =>
              rw [hWord] at hRead
              exact storable_of_readNumber hRead
          | some found =>
              rw [hWord] at hRead
              exact storable_of_readWord (hWord.trans hRead)
        exact ⟨hScalar.1, hScalar.2 ▸ Nat.zero_le _⟩

theorem SoundReaders.succ_items {fuel : Nat} (sound : SoundReaders fuel) {depth : Nat}
    {t rest : Text} {items : List Value} (h : readItems (fuel + 1) depth t = .ok (items, rest)) :
    ∀ v ∈ items, v.StorableWithin depth := by
  rw [readItems] at h
  obtain ⟨⟨item, after⟩, hItem, h⟩ := exists_of_bind_eq_ok h
  have hFirst := sound.value hItem
  dsimp only at h
  split at h
  next =>
    cases h
    exact List.forall_mem_singleton.mpr hFirst
  next =>
    obtain ⟨⟨others, after⟩, hOthers, h⟩ := exists_of_bind_eq_ok h
    cases h
    exact List.forall_mem_cons.mpr ⟨hFirst, sound.items hOthers⟩
  next => cases h

theorem SoundReaders.succ_fields {fuel : Nat} (sound : SoundReaders fuel) {depth : Nat}
    {t rest : Text} {row : List (Utf16 × Value)}
    (h : readFields (fuel + 1) depth t = .ok (row, rest)) :
    ∀ f ∈ row, f.2.StorableWithin depth := by
  cases t with
  | nil =>
      rw [readFields] at h
      cases h
  | cons c t =>
      rw [readFields] at h
      split_ifs at h
      obtain ⟨⟨key, afterKey⟩, -, h⟩ := exists_of_bind_eq_ok h
      dsimp only at h
      split at h
      next =>
        obtain ⟨⟨value, afterValue⟩, hValue, h⟩ := exists_of_bind_eq_ok h
        have hFirst := sound.value hValue
        dsimp only at h
        split at h
        next =>
          cases h
          exact List.forall_mem_singleton.mpr hFirst
        next =>
          obtain ⟨⟨others, after⟩, hOthers, h⟩ := exists_of_bind_eq_ok h
          cases h
          exact List.forall_mem_cons.mpr ⟨hFirst, sound.fields hOthers⟩
        next => cases h
      next => cases h

theorem soundReaders (fuel : Nat) : SoundReaders fuel := by
  induction fuel with
  | zero =>
      constructor
      · intro depth t rest v h
        rw [readValue] at h
        cases h
      · intro depth t rest items h
        rw [readItems] at h
        cases h
      · intro depth t rest row h
        rw [readFields] at h
        cases h
  | succ fuel sound => exact ⟨sound.succ_value, sound.succ_items, sound.succ_fields⟩

/-- Every value that is read can be stored again. -/
theorem storableWithin_of_read {t : Text} {v : Value} (h : read t = .ok v) :
    v.StorableWithin nestingLimit := by
  obtain ⟨⟨value, rest⟩, hValue, h⟩ := exists_of_bind_eq_ok h
  dsimp only at h
  split_ifs at h
  cases h
  exact (soundReaders _).value hValue

end ScriptEditor.Json
