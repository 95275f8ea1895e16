import ScriptEditor.Proofs.Preferences.Stored

/-! Preferences that are loaded from any file. Whatever is at the path, they are complete and
usable: what the file says is kept where it can be, the rest are the defaults, and every whole
number that is not the one in the file is warned of. Loading fails only for a path that is too
long to be looked up and for values that are nested too deep. -/
namespace ScriptEditor.Json.Fields

theorem get?_append (fields more : Fields) (key : Utf16) :
    get? (fields ++ more) key = (fields.get? key).or (more.get? key) := by
  rw [get?, List.find?_append]
  cases hFound : fields.find? fun f => f.1 == key <;> simp [get?, hFound]

theorem get?_map (g : Utf16 → Value → Value) (fields : Fields) (key : Utf16) :
    get? (fields.map fun f => (f.1, g f.1 f.2)) key = (fields.get? key).map (g key) := by
  induction fields with
  | nil => rfl
  | cons f fields ih =>
      unfold get? at ih ⊢
      by_cases hKey : f.1 = key
      · simp [hKey]
      · simpa [hKey] using ih

theorem get?_filter (keep : Utf16 → Bool) (fields : Fields) (key : Utf16) :
    get? (fields.filter fun f => keep f.1) key = if keep key then fields.get? key else none := by
  induction fields with
  | nil => simp [get?]
  | cons f fields ih =>
      unfold get? at ih ⊢
      by_cases hKey : f.1 = key
      · subst hKey
        by_cases hKeep : keep f.1 = true
        · simp [hKeep]
        · simpa [hKeep] using ih
      · by_cases hKeep : keep f.1 = true <;> simpa [hKeep, hKey] using ih

end ScriptEditor.Json.Fields

namespace ScriptEditor.Files.Store

variable {s : Store} {p : Path} {bytes : List UInt8}

theorem has_of_read (h : s.read p = .ok bytes) : s.has p = .ok true := by
  obtain ⟨place, hPlace, h⟩ := exists_of_bind_eq_ok h
  split at h
  next found hFound =>
    rw [has, hPlace]
    dsimp only
    rw [hFound]
    rfl
  next => cases h
  next => cases h

/-- Only a path that is too long cannot be looked up. -/
theorem has_eq_error_iff {fault : OpenFault} :
    s.has p = .error fault ↔
      fault = .refused .nameTooLong p ∧ s.placeOf p = .error (.refused .nameTooLong p) := by
  have hPath {cause : Cause} {path : Path} (h : s.placeOf p = .error (.refused cause path)) :
      path = p := by
    unfold placeOf at h
    split_ifs at h
    · cases h
    · cases h
      rfl
    · cases hWalk : s.walk p.base p.parts with
      | ok place =>
          rw [hWalk] at h
          cases h
      | error cause =>
          rw [hWalk] at h
          cases h
          rfl
  unfold has
  split
  next place hPlace => exact iff_of_false nofun fun h => by rw [hPlace] at h; cases h.2
  next path hLong =>
    obtain rfl := hPath hLong
    constructor
    · intro h
      cases h
      exact ⟨rfl, hLong⟩
    · rintro ⟨rfl, -⟩
      rfl
  next other hOther hPlace =>
    refine iff_of_false nofun fun h => ?_
    exact hOther p (Except.error.inj (hPlace.symm.trans h.2))

end ScriptEditor.Files.Store

namespace ScriptEditor.Preferences

open ScriptEditor.Json
open ScriptEditor.Files (Path Store)

/-- There is a file at the path, and its text denotes this object. -/
def HoldsObject (s : Store) (p : Path) (object : Fields) : Prop :=
  ∃ bytes t, s.read p = .ok bytes ∧ Utf8.decode bytes = .ok t ∧
    Json.read (Text.unifyLineEnds t) = .ok (.object object)

/-- There is a file at the path, and its text nests lists and objects deeper than is read. -/
def NestsTooDeep (s : Store) (p : Path) (nest : Nest) : Prop :=
  ∃ bytes t, s.read p = .ok bytes ∧ Utf8.decode bytes = .ok t ∧
    Json.read (Text.unifyLineEnds t) = .error (.tooDeep nest)

/-- Whether a warning is about a preference. -/
def Warning.concerns (key : Utf16) : Warning → Bool
  | .replaced other _ => other == key
  | _ => false

/-- A whole number as it was read: that in the object, or the default if the object has none. -/
def wholeRead (object : Fields) (w : Utf16 × Int) : Value :=
  (object.get? w.1).getD (.int w.2)

/-- Preferences that can be used, made from an object. None is missing, and the whole numbers are
positive; one that is positive in the object is taken. The keys stand as in the object, the missing
ones behind them, and all other values are kept. There is one warning for each whole number that
is not the value read. -/
structure Usable (object fields : Fields) (warnings : List Warning) : Prop where
  complete : ∀ d ∈ defaults, d.1 ∈ fields.map (·.1)
  positive : ∀ w ∈ wholeKeys, ∃ n, 0 < n ∧ fields.get? w.1 = some (.int n)
  taken : ∀ w ∈ wholeKeys, ∀ n, 0 < n → wholeRead object w = .int n →
    fields.get? w.1 = some (.int n)
  order : fields.map (·.1) = object.map (·.1) ++
    (defaults.filter fun d => !object.any fun f => f.1 == d.1).map (·.1)
  kept : ∀ key, key ∉ wholeKeys.map (·.1) →
    fields.get? key = (object.get? key).or (Fields.get? defaults key)
  warned : ∀ w ∈ wholeKeys, ∀ n, fields.get? w.1 = some (.int n) →
    (wholeRead object w = .int n → warnings.filter (Warning.concerns w.1) = []) ∧
    (wholeRead object w ≠ .int n → warnings.filter (Warning.concerns w.1) = [.replaced w.1 n])

variable {s : Store} {p : Path} {object fields : Fields} {warnings : List Warning} {w : Utf16 × Int}

/-! ### Values -/

theorem get?_fill (object : Fields) (key : Utf16) :
    (fill object).get? key = (object.get? key).or (Fields.get? defaults key) := by
  have hMissing := Fields.get?_filter (fun key => !object.any fun f => f.1 == key) defaults key
  rw [fill_eq, Fields.get?_append, hMissing, any_eq_isSome_get?]
  cases object.get? key <;> simp

theorem get?_completed (object : Fields) (key : Utf16) :
    (completed object).get? key =
      ((object.get? key).or (Fields.get? defaults key)).map (usable key) := by
  rw [completed, ← fill_eq, Fields.get?_map, get?_fill]

theorem get?_defaults_of_mem (hw : w ∈ wholeKeys) : Fields.get? defaults w.1 = some (.int w.2) := by
  simp only [wholeKeys, List.mem_cons, List.not_mem_nil, or_false] at hw
  rcases hw with rfl | rfl | rfl <;> rfl

theorem get?_fill_of_mem (hw : w ∈ wholeKeys) :
    (fill object).get? w.1 = some (wholeRead object w) := by
  rw [get?_fill, get?_defaults_of_mem hw, wholeRead]
  cases object.get? w.1 <;> rfl

theorem get?_completed_of_mem (hw : w ∈ wholeKeys) :
    (completed object).get? w.1 = some (.int (positiveOr w.2 (wholeRead object w))) := by
  rw [get?_completed, ← get?_fill, get?_fill_of_mem hw, Option.map_some, usable_of_mem hw]

theorem usable_of_not_mem {key : Utf16} (h : key ∉ wholeKeys.map (·.1)) (v : Value) :
    usable key v = v := by
  have hNone : wholeKeys.find? (fun w => w.1 == key) = none := by
    rw [List.find?_eq_none]
    intro w hw
    rw [beq_iff_eq]
    exact fun hKey => h (hKey ▸ List.mem_map_of_mem hw)
  rw [usable, hNone]

/-! ### Warnings -/

/-- What the repair of one whole number says. -/
def notice (fields : Fields) (w : Utf16 × Int) : List Warning :=
  let value := (fields.get? w.1).getD .null
  if isWholeNumber value (positiveOr w.2 value) then [] else [.replaced w.1 (positiveOr w.2 value)]

theorem repairOne_eq (fields : Fields) (warnings : List Warning) (w : Utf16 × Int) :
    repairOne (fields, warnings) w =
      (fields.put w.1 (.int (positiveOr w.2 ((fields.get? w.1).getD .null))),
        warnings ++ notice fields w) := rfl

theorem notice_put {x : Utf16 × Int} (hOther : x.1 ≠ w.1) (value : Value) :
    notice (fields.put w.1 value) x = notice fields x := by
  rw [notice, Fields.get?_put, if_neg hOther, notice]

/-- Repairs of different keys do not see each other. -/
theorem snd_foldl_repairOne {whole : List (Utf16 × Int)} (hWhole : (whole.map (·.1)).Nodup)
    (fields : Fields) (warnings : List Warning) :
    (whole.foldl repairOne (fields, warnings)).2 = warnings ++ whole.flatMap (notice fields) := by
  induction whole generalizing fields warnings with
  | nil => exact (List.append_nil _).symm
  | cons w whole ih =>
      rw [List.map_cons, List.nodup_cons] at hWhole
      have hRest : whole.flatMap (notice (fields.put w.1
          (.int (positiveOr w.2 ((fields.get? w.1).getD .null))))) = whole.flatMap (notice fields) := by
        apply List.flatMap_congr
        intro x hx
        exact notice_put (fun hKey => hWhole.1 (hKey ▸ List.mem_map_of_mem hx)) _
      rw [List.foldl_cons, repairOne_eq, ih hWhole.2, hRest, List.flatMap_cons, List.append_assoc]

theorem filter_notice (fields : Fields) (x : Utf16 × Int) (key : Utf16) :
    (notice fields x).filter (Warning.concerns key) = if x.1 = key then notice fields x else [] := by
  unfold notice
  dsimp only
  split_ifs with hWhole hKey hKey <;> simp [Warning.concerns, hKey]

/-- Of the warnings of all repairs one is about a whole number, if it was repaired. -/
theorem filter_flatMap_notice {whole : List (Utf16 × Int)} (hWhole : (whole.map (·.1)).Nodup)
    (hw : w ∈ whole) (fields : Fields) :
    (whole.flatMap (notice fields)).filter (Warning.concerns w.1) = notice fields w := by
  induction whole with
  | nil => cases hw
  | cons x whole ih =>
      rw [List.map_cons, List.nodup_cons] at hWhole
      rw [List.flatMap_cons, List.filter_append, filter_notice]
      rcases List.mem_cons.mp hw with rfl | hLater
      · have hOthers : (whole.flatMap (notice fields)).filter (Warning.concerns w.1) = [] := by
          rw [List.filter_flatMap, List.flatMap_eq_nil_iff]
          intro x hx
          rw [filter_notice, if_neg]
          exact fun hKey => hWhole.1 (hKey ▸ List.mem_map_of_mem hx)
        rw [if_pos rfl, hOthers, List.append_nil]
      · rw [if_neg, ih hWhole.2 hLater, List.nil_append]
        exact fun hKey => hWhole.1 (hKey ▸ List.mem_map_of_mem hLater)

theorem isWholeNumber_iff {v : Value} {n : Int} : isWholeNumber v n = true ↔ v = .int n := by
  cases v <;> simp [isWholeNumber]

/-- What is made from an object with distinct keys is usable, whatever else was warned of. -/
theorem usable_repair_fill (hKeys : (object.map (·.1)).Nodup)
    (hOthers : ∀ key, warnings.filter (Warning.concerns key) = []) :
    Usable object (repair (fill object)).1 (warnings ++ (repair (fill object)).2) := by
  have hSettled := settled_completed hKeys
  rw [fst_repair_fill hKeys]
  refine ⟨hSettled.complete, ?_, ?_, ?_, ?_, ?_⟩
  · intro w hw
    obtain ⟨n, hValue, hPositive⟩ := hSettled.whole w hw
    exact ⟨n, hPositive, hValue⟩
  · intro w hw n hPositive hRead
    rw [get?_completed_of_mem hw, hRead, positiveOr_int _ hPositive]
  · rw [keys_completed, fill_eq, List.map_append]
  · intro key hKey
    rw [get?_completed]
    cases (object.get? key).or (Fields.get? defaults key) with
    | none => rfl
    | some v => exact congrArg some (usable_of_not_mem hKey v)
  · intro w hw n hValue
    rw [get?_completed_of_mem hw] at hValue
    cases hValue
    have hWarnings : (warnings ++ (repair (fill object)).2).filter (Warning.concerns w.1) =
        notice (fill object) w := by
      rw [repair, snd_foldl_repairOne keys_wholeKeys, List.nil_append, List.filter_append,
        hOthers, List.nil_append, filter_flatMap_notice keys_wholeKeys hw]
    rw [hWarnings, notice, get?_fill_of_mem hw, Option.getD_some]
    exact ⟨fun hSame => if_pos (isWholeNumber_iff.mpr hSame),
      fun hOther => if_neg (isWholeNumber_iff.not.mpr hOther)⟩

/-! ### Files -/

theorem readObject_of_read {bytes : List UInt8} (h : s.read p = .ok bytes) :
    readObject s p = objectOf bytes := by
  rw [readObject, Store.has_of_read h, h]

theorem HoldsObject.readObject_eq (h : HoldsObject s p object) :
    readObject s p = .ok (object, []) := by
  obtain ⟨bytes, t, hRead, hText, hValue⟩ := h
  rw [readObject_of_read hRead, objectOf, hText]
  dsimp only
  rw [hValue]

theorem NestsTooDeep.readObject_eq {nest : Nest} (h : NestsTooDeep s p nest) :
    readObject s p = .error (.nesting nest) := by
  obtain ⟨bytes, t, hRead, hText, hValue⟩ := h
  rw [readObject_of_read hRead, objectOf, hText]
  dsimp only
  rw [hValue]

theorem HoldsObject.unique {other : Fields} (h : HoldsObject s p object)
    (h' : HoldsObject s p other) : object = other :=
  congrArg Prod.fst (Except.ok.inj (h.readObject_eq.symm.trans h'.readObject_eq))

/-- A file that is warned of as a whole holds no object. -/
theorem not_holdsObject_of_warned {warning : Warning}
    (h : readObject s p = .ok ([], [warning])) (object : Fields) : ¬ HoldsObject s p object := by
  intro hHolds
  cases h.symm.trans hHolds.readObject_eq

/-- What reading the object at a path comes to: nothing because of the path or because of its
depth, the object that the file holds, or an empty one. -/
theorem readObject_cases (s : Store) (p : Path) :
    (∃ fault, s.has p = .error fault ∧ readObject s p = .error (.lookUp fault)) ∨
    (∃ nest, NestsTooDeep s p nest ∧ readObject s p = .error (.nesting nest)) ∨
    (∃ object, HoldsObject s p object ∧ readObject s p = .ok (object, [])) ∨
    (∀ object, ¬ HoldsObject s p object) ∧ ∃ warnings, readObject s p = .ok ([], warnings) ∧
      ∀ key, warnings.filter (Warning.concerns key) = [] := by
  cases hRead : s.read p with
  | error fault =>
      have hNone (object : Fields) : ¬ HoldsObject s p object := by
        rintro ⟨bytes, t, hBytes, -⟩
        rw [hRead] at hBytes
        cases hBytes
      unfold readObject
      rw [hRead]
      split
      next fault hHas => exact Or.inl ⟨fault, hHas, rfl⟩
      next => exact Or.inr (Or.inr (Or.inr ⟨hNone, [], rfl, fun _ => rfl⟩))
      next => exact Or.inr (Or.inr (Or.inr ⟨hNone, [.unreadable], rfl, fun _ => rfl⟩))
  | ok bytes =>
      right
      have hBytes := readObject_of_read hRead
      unfold objectOf at hBytes
      split at hBytes
      next =>
        exact Or.inr (Or.inr ⟨not_holdsObject_of_warned hBytes, _, hBytes, fun _ => rfl⟩)
      next t hText =>
        split at hBytes
        next =>
          exact Or.inr (Or.inr ⟨not_holdsObject_of_warned hBytes, _, hBytes, fun _ => rfl⟩)
        next nest hValue => exact Or.inl ⟨nest, ⟨bytes, t, hRead, hText, hValue⟩, hBytes⟩
        next object hValue =>
          exact Or.inr (Or.inl ⟨object, ⟨bytes, t, hRead, hText, hValue⟩, hBytes⟩)
        next =>
          exact Or.inr (Or.inr ⟨not_holdsObject_of_warned hBytes, _, hBytes, fun _ => rfl⟩)

theorem HoldsObject.nodup_keys (h : HoldsObject s p object) : (object.map (·.1)).Nodup := by
  obtain ⟨bytes, t, -, -, hValue⟩ := h
  exact (storableWithin_fields (storableWithin_of_read hValue)).2.1

theorem load_eq_error_iff {fault : LoadFault} :
    load s p = .error fault ↔ readObject s p = .error fault := by
  unfold load
  cases readObject s p with
  | ok result => exact iff_of_false nofun nofun
  | error other => exact ⟨fun h => by cases h; rfl, fun h => by cases h; rfl⟩

theorem readObject_eq_error_iff {fault : LoadFault} :
    readObject s p = .error fault ↔
      (fault = .lookUp (.refused .nameTooLong p) ∧
        s.placeOf p = .error (.refused .nameTooLong p)) ∨
      ∃ nest, fault = .nesting nest ∧ NestsTooDeep s p nest := by
  constructor
  · intro hFault
    rcases readObject_cases s p with ⟨lookUp, hHas, hRead⟩ | ⟨nest, hDeep, hRead⟩ | ⟨object, -, hRead⟩ |
      ⟨-, warnings, hRead, -⟩
    · obtain ⟨rfl, hPlace⟩ := Store.has_eq_error_iff.mp hHas
      exact Or.inl ⟨Except.error.inj (hFault.symm.trans hRead), hPlace⟩
    · exact Or.inr ⟨nest, Except.error.inj (hFault.symm.trans hRead), hDeep⟩
    · rw [hRead] at hFault
      cases hFault
    · rw [hRead] at hFault
      cases hFault
  · rintro (⟨rfl, hPlace⟩ | ⟨nest, rfl, hDeep⟩)
    · rw [readObject, Store.has_eq_error_iff.mpr ⟨rfl, hPlace⟩]
    · exact hDeep.readObject_eq

/-- Loading fails exactly for a path that is too long to be looked up and for values that are
nested too deep. Everything else that can be at the path gives preferences that can be used, made
from the object in the file, and the defaults if there is no object. -/
theorem load_usable (s : Store) (p : Path) :
    (∀ fault, load s p = .error fault ↔
      (fault = .lookUp (.refused .nameTooLong p) ∧
        s.placeOf p = .error (.refused .nameTooLong p)) ∨
      ∃ nest, fault = .nesting nest ∧ NestsTooDeep s p nest) ∧
    ∀ fields warnings, load s p = .ok (fields, warnings) →
      (∀ object, HoldsObject s p object → Usable object fields warnings) ∧
      ((∀ object, ¬ HoldsObject s p object) → fields = defaults ∧ Usable [] fields warnings) := by
  refine ⟨fun fault => load_eq_error_iff.trans readObject_eq_error_iff, fun fields warnings hLoad => ?_⟩
  have hFault (fault : LoadFault) : readObject s p ≠ .error fault := by
    intro hRead
    rw [load_eq_error_iff.mpr hRead] at hLoad
    cases hLoad
  rcases readObject_cases s p with ⟨fault, -, hRead⟩ | ⟨nest, -, hRead⟩ | ⟨object, hHolds, hRead⟩ |
    ⟨hNone, others, hRead, hOthers⟩
  · exact absurd hRead (hFault _)
  · exact absurd hRead (hFault _)
  · rw [load_of_readObject hRead] at hLoad
    cases hLoad
    refine ⟨fun other hOther => ?_, fun hNone => absurd hHolds (hNone object)⟩
    obtain rfl := hHolds.unique hOther
    exact usable_repair_fill hHolds.nodup_keys fun _ => rfl
  · rw [load_of_readObject hRead] at hLoad
    cases hLoad
    have hKeys : (([] : Fields).map (·.1)).Nodup := List.nodup_nil
    refine ⟨fun object hHolds => absurd hHolds (hNone object), fun _ => ⟨?_, ?_⟩⟩
    · rw [fst_repair_fill hKeys]
      rfl
    · exact usable_repair_fill hKeys hOthers

/-- A file with a text for one whole number and a negative number for another: the text is taken
as the number it spells and the negative number is not taken, each with a warning. -/
theorem load_usable_mixed :
    ∃ s warnings,
      HoldsObject s (.ofText "p".toList) mixedPreferences ∧
        load s (.ofText "p".toList) = .ok (completed mixedPreferences, warnings) ∧
        Usable mixedPreferences (completed mixedPreferences) warnings ∧
        warnings = [.replaced tabWidthKey 8, .replaced timeoutKey 2500] := by
  have hHolds : HoldsObject
      (Store.empty.put [['p']] (.file (Utf8.encode (render (.object mixedPreferences)))))
      (.ofText "p".toList) mixedPreferences := by
    refine ⟨_, _, rfl, Utf8.decode_encode _, ?_⟩
    rw [render, Text.unifyLineEnds_of_not_mem (return_not_mem_write storable_mixedPreferences 0),
      ← render, read_render storable_mixedPreferences (by decide)]
  have hLoad := load_of_readObject hHolds.readObject_eq
  rw [fst_repair_fill hHolds.nodup_keys] at hLoad
  exact ⟨_, _, hHolds, hLoad, ((load_usable _ _).2 _ _ hLoad).1 _ hHolds, by decide⟩

/-- A name of one character more than the longest has no preferences, not even the defaults. -/
theorem load_of_long_name :
    load .empty (.ofText (List.replicate (Files.longestName + 1) 'a')) =
      .error (.lookUp (.refused .nameTooLong
        (.ofText (List.replicate (Files.longestName + 1) 'a')))) := by
  have hPlace : Store.empty.placeOf (.ofText (List.replicate (Files.longestName + 1) 'a')) =
      .error (.refused .nameTooLong (.ofText (List.replicate (Files.longestName + 1) 'a'))) := by
    decide +kernel
  exact load_eq_error_iff.mpr (readObject_eq_error_iff.mpr (Or.inl ⟨rfl, hPlace⟩))

end ScriptEditor.Preferences
