import ScriptEditor.Proofs.Failing
import ScriptEditor.Proofs.Json.Fields
import ScriptEditor.Proofs.Json.Numeral
import ScriptEditor.Proofs.Json.Quoted

/-! Values survive being written and read. Whole numbers may not have too many digits, the
keys of an object have to differ, and no value may be nested too deep. -/
namespace ScriptEditor.Json

open ScriptEditor.Number
open ScriptEditor.Text (isAsciiDigit doubleQuote)

/-- Values that a text can denote. -/
inductive Value.Storable : Value → Prop
  | null : Storable .null
  | bool (b : Bool) : Storable (.bool b)
  | int {n : Int} (digits : (Text.ofNat n.natAbs).length ≤ digitLimit) : Storable (.int n)
  | float {x : Binary64} (representable : x.Representable) : Storable (.float x)
  | text (t : Utf16) : Storable (.text t)
  | list {items : List Value} (values : ∀ item ∈ items, Storable item) : Storable (.list items)
  | object {fields : Fields} (keys : (fields.map (·.1)).Nodup)
      (values : ∀ field ∈ fields, Storable field.2) : Storable (.object fields)

/-! ### Gaps -/

theorem skipGap_newLine (level : Nat) (t : Text) : skipGap (newLine level ++ t) = skipGap t := by
  apply List.dropWhile_append_of_pos
  intro c hc
  rcases List.mem_cons.mp hc with rfl | hc
  · rfl
  · rw [List.eq_of_mem_replicate hc]
    rfl

theorem skipGap_cons {c : Char} (hc : isGap c = false) (t : Text) : skipGap (c :: t) = c :: t :=
  List.dropWhile_cons_of_neg (by simp [hc])

/-! ### What values begin with -/

/-- A text that begins like a number. -/
def BeginsNumber (t : Text) : Prop :=
  ∃ negative d rest, isAsciiDigit d = true ∧ t = if negative = true then '-' :: d :: rest else d :: rest

theorem beginsNumber_ofInt (n : Int) : BeginsNumber (Text.ofInt n) := by
  obtain ⟨d, rest, hDigits⟩ := List.exists_cons_of_ne_nil (ofNat_ne_nil n.natAbs)
  have hDigit := isAsciiDigit_of_mem_ofNat (n := n.natAbs) (c := d)
    (by rw [hDigits]; exact List.mem_cons_self)
  cases n with
  | ofNat n => exact ⟨false, d, rest, hDigit, hDigits⟩
  | negSucc n => exact ⟨true, d, rest, hDigit, congrArg ('-' :: ·) hDigits⟩

theorem beginsNumber_spelling (negative : Bool) {s : Spelling} (hValid : s.Valid) :
    BeginsNumber (if negative then '-' :: s.text else s.text) := by
  have hSome : s.whole ≠ [] := by
    rcases hValid.first with hZero | hFirst
    · rw [hZero]
      exact List.cons_ne_nil _ _
    · exact hFirst.1
  obtain ⟨d, rest, hWhole⟩ := List.exists_cons_of_ne_nil hSome
  refine ⟨negative, d, rest ++ (Spelling.pointed s.fraction ++ Spelling.powered s.power),
    hValid.whole d (by rw [hWhole]; exact List.mem_cons_self), ?_⟩
  rw [Spelling.text, hWhole, List.cons_append]

theorem isAsciiDigit_ne {c d : Char} (hDigit : isAsciiDigit c = true) (hOther : isAsciiDigit d = false) :
    c ≠ d := by
  rintro rfl
  rw [hDigit] at hOther
  cases hOther

/-- A value begins neither with a gap nor with a bracket or brace that closes one. -/
def BeginsValue (t : Text) : Prop :=
  ∃ c rest, t = c :: rest ∧ isGap c = false ∧ c ≠ ']' ∧ c ≠ '\x7d'

theorem BeginsNumber.beginsValue {t : Text} (h : BeginsNumber t) : BeginsValue t := by
  obtain ⟨negative, d, rest, hDigit, rfl⟩ := h
  cases negative with
  | true => exact ⟨'-', _, rfl, by decide⟩
  | false =>
      refine ⟨d, rest, rfl, ?_, isAsciiDigit_ne hDigit rfl, isAsciiDigit_ne hDigit rfl⟩
      simp [isGap, isAsciiDigit_ne hDigit (d := ' ') rfl, isAsciiDigit_ne hDigit (d := '\t') rfl,
        isAsciiDigit_ne hDigit (d := '\n') rfl, isAsciiDigit_ne hDigit (d := '\r') rfl]

theorem writeFloat_finite (negative : Bool) (m : Nat) (e : Int) :
    writeFloat (.finite negative m e) = (Binary64.finite negative m e).toText :=
  rfl

theorem beginsValue_write {v : Value} (hStorable : v.Storable) (level : Nat) :
    BeginsValue (write level v) := by
  cases hStorable with
  | null => exact ⟨_, _, by rw [write]; rfl, by decide⟩
  | bool b =>
      rw [write]
      cases b <;> exact ⟨_, _, rfl, by decide⟩
  | @int n digits =>
      rw [write]
      exact (beginsNumber_ofInt n).beginsValue
  | @float x representable =>
      rw [write]
      cases x with
      | nan => exact ⟨_, _, rfl, by decide⟩
      | infinite negative => cases negative <;> exact ⟨_, _, rfl, by decide⟩
      | finite negative m e =>
          obtain ⟨s, hValid, -, hText⟩ := Binary64.exists_spelling representable
          rw [writeFloat_finite, hText]
          exact (beginsNumber_spelling negative hValid).beginsValue
  | text t =>
      rw [write]
      exact ⟨_, _, rfl, by decide⟩
  | @list items _ =>
      cases items <;> (rw [write]; exact ⟨_, _, rfl, by decide⟩)
  | @object fields _ _ =>
      cases fields <;> (rw [write]; exact ⟨_, _, rfl, by decide⟩)

/-! ### Single values -/

theorem readValue_quote (fuel depth : Nat) (t : Text) :
    readValue (fuel + 1) depth (doubleQuote :: t) = do
      let (s, rest) ← expect (readString t)
      return (.text s, rest) := by
  cases depth <;> rw [readValue, if_pos BEq.rfl]

theorem readValue_text (t : Utf16) (fuel depth : Nat) (rest : Text) :
    readValue (fuel + 1) depth (writeString t ++ rest) = .ok (.text t, rest) := by
  rw [writeString_append, readValue_quote, readString_writeUnits]
  rfl

/-- What begins neither a string nor a list nor an object is a word or a number. -/
theorem readValue_plain {c : Char} (hText : c ≠ doubleQuote) (hList : c ≠ '[')
    (hObject : c ≠ '\x7b') (fuel depth : Nat) (t : Text) :
    readValue (fuel + 1) depth (c :: t) =
      expect ((readWord (c :: t)).orElse fun _ => readNumber (c :: t)) := by
  cases depth <;> simp [readValue, hText, hList, hObject]

theorem readValue_number {t rest : Text} {v : Value} (hBegins : BeginsNumber t)
    (hRead : readNumber (t ++ rest) = some (v, rest)) (fuel depth : Nat) :
    readValue (fuel + 1) depth (t ++ rest) = .ok (v, rest) := by
  obtain ⟨negative, d, after, hDigit, rfl⟩ := hBegins
  have hWord := readWord_ofDigit hDigit (after ++ rest) negative
  cases negative with
  | true =>
      change readWord ('-' :: d :: (after ++ rest)) = none at hWord
      change readNumber ('-' :: d :: (after ++ rest)) = some (v, rest) at hRead
      change readValue (fuel + 1) depth ('-' :: d :: (after ++ rest)) = .ok (v, rest)
      rw [readValue_plain (by decide) (by decide) (by decide), hWord, Option.orElse, hRead]
      rfl
  | false =>
      change readWord (d :: (after ++ rest)) = none at hWord
      change readNumber (d :: (after ++ rest)) = some (v, rest) at hRead
      change readValue (fuel + 1) depth (d :: (after ++ rest)) = .ok (v, rest)
      rw [readValue_plain (isAsciiDigit_ne hDigit rfl) (isAsciiDigit_ne hDigit rfl)
        (isAsciiDigit_ne hDigit rfl), hWord, Option.orElse, hRead]
      rfl

theorem readValue_float {x : Binary64} (hRepresentable : x.Representable) {rest : Text}
    (hRest : Follows rest) (fuel depth : Nat) :
    readValue (fuel + 1) depth (writeFloat x ++ rest) = .ok (.float x, rest) := by
  cases x with
  | nan => exact readValue_plain (by decide) (by decide) (by decide) fuel depth _
  | infinite negative =>
      cases negative <;> exact readValue_plain (by decide) (by decide) (by decide) fuel depth _
  | finite negative m e =>
      obtain ⟨s, hValid, hValue, hText⟩ := Binary64.exists_spelling hRepresentable
      rw [writeFloat_finite, hText]
      apply readValue_number (beginsNumber_spelling negative hValid)
      rw [readNumber_spelling negative hValid hRest, hValue]

/-! ### Lists and objects -/

/-- Reading what is written for a value gives that value. -/
def Readable (depth : Nat) (v : Value) : Prop :=
  ∀ (level fuel : Nat) (rest : Text), (write level v).length ≤ fuel → Follows rest →
    readValue fuel depth (write level v ++ rest) = .ok (v, rest)

theorem skipGap_write {v : Value} (hStorable : v.Storable) (level : Nat) (t : Text) :
    skipGap (write level v ++ t) = write level v ++ t := by
  obtain ⟨c, rest, hWrite, hGap, -⟩ := beginsValue_write hStorable level
  rw [hWrite, List.cons_append, skipGap_cons hGap]

theorem readItems_write {depth : Nat} {item : Value} {items : List Value}
    (hStorable : ∀ v ∈ item :: items, v.Storable) (hReadable : ∀ v ∈ item :: items, Readable depth v)
    (level outer : Nat) {fuel : Nat} (rest : Text)
    (hFuel : (write level item).length + (writeItems level items).length < fuel) :
    readItems fuel depth
        (write level item ++ (writeItems level items ++ (newLine outer ++ ']' :: rest))) =
      .ok (item :: items, rest) := by
  induction items generalizing item fuel with
  | nil =>
      obtain ⟨fuel, rfl⟩ := Nat.exists_eq_succ_of_ne_zero (Nat.ne_zero_of_lt hFuel)
      have hItem := hReadable item List.mem_cons_self level fuel _ (by omega)
        (follows_newLine outer (']' :: rest))
      rw [writeItems, List.nil_append, readItems, hItem]
      simp only [ok_bind, skipGap_newLine, skipGap_cons (c := ']') rfl]
      rfl
  | cons next items ih =>
      obtain ⟨fuel, rfl⟩ := Nat.exists_eq_succ_of_ne_zero (Nat.ne_zero_of_lt hFuel)
      rw [writeItems] at hFuel ⊢
      simp only [List.length_append, List.length_cons, newLine] at hFuel
      have hItem := hReadable item List.mem_cons_self level fuel _ (by omega)
        (follows_comma (newLine level ++ (write level next ++ (writeItems level items ++
          (newLine outer ++ ']' :: rest)))))
      have hItems := @ih next (fun v hv => hStorable v (List.mem_cons_of_mem item hv))
        (fun v hv => hReadable v (List.mem_cons_of_mem item hv)) fuel (by omega)
      have hGap := skipGap_write (hStorable next (by simp)) level
        (writeItems level items ++ (newLine outer ++ ']' :: rest))
      simp only [List.cons_append, List.append_assoc] at hItem ⊢
      rw [readItems, hItem]
      simp only [ok_bind, skipGap_cons (c := ',') rfl, skipGap_newLine, hGap, hItems]
      rfl

/-- One field, and what its end leads to. -/
theorem readFields_field {depth fuel level : Nat} {key : Utf16} {value : Value}
    (hStorable : value.Storable) (hReadable : Readable depth value) {after : Text}
    (hFuel : (write level value).length ≤ fuel) (hAfter : Follows after) :
    readFields (fuel + 1) depth (writeField level (key, value) ++ after) =
      match skipGap after with
      | '\x7d' :: rest => .ok ([(key, value)], rest)
      | ',' :: rest => do
        let (row, rest) ← readFields fuel depth (skipGap rest)
        return ((key, value) :: row, rest)
      | _ => .error .malformed := by
  have hSpace : skipGap (' ' :: (write level value ++ after)) = write level value ++ after :=
    skipGap_write hStorable level after
  rw [writeField, List.append_assoc, writeString_append, readFields, if_pos BEq.rfl,
    List.cons_append, List.cons_append, readString_writeUnits]
  simp only [expect, ok_bind, skipGap_cons (c := ':') rfl, hSpace, hReadable level fuel after hFuel hAfter]
  rfl

theorem length_write_le_length_writeField (level : Nat) (field : Utf16 × Value) :
    (write level field.2).length ≤ (writeField level field).length := by
  rw [writeField, List.length_append, List.length_cons, List.length_cons]
  omega

theorem skipGap_writeField (level : Nat) (field : Utf16 × Value) (t : Text) :
    skipGap (writeField level field ++ t) = writeField level field ++ t := by
  rw [writeField, List.append_assoc, writeString_append, skipGap_cons rfl]

theorem readFields_write {depth : Nat} {field : Utf16 × Value} {fields : Fields}
    (hStorable : ∀ f ∈ field :: fields, f.2.Storable)
    (hReadable : ∀ f ∈ field :: fields, Readable depth f.2) (level outer : Nat) {fuel : Nat}
    (rest : Text)
    (hFuel : (writeField level field).length + (writeFields level fields).length < fuel) :
    readFields fuel depth
        (writeField level field ++ (writeFields level fields ++ (newLine outer ++ '\x7d' :: rest))) =
      .ok (field :: fields, rest) := by
  induction fields generalizing field fuel with
  | nil =>
      obtain ⟨fuel, rfl⟩ := Nat.exists_eq_succ_of_ne_zero (Nat.ne_zero_of_lt hFuel)
      have hLength := length_write_le_length_writeField level field
      rw [writeFields, List.nil_append, readFields_field (hStorable field List.mem_cons_self)
        (hReadable field List.mem_cons_self) (by omega) (follows_newLine outer _), skipGap_newLine,
        skipGap_cons rfl]
      rfl
  | cons next fields ih =>
      obtain ⟨fuel, rfl⟩ := Nat.exists_eq_succ_of_ne_zero (Nat.ne_zero_of_lt hFuel)
      have hLength := length_write_le_length_writeField level field
      rw [writeFields] at hFuel ⊢
      simp only [List.length_append, List.length_cons, newLine] at hFuel
      have hFields := @ih next (fun f hf => hStorable f (List.mem_cons_of_mem field hf))
        (fun f hf => hReadable f (List.mem_cons_of_mem field hf)) fuel (by omega)
      simp only [List.cons_append, List.append_assoc]
      rw [readFields_field (hStorable field List.mem_cons_self)
        (hReadable field List.mem_cons_self) (by omega) (follows_comma _), skipGap_cons rfl]
      simp only [skipGap_newLine, skipGap_writeField, hFields, ok_bind]
      rfl

theorem readable_list {depth : Nat} {items : List Value} (hStorable : ∀ v ∈ items, v.Storable)
    (hReadable : ∀ v ∈ items, Readable depth v) : Readable (depth + 1) (.list items) := by
  intro level fuel rest hFuel hRest
  cases items with
  | nil =>
      rw [write] at hFuel ⊢
      obtain ⟨fuel, rfl⟩ := Nat.exists_eq_succ_of_ne_zero (Nat.ne_zero_of_lt hFuel)
      rfl
  | cons item items =>
      obtain ⟨c, after, hWrite, -, hClosed, -⟩ :=
        beginsValue_write (hStorable item List.mem_cons_self) (level + 1)
      rw [write] at hFuel ⊢
      simp only [List.length_append, List.length_cons, newLine] at hFuel
      obtain ⟨fuel, rfl⟩ := Nat.exists_eq_succ_of_ne_zero (Nat.ne_zero_of_lt hFuel)
      have hItems := @readItems_write _ _ _ hStorable hReadable (level + 1) level fuel rest (by omega)
      have hGap := skipGap_write (hStorable item List.mem_cons_self) (level + 1)
        (writeItems (level + 1) items ++ (newLine level ++ ']' :: rest))
      simp only [List.cons_append, List.append_assoc, List.nil_append]
      rw [readValue, if_neg (by decide), if_pos BEq.rfl, skipGap_newLine, hGap]
      rw [hWrite, List.cons_append] at hItems ⊢
      split
      next hOpen => exact absurd (List.cons.inj hOpen).1 hClosed
      next =>
        rw [hItems]
        rfl

theorem readable_object {depth : Nat} {fields : Fields} (hKeys : (fields.map (·.1)).Nodup)
    (hStorable : ∀ f ∈ fields, f.2.Storable) (hReadable : ∀ f ∈ fields, Readable depth f.2) :
    Readable (depth + 1) (.object fields) := by
  intro level fuel rest hFuel hRest
  cases fields with
  | nil =>
      rw [write] at hFuel ⊢
      obtain ⟨fuel, rfl⟩ := Nat.exists_eq_succ_of_ne_zero (Nat.ne_zero_of_lt hFuel)
      rfl
  | cons field fields =>
      rw [write] at hFuel ⊢
      simp only [List.length_append, List.length_cons, newLine] at hFuel
      obtain ⟨fuel, rfl⟩ := Nat.exists_eq_succ_of_ne_zero (Nat.ne_zero_of_lt hFuel)
      have hFields := @readFields_write _ _ _ hStorable hReadable (level + 1) level fuel rest
        (by omega)
      have hGap := skipGap_writeField (level + 1) field
        (writeFields (level + 1) fields ++ (newLine level ++ '\x7d' :: rest))
      simp only [List.cons_append, List.append_assoc, List.nil_append]
      rw [readValue, if_neg (by decide), if_neg (by decide), if_pos BEq.rfl, skipGap_newLine, hGap]
      -- A field begins with the quote of its key.
      rw [writeField, List.append_assoc, writeString_append] at hFields ⊢
      split
      next hOpen => exact absurd (List.cons.inj hOpen).1 (by decide)
      next =>
        rw [hFields, ok_bind]
        exact congrArg (fun row => Except.ok (Value.object row, rest)) (Fields.ofRow_eq_self hKeys)

/-! ### Whole values -/

theorem readable_scalar {v : Value} (hStorable : v.Storable) (hList : ∀ items, v ≠ .list items)
    (hObject : ∀ fields, v ≠ .object fields) (depth : Nat) : Readable depth v := by
  intro level fuel rest hFuel hRest
  obtain ⟨c, t, hWrite, -⟩ := beginsValue_write hStorable level
  obtain ⟨fuel, rfl⟩ : ∃ k, fuel = k + 1 :=
    Nat.exists_eq_succ_of_ne_zero (by rintro rfl; simp [hWrite] at hFuel)
  cases hStorable with
  | null =>
      rw [write]
      exact readValue_plain (by decide) (by decide) (by decide) fuel depth _
  | bool b =>
      rw [write]
      cases b <;> exact readValue_plain (by decide) (by decide) (by decide) fuel depth _
  | @int n digits =>
      rw [write]
      exact readValue_number (beginsNumber_ofInt n) (readNumber_ofInt digits hRest) fuel depth
  | float representable =>
      rw [write]
      exact readValue_float representable hRest fuel depth
  | text t =>
      rw [write]
      exact readValue_text t fuel depth rest
  | list _ => exact absurd rfl (hList _)
  | object _ _ => exact absurd rfl (hObject _)

/-- Values read back as far as they may be nested. -/
theorem readable_of_storable {v : Value} (hStorable : v.Storable) {depth : Nat}
    (hDepth : v.depth ≤ depth) : Readable depth v := by
  induction depth generalizing v with
  | zero =>
      apply readable_scalar hStorable
      · rintro items rfl
        exact absurd hDepth (by rw [Value.depth]; omega)
      · rintro fields rfl
        exact absurd hDepth (by rw [Value.depth]; omega)
  | succ depth ih =>
      cases hStorable with
      | list values =>
          rw [Value.depth, Nat.add_le_add_iff_right, itemsDepth_le_iff] at hDepth
          exact readable_list values fun v hv => ih (values v hv) (hDepth v hv)
      | object keys values =>
          rw [Value.depth, Nat.add_le_add_iff_right, fieldsDepth_le_iff] at hDepth
          exact readable_object keys values fun f hf => ih (values f hf) (hDepth f hf)
      | null => exact readable_scalar .null nofun nofun _
      | bool b => exact readable_scalar (.bool b) nofun nofun _
      | int digits => exact readable_scalar (.int digits) nofun nofun _
      | float representable => exact readable_scalar (.float representable) nofun nofun _
      | text t => exact readable_scalar (.text t) nofun nofun _

/-- A value that can be stored and is not nested too deep is read from what is written for it. -/
theorem read_render {v : Value} (hStorable : v.Storable) (hDepth : v.depth ≤ nestingLimit) :
    read (render v) = .ok v := by
  have hGap := skipGap_write hStorable 0 []
  have hRead := readable_of_storable hStorable hDepth 0 (2 * (render v).length + 2) []
    (by rw [render]; omega) follows_nil
  rw [List.append_nil] at hGap hRead
  rw [read, render, hGap]
  rw [render] at hRead
  rw [hRead]
  rfl

/-! ### Line ends -/

theorem not_mem_of_digits {t : Text} (hDigits : ∀ c ∈ t, isAsciiDigit c = true) {c : Char}
    (hc : isAsciiDigit c = false) : c ∉ t :=
  fun hMem => isAsciiDigit_ne (hDigits c hMem) hc rfl

theorem return_not_mem_spelling {s : Spelling} (hValid : s.Valid) : '\r' ∉ s.text := by
  have hPointed : '\r' ∉ Spelling.pointed s.fraction := by
    unfold Spelling.pointed
    split_ifs
    · exact List.not_mem_nil
    · simp [not_mem_of_digits hValid.fraction (c := '\r') rfl]
  have hPowered : '\r' ∉ Spelling.powered s.power := by
    cases s.power with
    | none => exact List.not_mem_nil
    | some n =>
        have hSize : '\r' ∉ Text.ofNat n.natAbs :=
          not_mem_of_digits (fun c => isAsciiDigit_of_mem_ofNat) rfl
        by_cases hSign : 0 ≤ n <;> simp [Spelling.powered, hSign, hSize]
  simp [Spelling.text, not_mem_of_digits hValid.whole (c := '\r') rfl, hPointed, hPowered]

theorem return_not_mem_writeString (t : Utf16) : '\r' ∉ writeString t := by
  have hUnits : '\r' ∉ t.flatMap writeUnit := by
    rw [List.mem_flatMap]
    rintro ⟨u, -, hu⟩
    exact return_not_mem_writeUnit u hu
  have hQuote : '\r' ≠ doubleQuote := by decide
  simp [writeString, hUnits, hQuote]

theorem return_not_mem_newLine (level : Nat) : '\r' ∉ newLine level := by
  simp [newLine]

theorem return_not_mem_writeItems {level : Nat} {items : List Value}
    (h : ∀ v ∈ items, '\r' ∉ write level v) : '\r' ∉ writeItems level items := by
  induction items with
  | nil =>
      rw [writeItems]
      exact List.not_mem_nil
  | cons item items ih =>
      rw [writeItems]
      simp [return_not_mem_newLine, h item List.mem_cons_self,
        ih fun v hv => h v (List.mem_cons_of_mem item hv)]

theorem return_not_mem_writeField {level : Nat} {field : Utf16 × Value}
    (h : '\r' ∉ write level field.2) : '\r' ∉ writeField level field := by
  rw [writeField]
  simp [return_not_mem_writeString, h]

theorem return_not_mem_writeFields {level : Nat} {fields : Fields}
    (h : ∀ f ∈ fields, '\r' ∉ write level f.2) : '\r' ∉ writeFields level fields := by
  induction fields with
  | nil =>
      rw [writeFields]
      exact List.not_mem_nil
  | cons field fields ih =>
      rw [writeFields]
      simp [return_not_mem_newLine, return_not_mem_writeField (h field List.mem_cons_self),
        ih fun f hf => h f (List.mem_cons_of_mem field hf)]

/-- Lines are ended in one way only. -/
theorem return_not_mem_write {v : Value} (hStorable : v.Storable) (level : Nat) :
    '\r' ∉ write level v := by
  induction hStorable generalizing level with
  | null =>
      rw [write]
      decide
  | bool b =>
      rw [write]
      cases b <;> decide
  | @int n digits =>
      have hDigits : '\r' ∉ Text.ofNat n.natAbs :=
        not_mem_of_digits (fun c => isAsciiDigit_of_mem_ofNat) rfl
      rw [write]
      cases n with
      | ofNat n => exact hDigits
      | negSucc n => exact List.not_mem_cons_of_ne_of_not_mem (by decide) hDigits
  | @float x representable =>
      rw [write]
      cases x with
      | nan => decide
      | infinite negative => cases negative <;> decide
      | finite negative m e =>
          obtain ⟨s, hValid, -, hText⟩ := Binary64.exists_spelling representable
          rw [writeFloat_finite, hText]
          cases negative <;> simp [return_not_mem_spelling hValid]
  | text t =>
      rw [write]
      exact return_not_mem_writeString t
  | @list items _ ih =>
      cases items with
      | nil =>
          rw [write]
          decide
      | cons item items =>
          rw [write]
          simp [return_not_mem_newLine, ih item List.mem_cons_self,
            return_not_mem_writeItems fun v hv => ih v (List.mem_cons_of_mem item hv) _]
  | @object fields _ _ ih =>
      cases fields with
      | nil =>
          rw [write]
          decide
      | cons field fields =>
          rw [write]
          simp [return_not_mem_newLine, return_not_mem_writeField (ih field List.mem_cons_self _),
            return_not_mem_writeFields fun f hf => ih f (List.mem_cons_of_mem field hf) _]

end ScriptEditor.Json
