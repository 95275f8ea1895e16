import Mathlib.Data.List.Induction
import ScriptEditor.Proofs.Indent.Level

/-! Documents whose lines stand where their levels put them. In such a document the
nearest line with code tells the level of the next line, so that deciding about one
line of the finished document agrees with counting levels from its top. The result of
indenting a document is therefore the only layout of its lines that every single
decision leaves as it is. -/
namespace ScriptEditor.Indent

open ScriptEditor.Script (Role hasCode)

variable {mark : Text} {tabWidth : Int}

/-- Every line with code stands at the column of its level, the first of them
beginning at a level. The other lines may stand anywhere. -/
def Aligned (mark : Text) (tabWidth : Int) : Nat → List Text → Prop
  | _, [] => True
  | level, line :: rest =>
    (hasCode mark line = true →
      width tabWidth line = ownLevel (Role.ofLine mark line) level * tabWidth) ∧
    Aligned mark tabWidth (levelAfter mark level line) rest

theorem aligned_append {level : Nat} {front back : List Text} :
    Aligned mark tabWidth level (front ++ back) ↔
      Aligned mark tabWidth level front ∧
        Aligned mark tabWidth (levelAfterAll mark level front) back := by
  induction front generalizing level with
  | nil => simp [Aligned]
  | cons line front ih => simp [Aligned, ih, and_assoc]

/-- Lines of which each stands at the column of its level, blank ones too, are aligned
and have the levels of their texts. -/
theorem aligned_spaces_outline (hMark : MarkApart mark) (hWidth : 1 ≤ tabWidth)
    {texts : List Text} (hTexts : ∀ text ∈ texts, body text = text) (level : Nat) :
    let lines := (outline mark level texts).map fun entry => spaces (entry.2 * tabWidth) ++ entry.1
    Aligned mark tabWidth level lines ∧
      levelAfterAll mark level lines = levelAfterAll mark level texts := by
  induction texts generalizing level with
  | nil => exact ⟨trivial, rfl⟩
  | cons text texts ih =>
      have hText : body text = text := hTexts text (List.mem_cons_self ..)
      let column : Int := ownLevel (Role.ofLine mark text) level * tabWidth
      have hColumn : 0 ≤ column := level_mul_nonneg hWidth _
      have hBody : body (spaces column ++ text) = body text := body_spaces_append column text
      have hAfter := levelAfter_eq_of_body_eq hMark hBody level
      have hReached : width tabWidth (spaces column ++ text) = column := by
        have hReached := width_spaces_append tabWidth text hColumn
        rwa [hText] at hReached
      obtain ⟨hAligned, hLevel⟩ := ih (fun x hx => hTexts x (List.mem_cons_of_mem _ hx))
        (levelAfter mark level text)
      refine ⟨⟨fun _ => ?_, ?_⟩, ?_⟩
      · rw [hReached, ofLine_eq_of_body_eq hMark hBody]
      · rw [hAfter]
        exact hAligned
      · simp only [outline, List.map_cons, levelAfterAll_cons]
        rw [hAfter]
        exact hLevel

theorem lastCode?_append (mark : Text) (front back : List Text) :
    lastCode? mark (front ++ back) =
      ((lastCode? mark back).map fun found => (front.length + found.1, found.2)).or
        (lastCode? mark front) := by
  induction front with
  | nil => cases hBack : lastCode? mark back <;> simp [lastCode?, hBack]
  | cons line front ih =>
      rw [List.cons_append, lastCode?, ih]
      cases lastCode? mark back with
      | none => simp [lastCode?]
      | some found => simp; omega

theorem lastCode?_concat (mark : Text) (front : List Text) (line : Text) :
    lastCode? mark (front ++ [line]) =
      if hasCode mark line then some (front.length, line) else lastCode? mark front := by
  rw [lastCode?_append, lastCode?, lastCode?]
  cases hasCode mark line <;> simp

/-- The lines from a line on are not looked at to find the line above it. -/
theorem above?_append (front back : List Text) :
    above? mark tabWidth (front ++ back) front.length =
      (lastCode? mark front).map fun (n, line) => .ofLine mark tabWidth n line := by
  rw [above?, List.take_left]

/-- The nearest line with code of aligned lines tells the level behind them. -/
theorem innerColumn_lastCode? {lines : List Text} (hLines : Aligned mark tabWidth 0 lines) :
    innerColumn tabWidth
        ((lastCode? mark lines).map fun (n, line) => .ofLine mark tabWidth n line) =
      levelAfterAll mark 0 lines * tabWidth := by
  induction lines using List.reverseRecOn with
  | nil => simp [lastCode?, innerColumn]
  | append_singleton front line ih =>
      obtain ⟨hFront, hLine⟩ := aligned_append.mp hLines
      rw [lastCode?_concat, levelAfterAll_append]
      cases hCode : hasCode mark line with
      | true => exact innerColumn_ofLine (hLine.1 hCode) front.length
      | false =>
          rw [levelAfterAll_cons, levelAfter_of_not_hasCode hCode]
          exact ih hFront

/-- The decision about a line behind aligned lines is the column of its level. -/
theorem columnAt_of_aligned (hWidth : 1 ≤ tabWidth) {front : List Text}
    (hFront : Aligned mark tabWidth 0 front) (line : Text) (back : List Text) :
    columnAt mark tabWidth (front ++ line :: back) front.length =
      ownLevel (Role.ofLine mark line) (levelAfterAll mark 0 front) * tabWidth := by
  have hLine : (front ++ line :: back).getD front.length [] = line := by
    simp [List.getD_eq_getElem?_getD]
  rw [columnAt, decision?, hLine, above?_append]
  exact columnOf_make hWidth (innerColumn_lastCode? hFront) front.length _

theorem columnAt_append_of_lt {front : List Text} {i : Nat} (hi : i < front.length)
    (back : List Text) :
    columnAt mark tabWidth (front ++ back) i = columnAt mark tabWidth front i := by
  have hTake : (front ++ back).take i = front.take i := by
    rw [List.take_append_of_le_length (by omega)]
  have hLine : (front ++ back).getD i [] = front.getD i [] := by
    simp [List.getD_eq_getElem?_getD, List.getElem?_append_left hi]
  rw [columnAt, columnAt, decision?, decision?, above?, above?, hTake, hLine]

/-- The column of a line depends on the lines above it and on its body only. -/
theorem columnAt_congr (hMark : MarkApart mark) {lines others : List Text} {n : Nat}
    (hAbove : others.take n = lines.take n)
    (hBody : body (others.getD n []) = body (lines.getD n [])) :
    columnAt mark tabWidth others n = columnAt mark tabWidth lines n := by
  rw [columnAt, columnAt, decision?, decision?, above?, above?, hAbove,
    ofLine_eq_of_body_eq hMark hBody]

/-- Lines that all stand where the decisions about them put them are aligned. -/
theorem aligned_of_columnAt (hWidth : 1 ≤ tabWidth) {lines : List Text}
    (h : ∀ (i : Nat) (hi : i < lines.length),
      width tabWidth lines[i] = columnAt mark tabWidth lines i) :
    Aligned mark tabWidth 0 lines := by
  induction lines using List.reverseRecOn with
  | nil => trivial
  | append_singleton front line ih =>
      have hFront : Aligned mark tabWidth 0 front := by
        refine ih fun i hi => ?_
        have hAt := h i (by simp; omega)
        rwa [columnAt_append_of_lt hi, List.getElem_append_left hi] at hAt
      have hLine := h front.length (by simp)
      rw [columnAt_of_aligned hWidth hFront line [], List.getElem_concat_length rfl] at hLine
      exact aligned_append.mpr ⟨hFront, fun _ => hLine, trivial⟩

/-- In aligned lines the decision about a line is the column of its level. -/
theorem columnAt_eq_level (hWidth : 1 ≤ tabWidth) {lines : List Text}
    (h : Aligned mark tabWidth 0 lines) {i : Nat} (hi : i < lines.length) :
    columnAt mark tabWidth lines i =
      ownLevel (Role.ofLine mark lines[i]) (levelAfterAll mark 0 (lines.take i)) * tabWidth := by
  have hSplit : lines = lines.take i ++ lines[i] :: lines.drop (i + 1) := by
    rw [← List.drop_eq_getElem_cons hi, List.take_append_drop]
  have hLength : (lines.take i).length = i := List.length_take_of_le (Nat.le_of_lt hi)
  have hAligned : Aligned mark tabWidth 0 (lines.take i) := by
    rw [hSplit] at h
    exact (aligned_append.mp h).1
  have hColumn := columnAt_of_aligned hWidth hAligned lines[i] (lines.drop (i + 1))
  rwa [← hSplit, hLength] at hColumn

/-- A document is its own layout if the lines before the last one are, and the last
one is placed where it stands. -/
theorem layOut_concat_eq_self_iff {front : List Text} {line : Text} :
    layOut tabWidth (outline mark 0 (front ++ [line])) = .ok (front ++ [line]) ↔
      layOut tabWidth (outline mark 0 front) = .ok front ∧
        makePlaced line (ownLevel (Role.ofLine mark line) (levelAfterAll mark 0 front) * tabWidth) =
          .ok line := by
  rw [outline_append, layOut_append_eq_ok_iff]
  constructor
  · rintro ⟨first, last, hFirst, hLast, hEq⟩
    have hLength : front.length = first.length := by rw [layOut_length hFirst, outline_length]
    obtain ⟨rfl, rfl⟩ := List.append_inj hEq hLength
    exact ⟨hFirst, layOut_singleton_eq_ok_iff.mp hLast⟩
  · rintro ⟨hFront, hLine⟩
    exact ⟨front, [line], hFront, layOut_singleton_eq_ok_iff.mpr hLine, rfl⟩

theorem aligned_of_layOut (hMark : MarkApart mark) (hWidth : 1 ≤ tabWidth) {lines : List Text}
    (h : layOut tabWidth (outline mark 0 lines) = .ok lines) : Aligned mark tabWidth 0 lines := by
  induction lines using List.reverseRecOn with
  | nil => trivial
  | append_singleton front line ih =>
      obtain ⟨hFront, hLine⟩ := layOut_concat_eq_self_iff.mp h
      refine aligned_append.mpr ⟨ih hFront, fun hCode => ?_, trivial⟩
      have hPlace := (makePlaced_eq_ok_iff.mp hLine).2
      conv_lhs => rw [hPlace]
      exact width_place tabWidth (body_ne_nil_of_hasCode hMark hCode)
        (level_mul_nonneg hWidth _)

/-- A document is its own layout exactly if every single decision about it leaves the
line where it stands. -/
theorem layOut_eq_self_iff (hMark : MarkApart mark) (hWidth : 1 ≤ tabWidth) (lines : List Text) :
    layOut tabWidth (outline mark 0 lines) = .ok lines ↔
      ∀ (i : Nat) (hi : i < lines.length),
        makePlaced lines[i] (columnAt mark tabWidth lines i) = .ok lines[i] := by
  induction lines using List.reverseRecOn with
  | nil => simp [outline, layOut, pure, Except.pure]
  | append_singleton front line ih =>
      rw [layOut_concat_eq_self_iff, ih]
      constructor
      · rintro ⟨hFront, hLine⟩ i hi
        have hAligned : Aligned mark tabWidth 0 front :=
          aligned_of_layOut hMark hWidth (ih.mpr hFront)
        rcases Nat.lt_or_ge i front.length with hLt | hGe
        · rw [columnAt_append_of_lt hLt, List.getElem_append_left hLt]
          exact hFront i hLt
        · have hLast : i = front.length := by simp at hi; omega
          subst hLast
          rw [columnAt_of_aligned hWidth hAligned line [], List.getElem_concat_length rfl]
          exact hLine
      · intro hAll
        have hFront (i : Nat) (hi : i < front.length) :
            makePlaced front[i] (columnAt mark tabWidth front i) = .ok front[i] := by
          have hAt := hAll i (by simp; omega)
          rwa [columnAt_append_of_lt hi, List.getElem_append_left hi] at hAt
        have hAligned : Aligned mark tabWidth 0 front :=
          aligned_of_layOut hMark hWidth (ih.mpr hFront)
        have hAt := hAll front.length (by simp)
        rw [columnAt_of_aligned hWidth hAligned line [], List.getElem_concat_length rfl] at hAt
        exact ⟨hFront, hAt⟩

/-- The layout of lines is that of their bodies. -/
theorem layOut_eq_of_body_eq (hMark : MarkApart mark) {lines others : List Text}
    (h : others.map body = lines.map body) (level : Nat) :
    layOut tabWidth (outline mark level others) = layOut tabWidth (outline mark level lines) := by
  unfold layOut
  induction lines generalizing others level with
  | nil =>
      rw [List.map_eq_nil_iff.mp h]
  | cons line lines ih =>
      obtain ⟨other, others, rfl, hLine, hLines⟩ := List.map_eq_cons_iff.mp h
      simp only [outline, List.mapM_cons]
      rw [ofLine_eq_of_body_eq hMark hLine, levelAfter_eq_of_body_eq hMark hLine,
        makePlaced_eq_of_body_eq hLine, ih hLines]

/-- Laying out lines keeps their bodies. -/
theorem map_body_of_layOut {level : Nat} {lines result : List Text}
    (h : layOut tabWidth (outline mark level lines) = .ok result) :
    result.map body = lines.map body := by
  rw [layOut_eq] at h
  split at h
  · cases h
  · cases h
    calc
      _ = ((outline mark level lines).map Prod.fst).map body := by
        simp only [List.map_map, Function.comp_def, body_place]
      _ = lines.map body := by rw [outline_map_fst]

/-- What indenting a document has given, indenting it again leaves as it is. -/
theorem arrangeAll_again (hMark : MarkApart mark) (hWidth : 1 ≤ tabWidth)
    {lines result : List Text} (h : (arrangeAll mark tabWidth lines).map Prod.fst = .ok result) :
    (arrangeAll mark tabWidth result).map Prod.fst = .ok result := by
  rw [arrangeAll_eq_layOut hMark hWidth] at h ⊢
  rw [layOut_eq_of_body_eq hMark (map_body_of_layOut h)]
  exact h

theorem resolve_eq_ok (hWidth : 1 ≤ tabWidth) {lines : List Text} {i : Nat}
    (hi : i < lines.length) :
    resolve mark tabWidth lines i = .ok (decision? mark tabWidth lines i) := by
  have hPositive : ¬ tabWidth < 1 := by omega
  simp [resolve, hPositive, hi]

/-- Indenting a document gives the one layout of its lines that is consistent: every
line stands where the decision about it in that layout puts it. Hence the indentation
that the lines came with plays no role, indenting again changes nothing, and nothing
but indentation is changed. -/
theorem arrangeAll_eq_ok_iff_consistent (hMark : MarkApart mark) (hWidth : 1 ≤ tabWidth)
    (lines : List Text) :
    (∀ result : List Text, result.map body = lines.map body →
      ((arrangeAll mark tabWidth lines).map Prod.fst = .ok result ↔
        ∀ (i : Nat) (hi : i < result.length),
          ((resolve mark tabWidth result i).bind fun decision =>
            makePlaced result[i] (columnOf decision)) = .ok result[i])) ∧
    (∀ others : List Text, others.map body = lines.map body →
      (arrangeAll mark tabWidth others).map Prod.fst =
        (arrangeAll mark tabWidth lines).map Prod.fst) ∧
    (∀ result : List Text, (arrangeAll mark tabWidth lines).map Prod.fst = .ok result →
      result.map body = lines.map body ∧
        (arrangeAll mark tabWidth result).map Prod.fst = .ok result) := by
  simp only [arrangeAll_eq_layOut hMark hWidth]
  refine ⟨fun result hBody => ?_, fun others hBody => layOut_eq_of_body_eq hMark hBody 0,
    fun result hResult => ?_⟩
  · rw [← layOut_eq_of_body_eq hMark hBody, layOut_eq_self_iff hMark hWidth]
    refine forall₂_congr fun i hi => ?_
    rw [resolve_eq_ok hWidth hi]
    rfl
  · have hBody : result.map body = lines.map body := map_body_of_layOut hResult
    exact ⟨hBody, (layOut_eq_of_body_eq hMark hBody 0).trans hResult⟩

theorem arrangeAll_unbalanced :
    MarkApart [';'] ∧ (1 : Int) ≤ 3 ∧
      (arrangeAll [';'] 3 ["\tend".toList, " loop ; '".toList, "\t".toList, "else".toList]).map
          Prod.fst = .ok ["end".toList, "loop ; '".toList, [], "else".toList] ∧
      ((resolve [';'] 3 ["end".toList, "loop ; '".toList, [], "else".toList] 3).bind
        fun decision => makePlaced "else".toList (columnOf decision)) = .ok "else".toList := by
  have hConsistent := (@arrangeAll_eq_ok_iff_consistent [';'] 3 (by decide) (by decide)
    ["\tend".toList, " loop ; '".toList, "\t".toList, "else".toList]).1
      ["end".toList, "loop ; '".toList, [], "else".toList] (by decide)
  have hResult : (arrangeAll [';'] 3
      ["\tend".toList, " loop ; '".toList, "\t".toList, "else".toList]).map Prod.fst =
        .ok ["end".toList, "loop ; '".toList, [], "else".toList] := by rfl
  exact ⟨by decide, by decide, hResult, hConsistent.mp hResult 3 (by decide)⟩

end ScriptEditor.Indent
