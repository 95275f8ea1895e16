import Mathlib.Data.List.Forall2
import Mathlib.Data.List.GetD
import ScriptEditor.Proofs.Indent.Aligned
import ScriptEditor.Proofs.Indent.Nesting
import ScriptEditor.Proofs.Indent.Reach

/-! What the column of a line depends on. Of the lines above it only the nearest one with
code counts, by its body and by the column where it stands, and of the line itself only its
body. The line that a line break begins therefore stands where indenting it once more would
put it. When a document is indented as a whole, what its lines came with plays no role
either, and the tab width only scales the columns. -/
namespace ScriptEditor.Indent

open ScriptEditor.Script (Role hasCode)

variable {mark : Text} {tabWidth : Int}

/-! ### The nearest line with code -/

/-- What a line behind these lines is indented after: the nearest of them that has code, or
nothing if none of them has. -/
inductive Nearest (mark : Text) : List Text → Option Text → Prop where
  | nothing {lines : List Text} (idle : ∀ line ∈ lines, hasCode mark line = false) :
      Nearest mark lines none
  | line (front : List Text) {line : Text} {between : List Text} (code : hasCode mark line = true)
      (idle : ∀ other ∈ between, hasCode mark other = false) :
      Nearest mark (front ++ line :: between) (some line)

theorem lastCode?_of_idle {lines : List Text} (h : ∀ line ∈ lines, hasCode mark line = false) :
    lastCode? mark lines = none := by
  induction lines with
  | nil => rfl
  | cons line rest ih =>
      have hRest := ih fun other hOther => h other (List.mem_cons_of_mem _ hOther)
      simp [lastCode?, hRest, h line (List.mem_cons_self ..)]

theorem Nearest.eq_lastCode? {lines : List Text} {above : Option Text}
    (h : Nearest mark lines above) : above = (lastCode? mark lines).map Prod.snd := by
  cases h with
  | nothing idle => rw [lastCode?_of_idle idle]; rfl
  | line front code idle =>
      rw [lastCode?_append, lastCode?, lastCode?_of_idle idle]
      simp [code]

theorem nearest_lastCode? (mark : Text) (lines : List Text) :
    Nearest mark lines ((lastCode? mark lines).map Prod.snd) := by
  induction lines using List.reverseRecOn with
  | nil => exact .nothing nofun
  | append_singleton front line ih =>
      rw [lastCode?_concat]
      cases hCode : hasCode mark line with
      | true => exact .line front hCode nofun
      | false =>
          have hLast : ∀ other ∈ [line], hasCode mark other = false := by simpa using hCode
          rw [if_neg Bool.false_ne_true]
          generalize (lastCode? mark front).map Prod.snd = above at ih ⊢
          cases ih with
          | nothing idle => exact .nothing (List.forall_mem_append.mpr ⟨idle, hLast⟩)
          | line front code idle =>
              rw [List.append_assoc, List.cons_append]
              exact .line front code (List.forall_mem_append.mpr ⟨idle, hLast⟩)

theorem nearest_iff {lines : List Text} {above : Option Text} :
    Nearest mark lines above ↔ above = (lastCode? mark lines).map Prod.snd :=
  ⟨Nearest.eq_lastCode?, fun h => h ▸ nearest_lastCode? mark lines⟩

theorem exists_nearest (mark : Text) (lines : List Text) : ∃ above, Nearest mark lines above :=
  ⟨_, nearest_lastCode? mark lines⟩

/-- Lines without code among others make no difference to what comes behind. -/
theorem Nearest.interpose {front idle back : List Text} {above : Option Text}
    (h : Nearest mark (front ++ back) above) (hIdle : ∀ line ∈ idle, hasCode mark line = false) :
    Nearest mark (front ++ idle ++ back) above := by
  rw [nearest_iff] at h ⊢
  rw [h, lastCode?_append, lastCode?_append, lastCode?_append, lastCode?_of_idle hIdle]
  cases lastCode? mark back <;> rfl

/-- Two lines that have the same body and stand at the same column, whether by spaces or by
tabulators. -/
def SamePlace (tabWidth : Int) (line other : Text) : Prop :=
  body line = body other ∧ width tabWidth line = width tabWidth other

theorem rel_lastCode? (hMark : MarkApart mark) {lines others : List Text}
    (h : List.Forall₂ (SamePlace tabWidth) lines others) :
    Option.Rel (SamePlace tabWidth) ((lastCode? mark lines).map Prod.snd)
      ((lastCode? mark others).map Prod.snd) := by
  induction h with
  | nil => exact .none
  | @cons line other lines others hPlace _ ih =>
      have hCode := hasCode_eq_of_body_eq hMark hPlace.1
      rw [lastCode?, lastCode?, hCode]
      -- Either both of the rests have a line with code, or the first lines decide.
      generalize lastCode? mark lines = found at ih ⊢
      generalize lastCode? mark others = foundOther at ih ⊢
      cases found with
      | some found =>
          cases foundOther with
          | some foundOther => exact ih
          | none => cases ih
      | none =>
          cases foundOther with
          | some foundOther => cases ih
          | none =>
              dsimp only
              split_ifs
              · exact .some hPlace
              · exact .none

/-! ### The column of a line -/

/-- The column that is decided for the line with a number. -/
def resolvedColumn (mark : Text) (tabWidth : Int) (lines : List Text) (n : Nat) :
    Except Fault Int :=
  (resolve mark tabWidth lines n).map columnOf

theorem resolvedColumn_eq_ok (hWidth : 1 ≤ tabWidth) {lines : List Text} {n : Nat}
    (hn : n < lines.length) :
    resolvedColumn mark tabWidth lines n = .ok (columnAt mark tabWidth lines n) := by
  rw [resolvedColumn, resolve_eq_ok hWidth hn]
  rfl

/-- The column of a line, told from the nearest line with code and from its own role. -/
theorem columnAt_of_nearest (hWidth : 1 ≤ tabWidth) {lines : List Text} {n : Nat}
    {above : Option Text} (h : Nearest mark (lines.take n) above) :
    columnAt mark tabWidth lines n =
      max 0 (innerColumn tabWidth (above.map (.ofLine mark tabWidth 0)) -
        if (Role.ofLine mark (lines.getD n [])).closes then tabWidth else 0) := by
  rw [nearest_iff.mp h, columnAt, decision?, above?]
  cases lastCode? mark (lines.take n) with
  | none =>
      simp only [Option.map_none, columnOf, innerColumn, Option.getD_none]
      split_ifs <;> omega
  | some found =>
      simp only [Option.map_some, columnOf, Option.getD_some, Decision.column, make_target]
      rfl

theorem columnAt_eq_of_samePlace (hMark : MarkApart mark) (hWidth : 1 ≤ tabWidth)
    {lines others : List Text} {n m : Nat} {above other : Option Text}
    (hAbove : Nearest mark (lines.take n) above) (hOther : Nearest mark (others.take m) other)
    (hSame : Option.Rel (SamePlace tabWidth) above other)
    (hLine : body (lines.getD n []) = body (others.getD m [])) :
    columnAt mark tabWidth lines n = columnAt mark tabWidth others m := by
  have hInner : above.map (Above.ofLine mark tabWidth 0) = other.map (.ofLine mark tabWidth 0) := by
    cases hSame with
    | none => rfl
    | some hPlace =>
        simp only [Option.map_some, Above.ofLine, ofLine_eq_of_body_eq hMark hPlace.1, hPlace.2]
  rw [columnAt_of_nearest hWidth hAbove, columnAt_of_nearest hWidth hOther, hInner,
    ofLine_eq_of_body_eq hMark hLine]

theorem rel_samePlace_refl (tabWidth : Int) (above : Option Text) :
    Option.Rel (SamePlace tabWidth) above above := by
  cases above with
  | none => exact .none
  | some line => exact .some ⟨rfl, rfl⟩

/-- Lines above the nearest one with code do not count, nor do those below the line itself. -/
theorem columnAt_behind (hMark : MarkApart mark) (hWidth : 1 ≤ tabWidth)
    {front others : List Text} {above : Option Text} (hFront : Nearest mark front above)
    (hOthers : Nearest mark others above) {line other : Text} (hLine : body line = body other)
    (back rest : List Text) :
    columnAt mark tabWidth (front ++ line :: back) front.length =
      columnAt mark tabWidth (others ++ other :: rest) others.length := by
  have hTake : Nearest mark ((front ++ line :: back).take front.length) above := by
    rwa [List.take_left]
  have hOtherTake : Nearest mark ((others ++ other :: rest).take others.length) above := by
    rwa [List.take_left]
  refine columnAt_eq_of_samePlace hMark hWidth hTake hOtherTake (rel_samePlace_refl _ _) ?_
  simpa [List.getD_eq_getElem?_getD] using hLine

theorem columnAt_of_body (hMark : MarkApart mark) (hWidth : 1 ≤ tabWidth) (front : List Text)
    {line other : Text} (hLine : body line = body other) (back rest : List Text) :
    columnAt mark tabWidth (front ++ line :: back) front.length =
      columnAt mark tabWidth (front ++ other :: rest) front.length := by
  obtain ⟨above, hAbove⟩ := exists_nearest mark front
  exact columnAt_behind hMark hWidth hAbove hAbove hLine back rest

theorem columnAt_interpose (hMark : MarkApart mark) (hWidth : 1 ≤ tabWidth) {idle : List Text}
    (hIdle : ∀ line ∈ idle, hasCode mark line = false) (front back : List Text) (n : Nat) :
    columnAt mark tabWidth (front ++ idle ++ back) (front.length + idle.length + n) =
      columnAt mark tabWidth (front ++ back) (front.length + n) := by
  obtain ⟨above, hAbove⟩ := exists_nearest mark (front ++ back.take n)
  have hIdleAbove := hAbove.interpose hIdle
  rw [← List.take_length_add_append] at hAbove
  rw [← List.take_length_add_append, List.length_append] at hIdleAbove
  refine columnAt_eq_of_samePlace hMark hWidth hIdleAbove hAbove (rel_samePlace_refl _ _) ?_
  rw [List.getD_append_right _ _ _ _ (by simp), List.getD_append_right _ _ _ _ (by simp)]
  simp

theorem columnAt_retab (hMark : MarkApart mark) (hWidth : 1 ≤ tabWidth) {lines others : List Text}
    (h : List.Forall₂ (SamePlace tabWidth) lines others) {n : Nat} (hn : n < lines.length) :
    columnAt mark tabWidth lines n = columnAt mark tabWidth others n := by
  have hSame := rel_lastCode? hMark (List.forall₂_take n h)
  refine columnAt_eq_of_samePlace hMark hWidth (nearest_lastCode? mark _) (nearest_lastCode? mark _)
    hSame ?_
  have hm : n < others.length := h.length_eq ▸ hn
  rw [List.getD_eq_getElem _ _ hn, List.getD_eq_getElem _ _ hm]
  exact (h.get hn hm).1

/-- Deciding about a line is local. It is the same in two documents if the lines have the
same body and the nearest lines above them that have code, if there are any, have the same
body and stand at the same column; without such lines it is the first column. Hence it makes
no difference whether lines without code are put in or taken out, what stands above the
nearest line with code or below the line, whether indentation consists of tabulators or of as
many spaces, and how the line itself was indented. -/
theorem resolvedColumn_local (hMark : MarkApart mark) (hWidth : 1 ≤ tabWidth) :
    (∀ (lines others : List Text) (n m : Nat) (hn : n < lines.length) (hm : m < others.length)
      (above other : Option Text), body lines[n] = body others[m] →
      Nearest mark (lines.take n) above → Nearest mark (others.take m) other →
      Option.Rel (SamePlace tabWidth) above other →
      ∃ column, resolvedColumn mark tabWidth lines n = .ok column ∧
        resolvedColumn mark tabWidth others m = .ok column ∧ (above = none → column = 0)) ∧
    (∀ front idle back : List Text, (∀ line ∈ idle, hasCode mark line = false) →
      (∀ n < front.length, resolvedColumn mark tabWidth (front ++ idle ++ back) n =
        resolvedColumn mark tabWidth (front ++ back) n) ∧
      ∀ n < back.length,
        resolvedColumn mark tabWidth (front ++ idle ++ back) (front.length + idle.length + n) =
          resolvedColumn mark tabWidth (front ++ back) (front.length + n)) ∧
    (∀ (front others between idle back rest : List Text) (near line : Text),
      hasCode mark near = true → (∀ other ∈ between, hasCode mark other = false) →
      (∀ other ∈ idle, hasCode mark other = false) →
      resolvedColumn mark tabWidth ((front ++ near :: between) ++ line :: back)
          (front ++ near :: between).length =
        resolvedColumn mark tabWidth ((others ++ near :: idle) ++ line :: rest)
          (others ++ near :: idle).length) ∧
    (∀ lines others : List Text, List.Forall₂ (SamePlace tabWidth) lines others →
      ∀ n < lines.length,
        resolvedColumn mark tabWidth lines n = resolvedColumn mark tabWidth others n) ∧
    ∀ (front back : List Text) (line other : Text), body line = body other →
      resolvedColumn mark tabWidth (front ++ line :: back) front.length =
        resolvedColumn mark tabWidth (front ++ other :: back) front.length := by
  refine ⟨fun lines others n m hn hm above other hLine hAbove hOther hSame => ?_,
    fun front idle back hIdle => ⟨fun n hn => ?_, fun n hn => ?_⟩,
    fun front others between idle back rest near line hNear hBetween hIdle => ?_,
    fun lines others hPlaces n hn => ?_, fun front back line other hBody => ?_⟩
  · have hBodies : body (lines.getD n []) = body (others.getD m []) := by
      rwa [List.getD_eq_getElem _ _ hn, List.getD_eq_getElem _ _ hm]
    refine ⟨columnAt mark tabWidth lines n, resolvedColumn_eq_ok hWidth hn, ?_, ?_⟩
    · rw [resolvedColumn_eq_ok hWidth hm,
        columnAt_eq_of_samePlace hMark hWidth hAbove hOther hSame hBodies]
    · rintro rfl
      rw [columnAt_of_nearest hWidth hAbove]
      simp only [Option.map_none, innerColumn]
      split_ifs <;> omega
  · rw [resolvedColumn_eq_ok hWidth (by simp; omega), resolvedColumn_eq_ok hWidth (by simp; omega),
      List.append_assoc, columnAt_append_of_lt hn, columnAt_append_of_lt hn]
  · rw [resolvedColumn_eq_ok hWidth (by simp; omega), resolvedColumn_eq_ok hWidth (by simp; omega),
      columnAt_interpose hMark hWidth hIdle]
  · rw [resolvedColumn_eq_ok hWidth (by simp), resolvedColumn_eq_ok hWidth (by simp),
      columnAt_behind hMark hWidth (.line front hNear hBetween) (.line others hNear hIdle) rfl]
  · rw [resolvedColumn_eq_ok hWidth hn, resolvedColumn_eq_ok hWidth (hPlaces.length_eq ▸ hn),
      columnAt_retab hMark hWidth hPlaces hn]
  · rw [resolvedColumn_eq_ok hWidth (by simp), resolvedColumn_eq_ok hWidth (by simp),
      columnAt_of_body hMark hWidth front hBody back back]

theorem resolvedColumn_local_empty_block :
    let lines := ["loop".toList, "\tif a then # b".toList, "# note".toList, " \t".toList,
      "  end if".toList]
    let others := ["    if a then # b".toList, "end if".toList]
    MarkApart ['#'] ∧ (1 : Int) ≤ 4 ∧
      Nearest ['#'] (lines.take 4) (some "\tif a then # b".toList) ∧
      Nearest ['#'] (others.take 1) (some "    if a then # b".toList) ∧
      SamePlace 4 "\tif a then # b".toList "    if a then # b".toList ∧
      resolvedColumn ['#'] 4 lines 4 = .ok 4 ∧ resolvedColumn ['#'] 4 others 1 = .ok 4 := by
  intro lines others
  have hAbove : Nearest ['#'] (lines.take 4) (some "\tif a then # b".toList) :=
    .line ["loop".toList] (by decide) (by decide)
  have hOther : Nearest ['#'] (others.take 1) (some "    if a then # b".toList) :=
    .line [] (by decide) nofun
  have hPlace : SamePlace 4 "\tif a then # b".toList "    if a then # b".toList :=
    ⟨by decide, by decide⟩
  have hColumn : resolvedColumn ['#'] 4 lines 4 = .ok 4 := by rfl
  obtain ⟨column, hFirst, hSecond, -⟩ := (@resolvedColumn_local ['#'] 4 (by decide) (by decide)).1
    lines others 4 1 (by decide) (by decide) _ _ (by decide) hAbove hOther (.some hPlace)
  rw [hColumn] at hFirst
  exact ⟨by decide, by decide, hAbove, hOther, hPlace, hColumn, hSecond.trans hFirst.symm⟩

/-! ### The line that a line break begins -/

theorem lineBreak_eq (hWidth : 1 ≤ tabWidth) {lines : List Text} {n : Nat} (hn : n ≤ lines.length)
    (before after : Text) :
    lineBreak mark tabWidth lines n before after =
      (makeSpaces (columnAt mark tabWidth ((lines.take n ++ [before]) ++ [body after])
        (n + 1))).map ('\n' :: ·) := by
  have hLine : n + 1 < ((lines.take n ++ [before]) ++ [body after]).length := by simp; omega
  have hResolve : resolve mark tabWidth ((lines.take n ++ [before]) ++ [body after]) (n + 1) =
      .ok (decision? mark tabWidth ((lines.take n ++ [before]) ++ [body after]) (n + 1)) :=
    resolve_eq_ok hWidth hLine
  rw [lineBreak, brokenLines_of_nat, hResolve]
  rfl

/-- A line break is a line feed and spaces up to a column, unless there is no room for so many
spaces. In the document that comes about, whatever else follows, it is that column which is
decided for the new line. -/
theorem lineBreak_resolved (hMark : MarkApart mark) (hWidth : 1 ≤ tabWidth) (lines : List Text)
    {n : Nat} (hn : n ≤ lines.length) (before after : Text) :
    ∃ count : Nat,
      (lineBreak mark tabWidth lines n before after =
        match spacesFault? count with
        | some fault => .error fault
        | none => .ok ('\n' :: List.replicate count ' ')) ∧
      ∀ further : List Text,
        resolvedColumn mark tabWidth
          (lines.take n ++ [before, List.replicate count ' ' ++ body after] ++ further) (n + 1) =
            .ok count := by
  let front := lines.take n ++ [before]
  have hFront : front.length = n + 1 := by simp [front, hn]
  obtain ⟨count, hCount⟩ := Int.eq_ofNat_of_zero_le
    (columnAt_nonneg mark tabWidth (front ++ [body after]) (n + 1))
  refine ⟨count, ?_, fun further => ?_⟩
  · rw [lineBreak_eq hWidth hn, hCount, makeSpaces]
    cases spacesFault? count <;> rfl
  -- The two documents differ in the indentation of the new line and in what follows it.
  · have hBody : body (List.replicate count ' ' ++ body after) = body (body after) :=
      body_spaces_append count (body after)
    have hColumn := columnAt_of_body hMark hWidth front hBody further []
    rw [hFront, hCount] at hColumn
    have hDocument : lines.take n ++ [before, List.replicate count ' ' ++ body after] ++ further =
        front ++ (List.replicate count ' ' ++ body after) :: further := by simp [front]
    rw [hDocument, resolvedColumn_eq_ok hWidth (by simp [hFront]), hColumn]

theorem lineBreak_resolved_closing :
    MarkApart ['#'] ∧ (1 : Int) ≤ 2 ∧ 1 ≤ ["loop".toList, "  if a then  end if # b".toList].length ∧
      lineBreak ['#'] 2 ["loop".toList, "  if a then  end if # b".toList] 1 "  if a then".toList
        "  end if # b".toList = .ok "\n  ".toList ∧
      resolvedColumn ['#'] 2
        ["loop".toList, "  if a then".toList, "  end if # b".toList, "next".toList] 2 = .ok 2 := by
  have hText : lineBreak ['#'] 2 ["loop".toList, "  if a then  end if # b".toList] 1
      "  if a then".toList "  end if # b".toList = .ok "\n  ".toList := by rfl
  obtain ⟨count, hBreak, hColumn⟩ := @lineBreak_resolved ['#'] 2 (by decide) (by decide)
    ["loop".toList, "  if a then  end if # b".toList] 1 (by decide) "  if a then".toList
    "  end if # b".toList
  have hCount : count = 2 := by
    have hSame := hText.symm.trans hBreak
    split at hSame
    · cases hSame
    · simpa using (congrArg List.length (Except.ok.inj hSame)).symm
  subst hCount
  exact ⟨by decide, by decide, by decide, hText, hColumn ["next".toList]⟩

/-- With a tab width beyond every length there is no line break behind an opener. -/
theorem lineBreak_uncountable :
    ¬ ∀ (mark : Text) (tabWidth : Int) (lines : List Text) (n : Nat) (before after : Text),
      MarkApart mark → 1 ≤ tabWidth → n ≤ lines.length →
      ∃ count : Nat, lineBreak mark tabWidth lines n before after =
        .ok ('\n' :: List.replicate count ' ') := by
  intro hAll
  have hError : lineBreak ['#'] 9223372036854775808 [] (0 : Nat) "loop".toList [] =
      .error .uncountable := by rfl
  obtain ⟨count, hOk⟩ := hAll ['#'] 9223372036854775808 [] 0 "loop".toList [] (by decide)
    (by decide) (by decide)
  rw [hError] at hOk
  cases hOk

/-! ### The tab width -/

/-- The tab width only scales the layout of lines, however they are nested. There is a level
for each line that depends neither on the tab width nor on the indentation which the lines
come with, and every tab width puts the line at its level times the tab width. Only a line
for whose indentation there is no room can prevent this. -/
theorem arrangeAll_scaled (hMark : MarkApart mark) (lines : List Text) :
    ∃ levels : List Nat, levels.length = lines.length ∧
      ∀ others : List Text, others.map body = lines.map body →
      ∀ tabWidth : Nat, 1 ≤ tabWidth →
        (arrangeAll mark tabWidth others).map Prod.fst =
          match (lines.zip levels).findSome? fun entry =>
            placeFault? entry.1 (entry.2 * tabWidth) with
          | some fault => .error fault
          | none => .ok ((lines.zip levels).map fun entry =>
              if body entry.1 = [] then []
              else List.replicate (entry.2 * tabWidth) ' ' ++ body entry.1) := by
  have hPlan : outline mark 0 lines = lines.zip ((outline mark 0 lines).map Prod.snd) :=
    List.zip_of_prod (outline_map_fst mark 0 lines) rfl
  refine ⟨(outline mark 0 lines).map Prod.snd, by simp, fun others hBodies tabWidth hWidth => ?_⟩
  have hLayOut := layOut_eq tabWidth (outline mark 0 lines)
  simp only [place_mul] at hLayOut
  rw [← hPlan, arrangeAll_eq_layOut hMark (by omega), layOut_eq_of_body_eq hMark hBodies]
  exact hLayOut

theorem arrangeAll_scaled_stray_closer :
    let lines := ["\tend".toList, "else ; '".toList, "x".toList, " \t".toList, "loop".toList]
    let others := ["end".toList, "  else ; '".toList, "\t\tx".toList, [], " loop".toList]
    MarkApart [';'] ∧ others.map body = lines.map body ∧
      (arrangeAll [';'] (3 : Nat) others).map Prod.fst =
        .ok ["end".toList, "else ; '".toList, "   x".toList, [], "   loop".toList] ∧
      ∃ levels : List Nat, levels.length = lines.length ∧
        (arrangeAll [';'] (1 : Nat) lines).map Prod.fst =
          .ok ((lines.zip levels).map fun entry =>
            if body entry.1 = [] then [] else List.replicate (entry.2 * 1) ' ' ++ body entry.1) ∧
        (arrangeAll [';'] (3 : Nat) others).map Prod.fst =
          .ok ((lines.zip levels).map fun entry =>
            if body entry.1 = [] then []
            else List.replicate (entry.2 * 3) ' ' ++ body entry.1) := by
  intro lines others
  have hFirst : (arrangeAll [';'] (1 : Nat) lines).map Prod.fst =
      .ok ["end".toList, "else ; '".toList, " x".toList, [], " loop".toList] := by rfl
  have hSecond : (arrangeAll [';'] (3 : Nat) others).map Prod.fst =
      .ok ["end".toList, "else ; '".toList, "   x".toList, [], "   loop".toList] := by rfl
  obtain ⟨levels, hLength, hAll⟩ := @arrangeAll_scaled [';'] (by decide) lines
  have hOne := hAll lines rfl 1 (by decide)
  have hThree := hAll others (by decide) 3 (by decide)
  refine ⟨by decide, by decide, hSecond, levels, hLength, ?_, ?_⟩
  · split at hOne
    · nomatch hFirst.symm.trans hOne
    · exact hOne
  · split at hThree
    · nomatch hSecond.symm.trans hThree
    · exact hThree

/-- With a tab width beyond every length a line inside of a block cannot be indented. -/
theorem arrangeAll_scaled_uncountable :
    ¬ ∀ (mark : Text) (lines : List Text), MarkApart mark →
      ∃ levels : List Nat, ∀ tabWidth : Nat, 1 ≤ tabWidth →
        (arrangeAll mark tabWidth lines).map Prod.fst =
          .ok ((lines.zip levels).map fun entry =>
            if body entry.1 = [] then []
            else List.replicate (entry.2 * tabWidth) ' ' ++ body entry.1) := by
  intro hAll
  have hError : (arrangeAll ['#'] (9223372036854775808 : Nat) ["loop".toList, ['x']]).map Prod.fst =
      .error .uncountable := by rfl
  obtain ⟨levels, hOk⟩ := hAll ['#'] ["loop".toList, ['x']] (by decide)
  have hOk := hOk 9223372036854775808 (by decide)
  rw [hError] at hOk
  cases hOk

end ScriptEditor.Indent
