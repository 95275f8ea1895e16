import ScriptEditor.Proofs.Indent.Body

/-! Levels of nesting. The rules of indentation look at two lines only. They come
down to counting: what follows an opener or a divider is one level deeper, a closer
or a divider stands one level less deep than what it follows, and no line stands
before the first level. The tab width scales the levels and has no other part in
where the lines go. -/
namespace ScriptEditor.Indent

open ScriptEditor.Script (Role hasCode)

/-- The level of a line with a role, where a plain line would have the given one. -/
def ownLevel (role : Role) (level : Nat) : Nat :=
  if role.closes then level - 1 else level

/-- The level of a plain line behind a line with a role. -/
def innerLevel (role : Role) (level : Nat) : Nat :=
  if role.opens then ownLevel role level + 1 else ownLevel role level

/-- The level behind a line. One without code is plain and leaves it as it is. -/
def levelAfter (mark : Text) (level : Nat) (line : Text) : Nat :=
  innerLevel (Role.ofLine mark line) level

/-- The level behind lines that begin at a level. -/
def levelAfterAll (mark : Text) (level : Nat) (lines : List Text) : Nat :=
  lines.foldl (levelAfter mark) level

/-- Each of the lines with its level, the first of them beginning at a level. -/
def outline (mark : Text) : Nat → List Text → List (Text × Nat)
  | _, [] => []
  | level, line :: rest =>
    (line, ownLevel (Role.ofLine mark line) level) :: outline mark (levelAfter mark level line) rest

/-- Lines with levels, each put at the column of its level. -/
def layOut (tabWidth : Int) (plan : List (Text × Nat)) : Except Fault (List Text) :=
  plan.mapM fun entry => makePlaced entry.1 (entry.2 * tabWidth)

theorem ownLevel_le (role : Role) (level : Nat) : ownLevel role level ≤ level := by
  unfold ownLevel
  split_ifs <;> omega

theorem levelAfter_eq_of_body_eq {mark : Text} (hMark : MarkApart mark) {line other : Text}
    (h : body line = body other) (level : Nat) :
    levelAfter mark level line = levelAfter mark level other := by
  rw [levelAfter, ofLine_eq_of_body_eq hMark h, levelAfter]

/-- A line that is blank or only a comment leaves the level as it is. -/
theorem levelAfter_of_not_hasCode {mark line : Text} (h : hasCode mark line = false)
    (level : Nat) : levelAfter mark level line = level := by
  rw [levelAfter, ofLine_of_not_hasCode h]
  rfl

/-- The column of a level is not before the first column. -/
theorem level_mul_nonneg {tabWidth : Int} (hWidth : 1 ≤ tabWidth) (level : Nat) :
    0 ≤ level * tabWidth :=
  Int.mul_nonneg (by omega) (by omega)

theorem level_mul_le {tabWidth : Int} (hWidth : 1 ≤ tabWidth) {level deeper : Nat}
    (h : level ≤ deeper) : level * tabWidth ≤ deeper * tabWidth :=
  Int.mul_le_mul_of_nonneg_right (by exact_mod_cast h) (by omega)

@[simp] theorem levelAfterAll_nil (mark : Text) (level : Nat) :
    levelAfterAll mark level [] = level := rfl

@[simp] theorem levelAfterAll_cons (mark : Text) (level : Nat) (line : Text) (rest : List Text) :
    levelAfterAll mark level (line :: rest) =
      levelAfterAll mark (levelAfter mark level line) rest := rfl

@[simp] theorem levelAfterAll_append (mark : Text) (level : Nat) (front back : List Text) :
    levelAfterAll mark level (front ++ back) =
      levelAfterAll mark (levelAfterAll mark level front) back := by
  simp [levelAfterAll]

theorem levelAfterAll_eq_of_body_eq {mark : Text} (hMark : MarkApart mark)
    {lines others : List Text} (h : others.map body = lines.map body) (level : Nat) :
    levelAfterAll mark level others = levelAfterAll mark level lines := by
  induction lines generalizing others level with
  | nil => rw [List.map_eq_nil_iff.mp h]
  | cons line lines ih =>
      obtain ⟨other, others, rfl, hLine, hLines⟩ := List.map_eq_cons_iff.mp h
      rw [levelAfterAll_cons, levelAfterAll_cons, levelAfter_eq_of_body_eq hMark hLine, ih hLines]

/-- A line leads at most one level deeper. -/
theorem levelAfterAll_le (mark : Text) (level : Nat) (lines : List Text) :
    levelAfterAll mark level lines ≤ level + lines.length := by
  induction lines generalizing level with
  | nil => exact Nat.le_refl _
  | cons line rest ih =>
      have hRest := ih (levelAfter mark level line)
      have hOwn := ownLevel_le (Role.ofLine mark line) level
      have hStep : levelAfter mark level line ≤ level + 1 := by
        unfold levelAfter innerLevel
        split_ifs <;> omega
      rw [levelAfterAll_cons, List.length_cons]
      omega

theorem outline_append (mark : Text) (level : Nat) (front back : List Text) :
    outline mark level (front ++ back) =
      outline mark level front ++ outline mark (levelAfterAll mark level front) back := by
  induction front generalizing level with
  | nil => rfl
  | cons line front ih => simp [outline, ih]

@[simp] theorem outline_map_fst (mark : Text) (level : Nat) (lines : List Text) :
    (outline mark level lines).map Prod.fst = lines := by
  induction lines generalizing level with
  | nil => rfl
  | cons line rest ih => simp [outline, ih]

@[simp] theorem outline_length (mark : Text) (level : Nat) (lines : List Text) :
    (outline mark level lines).length = lines.length := by
  rw [← List.length_map Prod.fst, outline_map_fst]

/-- The level of a line is told by the lines above it. -/
theorem getElem?_outline_level {mark : Text} {level i : Nat} {lines : List Text}
    (hi : i < lines.length) :
    (outline mark level lines)[i]? =
      some (lines[i], ownLevel (Role.ofLine mark lines[i])
        (levelAfterAll mark level (lines.take i))) := by
  induction lines generalizing level i with
  | nil => cases hi
  | cons line rest ih =>
      cases i with
      | zero => rfl
      | succ i => exact ih (Nat.lt_of_succ_lt_succ hi)

theorem getElem?_outline {mark : Text} {level i : Nat} {lines : List Text}
    (hi : i < lines.length) :
    ∃ own, (outline mark level lines)[i]? = some (lines[i], own) :=
  ⟨_, getElem?_outline_level hi⟩

/-- No line is deeper than what some of the lines before it lead to. -/
theorem level_le_of_mem_outline {mark : Text} {level : Nat} {lines : List Text}
    {entry : Text × Nat} (h : entry ∈ outline mark level lines) :
    ∃ k, entry.2 ≤ levelAfterAll mark level (lines.take k) := by
  induction lines generalizing level with
  | nil => cases h
  | cons line lines ih =>
      rcases List.mem_cons.mp h with rfl | hRest
      · exact ⟨0, ownLevel_le _ level⟩
      · obtain ⟨k, hk⟩ := ih hRest
        exact ⟨k + 1, by simpa using hk⟩

theorem layOut_append_eq_ok_iff {tabWidth : Int} {front back : List (Text × Nat)}
    {result : List Text} :
    layOut tabWidth (front ++ back) = .ok result ↔
      ∃ first last, layOut tabWidth front = .ok first ∧ layOut tabWidth back = .ok last ∧
        result = first ++ last := by
  unfold layOut
  rw [List.mapM_append]
  cases front.mapM fun entry => makePlaced entry.1 (entry.2 * tabWidth) with
  | error fault => simp [bind, Except.bind]
  | ok first =>
      cases back.mapM fun entry => makePlaced entry.1 (entry.2 * tabWidth) with
      | error fault => simp [bind, Except.bind]
      | ok last => simp [bind, Except.bind, pure, Except.pure, eq_comm]

theorem layOut_singleton_eq_ok_iff {tabWidth : Int} {entry : Text × Nat} {placed : Text} :
    layOut tabWidth [entry] = .ok [placed] ↔
      makePlaced entry.1 (entry.2 * tabWidth) = .ok placed := by
  rw [layOut, List.mapM_cons, List.mapM_nil]
  cases makePlaced entry.1 (entry.2 * tabWidth) <;>
    simp [bind, Except.bind, pure, Except.pure]

/-- Laying out is refused for the first line without room; the lines keep their
number and order. -/
theorem layOut_eq (tabWidth : Int) (plan : List (Text × Nat)) :
    layOut tabWidth plan =
      match plan.findSome? fun entry => placeFault? entry.1 (entry.2 * tabWidth) with
      | some fault => .error fault
      | none => .ok (plan.map fun entry => place entry.1 (entry.2 * tabWidth)) := by
  unfold layOut
  induction plan with
  | nil => rfl
  | cons entry plan ih =>
      rw [List.mapM_cons, ih, List.findSome?_cons, makePlaced]
      cases placeFault? entry.1 (entry.2 * tabWidth) with
      | some fault => rfl
      | none =>
          cases plan.findSome? fun entry => placeFault? entry.1 (entry.2 * tabWidth) <;> rfl

theorem layOut_length {tabWidth : Int} {plan : List (Text × Nat)} {placed : List Text}
    (h : layOut tabWidth plan = .ok placed) : placed.length = plan.length := by
  rw [layOut_eq] at h
  split at h
  · cases h
  · cases h
    simp

/-- The column for a plain line behind the nearest line with code. -/
def innerColumn (tabWidth : Int) : Option Above → Int
  | none => 0
  | some a => if a.role.opens then a.column + tabWidth else a.column

/-- The five rules in one: a line that closes goes one tab width to the left of the
column for a plain line, and every other line goes to that column. -/
theorem make_target (tabWidth : Int) (number : Nat) (role : Role) (a : Above) :
    (Decision.make tabWidth number role a).target =
      innerColumn tabWidth (some a) - if role.closes then tabWidth else 0 := by
  obtain ⟨last, column, line⟩ := a
  cases role <;> cases last <;>
    simp [Decision.make, Rule.between, Rule.shift, innerColumn, Role.closes, Role.opens] <;> omega

/-- Where the column for a plain line is that of a level, the decision about any
line is the column of its own level. Nothing above counts as the first level. -/
theorem columnOf_make {tabWidth : Int} (hWidth : 1 ≤ tabWidth) {above : Option Above}
    {level : Nat} (hAbove : innerColumn tabWidth above = level * tabWidth) (number : Nat)
    (role : Role) :
    columnOf (above.map (.make tabWidth number role)) = ownLevel role level * tabWidth := by
  cases above with
  | none =>
      have hLevel : level = 0 := by
        rcases Int.mul_eq_zero.mp hAbove.symm with h | h <;> omega
      simp [columnOf, ownLevel, hLevel]
  | some a =>
      have hTarget := make_target tabWidth number role a
      rw [hAbove] at hTarget
      simp only [columnOf, Option.map_some, Option.getD_some, Decision.column, hTarget, ownLevel]
      cases hCloses : role.closes with
      | false =>
          have hNonneg := level_mul_nonneg hWidth level
          simp only [Bool.false_eq_true, if_false]
          omega
      | true =>
          simp only [if_true]
          cases level with
          | zero => simp; omega
          | succ level =>
              have hNonneg := level_mul_nonneg hWidth level
              have hStep : ((level + 1 : Nat) : Int) * tabWidth = level * tabWidth + tabWidth := by
                rw [Int.natCast_add, Int.add_mul, Int.natCast_one, Int.one_mul]
              rw [hStep, Nat.add_sub_cancel]
              omega

/-- A line with code that stands at its own level takes the column for plain lines
to the level behind it. -/
theorem innerColumn_ofLine {mark : Text} {tabWidth : Int} {level : Nat} {line : Text}
    (hLine : width tabWidth line = ownLevel (Role.ofLine mark line) level * tabWidth)
    (number : Nat) :
    innerColumn tabWidth (some (.ofLine mark tabWidth number line)) =
      levelAfter mark level line * tabWidth := by
  simp only [innerColumn, Above.ofLine, hLine, levelAfter, innerLevel]
  cases (Role.ofLine mark line).opens with
  | false => rfl
  | true => simp [Int.add_mul]

/-- One step of arranging: the nearest line with code behind a line that was placed
at its level. -/
theorem innerColumn_next {mark : Text} (hMark : MarkApart mark) {tabWidth : Int}
    (hWidth : 1 ≤ tabWidth) {above : Option Above} {level : Nat}
    (hAbove : innerColumn tabWidth above = level * tabWidth) (number : Nat) (line : Text) :
    let placed := place line (ownLevel (Role.ofLine mark line) level * tabWidth)
    innerColumn tabWidth
        (if hasCode mark placed then some (.ofLine mark tabWidth number placed) else above) =
      levelAfter mark level line * tabWidth := by
  intro placed
  have hBody : body placed = body line := body_place _ _
  have hAfter : levelAfter mark level placed = levelAfter mark level line :=
    levelAfter_eq_of_body_eq hMark hBody level
  cases hCode : hasCode mark placed with
  | false =>
      rw [← hAfter, levelAfter_of_not_hasCode hCode]
      exact hAbove
  | true =>
      have hNonempty : body line ≠ [] := hBody ▸ body_ne_nil_of_hasCode hMark hCode
      have hColumn : width tabWidth placed =
          ownLevel (Role.ofLine mark placed) level * tabWidth := by
        rw [ofLine_eq_of_body_eq hMark hBody]
        exact width_place tabWidth hNonempty (level_mul_nonneg hWidth _)
      rw [if_pos rfl, innerColumn_ofLine hColumn, hAfter]

theorem arrangeFrom_eq_outline {mark : Text} (hMark : MarkApart mark) {tabWidth : Int}
    (hWidth : 1 ≤ tabWidth) {above : Option Above} {level : Nat}
    (hAbove : innerColumn tabWidth above = level * tabWidth) (number : Nat) (lines : List Text) :
    (arrangeFrom mark tabWidth number above lines).map (·.1) =
      (outline mark level lines).map fun entry => place entry.1 (entry.2 * tabWidth) := by
  induction lines generalizing number above level with
  | nil => rfl
  | cons line rest ih =>
      have hNext := innerColumn_next hMark hWidth hAbove number line
      rw [arrangeFrom, outline, List.map_cons, List.map_cons]
      simp only [columnOf_make hWidth hAbove]
      rw [ih hNext]

theorem arrangeFaultFrom?_eq_outline {mark : Text} (hMark : MarkApart mark) {tabWidth : Int}
    (hWidth : 1 ≤ tabWidth) {above : Option Above} {level : Nat}
    (hAbove : innerColumn tabWidth above = level * tabWidth) (number : Nat) (lines : List Text) :
    arrangeFaultFrom? mark tabWidth number above lines =
      (outline mark level lines).findSome? fun entry => placeFault? entry.1 (entry.2 * tabWidth) := by
  induction lines generalizing number above level with
  | nil => rfl
  | cons line rest ih =>
      have hNext := innerColumn_next hMark hWidth hAbove number line
      rw [arrangeFaultFrom?, outline, List.findSome?_cons]
      simp only [columnOf_make hWidth hAbove]
      cases placeFault? line (ownLevel (Role.ofLine mark line) level * tabWidth) with
      | some fault => rfl
      | none => exact ih hNext _

theorem arrange_eq_outline {mark : Text} (hMark : MarkApart mark) {tabWidth : Int}
    (hWidth : 1 ≤ tabWidth) (lines : List Text) :
    arrange mark tabWidth lines =
      (outline mark 0 lines).map fun entry => place entry.1 (entry.2 * tabWidth) :=
  arrangeFrom_eq_outline hMark hWidth (by simp [innerColumn]) 0 lines

/-- Indenting a document as a whole puts every line at the column of its level. It
is refused only if there is no room for that, by the first such line. -/
theorem arrangeAll_eq_layOut {mark : Text} (hMark : MarkApart mark) {tabWidth : Int}
    (hWidth : 1 ≤ tabWidth) (lines : List Text) :
    (arrangeAll mark tabWidth lines).map Prod.fst = layOut tabWidth (outline mark 0 lines) := by
  have hFault : arrangeFault? mark tabWidth lines =
      (outline mark 0 lines).findSome? fun entry => placeFault? entry.1 (entry.2 * tabWidth) := by
    have hPositive : ¬ tabWidth < 1 := by omega
    simp only [arrangeFault?, hPositive, decide_false, Bool.false_and, Bool.false_eq_true, if_false]
    exact arrangeFaultFrom?_eq_outline hMark hWidth (by simp [innerColumn]) 0 lines
  rw [layOut_eq, arrangeAll, hFault, ← arrange_eq_outline hMark hWidth]
  cases (outline mark 0 lines).findSome? fun entry => placeFault? entry.1 (entry.2 * tabWidth) <;>
    rfl

end ScriptEditor.Indent
