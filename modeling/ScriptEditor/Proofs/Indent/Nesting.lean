import ScriptEditor.Proofs.Indent.Level

/-! Well nested lines. They are given by their derivation: a list of items, each of
them a line by itself or a block from its opener to its closer, with dividers between
the clauses of the block. Indenting such lines by two-line rules finds the depth of
every line, and putting them between other lines leaves those where they are. -/
namespace ScriptEditor.Indent

open ScriptEditor.Script (Role hasCode)

mutual

/-- Items one after another. An idle line is blank or only a comment. -/
inductive Items (mark : Text) where
  | nil
  | plain (line : Text) (isPlain : hasCode mark line = true ∧ Role.ofLine mark line = .plain)
      (rest : Items mark)
  | idle (line : Text) (noCode : hasCode mark line = false) (rest : Items mark)
  | block (line : Text) (opens : Role.ofLine mark line = .opener) (clauses : Clauses mark)
      (rest : Items mark)

/-- What follows the opener of a block, up to and with its closer. -/
inductive Clauses (mark : Text) where
  | closed (inner : Items mark) (line : Text) (closes : Role.ofLine mark line = .closer)
  | divided (inner : Items mark) (line : Text) (divides : Role.ofLine mark line = .divider)
      (rest : Clauses mark)

end

variable {mark : Text}

mutual

/-- The lines of items from top to bottom. -/
def Items.lines : Items mark → List Text
  | .nil => []
  | .plain line _ rest => line :: rest.lines
  | .idle line _ rest => line :: rest.lines
  | .block line _ clauses rest => line :: (clauses.lines ++ rest.lines)

/-- The lines of clauses from top to bottom. -/
def Clauses.lines : Clauses mark → List Text
  | .closed inner line _ => inner.lines ++ [line]
  | .divided inner line _ rest => inner.lines ++ line :: rest.lines

end

mutual

/-- The lines of items, each with the number of blocks around it, where so many
blocks are around the items. Opener, dividers and closer of a block are outside of
that block. -/
def Items.nested (depth : Nat) : Items mark → List (Text × Nat)
  | .nil => []
  | .plain line _ rest => (line, depth) :: rest.nested depth
  | .idle line _ rest => (line, depth) :: rest.nested depth
  | .block line _ clauses rest => (line, depth) :: (clauses.nested depth ++ rest.nested depth)

/-- The same for the clauses of a block, which is not counted for its own lines. -/
def Clauses.nested (depth : Nat) : Clauses mark → List (Text × Nat)
  | .closed inner line _ => inner.nested (depth + 1) ++ [(line, depth)]
  | .divided inner line _ rest => inner.nested (depth + 1) ++ (line, depth) :: rest.nested depth

end

theorem outline_cons_of_role {line : Text} {role : Role} (hRole : Role.ofLine mark line = role)
    (level : Nat) (rest : List Text) :
    outline mark level (line :: rest) =
      (line, ownLevel role level) :: outline mark (innerLevel role level) rest := by
  rw [outline, levelAfter, hRole]

theorem levelAfter_of_role {line : Text} {role : Role} (hRole : Role.ofLine mark line = role)
    (level : Nat) : levelAfter mark level line = innerLevel role level := by
  rw [levelAfter, hRole]

mutual

/-- Items end at the level where they begin. -/
theorem Items.levelAfterAll_lines (items : Items mark) (depth : Nat) :
    levelAfterAll mark depth items.lines = depth := by
  cases items with
  | nil => rfl
  | plain line isPlain rest =>
      rw [Items.lines, levelAfterAll_cons, levelAfter_of_role isPlain.2]
      exact rest.levelAfterAll_lines depth
  | idle line noCode rest =>
      rw [Items.lines, levelAfterAll_cons, levelAfter_of_not_hasCode noCode]
      exact rest.levelAfterAll_lines depth
  | block line opens clauses rest =>
      rw [Items.lines, levelAfterAll_cons, levelAfter_of_role opens, levelAfterAll_append]
      have hClauses : levelAfterAll mark (innerLevel .opener depth) clauses.lines = depth :=
        clauses.levelAfterAll_lines depth
      rw [hClauses]
      exact rest.levelAfterAll_lines depth

/-- The clauses of a block begin inside of it and end outside. -/
theorem Clauses.levelAfterAll_lines (clauses : Clauses mark) (depth : Nat) :
    levelAfterAll mark (depth + 1) clauses.lines = depth := by
  cases clauses with
  | closed inner line closes =>
      rw [Clauses.lines, levelAfterAll_append, inner.levelAfterAll_lines, levelAfterAll_cons,
        levelAfter_of_role closes]
      rfl
  | divided inner line divides rest =>
      rw [Clauses.lines, levelAfterAll_append, inner.levelAfterAll_lines, levelAfterAll_cons,
        levelAfter_of_role divides]
      exact rest.levelAfterAll_lines depth

end

mutual

/-- Counting levels line by line finds the depth of every line of items. -/
theorem Items.outline_lines (items : Items mark) (depth : Nat) :
    outline mark depth items.lines = items.nested depth := by
  cases items with
  | nil => rfl
  | plain line isPlain rest =>
      rw [Items.lines, Items.nested, outline_cons_of_role isPlain.2]
      exact congrArg _ (rest.outline_lines depth)
  | idle line noCode rest =>
      rw [Items.lines, Items.nested, outline_cons_of_role (ofLine_of_not_hasCode noCode)]
      exact congrArg _ (rest.outline_lines depth)
  | block line opens clauses rest =>
      have hClauses : outline mark (innerLevel .opener depth) clauses.lines =
          clauses.nested depth := clauses.outline_lines depth
      have hAfter : levelAfterAll mark (innerLevel .opener depth) clauses.lines = depth :=
        clauses.levelAfterAll_lines depth
      rw [Items.lines, Items.nested, outline_cons_of_role opens, outline_append, hClauses, hAfter,
        rest.outline_lines depth]
      rfl

theorem Clauses.outline_lines (clauses : Clauses mark) (depth : Nat) :
    outline mark (depth + 1) clauses.lines = clauses.nested depth := by
  cases clauses with
  | closed inner line closes =>
      rw [Clauses.lines, Clauses.nested, outline_append, inner.outline_lines,
        inner.levelAfterAll_lines, outline_cons_of_role closes]
      rfl
  | divided inner line divides rest =>
      have hRest : outline mark (innerLevel .divider (depth + 1)) rest.lines =
          rest.nested depth := rest.outline_lines depth
      rw [Clauses.lines, Clauses.nested, outline_append, inner.outline_lines,
        inner.levelAfterAll_lines, outline_cons_of_role divides, hRest]
      rfl

end

theorem place_mul (line : Text) (depth tabWidth : Nat) :
    place line (depth * tabWidth) =
      if body line = [] then [] else List.replicate (depth * tabWidth) ' ' ++ body line := by
  rw [place, spaces, ← Int.natCast_mul, Int.toNat_natCast]
  cases body line <;> rfl

/-- Well nested lines, whatever their indentation was, are put at their depth: one
tab width of spaces for every block around the line, and nothing on a line without a
body. Only a line for whose indentation there is no room can prevent this. -/
theorem arrangeAll_lines_nested (hMark : MarkApart mark) {tabWidth : Nat}
    (hWidth : 1 ≤ tabWidth) (items : Items mark) :
    (arrangeAll mark tabWidth items.lines).map Prod.fst =
      match (items.nested 0).findSome? fun entry => placeFault? entry.1 (entry.2 * tabWidth) with
      | some fault => .error fault
      | none => .ok ((items.nested 0).map fun entry =>
          if body entry.1 = [] then []
          else List.replicate (entry.2 * tabWidth) ' ' ++ body entry.1) := by
  have hLayOut := layOut_eq tabWidth (items.nested 0)
  simp only [place_mul] at hLayOut
  rw [arrangeAll_eq_layOut hMark (by omega), items.outline_lines]
  exact hLayOut

/-- A block of two clauses, one of them empty, with a comment and odd indentation. -/
def branching : Items ['#'] :=
  .block "\t if ready then".toList (by decide)
    (.divided (.plain "go".toList (by decide) (.idle "# wait".toList (by decide) .nil))
      "\telse".toList (by decide)
      (.closed (.idle " \t".toList (by decide) .nil) "   end if".toList (by decide)))
    .nil

theorem arrangeAll_branching :
    MarkApart ['#'] ∧ 1 ≤ 2 ∧
      (arrangeAll ['#'] 2 branching.lines).map Prod.fst =
        .ok ["if ready then".toList, "  go".toList, "  # wait".toList, "else".toList, [],
          "end if".toList] :=
  ⟨by decide, by decide, (arrangeAll_lines_nested (by decide) (by decide) branching).trans (by rfl)⟩

/-- With a tab width beyond every length the lines of a block cannot be indented. -/
theorem arrangeAll_branching_uncountable :
    ¬ ∀ (mark : Text) (tabWidth : Nat) (items : Items mark), MarkApart mark → 1 ≤ tabWidth →
      (arrangeAll mark tabWidth items.lines).map Prod.fst =
        .ok ((items.nested 0).map fun entry =>
          if body entry.1 = [] then []
          else List.replicate (entry.2 * tabWidth) ' ' ++ body entry.1) := by
  intro hAll
  have hError : (arrangeAll ['#'] (9223372036854775808 : Nat) branching.lines).map Prod.fst =
      .error .uncountable := by rfl
  have hOk := hAll ['#'] 9223372036854775808 branching (by decide) (by decide)
  rw [hError] at hOk
  cases hOk

/-- Well nested lines between other lines, which need not be well nested, take their
own place and leave the others where they are without them. Indenting fails exactly if
it fails without them or if there is no room for them. -/
theorem arrangeAll_between (hMark : MarkApart mark) {tabWidth : Int} (hWidth : 1 ≤ tabWidth)
    (front back : List Text) (items : Items mark) (result : List Text) :
    (arrangeAll mark tabWidth (front ++ items.lines ++ back)).map Prod.fst = .ok result ↔
      ∃ first middle last, result = first ++ middle ++ last ∧
        first.length = front.length ∧ middle.length = items.lines.length ∧
        last.length = back.length ∧
        (arrangeAll mark tabWidth (front ++ back)).map Prod.fst = .ok (first ++ last) ∧
        layOut tabWidth (items.nested (levelAfterAll mark 0 front)) = .ok middle := by
  have hMiddle := items.outline_lines (levelAfterAll mark 0 front)
  have hAfter := items.levelAfterAll_lines (levelAfterAll mark 0 front)
  have hLength : (items.nested (levelAfterAll mark 0 front)).length = items.lines.length := by
    rw [← hMiddle, outline_length]
  rw [arrangeAll_eq_layOut hMark hWidth, arrangeAll_eq_layOut hMark hWidth, outline_append,
    outline_append, levelAfterAll_append, hAfter, hMiddle, outline_append]
  constructor
  · intro hResult
    obtain ⟨before, last, hBefore, hLast, rfl⟩ := layOut_append_eq_ok_iff.mp hResult
    obtain ⟨first, middle, hFirst, hMiddleOk, rfl⟩ := layOut_append_eq_ok_iff.mp hBefore
    refine ⟨first, middle, last, rfl, ?_, ?_, ?_, ?_, hMiddleOk⟩
    · rw [layOut_length hFirst, outline_length]
    · rw [layOut_length hMiddleOk, hLength]
    · rw [layOut_length hLast, outline_length]
    · exact layOut_append_eq_ok_iff.mpr ⟨first, last, hFirst, hLast, rfl⟩
  · rintro ⟨first, middle, last, rfl, hFirstLength, -, -, hOthers, hMiddleOk⟩
    obtain ⟨first', last', hFirst, hLast, hEq⟩ := layOut_append_eq_ok_iff.mp hOthers
    have hSame : first.length = first'.length := by
      rw [hFirstLength, layOut_length hFirst, outline_length]
    obtain ⟨rfl, rfl⟩ := List.append_inj hEq hSame
    exact layOut_append_eq_ok_iff.mpr
      ⟨_, _, layOut_append_eq_ok_iff.mpr ⟨_, _, hFirst, hMiddleOk, rfl⟩, hLast, rfl⟩

theorem arrangeAll_branching_between :
    MarkApart ['#'] ∧ (1 : Int) ≤ 2 ∧
      (arrangeAll ['#'] 2 (["else".toList] ++ branching.lines ++ ["end".toList, "next".toList])).map
          Prod.fst =
        .ok (["else".toList] ++
          ["  if ready then".toList, "    go".toList, "    # wait".toList, "  else".toList, [],
            "  end if".toList] ++
          ["end".toList, "next".toList]) := by
  refine ⟨by decide, by decide, (arrangeAll_between (by decide) (by decide) ["else".toList]
    ["end".toList, "next".toList] branching _).mpr ⟨_, _, _, rfl, rfl, ?_, rfl, ?_, ?_⟩⟩
  · simp [branching, Items.lines, Clauses.lines]
  · rfl
  · rfl

/-- Lines that can be indented by themselves cannot be indented around a block if the
tab width is beyond every length. -/
theorem arrangeAll_between_uncountable :
    ¬ ∀ (mark : Text) (tabWidth : Int) (front back first last : List Text) (items : Items mark),
      MarkApart mark → 1 ≤ tabWidth → first.length = front.length →
      (arrangeAll mark tabWidth (front ++ back)).map Prod.fst = .ok (first ++ last) →
      ∃ middle, (arrangeAll mark tabWidth (front ++ items.lines ++ back)).map Prod.fst =
        .ok (first ++ middle ++ last) := by
  intro hAll
  have hError : (arrangeAll ['#'] 9223372036854775808
      (["x".toList] ++ branching.lines ++ ["y".toList])).map Prod.fst = .error .uncountable := by
    rfl
  obtain ⟨middle, hOk⟩ := hAll ['#'] 9223372036854775808 ["x".toList] ["y".toList] ["x".toList]
    ["y".toList] branching (by decide) (by decide) rfl (by rfl)
  rw [hError] at hOk
  cases hOk

end ScriptEditor.Indent
