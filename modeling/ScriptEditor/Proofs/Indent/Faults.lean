import ScriptEditor.Proofs.Failing
import ScriptEditor.Proofs.Indent.Dependence
import ScriptEditor.Proofs.Indent.Outdent

/-! What indentation is refused for. Deciding about a line is refused for a tab width that is
not positive and for a line that is not there, and for nothing else: the search for the line
above and the measuring of it, which can fail on their own, do not fail where they are used.
Where spaces are made, there may be no room for them. -/
namespace ScriptEditor.Indent

open ScriptEditor.Script (Role hasCode)

variable {mark : Text} {tabWidth : Int}

/-! ### The ways to be refused -/

/-- A tab width is refused, with the fault that tells it. -/
def BadWidth (tabWidth : Int) (fault : Fault) : Prop :=
  tabWidth < 1 ∧ fault = .telling tabWidth (.tabWidth tabWidth)

/-- There is no indentation up to a column, with the reason: so many spaces cannot be counted,
or there is no room for them. -/
inductive TooFar (column : Int) : Fault → Prop where
  | uncountable (beyond : Number.greatestLength < column) : TooFar column .uncountable
  | noRoom (beyond : Number.greatestRoom < column) (counted : column ≤ Number.greatestLength) :
      TooFar column .noRoom

/-- What the search for the line above can fail with, and the measuring of that line. -/
inductive Fault.OfSearch : Fault → Prop where
  | noLine : OfSearch .noLine
  | uncountableLine : OfSearch .uncountableLine
  | noTabStops : OfSearch .noTabStops

theorem spacesFault?_eq_some_iff {column : Int} {fault : Fault} :
    spacesFault? column = some fault ↔ TooFar column fault := by
  unfold spacesFault?
  constructor
  · intro h
    split_ifs at h with hLength hRoom
    · cases h
      exact .uncountable hLength
    · cases h
      exact .noRoom hRoom (Int.not_lt.mp hLength)
  · rintro (hLength | ⟨hRoom, hLength⟩)
    · rw [if_pos hLength]
    · rw [if_neg (Int.not_lt.mpr hLength), if_pos hRoom]

theorem makeSpaces_eq_error_iff {column : Int} {fault : Fault} :
    makeSpaces column = .error fault ↔ TooFar column fault := by
  rw [← spacesFault?_eq_some_iff, makeSpaces]
  cases spacesFault? column <;> simp

theorem placeFault?_eq_some_iff {line : Text} {column : Int} {fault : Fault} :
    placeFault? line column = some fault ↔ body line ≠ [] ∧ TooFar column fault := by
  rw [← spacesFault?_eq_some_iff, placeFault?]
  by_cases hBody : body line = [] <;> simp [hBody]

theorem makePlaced_eq_error_iff {line : Text} {column : Int} {fault : Fault} :
    makePlaced line column = .error fault ↔ body line ≠ [] ∧ TooFar column fault := by
  rw [← placeFault?_eq_some_iff, makePlaced]
  cases placeFault? line column <;> simp

theorem Fault.telling_eq_or (number : Int) (fault : Fault) :
    telling number fault = fault ∨ telling number fault = .untold :=
  ite_eq_or_eq _ _ _

theorem Fault.OfSearch.ne_telling {fault told : Fault} (h : fault.OfSearch)
    (hTold : ¬ told.OfSearch) (number : Int) : fault ≠ .telling number told := by
  intro hFault
  rcases telling_eq_or number told with hTelling | hTelling
  · exact hTold (hTelling ▸ hFault ▸ h)
  · rw [hFault, hTelling] at h
    cases h

theorem Fault.OfSearch.not_badWidth {fault : Fault} (h : fault.OfSearch) :
    ¬ BadWidth tabWidth fault := by
  rintro ⟨-, hFault⟩
  refine h.ne_telling ?_ tabWidth hFault
  rintro ⟨⟩

theorem Fault.OfSearch.ne_outside {fault : Fault} (h : fault.OfSearch) (n : Int) (count : Nat) :
    fault ≠ .telling n (.outside n count) := by
  refine h.ne_telling ?_ n
  rintro ⟨⟩

theorem Fault.OfSearch.not_tooFar {fault : Fault} (h : fault.OfSearch) {column : Int} :
    ¬ TooFar column fault := by
  rintro (- | -) <;> cases h

/-! ### One line -/

theorem resolve_eq_error_iff {lines : List Text} {n : Int} {fault : Fault} :
    resolve mark tabWidth lines n = .error fault ↔
      BadWidth tabWidth fault ∨
      1 ≤ tabWidth ∧ (n < 0 ∨ lines.length ≤ n) ∧
        fault = .telling n (.outside n lines.length) := by
  unfold resolve BadWidth
  split_ifs with hWidth hOutside
  · have hPositive : ¬ 1 ≤ tabWidth := by omega
    simp [hWidth, hPositive, eq_comm]
  · have hPositive : 1 ≤ tabWidth := by omega
    have hOutside : n < 0 ∨ lines.length ≤ n := by simpa using hOutside
    simp [hWidth, hPositive, hOutside, eq_comm]
  · have hOutside : ¬ (n < 0 ∨ lines.length ≤ n) := by simpa using hOutside
    simp [hWidth, hOutside]

theorem resolve_eq_ok_iff {lines : List Text} {n : Int} {decision : Option Decision} :
    resolve mark tabWidth lines n = .ok decision ↔
      1 ≤ tabWidth ∧ 0 ≤ n ∧ n < lines.length ∧
        decision = decision? mark tabWidth lines n.toNat := by
  unfold resolve
  split_ifs with hWidth hOutside
  · have hPositive : ¬ 1 ≤ tabWidth := by omega
    simp [hPositive]
  · have hOutside : ¬ (0 ≤ n ∧ n < lines.length) := by
      simp only [Bool.or_eq_true, decide_eq_true_eq] at hOutside
      omega
    simp [← and_assoc, hOutside]
  · have hInside : 0 ≤ n ∧ n < lines.length := by simpa using hOutside
    have hPositive : 1 ≤ tabWidth := by omega
    simp [hPositive, hInside, eq_comm]

/-- The search for the line above a line of the document, or above its end, does not fail. -/
theorem lookAbove_eq_ok (hWidth : 1 ≤ tabWidth) {lines : List Text}
    (hCounted : lines.length ≤ Number.greatestLength) {n : Int} (hn : n ≤ lines.length) :
    lookAbove mark tabWidth lines n = .ok (above? mark tabWidth lines n.toNat) := by
  unfold lookAbove above?
  split_ifs with hFirst hBeyond hMissing
  · rw [Int.toNat_of_nonpos hFirst, List.take_zero]
    rfl
  · omega
  · omega
  · cases lastCode? mark (lines.take n.toNat) with
    | none => rfl
    | some found =>
        simp only [measure_eq_ok hWidth]
        rfl

/-! ### A line break -/

/-- The line of a break is missing from the lines around the break if the broken line is above
the first line, or more than one below the last. Right above the first line counts, for the
new line is then the first one. -/
theorem outside_brokenLines_iff {lines : List Text} {n : Int} {before after : Text} :
    (n + 1 < 0 ∨ (brokenLines lines n before after).length ≤ n + 1) ↔
      n < -1 ∨ lines.length < n := by
  rcases Int.lt_or_le n 0 with hNegative | hNonneg
  · have hLength : 2 ≤ (brokenLines lines n before after).length := by simp [brokenLines]
    omega
  · obtain ⟨i, rfl⟩ := Int.eq_ofNat_of_zero_le hNonneg
    have hLength : (brokenLines lines i before after).length = min i lines.length + 2 := by
      simp [brokenLines_of_nat]
    omega

theorem lineBreak_eq_error_iff {lines : List Text} {n : Int} {before after : Text} {fault : Fault} :
    lineBreak mark tabWidth lines n before after = .error fault ↔
      BadWidth tabWidth fault ∨
      (1 ≤ tabWidth ∧ (n < -1 ∨ lines.length < n) ∧
        fault = .telling (n + 1) (.outside (n + 1) (brokenLines lines n before after).length)) ∨
      (1 ≤ tabWidth ∧ -1 ≤ n ∧ n ≤ lines.length ∧
        TooFar (columnAt mark tabWidth (brokenLines lines n before after) (n + 1).toNat)
          fault) := by
  let broken := brokenLines lines n before after
  change (resolve mark tabWidth broken (n + 1) >>= fun decision =>
    (makeSpaces (columnOf decision)).map ('\n' :: ·)) = _ ↔ _
  have hOutside : n + 1 < 0 ∨ broken.length ≤ n + 1 ↔ n < -1 ∨ lines.length < n :=
    outside_brokenLines_iff
  rw [bind_eq_error_iff, resolve_eq_error_iff, hOutside, or_assoc]
  refine or_congr_right (or_congr_right ?_)
  simp only [resolve_eq_ok_iff, map_eq_error_iff, makeSpaces_eq_error_iff]
  constructor
  · rintro ⟨_, ⟨hWidth, hLow, hHigh, rfl⟩, hFar⟩
    exact ⟨hWidth, by omega, by omega, hFar⟩
  · rintro ⟨hWidth, hLow, hHigh, hFar⟩
    exact ⟨_, ⟨hWidth, by omega, by omega, rfl⟩, hFar⟩

/-! ### All lines -/

/-- Decides about a line behind the lines that are indented already, and indents it. -/
def arrangeNext (mark : Text) (tabWidth : Int) (placed : List Text) (line : Text) :
    Except Fault (List Text) := do
  let decision ← resolve mark tabWidth (placed ++ [line]) placed.length
  let last ← makePlaced line (columnOf decision)
  return placed ++ [last]

theorem arrangeNext_eq (hWidth : 1 ≤ tabWidth) (placed : List Text) (line : Text) :
    arrangeNext mark tabWidth placed line =
      (makePlaced line (columnAt mark tabWidth (placed ++ [line]) placed.length)).map
        (placed ++ [·]) := by
  have hInside : placed.length < (placed ++ [line]).length := by simp
  rw [arrangeNext, resolve_eq_ok hWidth hInside]
  rfl

theorem arrangeNext_eq_error_iff {placed : List Text} {line : Text} {fault : Fault} :
    arrangeNext mark tabWidth placed line = .error fault ↔
      BadWidth tabWidth fault ∨
      1 ≤ tabWidth ∧ body line ≠ [] ∧
        TooFar (columnAt mark tabWidth (placed ++ [line]) placed.length) fault := by
  rcases Int.lt_or_le tabWidth 1 with hWidth | hWidth
  · have hPositive : ¬ 1 ≤ tabWidth := by omega
    have hNever (decision) :
        resolve mark tabWidth (placed ++ [line]) placed.length ≠ .ok decision :=
      fun h => hPositive (resolve_eq_ok_iff.mp h).1
    rw [arrangeNext, bind_eq_error_iff, resolve_eq_error_iff]
    simp only [hPositive, hNever, false_and, exists_false, or_false]
  · have hGood : ¬ BadWidth tabWidth fault := fun hBad => absurd hBad.1 (Int.not_lt.mpr hWidth)
    rw [arrangeNext_eq hWidth, map_eq_error_iff, makePlaced_eq_error_iff]
    simp [hGood, hWidth]

/-- What a line right behind these lines is indented after. -/
def aboveEnd (mark : Text) (tabWidth : Int) (placed : List Text) : Option Above :=
  (lastCode? mark placed).map fun (n, line) => .ofLine mark tabWidth n line

theorem aboveEnd_concat (placed : List Text) (line : Text) :
    aboveEnd mark tabWidth (placed ++ [line]) =
      if hasCode mark line then some (.ofLine mark tabWidth placed.length line)
      else aboveEnd mark tabWidth placed := by
  unfold aboveEnd
  rw [lastCode?_concat]
  split_ifs <;> rfl

theorem decision?_concat (placed : List Text) (line : Text) :
    decision? mark tabWidth (placed ++ [line]) placed.length =
      (aboveEnd mark tabWidth placed).map
        (.make tabWidth placed.length (Role.ofLine mark line)) := by
  have hLine : (placed ++ [line]).getD placed.length [] = line := by
    simp [List.getD_eq_getElem?_getD]
  rw [decision?, hLine, above?_append]
  rfl

/-- The lines that are indented already and the others as they are indented behind them. -/
def arrangeBehind (mark : Text) (tabWidth : Int) (placed lines : List Text) :
    Except Fault (List Text) :=
  match arrangeFaultFrom? mark tabWidth placed.length (aboveEnd mark tabWidth placed) lines with
  | some fault => .error fault
  | none => .ok (placed ++
      (arrangeFrom mark tabWidth placed.length (aboveEnd mark tabWidth placed) lines).map Prod.fst)

theorem arrangeBehind_cons (hWidth : 1 ≤ tabWidth) (placed : List Text) (line : Text)
    (rest : List Text) :
    arrangeBehind mark tabWidth placed (line :: rest) =
      arrangeNext mark tabWidth placed line >>= (arrangeBehind mark tabWidth · rest) := by
  let decision := decision? mark tabWidth (placed ++ [line]) placed.length
  let last := place line (columnOf decision)
  rw [arrangeNext_eq hWidth, columnAt, makePlaced, arrangeBehind, arrangeFaultFrom?, arrangeFrom,
    ← decision?_concat]
  dsimp only
  cases placeFault? line (columnOf decision) with
  | some fault => rfl
  | none =>
      change _ = arrangeBehind mark tabWidth (placed ++ [last]) rest
      rw [arrangeBehind, aboveEnd_concat, List.length_append, List.append_assoc]
      rfl

theorem arrangeBehind_eq_foldlM (hWidth : 1 ≤ tabWidth) (placed lines : List Text) :
    arrangeBehind mark tabWidth placed lines = lines.foldlM (arrangeNext mark tabWidth) placed := by
  induction lines generalizing placed with
  | nil => simp [arrangeBehind, arrangeFaultFrom?, arrangeFrom, pure, Except.pure]
  | cons line rest ih =>
      rw [arrangeBehind_cons hWidth, List.foldlM_cons]
      simp only [ih]

/-- Indenting all lines is deciding about one after the other, each behind what the lines
before it have become. -/
theorem arrangeAll_eq_foldlM (mark : Text) (tabWidth : Int) (lines : List Text) :
    (arrangeAll mark tabWidth lines).map Prod.fst =
      lines.foldlM (arrangeNext mark tabWidth) [] := by
  rcases Int.lt_or_le tabWidth 1 with hWidth | hWidth
  · cases lines with
    | nil => simp [arrangeAll, arrangeFault?, arrangeFaultFrom?, arrange, arrangeFrom, Except.map,
        pure, Except.pure]
    | cons line rest =>
        have hNext : arrangeNext mark tabWidth [] line =
            .error (.telling tabWidth (.tabWidth tabWidth)) :=
          arrangeNext_eq_error_iff.mpr (.inl ⟨hWidth, rfl⟩)
        rw [List.foldlM_cons, hNext, arrangeAll, arrangeFault?]
        simp [hWidth, Except.map, bind, Except.bind]
  · have hPositive : ¬ tabWidth < 1 := by omega
    rw [← arrangeBehind_eq_foldlM hWidth, arrangeAll, arrangeFault?]
    simp only [hPositive, decide_false, Bool.false_and, Bool.false_eq_true, if_false]
    change _ = match arrangeFaultFrom? mark tabWidth 0 none lines with
      | some fault => _
      | none => _
    cases arrangeFaultFrom? mark tabWidth 0 none lines <;> rfl

/-- Indenting all lines is refused at the first line for which there is no room. -/
theorem arrangeAll_refused_iff {lines : List Text} {fault : Fault} :
    arrangeAll mark tabWidth lines = .error fault ↔
      (lines ≠ [] ∧ BadWidth tabWidth fault) ∨
      (1 ≤ tabWidth ∧ ∃ front line rest placed, lines = front ++ line :: rest ∧
        (arrangeAll mark tabWidth front).map Prod.fst = .ok placed ∧ body line ≠ [] ∧
          TooFar (columnAt mark tabWidth (placed ++ [line]) placed.length) fault) := by
  rw [← @map_eq_error_iff _ _ _ _ Prod.fst, arrangeAll_eq_foldlM, foldlM_eq_error_iff]
  simp only [arrangeNext_eq_error_iff, ← arrangeAll_eq_foldlM]
  constructor
  · rintro ⟨front, line, rest, placed, hLines, hFront, hBad | ⟨hWidth, hFar⟩⟩
    · exact .inl ⟨by simp [hLines], hBad⟩
    · exact .inr ⟨hWidth, front, line, rest, placed, hLines, hFront, hFar⟩
  · rintro (⟨hNonempty, hBad⟩ | ⟨hWidth, front, line, rest, placed, hLines, hFront, hFar⟩)
    · obtain ⟨line, rest, rfl⟩ := List.exists_cons_of_ne_nil hNonempty
      exact ⟨[], line, rest, [], rfl, arrangeAll_eq_foldlM .., .inl hBad⟩
    · exact ⟨front, line, rest, placed, hLines, hFront, .inr ⟨hWidth, hFar⟩⟩

/-! ### The engine -/

theorem Fault.telling_of_le {number : Int} (h : Nat.pow 10 Number.digitLimit ≤ number.natAbs)
    (fault : Fault) : telling number fault = .untold := by
  have hWritable : Number.isWritable number = false := decide_eq_false (Nat.not_lt.mpr h)
  rw [telling, hWritable, if_neg Bool.false_ne_true]

end ScriptEditor.Indent
