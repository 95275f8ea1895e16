import ScriptEditor.Proofs.Editor.LineBreak
import ScriptEditor.Proofs.Indent.Aligned

/-! Entering a document line by line. A line break indents the next line before its
text is known, as if it were plain, and indents a line that closes a block once more
when it is left. The lines that come out are those of indenting the finished texts as a
whole. -/
namespace ScriptEditor.Editor

open ScriptEditor.Document
open ScriptEditor.Indent
open ScriptEditor.Script (Role commentMark)

/-- Puts in a text at the cursor and then breaks the line. -/
def enterLine (e : Editor) (text : Text) : Except Fault Editor :=
  (e.perform (.insert text)).bind fun e => e.perform .breakLine

/-- Enters texts one after another, each of them followed by a line break. -/
def enterLines (e : Editor) (texts : List Text) : Except Fault Editor :=
  texts.foldlM enterLine e

variable {e : Editor}

/-- A text that is entered as it is and begins with no indentation. -/
def Enterable (text : Text) : Prop :=
  IsRow text ∧ body text = text

instance (text : Text) : Decidable (Enterable text) :=
  inferInstanceAs (Decidable (_ ∧ _))

/-- The lines that texts become: each text behind the indentation of its level. -/
def enteredLines (tabWidth : Int) (texts : List Text) : List Text :=
  (outline commentMark 0 texts).map fun entry => spaces (entry.2 * tabWidth) ++ entry.1

/-- The state of an editor after entering texts into an empty page. The line of the
cursor has the indentation of a plain line. -/
structure Entered (tabWidth : Int) (texts : List Text) (e : Editor) : Prop where
  tabWidth_eq : e.tabWidth = tabWidth
  room : levelAfterAll commentMark 0 texts * tabWidth ≤ Number.greatestRoom
  page : EndsWith e.page (enteredLines tabWidth texts)
    (spaces (levelAfterAll commentMark 0 texts * tabWidth))

theorem markApart_commentMark : MarkApart commentMark := by decide

theorem enteredLines_concat (tabWidth : Int) (texts : List Text) (text : Text) :
    enteredLines tabWidth (texts ++ [text]) = enteredLines tabWidth texts ++
      [spaces (ownLevel (Role.ofLine commentMark text) (levelAfterAll commentMark 0 texts) *
        tabWidth) ++ text] := by
  simp [enteredLines, outline_append, outline]

/-- The decision about a line below entered texts is the column of its level. -/
theorem columnAt_enteredLines {tabWidth : Int} (hWidth : 1 ≤ tabWidth) {texts : List Text}
    (hTexts : ∀ text ∈ texts, Enterable text) (line : Text) :
    columnAt commentMark tabWidth (enteredLines tabWidth texts ++ [line])
        (enteredLines tabWidth texts).length =
      ownLevel (Role.ofLine commentMark line) (levelAfterAll commentMark 0 texts) * tabWidth := by
  obtain ⟨hAligned, hLevel⟩ := aligned_spaces_outline markApart_commentMark hWidth
    (fun text hText => (hTexts text hText).2) 0
  rw [← hLevel]
  exact columnAt_of_aligned hWidth hAligned line []

/-- A text behind the indentation of a plain line, as it is left: behind the indentation
of its own level. Only a line that closes a block has to be moved for that. -/
theorem leave_typed {text : Text} (hText : body text = text) (level : Nat) (tabWidth : Int) :
    let typed := spaces (level * tabWidth) ++ text
    let own := ownLevel (Role.ofLine commentMark text) level
    (if (Role.ofLine commentMark typed).closes then spaces (own * tabWidth) ++ body typed
      else typed) = spaces (own * tabWidth) ++ text := by
  intro typed own
  have hBody : body typed = body text := body_spaces_append _ text
  rw [ofLine_eq_of_body_eq markApart_commentMark hBody, hBody, hText]
  cases hCloses : (Role.ofLine commentMark text).closes with
  | true => rfl
  | false => simp [typed, own, ownLevel, hCloses]

/-- One step: entering a text where there is room for the line behind it, and failing
where there is none. -/
theorem enterLine_of_entered {tabWidth : Int} (hWidth : 1 ≤ tabWidth) {texts : List Text}
    {text : Text} (hTexts : ∀ t ∈ texts ++ [text], Enterable t) (h : Entered tabWidth texts e) :
    let column := levelAfterAll commentMark 0 (texts ++ [text]) * tabWidth
    (∀ fault, spacesFault? column = some fault → e.enterLine text = .error (.indent fault)) ∧
    (spacesFault? column = none →
      ∃ next, e.enterLine text = .ok next ∧ Entered tabWidth (texts ++ [text]) next) := by
  intro column
  have hText : Enterable text := hTexts text (by simp)
  have hBefore : ∀ t ∈ texts, Enterable t := fun t ht => hTexts t (by simp [ht])
  let level := levelAfterAll commentMark 0 texts
  let own := ownLevel (Role.ofLine commentMark text) level
  let typedLine := spaces (level * tabWidth) ++ text
  obtain ⟨typed, hInsert, hTypedWidth, hTyped⟩ := perform_insert h.page hText.1
  have hTabWidth : typed.tabWidth = tabWidth := hTypedWidth.trans h.tabWidth_eq
  have hRole : Role.ofLine commentMark typedLine = Role.ofLine commentMark text :=
    ofLine_eq_of_body_eq markApart_commentMark (body_spaces_append _ text)
  have hOwn : columnAt commentMark typed.tabWidth (enteredLines tabWidth texts ++ [typedLine])
      (enteredLines tabWidth texts).length = own * tabWidth := by
    rw [hTabWidth, columnAt_enteredLines hWidth hBefore, hRole]
  have hOwnRoom : spacesFault? (own * tabWidth) = none := by
    have hColumn : own * tabWidth ≤ level * tabWidth := level_mul_le hWidth (ownLevel_le _ level)
    exact spacesFault?_eq_none_iff.mpr (Int.le_trans hColumn h.room)
  have hDone := enteredLines_concat tabWidth texts text
  have hNext : columnAt commentMark typed.tabWidth
      (enteredLines tabWidth texts ++ [spaces (own * tabWidth) ++ text] ++ [[]])
      (enteredLines tabWidth texts ++ [spaces (own * tabWidth) ++ text]).length = column := by
    have hEmpty : Role.ofLine commentMark [] = .plain := by decide
    rw [hTabWidth, ← hDone, columnAt_enteredLines hWidth hTexts, hEmpty]
    rfl
  obtain ⟨hFail, hOk⟩ := perform_breakLine hTyped hOwn hOwnRoom
    (leave_typed hText.2 level tabWidth) hNext
  refine ⟨fun fault hFault => ?_, fun hRoom => ?_⟩
  · simp only [enterLine, hInsert, Except.bind, hFail fault hFault]
  · obtain ⟨next, hPerform, hNextWidth, hEnd⟩ := hOk hRoom
    rw [← hDone] at hEnd
    refine ⟨next, ?_, hNextWidth.trans hTabWidth, spacesFault?_eq_none_iff.mp hRoom, hEnd⟩
    simp only [enterLine, hInsert, Except.bind, hPerform]

/-- A whole run: all texts are entered if there is room behind each of them, and
otherwise the first line break without room fails. -/
theorem enterLines_of_entered {tabWidth : Int} (hWidth : 1 ≤ tabWidth) {before after : List Text}
    (hTexts : ∀ t ∈ before ++ after, Enterable t) (h : Entered tabWidth before e) :
    ((∀ k, levelAfterAll commentMark 0 (before ++ after.take k) * tabWidth ≤
        Number.greatestRoom) →
      ∃ next, e.enterLines after = .ok next ∧ Entered tabWidth (before ++ after) next) ∧
    ((¬ ∀ k, levelAfterAll commentMark 0 (before ++ after.take k) * tabWidth ≤
        Number.greatestRoom) →
      ∃ fault, e.enterLines after = .error (.indent fault)) := by
  induction after generalizing before e with
  | nil =>
      refine ⟨fun _ => ⟨e, rfl, by simpa using h⟩, fun hNoRoom => ?_⟩
      exact absurd (fun k => by simpa using h.room) hNoRoom
  | cons text after ih =>
      have hSplit : before ++ text :: after = before ++ [text] ++ after := by simp
      have hTake (k : Nat) : before ++ (text :: after).take (k + 1) =
          before ++ [text] ++ after.take k := by simp
      rw [hSplit] at hTexts ⊢
      have hStep := enterLine_of_entered hWidth
        (fun t ht => hTexts t (List.mem_append_left _ ht)) h
      obtain ⟨hFail, hOk⟩ := hStep
      cases hFault : spacesFault?
          (levelAfterAll commentMark 0 (before ++ [text]) * tabWidth) with
      | some fault =>
          have hError : e.enterLines (text :: after) = .error (.indent fault) := by
            rw [enterLines, List.foldlM_cons, hFail fault hFault]
            rfl
          refine ⟨fun hRoom => ?_, fun _ => ⟨fault, hError⟩⟩
          have hFirst := hRoom 1
          rw [hTake 0, List.take_zero, List.append_nil] at hFirst
          rw [spacesFault?_eq_none_iff.mpr hFirst] at hFault
          cases hFault
      | none =>
          obtain ⟨next, hNext, hEntered⟩ := hOk hFault
          have hRun : e.enterLines (text :: after) = next.enterLines after := by
            rw [enterLines, List.foldlM_cons, hNext]
            rfl
          obtain ⟨hRest, hRestFail⟩ := ih hTexts hEntered
          rw [hRun]
          refine ⟨fun hRoom => hRest fun k => hTake k ▸ hRoom (k + 1), fun hNoRoom => ?_⟩
          refine hRestFail fun hRoom => hNoRoom fun k => ?_
          cases k with
          | zero => simpa using h.room
          | succ k => rw [hTake k]; exact hRoom k

theorem entered_nil (hPage : e.page = .ofText []) : Entered e.tabWidth [] e := by
  refine ⟨rfl, by simp [Number.greatestRoom], ?_⟩
  rw [hPage]
  exact ⟨by simp [Page.ofText, linesOf, enteredLines, outline, spaces, Text.withoutMark,
    Text.splitLines], by simp [Page.ofText, enteredLines, outline, spaces, Text.units, Pos.origin],
    rfl⟩

/-- Where there is room to enter texts, there is room to indent them as a whole. -/
theorem arrangeAll_of_room {tabWidth : Int} (hWidth : 1 ≤ tabWidth) {texts : List Text}
    (hRoom : ∀ k, levelAfterAll commentMark 0 (texts.take k) * tabWidth ≤ Number.greatestRoom) :
    (arrangeAll commentMark tabWidth texts).map Prod.fst =
      .ok ((outline commentMark 0 texts).map fun entry => place entry.1 (entry.2 * tabWidth)) := by
  have hNoFault : ((outline commentMark 0 texts).findSome? fun entry =>
      placeFault? entry.1 (entry.2 * tabWidth)) = none := by
    refine List.findSome?_eq_none_iff.mpr fun entry hEntry => ?_
    obtain ⟨k, hLevel⟩ := level_le_of_mem_outline hEntry
    have hSpaces : spacesFault? (entry.2 * tabWidth) = none :=
      spacesFault?_eq_none_iff.mpr (Int.le_trans (level_mul_le hWidth hLevel) (hRoom k))
    simp [placeFault?, hSpaces]
  rw [arrangeAll_eq_layOut markApart_commentMark hWidth, layOut_eq, hNoFault]

/-- Entering texts one after another gives the lines that they become when they are
indented as a whole. Only the lines of empty texts and the last line, which are blank,
keep the spaces of a line that was begun. -/
def EntersAsArranged (e : Editor) (texts : List Text) : Prop :=
  ∃ next formatted, e.enterLines texts = .ok next ∧
    (arrangeAll commentMark e.tabWidth texts).map Prod.fst = .ok formatted ∧
    next.page.lines.length = texts.length + 1 ∧
    (∀ (i : Nat) (hi : i < texts.length), texts[i] ≠ [] →
      next.page.lines[i]? = formatted[i]?) ∧
    (∀ (i : Nat) (hi : i < texts.length), texts[i] = [] →
      ∃ n, next.page.lines[i]? = some (List.replicate n ' ')) ∧
    ∃ n, next.page.lines[texts.length]? = some (List.replicate n ' ')

end ScriptEditor.Editor
