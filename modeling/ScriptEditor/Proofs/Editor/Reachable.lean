import Mathlib.Logic.Relation
import ScriptEditor.Proofs.Document.Timeline
import ScriptEditor.Proofs.Editor.IndentAll

/-! Editors that can come about. Whatever a command does, apart from putting in a text for
the whole page, it does one of a few things to the page and to the history, once or several
times. Each of them leaves pages whose cursor is a place of the page and whose lines hold no
line ends, now and in every state of the history. -/
namespace ScriptEditor.Editor

open ScriptEditor.Document
open ScriptEditor.Indent
open ScriptEditor.Text (units)
open ScriptEditor.Appearance (Theme)

variable {e next : Editor} {d : Draft}

/-- One thing that a command can do to the page and to the history. -/
inductive Turn (e : Editor) : Editor → Prop where
  /-- Another look, with a tab width that can be used if the old one could. -/
  | look {next : Editor} (page : next.page = e.page) (history : next.history = e.history)
      (tabWidth : 1 ≤ e.tabWidth → 1 ≤ next.tabWidth) : Turn e next
  /-- A draft that is a step of its own if it was edited. -/
  | commit {d : Draft} (leads : e.draft.Leads d) : Turn e (e.commit d)
  /-- A draft that may belong to the last step. -/
  | stroke {d : Draft} (leads : e.draft.Leads d) (stroke : Stroke) :
      Turn e (e.takeOver d (e.history.recordStroke e.page stroke))
  /-- A draft of a command that was broken off. -/
  | brokenOff {d : Draft} (leads : e.draft.Leads d) :
      Turn e ({ e with history := e.history.breakOff }.commit d)
  | undo {page : Page} {history : History Page}
      (undone : e.history.undo? e.page = some (page, history)) : Turn e (e.goBackTo page history).1
  | redo {page : Page} {history : History Page}
      (redone : e.history.redo? e.page = some (page, history)) : Turn e (e.goBackTo page history).1

abbrev Turns : Editor → Editor → Prop :=
  Relation.ReflTransGen Turn

/-- Every state of the document can come about, and the tab width can be used. -/
structure Sound (e : Editor) : Prop where
  pages : ∀ page ∈ e.history.timeline e.page, page.Sound
  tabWidth : 1 ≤ e.tabWidth

theorem Sound.page (h : e.Sound) : e.page.Sound :=
  h.pages e.page (History.mem_timeline.mpr (Or.inr (Or.inl rfl)))

theorem mem_timeline_commit {p : Page} (hp : p ∈ (e.commit d).history.timeline d.page) :
    p = d.page ∨ p ∈ e.history.timeline e.page := by
  change p ∈ (if d.edited then e.history.record e.page d.tail else e.history).timeline d.page at hp
  split_ifs at hp
  · exact History.mem_timeline_of_states (History.record_states _ _ _) hp
  · exact History.mem_timeline_of_other hp

/-- Going to another place on the line of states. -/
theorem Sound.goBackTo (h : e.Sound) {page : Page} {history : History Page}
    (hTimeline : history.timeline page = e.history.timeline e.page) :
    (e.goBackTo page history).1.Sound := by
  have hPages : ∀ p ∈ history.timeline page, p.Sound := hTimeline ▸ h.pages
  have hPage : page.Sound := hPages page (History.mem_timeline.mpr (Or.inr (Or.inl rfl)))
  refine ⟨fun p hp => ?_, h.tabWidth⟩
  rcases History.mem_timeline_of_other hp with rfl | hOld
  · exact hPage.select hPage.cursor hPage.cursor
  · exact hPages p hOld

/-- What one turn keeps. -/
theorem Turn.sound (turn : Turn e next) (h : e.Sound) : next.Sound := by
  cases turn with
  | look page history tabWidth =>
      refine ⟨fun p hp => h.pages p ?_, tabWidth h.tabWidth⟩
      rwa [page, history] at hp
  | commit leads =>
      refine ⟨fun p hp => ?_, h.tabWidth⟩
      rcases mem_timeline_commit hp with rfl | hOld
      · exact leads.sound h.page
      · exact h.pages p hOld
  | stroke leads stroke =>
      refine ⟨fun p hp => ?_, h.tabWidth⟩
      rcases History.mem_timeline_of_states (History.recordStroke_states _ _ _) hp with rfl | hOld
      · exact leads.sound h.page
      · exact h.pages p hOld
  | brokenOff leads =>
      refine ⟨fun p hp => ?_, h.tabWidth⟩
      rcases mem_timeline_commit hp with rfl | hOld
      · exact leads.sound h.page
      · exact h.pages p hOld
  | undo undone => exact h.goBackTo (History.undo?_spec undone).1
  | redo redone => exact h.goBackTo (History.redo?_spec redone).1

theorem Turns.sound (turns : Turns e next) (h : e.Sound) : next.Sound := by
  induction turns with
  | refl => exact h
  | tail _ last ih => exact last.sound ih

@[simp] theorem frozen_commit (e : Editor) (d : Draft) :
    (e.commit d).history.frozen = e.history.frozen := by
  change (if d.edited then e.history.record e.page d.tail else e.history).frozen = _
  split_ifs
  · exact History.frozen_record _ _ _
  · rfl

/-- Once a command was broken off, this is never forgotten. -/
theorem Turn.unbroken (turn : Turn e next) (h : next.history.frozen = none) :
    e.history.frozen = none := by
  cases turn with
  | look page history tabWidth => rwa [history] at h
  | commit leads => rwa [frozen_commit] at h
  | stroke leads stroke => exact (History.frozen_recordStroke _ _ stroke).symm.trans h
  | brokenOff leads =>
      rw [frozen_commit] at h
      cases h
  | undo undone => exact (History.undo?_spec undone).2.2.2.symm.trans h
  | redo redone => exact (History.redo?_spec redone).2.2.2.symm.trans h

theorem Turns.unbroken (turns : Turns e next) (h : next.history.frozen = none) :
    e.history.frozen = none := by
  induction turns with
  | refl => exact h
  | tail _ last ih => exact ih (last.unbroken h)

/-! ### Drafts of the commands -/

theorem leads_moveTo (h : e.page.Sound) (cursor : Int × Int) (anchor : Option (Int × Int)) :
    e.draft.Leads (e.moveTo cursor anchor) :=
  .select (Page.holds_clamp h.lines_pos _ _) (Page.holds_clamp h.lines_pos _ _)

theorem mem_selectedLines {page : Page} {n : Nat} :
    n ∈ selectedLines page ↔ page.start.line ≤ n ∧ n ≤ page.stop.line := by
  simp only [selectedLines, List.mem_drop_iff_getElem, List.getElem_range, List.length_range,
    exists_prop]
  constructor
  · rintro ⟨i, hi, rfl⟩
    omega
  · rintro ⟨hStart, hStop⟩
    exact ⟨n - page.start.line, by omega, by omega⟩

theorem nodup_selectedLines (page : Page) : (selectedLines page).Nodup :=
  List.nodup_range.sublist (List.drop_sublist _ _)

theorem selectedLines_lt {page : Page} (h : page.Sound) :
    ∀ n ∈ selectedLines page, n < page.lines.length := by
  intro n hn
  exact Nat.lt_of_le_of_lt (mem_selectedLines.mp hn).2 h.selection.2.2.1

theorem cursorLine_lt (h : e.page.Sound) :
    ∀ n ∈ [e.page.cursor.line], n < e.draft.page.lines.length := by
  intro n hn
  rw [List.mem_singleton.mp hn]
  exact h.cursor.1

theorem leads_indentLines (tabWidth : Int) {ns : List Nat}
    (hns : ∀ n ∈ ns, n < d.page.lines.length) : d.Leads (indentLines tabWidth d ns).draft := by
  obtain ⟨done, -, hEdits⟩ := editsLines_indentLines tabWidth hns
  exact hEdits.leads

/-- Indenting the line of the cursor leaves the draft alone or indents that line and puts
the cursor where its character has gone. -/
theorem indentCurrent_cases (e : Editor) :
    (∃ fault, spacesFault? (columnIn e.tabWidth e.draft e.page.cursor.line) = some fault ∧
        indentCurrent e = ⟨e.draft, some fault⟩) ∨
      spacesFault? (columnIn e.tabWidth e.draft e.page.cursor.line) = none ∧
        indentCurrent e =
          { draft := (indentLine e.tabWidth e.draft e.page.cursor.line).goTo
              ⟨e.page.cursor.line, e.page.cursor.column -
                units (leading (e.page.lineAt e.page.cursor.line)) +
                  units (spaces (columnIn e.tabWidth e.draft e.page.cursor.line))⟩ } := by
  rcases indentLines_singleton e.tabWidth e.draft e.page.cursor.line with
    ⟨fault, hFault, hBroken⟩ | ⟨hRoom, hDone⟩
  · refine Or.inl ⟨fault, hFault, ?_⟩
    simp only [indentCurrent, hBroken, Attempt.andThen, Option.isSome_some, if_true]
  · refine Or.inr ⟨hRoom, ?_⟩
    simp only [indentCurrent, hDone, Attempt.andThen, toNat_carry, units_leading]
    rw [units_of_isIndent fun _ => isIndent_of_mem_spaces, spaces, List.length_replicate]
    rfl

theorem leads_indentCurrent (h : e.page.Sound) : e.draft.Leads (indentCurrent e).draft := by
  rcases indentCurrent_cases e with ⟨fault, -, hBroken⟩ | ⟨-, hDone⟩
  · rw [hBroken]
    exact .refl _
  · rw [hDone]
    have hCursor : e.page.cursor.line < e.draft.page.lines.length := h.cursor.1
    have hPlace := h.cursor.shift (lines_indentLine e.tabWidth hCursor) (leading_append_body _).symm
    exact (editsLine_indentLine e.tabWidth hCursor).leads.trans (.select hPlace hPlace)

theorem leads_indentSelection (h : e.page.Sound) : e.draft.Leads (indentSelection e).draft := by
  unfold indentSelection
  split_ifs
  · exact leads_indentLines e.tabWidth (selectedLines_lt h)
  · exact leads_indentCurrent h

theorem leads_outdentSelection (h : e.Sound) : e.draft.Leads (outdentSelection e) :=
  (editsLines_outdentLines h.tabWidth (selectedLines_lt h.page)).leads

/-- A line break takes the place of the text between the cursor and some place to its
right. -/
theorem breakAtCursor_cases (tabWidth : Int) (d : Draft) :
    (∃ fault, breakAtCursor tabWidth d = ⟨d, some fault⟩) ∨
      ∃ n column, breakAtCursor tabWidth d =
        { draft := d.replace (d.page.cursor.earlier (d.page.rightBy n d.page.cursor))
            (d.page.cursor.later (d.page.rightBy n d.page.cursor)) ('\n' :: spaces column) } := by
  unfold breakAtCursor
  dsimp only
  split
  · exact Or.inl ⟨_, rfl⟩
  · exact Or.inr ⟨_, _, rfl⟩

theorem leads_breakAtCursor (tabWidth : Int) (h : d.page.Sound) :
    d.Leads (breakAtCursor tabWidth d).draft := by
  rcases breakAtCursor_cases tabWidth d with ⟨fault, hBroken⟩ | ⟨n, column, hDone⟩
  · rw [hBroken]
    exact .refl d
  · obtain ⟨hOrder, hStart, hStop⟩ := Page.earlier_later_of h.cursor (h.cursor.rightBy n)
    rw [hDone]
    dsimp only
    exact .replace hStart hStop hOrder _

/-- Breaking a line takes out the selection, indents the line of the cursor or nothing,
and breaks the line then. -/
theorem breakLine_eq (e : Editor) :
    ∃ closers, (closers = [] ∨ closers = [e.draft.eraseSelection.page.cursor.line]) ∧
      breakLine e = (indentLines e.tabWidth e.draft.eraseSelection closers).andThen
        (breakAtCursor e.tabWidth) := by
  refine ⟨_, ?_, rfl⟩
  split_ifs
  · exact Or.inr rfl
  · exact Or.inl rfl

theorem leads_breakLine (h : e.page.Sound) : e.draft.Leads (breakLine e).draft := by
  have hErase : e.draft.Leads e.draft.eraseSelection := .eraseSelection h
  have hErased := hErase.sound h
  obtain ⟨closers, hClosers, hBreak⟩ := breakLine_eq e
  have hLines : ∀ n ∈ closers, n < e.draft.eraseSelection.page.lines.length := by
    rcases hClosers with rfl | rfl
    · exact fun n hn => by cases hn
    · intro n hn
      rw [List.mem_singleton.mp hn]
      exact hErased.cursor.1
  have hIndent := leads_indentLines e.tabWidth hLines
  rw [hBreak, Attempt.andThen]
  split_ifs
  · exact hErase.trans hIndent
  · exact (hErase.trans hIndent).trans (leads_breakAtCursor e.tabWidth (hIndent.sound hErased))

/-! ### Commands -/

theorem turns_finish (leads : e.draft.Leads d) : Turns e (finish e d).1 :=
  .single (.commit leads)

theorem turns_finishAttempt {a : Attempt} (leads : e.draft.Leads a.draft) :
    Turns e (finishAttempt e a).1 := by
  unfold finishAttempt
  cases a.fault with
  | none => exact .single (.commit leads)
  | some fault => exact .single (.brokenOff leads)

theorem page_finishAttempt (e : Editor) (a : Attempt) :
    (finishAttempt e a).1.page = a.draft.page := by
  unfold finishAttempt
  cases a.fault <;> rfl

theorem fault_finishAttempt (e : Editor) (a : Attempt) :
    (finishAttempt e a).2.fault = a.fault.map .indent := by
  unfold finishAttempt
  cases a.fault <;> rfl

theorem turns_insertText (h : e.page.Sound) (t : Text) : Turns e (e.insertText t).1 := by
  have hLeads : e.draft.Leads (e.draft.replaceSelection t) := .replaceSelection h t
  unfold insertText
  dsimp only
  split
  · split_ifs
    · exact turns_finish hLeads
    · exact .single (.stroke hLeads _)
  · exact turns_finish hLeads

theorem turns_eraseBack (h : e.page.Sound) : Turns e e.eraseBack.1 := by
  unfold eraseBack
  dsimp only
  split_ifs
  · exact turns_finish (.eraseSelection h)
  · split
    · rename_i p hLeft
      obtain ⟨hPlace, hOrder⟩ := Page.isPlace_left? h.cursor.1 hLeft
      have hLeads : e.draft.Leads (e.draft.erase p e.page.cursor) :=
        .erase hPlace.holds h.cursor hOrder
      split_ifs
      · exact .single (.stroke hLeads _)
      · exact turns_finish hLeads
    · exact turns_finish (.refl _)

theorem turns_eraseWordBack (h : e.page.Sound) : Turns e e.eraseWordBack.1 := by
  unfold eraseWordBack
  dsimp only
  -- The word is selected first, by putting the cursor at its beginning.
  generalize hStart : (if e.page.hasSelection then none else e.page.wordLeft? e.page.cursor) = start
  have hPlace : e.page.Holds (start.getD e.page.cursor) := by
    cases start with
    | none => exact h.cursor
    | some p =>
        split_ifs at hStart
        exact (Page.isPlace_wordLeft? h.cursor.1 hStart).holds
  have hSelect : e.draft.Leads
      { e.draft with page := { e.page with cursor := start.getD e.page.cursor } } :=
    ⟨fun hEdited => ⟨hEdited, rfl⟩, fun _ => h.select hPlace h.anchor⟩
  exact turns_finish (hSelect.trans (.eraseSelection (hSelect.sound h)))

theorem turns_press (h : e.Sound) (key : Key) (ctrl shift : Bool) :
    Turns e (e.press key ctrl shift).1 := by
  cases key with
  | enter =>
      unfold press
      dsimp only
      exact turns_finishAttempt (leads_breakLine h.page)
  | tab => exact turns_finishAttempt (leads_indentSelection h.page)
  | backtab => exact turns_finish (leads_outdentSelection h)
  | help => exact .refl
  | space =>
      unfold press
      dsimp only
      split_ifs
      · exact .refl
      · exact .refl
      · exact turns_insertText h.page _
  | escape => exact .refl
  | backspace =>
      unfold press
      dsimp only
      split_ifs
      · exact .refl
      · exact turns_eraseWordBack h.page
      · exact turns_eraseBack h.page

theorem turns_typeChar (h : e.Sound) (c : Char) : Turns e (e.typeChar c).1 := by
  unfold typeChar
  split_ifs
  · exact turns_press h .enter false false
  · exact turns_press h .tab false false
  · exact turns_insertText h.page _
  · exact .refl

theorem turns_typeText (h : e.Sound) (t : Text) : Turns e (e.typeText t).1 := by
  induction t generalizing e with
  | nil => exact .refl
  | cons c t ih =>
      have hFirst := turns_typeChar h c
      unfold typeText
      dsimp only
      split_ifs
      · exact hFirst
      · exact hFirst.trans (ih (Turns.sound hFirst h))

theorem turns_undo (e : Editor) : Turns e e.undo.1 := by
  unfold undo
  split
  · rename_i hUndo
    exact .single (.undo hUndo)
  · exact .refl

theorem turns_redo (e : Editor) : Turns e e.redo.1 := by
  unfold redo
  split
  · rename_i hRedo
    exact .single (.redo hRedo)
  · exact .refl

theorem turns_indentAllLines (h : e.page.Sound) : Turns e e.indentAllLines.1 := by
  unfold indentAllLines
  split
  · exact .refl
  · exact turns_finish (leads_indentAll h)

theorem turns_setTabWidth (e : Editor) (width : Int) : Turns e (e.setTabWidth width).1 := by
  unfold setTabWidth
  split_ifs with hWidth
  · exact .refl
  · exact .single (.look rfl rfl fun _ => by simpa using hWidth)

theorem turns_setFontSize (e : Editor) (size : Int) : Turns e (e.setFontSize size).1 := by
  unfold setFontSize
  split_ifs
  · exact .refl
  · exact .single (.look rfl rfl id)

/-- Every command is made up of turns, unless it puts in a text for the whole page. -/
theorem turns_run (h : e.Sound) {command : Command} (hCommand : ∀ t, command ≠ .load t) :
    Turns e (e.run command).1 := by
  cases command with
  | move cursor anchor => exact turns_finish (leads_moveTo h.page cursor anchor)
  | selectAll =>
      have hFinish := (Page.isPlace_finish h.page.lines_pos).holds
      have hLeads : e.draft.Leads (e.draft.select e.page.finish .origin) :=
        .select hFinish ⟨h.page.lines_pos, Nat.zero_le _⟩
      exact .single (.commit hLeads)
  | load t => exact absurd rfl (hCommand t)
  | insert t => exact turns_insertText h.page t
  | type t => exact turns_typeText h t
  | press key ctrl shift => exact turns_press h key ctrl shift
  | breakLine => exact turns_finishAttempt (leads_breakLine h.page)
  | indentCurrent => exact turns_finishAttempt (leads_indentCurrent h.page)
  | indentSelection => exact turns_finishAttempt (leads_indentSelection h.page)
  | outdentSelection => exact turns_finish (leads_outdentSelection h)
  | indentAll => exact turns_indentAllLines h.page
  | undo => exact turns_undo e
  | redo => exact turns_redo e
  | calltip enabled timeout => exact .single (.look rfl rfl id)
  | setTabWidth width => exact turns_setTabWidth e width
  | setFontSize size =>
      change Turns e (e.setFontSizeTo size).1
      unfold setFontSizeTo
      split
      · exact turns_setFontSize e _
      · exact .refl
  | adjustFontSize delta => exact turns_setFontSize e _
  | resetFontSize => exact turns_setFontSize e _
  | wheel angle ctrl =>
      change Turns e (e.wheel angle ctrl).1
      unfold wheel
      split_ifs
      · exact turns_setFontSize e _
      · exact turns_setFontSize e _
      · exact .refl
  | setTheme theme => exact .single (.look rfl rfl id)
  | setWordWrap enabled => exact .single (.look rfl rfl id)

theorem Sound.load (h : e.Sound) (t : Text) : (e.load t).Sound := by
  refine ⟨fun p hp => ?_, h.tabWidth⟩
  have hOnly : p = .ofText t := List.mem_singleton.mp hp
  exact hOnly ▸ Page.sound_ofText t

theorem Sound.run (h : e.Sound) (command : Command) : (e.run command).1.Sound := by
  by_cases hLoad : ∃ t, command = .load t
  · obtain ⟨t, rfl⟩ := hLoad
    exact h.load t
  · have hCommand : ∀ t, command ≠ .load t := fun t hEq => hLoad ⟨t, hEq⟩
    exact (turns_run h hCommand).sound h

theorem Sound.markSaved (h : e.Sound) : e.markSaved.Sound :=
  ⟨h.pages, h.tabWidth⟩

/-- The editors that come about from a new one by commands and by saving. -/
inductive Reachable : Editor → Prop where
  | create {theme : Theme} {tabWidth : Int} {e : Editor} (created : create theme tabWidth = .ok e) :
      Reachable e
  | run {e : Editor} (reached : Reachable e) (command : Command) : Reachable (e.run command).1
  | save {e : Editor} (reached : Reachable e) : Reachable e.markSaved

theorem unlessFault_eq_ok {done : Editor × Option Fault} (h : unlessFault done = .ok e) :
    done.2 = none ∧ done.1 = e := by
  unfold unlessFault at h
  split at h
  · cases h
  · rename_i hNone
    exact ⟨hNone, Except.ok.inj h⟩

theorem create_eq_ok {theme : Theme} {tabWidth : Int} (h : create theme tabWidth = .ok e) :
    e = new theme tabWidth ∧ 1 ≤ tabWidth := by
  obtain ⟨hNone, hEditor⟩ := unlessFault_eq_ok h
  unfold setTabWidth at hNone hEditor
  by_cases hWidth : tabWidth < 1
  · rw [if_pos hWidth] at hNone
    cases hNone
  · rw [if_neg hWidth] at hEditor
    exact ⟨hEditor.symm, Int.not_lt.mp hWidth⟩

theorem create_of_fits (theme : Theme) {tabWidth : Int} (hWidth : 1 ≤ tabWidth)
    (hFits : Number.fitsBinary64 ((new theme tabWidth).spaceWidth * tabWidth) = true) :
    create theme tabWidth = .ok (new theme tabWidth) := by
  have hStops : (new theme tabWidth).tabStopsFault? = none := by
    unfold tabStopsFault?
    exact if_pos hFits
  unfold create setTabWidth
  rw [if_neg (Int.not_lt.mpr hWidth)]
  change unlessFault (new theme tabWidth, (new theme tabWidth).tabStopsFault?) = _
  rw [hStops]
  rfl

theorem reachable_new : Reachable (new .dark 4) :=
  .create (create_of_fits .dark (by decide) (by decide +kernel))

theorem sound_new (theme : Theme) {tabWidth : Int} (hWidth : 1 ≤ tabWidth) :
    (new theme tabWidth).Sound := by
  refine ⟨fun p hp => ?_, hWidth⟩
  have hOnly : p = .ofText [] := List.mem_singleton.mp hp
  exact hOnly ▸ Page.sound_ofText []

theorem Reachable.sound (reached : Reachable e) : e.Sound := by
  induction reached with
  | create created =>
      obtain ⟨rfl, hWidth⟩ := create_eq_ok created
      exact sound_new _ hWidth
  | run reached command ih => exact ih.run command
  | save reached ih => exact ih.markSaved

end ScriptEditor.Editor
