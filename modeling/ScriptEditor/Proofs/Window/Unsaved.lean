import ScriptEditor.Proofs.Editor.Reachable
import ScriptEditor.Proofs.Failing
import ScriptEditor.Window.Action

/-! Unsaved work. Whatever is done in a window, a document that counts as unmodified has
the lines that were saved, loaded or begun last, and every other document is given up only
after a question. This holds as long as no command was broken off, since from then on the
editor no longer finds out whether the document is modified. -/
namespace ScriptEditor

open ScriptEditor.Document
open ScriptEditor.Files (Path Store)

namespace Editor

variable {e next : Editor} {kept : List Text}

/-- The state that counts as saved has certain lines, if it can still be reached. Nothing
is said once a command was broken off. -/
def SavedAs (e : Editor) (kept : List Text) : Prop :=
  e.history.frozen = none →
    ∀ lines, (e.history.savedState? e.page).map Page.lines = some lines → lines = kept

theorem map_savedState?_goBackTo (e : Editor) (page : Page) (history : History Page) :
    ((e.goBackTo page history).1.history.savedState? (e.goBackTo page history).1.page).map
      Page.lines = (history.savedState? page).map Page.lines :=
  history.map_savedState? Page.lines rfl

/-- One turn leaves the saved state as it is, or out of reach. -/
theorem Turn.savedAs (turn : Turn e next) (h : e.SavedAs kept) : next.SavedAs kept := by
  intro hUnbroken lines hLines
  have hFrozen := turn.unbroken hUnbroken
  refine h hFrozen lines ?_
  cases turn with
  | look page history tabWidth => rwa [page, history] at hLines
  | @commit d leads =>
      change ((if d.edited then e.history.record e.page d.tail else e.history).savedState?
        d.page).map Page.lines = some lines at hLines
      split_ifs at hLines with hEdited
      · obtain ⟨page, hSaved, rfl⟩ := Option.map_eq_some_iff.mp hLines
        rw [History.savedState?_of_record hFrozen hSaved]
        rfl
      -- Only the cursor may be elsewhere in the present state.
      · have hSame := (leads.noted (Bool.eq_false_iff.mpr hEdited)).2
        rwa [History.map_savedState? _ _ hSame] at hLines
  | @stroke d leads stroke =>
      change ((e.history.recordStroke e.page stroke).savedState? d.page).map Page.lines =
        some lines at hLines
      obtain ⟨page, hSaved, rfl⟩ := Option.map_eq_some_iff.mp hLines
      rw [History.savedState?_of_recordStroke hFrozen hSaved]
      rfl
  | brokenOff leads =>
      rw [frozen_commit] at hUnbroken
      cases hUnbroken
  | undo undone =>
      obtain ⟨hTimeline, -, hSaved, -⟩ := History.undo?_spec undone
      rwa [map_savedState?_goBackTo, History.savedState?_of_timeline hTimeline hSaved] at hLines
  | redo redone =>
      obtain ⟨hTimeline, -, hSaved, -⟩ := History.redo?_spec redone
      rwa [map_savedState?_goBackTo, History.savedState?_of_timeline hTimeline hSaved] at hLines

theorem Turns.savedAs (turns : Turns e next) (h : e.SavedAs kept) : next.SavedAs kept := by
  induction turns with
  | refl => exact h
  | tail _ last ih => exact last.savedAs ih

theorem savedAs_load (e : Editor) (t : Text) : (e.load t).SavedAs (linesOf t) := by
  intro _ lines hLines
  exact (Option.some.inj hLines).symm

theorem savedAs_markSaved (e : Editor) : e.markSaved.SavedAs e.page.lines := by
  intro _ lines hLines
  change (e.history.save.savedState? e.page).map Page.lines = some lines at hLines
  rw [History.savedState?_save] at hLines
  exact (Option.some.inj hLines).symm

/-- An editor whose document was just saved or loaded. -/
def Settled (e next : Editor) : Prop :=
  next = e.markSaved ∨ ∃ t, next = e.load t

theorem Settled.savedAs (h : Settled e next) : next.SavedAs next.page.lines := by
  rcases h with rfl | ⟨t, rfl⟩
  · exact savedAs_markSaved e
  · exact savedAs_load e t

theorem Settled.sound (h : Settled e next) (hSound : e.Sound) : next.Sound := by
  rcases h with rfl | ⟨t, rfl⟩
  · exact hSound.markSaved
  · exact hSound.load t

theorem SavedAs.lines_eq (h : e.SavedAs kept) (hUnbroken : e.history.frozen = none)
    (hModified : e.isModified = false) : e.page.lines = kept := by
  refine h hUnbroken _ ?_
  rw [History.savedState?_of_not_isModified hUnbroken hModified]
  rfl

end Editor

namespace Window

open ScriptEditor.Editor (Command Turns)

variable {w : Window} {kept : List Text}

/-- Whether an action succeeds in saving the document, loading another one or beginning a
new one. -/
def settles (w : Window) (answers : Answers) : Action → Bool
  | .newFile => (w.mayDiscard answers).2
  | .openFile =>
    (w.mayDiscard answers).2 && !answers.path.isEmpty &&
      (w.loadPath (.ofText answers.path)).result == some true
  | .loadPath p => (w.loadPath p).result == some true
  | .save =>
    match w.file with
    | none => !answers.path.isEmpty && (w.writeTo (.ofText answers.path)).result == some true
    | some p => (w.writeTo p).result == some true
  | .saveAs => !answers.path.isEmpty && (w.writeTo (.ofText answers.path)).result == some true
  | _ => false

/-- A window with the lines that its document had right after it was saved, loaded or
begun last. -/
structure Session where
  window : Window
  kept : List Text

/-- What can happen to a window. -/
inductive Event where
  | edit (command : Command)
  | act (answers : Answers) (action : Action)
  /-- Files change without the window. -/
  | outside (store : Store)

/-- The lines that are kept when a command of the editor ends. Only putting in a text for
the whole page loads a document. -/
def keptAfter (kept : List Text) (e : Editor) : Command → List Text
  | .load _ => e.page.lines
  | _ => kept

theorem keptAfter_of_ne {command : Command} (hCommand : ∀ t, command ≠ .load t) (kept : List Text)
    (e : Editor) : keptAfter kept e command = kept := by
  cases command with
  | load t => exact absurd rfl (hCommand t)
  | _ => rfl

def Session.next (s : Session) : Event → Session
  | .edit command =>
    let w := (s.window.edit command).1
    ⟨w, keptAfter s.kept w.editor command⟩
  | .act answers action =>
    let w := (s.window.act answers action).window
    ⟨w, if s.window.settles answers action then w.editor.page.lines else s.kept⟩
  | .outside store => ⟨{ s.window with store }, s.kept⟩

/-- What comes of a new window with an empty document. -/
def sessionOf (w : Window) (events : List Event) : Session :=
  events.foldl Session.next ⟨w, [[]]⟩

/-! ### What actions do to the editor -/

theorem loadPath_cases (w : Window) (p : Path) :
    (∃ t, (w.loadPath p).result = some true ∧ (w.loadPath p).window.editor = w.editor.load t) ∨
      (w.loadPath p).result ≠ some true ∧ (w.loadPath p).window.editor = w.editor := by
  unfold loadPath
  split
  · exact Or.inr ⟨nofun, rfl⟩
  · exact Or.inr ⟨nofun, rfl⟩
  · split
    · exact Or.inr ⟨nofun, rfl⟩
    · exact Or.inl ⟨_, rfl, rfl⟩

theorem writeTo_cases (w : Window) (p : Path) :
    (w.writeTo p).result = some true ∧ (w.writeTo p).window.editor = w.editor.markSaved ∨
      (w.writeTo p).result ≠ some true ∧ (w.writeTo p).window.editor = w.editor := by
  unfold writeTo
  split
  · exact Or.inr ⟨nofun, rfl⟩
  · exact Or.inr ⟨nofun, rfl⟩
  · exact Or.inl ⟨rfl, rfl⟩

theorem editor_prefer (w : Window) (key : Utf16) (value : Json.Value) :
    (w.prefer key value).window.editor = w.editor := by
  unfold prefer savePreferences
  split <;> rfl

theorem turns_preferAfter (w : Window) {done : Editor × Option Editor.Fault} (key : Utf16)
    (value : Editor → Json.Value) (hDone : Turns w.editor done.1) :
    Turns w.editor (w.preferAfter done key value).window.editor := by
  unfold preferAfter
  dsimp only
  split
  · exact hDone
  · rw [editor_prefer]
    exact hDone

theorem turns_setTabWidth (w : Window) (width : Json.Value) :
    Turns w.editor (w.setTabWidth width).window.editor := by
  unfold setTabWidth
  exact w.turns_preferAfter _ _ (Editor.turns_setTabWidth _ _)

theorem turns_keepFontSize (w : Window) (size : Int) :
    Turns w.editor (w.keepFontSize (w.editor.setFontSize size)).window.editor := by
  unfold keepFontSize
  exact w.turns_preferAfter _ _ (Editor.turns_setFontSize _ _)

theorem turns_setTheme (w : Window) (theme : Appearance.Theme) :
    Turns w.editor (w.setTheme theme).window.editor := by
  have hSame := editor_prefer w Preferences.themeKey (.text (.ofText theme.label))
  unfold setTheme Outcome.andThen
  split_ifs
  · rw [hSame]
  · dsimp only
    rw [hSame]
    exact .single (.look rfl rfl id)

theorem turns_indentAll (h : w.editor.Sound) : Turns w.editor w.indentAll.window.editor := by
  have hEdit : Turns w.editor (w.edit .indentAll).1.editor := Editor.turns_run h nofun
  unfold indentAll Outcome.andThen
  dsimp only
  split_ifs
  · exact hEdit
  · exact hEdit

theorem turns_chooseTabWidth (w : Window) (answers : Answers) :
    Turns w.editor (w.chooseTabWidth answers).window.editor := by
  unfold chooseTabWidth
  dsimp only
  split_ifs
  · exact w.turns_setTabWidth _
  · exact .refl

/-- A document that was written to a file counts as saved. -/
theorem editor_writeTo (w : Window) (p : Path) :
    if (w.writeTo p).result == some true then w.editor.Settled (w.writeTo p).window.editor
    else Turns w.editor (w.writeTo p).window.editor := by
  rcases w.writeTo_cases p with ⟨hResult, hEditor⟩ | ⟨hResult, hEditor⟩
  · rw [if_pos (by simp [hResult])]
    exact Or.inl hEditor
  · rw [if_neg (by simpa using hResult), hEditor]

theorem editor_loadPath (w : Window) (p : Path) :
    if (w.loadPath p).result == some true then w.editor.Settled (w.loadPath p).window.editor
    else Turns w.editor (w.loadPath p).window.editor := by
  rcases w.loadPath_cases p with ⟨t, hResult, hEditor⟩ | ⟨hResult, hEditor⟩
  · rw [if_pos (by simp [hResult])]
    exact Or.inr ⟨t, hEditor⟩
  · rw [if_neg (by simpa using hResult), hEditor]

theorem editor_saveAs (w : Window) (answers : Answers) :
    if !answers.path.isEmpty && (w.writeTo (.ofText answers.path)).result == some true then
      w.editor.Settled (w.saveAs answers).window.editor
    else Turns w.editor (w.saveAs answers).window.editor := by
  unfold saveAs
  cases answers.path.isEmpty with
  | true => exact .refl
  | false => exact w.editor_writeTo (.ofText answers.path)

theorem editor_openFile (w : Window) (answers : Answers) :
    if (w.mayDiscard answers).2 && !answers.path.isEmpty &&
        (w.loadPath (.ofText answers.path)).result == some true then
      w.editor.Settled (w.openFile answers).window.editor
    else Turns w.editor (w.openFile answers).window.editor := by
  unfold openFile
  dsimp only
  cases (w.mayDiscard answers).2 with
  | false => exact .refl
  | true =>
      cases answers.path.isEmpty with
      | true => exact .refl
      | false => exact w.editor_loadPath (.ofText answers.path)

/-- An action that settles the document saves it or loads one, and any other action is
made up of turns of the editor. -/
theorem editor_act (h : w.editor.Sound) (answers : Answers) (action : Action) :
    if w.settles answers action then
      w.editor.Settled (w.act answers action).window.editor
    else Turns w.editor (w.act answers action).window.editor := by
  cases action with
  | newFile =>
      unfold settles act newFile
      dsimp only
      split_ifs
      · exact Or.inr ⟨[], rfl⟩
      · exact .refl
  | openFile => exact w.editor_openFile answers
  | loadPath p => exact w.editor_loadPath p
  | save =>
      unfold settles act save
      cases w.file with
      | none => exact w.editor_saveAs answers
      | some p => exact w.editor_writeTo p
  | saveAs => exact w.editor_saveAs answers
  | close => exact .refl
  | indentSelection => exact Editor.turns_run h nofun
  | indentAll => exact turns_indentAll h
  | adjustFontSize delta => exact w.turns_keepFontSize _
  | resetFontSize => exact w.turns_keepFontSize _
  | setTheme theme => exact w.turns_setTheme theme
  | toggleWrap =>
      change Turns w.editor (w.toggleWrap).window.editor
      unfold toggleWrap setWrap
      dsimp only
      rw [editor_prefer]
      exact .single (.look rfl rfl id)
  | toggleCalltips =>
      change Turns w.editor (w.toggleCalltips).window.editor
      unfold toggleCalltips setCalltips
      dsimp only
      rw [editor_prefer]
      exact .single (.look rfl rfl id)
  | setTabWidth width => exact w.turns_setTabWidth width
  | askTabWidth => exact w.turns_chooseTabWidth answers

/-- An editor that follows preferences is a new one with another look. -/
theorem turns_editorFor {preferences : Json.Fields} {e : Editor}
    (h : editorFor preferences = .ok e) :
    ∃ theme tabWidth, 1 ≤ tabWidth ∧ Turns (Editor.new theme tabWidth) e := by
  obtain ⟨created, hCreate, h⟩ := exists_of_bind_eq_ok h
  obtain ⟨sized, hSize, h⟩ := exists_of_bind_eq_ok h
  obtain ⟨rfl, hWidth⟩ := Editor.create_eq_ok hCreate
  obtain rfl := (Editor.unlessFault_eq_ok hSize).2
  obtain rfl := Except.ok.inj h
  exact ⟨_, _, hWidth, (Editor.turns_setFontSize _ _).tail (.look rfl rfl id)⟩

/-- The document of a new window is empty and counts as saved. -/
theorem new_eq_ok {store : Store} {path : Path} (h : Window.new store path = .ok w) :
    w.editor.Sound ∧ w.editor.SavedAs [[]] := by
  obtain ⟨loaded, -, h⟩ := exists_of_bind_eq_ok h
  obtain ⟨editor, hEditor, h⟩ := exists_of_bind_eq_ok h
  obtain ⟨theme, tabWidth, hWidth, hTurns⟩ := turns_editorFor (eq_ok_of_mapError_eq_ok hEditor)
  obtain rfl := Except.ok.inj h
  have hNew : (Editor.new theme tabWidth).SavedAs [[]] :=
    (Editor.new theme tabWidth).savedAs_load []
  exact ⟨hTurns.sound (Editor.sound_new theme hWidth), hTurns.savedAs hNew⟩

/-! ### What holds throughout a session -/

structure Session.Sound (s : Session) : Prop where
  editor : s.window.editor.Sound
  saved : s.window.editor.SavedAs s.kept

/-- What one event keeps. -/
theorem Session.Sound.next {s : Session} (h : s.Sound) (event : Event) : (s.next event).Sound := by
  cases event with
  | edit command =>
      by_cases hLoad : ∃ t, command = .load t
      · obtain ⟨t, rfl⟩ := hLoad
        exact ⟨h.editor.load t, Editor.savedAs_load _ t⟩
      · have hCommand : ∀ t, command ≠ .load t := fun t hEq => hLoad ⟨t, hEq⟩
        have hTurns := Editor.turns_run h.editor hCommand
        have hSaved := hTurns.savedAs h.saved
        rw [← keptAfter_of_ne hCommand s.kept (s.window.editor.run command).1] at hSaved
        exact ⟨hTurns.sound h.editor, hSaved⟩
  | act answers action =>
      have hAct := editor_act h.editor answers action
      rw [Session.next]
      split_ifs at hAct ⊢
      · exact ⟨hAct.sound h.editor, hAct.savedAs⟩
      · exact ⟨hAct.sound h.editor, hAct.savedAs h.saved⟩
  | outside store => exact ⟨h.editor, h.saved⟩

theorem sound_sessionOf {store : Store} {path : Path} (opened : Window.new store path = .ok w)
    (events : List Event) : (sessionOf w events).Sound := by
  obtain ⟨hEditor, hSaved⟩ := new_eq_ok opened
  have hStart : (⟨w, [[]]⟩ : Session).Sound := ⟨hEditor, hSaved⟩
  unfold sessionOf
  generalize (⟨w, [[]]⟩ : Session) = start at hStart
  induction events generalizing start with
  | nil => exact hStart
  | cons event rest ih => exact ih _ (hStart.next event)

/-- The actions that give up the document. -/
def givesUp : Action → Bool
  | .newFile | .openFile | .close => true
  | _ => false

/-- Whatever happens to a window, a document that counts as unmodified has the lines that
were saved, loaded or begun last, if no command was broken off. Where it has others, every
action that gives up the document asks first, and does nothing if the answer is no. -/
theorem sessionOf_unmodified {store : Store} {path : Path} (opened : Window.new store path = .ok w)
    (events : List Event)
    (hUnbroken : (sessionOf w events).window.editor.history.frozen = none) :
    ((sessionOf w events).window.editor.isModified = false →
        (sessionOf w events).window.editor.page.lines = (sessionOf w events).kept) ∧
      ((sessionOf w events).window.editor.page.lines ≠ (sessionOf w events).kept →
        ∀ answers action, givesUp action = true →
          ((sessionOf w events).window.act answers action).asked.head? = some askDiscard ∧
          (answers.discard = false →
            ((sessionOf w events).window.act answers action).window =
              (sessionOf w events).window)) := by
  have hSound := sound_sessionOf opened events
  generalize sessionOf w events = s at hSound hUnbroken ⊢
  have hLines : s.window.editor.isModified = false → s.window.editor.page.lines = s.kept :=
    hSound.saved.lines_eq hUnbroken
  refine ⟨hLines, fun hDiffer answers action hAction => ?_⟩
  have hModified : s.window.editor.isModified = true := by
    by_contra hNot
    exact hDiffer (hLines (Bool.eq_false_iff.mpr hNot))
  have hDiscard : s.window.mayDiscard answers = ([askDiscard], answers.discard) := if_pos hModified
  cases action with
  | newFile =>
      simp only [act, newFile, hDiscard]
      cases answers.discard <;> simp
  | openFile =>
      simp only [act, openFile, hDiscard]
      cases answers.discard <;> cases answers.path.isEmpty <;> simp
  | close => simp [act, close, hDiscard]
  | _ => cases hAction

theorem exists_session {store : Store} {path : Path} {events : List Event} {P : Session → Bool}
    (h : (Window.new store path).toOption.any fun w => P (sessionOf w events)) :
    ∃ w, Window.new store path = .ok w ∧ P (sessionOf w events) = true :=
  exists_of_any_toOption h

theorem sessionOf_unmodified_after_undo :
    ∃ w events, Window.new .empty (.ofText "settings.json".toList) = .ok w ∧
      (sessionOf w events).window.editor.history.frozen = none ∧
      (sessionOf w events).window.editor.isModified = false ∧
      (sessionOf w events).window.editor.page.lines = ["loop".toList] ∧
      (sessionOf w events).window.editor.page.lines = (sessionOf w events).kept := by
  obtain ⟨w, hNew, hFinal⟩ := @exists_session .empty (.ofText "settings.json".toList)
    [.edit (.insert "loop".toList), .act { path := "a.dsc".toList } .save, .edit .breakLine,
      .edit .undo]
    (fun s => s.window.editor.history.frozen = none ∧ s.window.editor.isModified = false ∧
      s.window.editor.page.lines = ["loop".toList]) (by decide +kernel)
  obtain ⟨hUnbroken, hModified, hLines⟩ := of_decide_eq_true hFinal
  exact ⟨w, _, hNew, hUnbroken, hModified, hLines,
    (sessionOf_unmodified hNew _ hUnbroken).1 hModified⟩

/-- With a tab width that is too large, breaking a line behind an opener is broken off.
The text that is put in after that counts as saved with the rest, and the window closes
without a question. -/
theorem sessionOf_after_break_off :
    ∃ store w events, Window.new store (.ofText "settings.json".toList) = .ok w ∧
      (sessionOf w events).window.editor.isModified = false ∧
      (sessionOf w events).kept = ["loop".toList] ∧
      (sessionOf w events).window.editor.page.lines = ["loop unsaved".toList] ∧
      ((sessionOf w events).window.act {} .close).asked = [] ∧
      ((sessionOf w events).window.act {} .close).result = some true := by
  obtain ⟨w, hNew, hFinal⟩ := @exists_session
    (Store.empty.putAt (.ofText "settings.json".toList)
      (.file (Utf8.encode "\x7b\"tab_width\": 9223372036854775808\x7d".toList)))
    (.ofText "settings.json".toList)
    [.edit (.insert "loop".toList), .act { path := "a.dsc".toList } .save, .edit .breakLine,
      .edit (.insert " unsaved".toList)]
    (fun s => s.window.editor.isModified = false ∧ s.kept = ["loop".toList] ∧
      s.window.editor.page.lines = ["loop unsaved".toList] ∧
      (s.window.act {} .close).asked = [] ∧ (s.window.act {} .close).result = some true)
    (by decide +kernel)
  exact ⟨_, w, _, hNew, of_decide_eq_true hFinal⟩

end Window

end ScriptEditor
