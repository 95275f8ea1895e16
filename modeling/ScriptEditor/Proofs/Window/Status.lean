import ScriptEditor.Proofs.Window.Unsaved

/-! The name in the status line. A window that opens a file shows the place of the cursor before it
takes the file over, so that the status line names the file that was open before. This name stays
there until a command of the editor reports a place. -/
namespace ScriptEditor

open ScriptEditor.Document (Pos)
open ScriptEditor.Editor (Command)
open ScriptEditor.Files (Path Store)

theorem Text.withoutMark_append (t : Text) {rest : Text} (hNarrow : hasWide rest = false) :
    withoutMark (t ++ rest) = withoutMark t ++ rest := by
  have hWide : hasWide (t ++ rest) = hasWide t := by
    unfold hasWide at hNarrow ⊢
    rw [List.any_append, hNarrow, Bool.or_false]
  rw [withoutMark, withoutMark, hWide]
  cases t with
  | nil => simp [hasWide]
  | cons c t => exact (apply_ite (· ++ rest) _ t (c :: t)).symm

/-- The place that a run of commands reports last. -/
def Editor.lastReported (e : Editor) : List Command → Option Pos
  | [] => none
  | command :: rest =>
    ((e.run command).1.lastReported rest).or (e.run command).2.reported

namespace Window

variable {w next : Window} {answers : Answers} {action : Action} {file : Option Path}

/-- Carries out commands of the editor one after the other. -/
def edits (w : Window) (commands : List Command) : Window :=
  commands.foldl (fun w command => (w.edit command).1) w

/-- The file that is open after an action that opens or begins a document, if the action is one
of these. -/
def opened? (answers : Answers) : Action → Option (Option Path)
  | .newFile => some none
  | .openFile => some (some (.ofText answers.path))
  | .loadPath p => some (some p)
  | _ => none

theorem positionMessage_congr (h : next.file = w.file) (p : Pos) :
    next.positionMessage p = w.positionMessage p := by
  simp only [positionMessage, fileLabel, h]

theorem positionMessage_origin (w : Window) :
    w.positionMessage .origin =
      Text.withoutMark w.fileLabel ++ " — Line 1, Column 1".toList := by
  have hRest : " — Line 1, Column 1".toList =
      " — Line ".toList ++ Text.ofNat 1 ++ ", Column ".toList ++ Text.ofNat 1 := by decide
  rw [hRest, ← Text.withoutMark_append w.fileLabel (by decide)]
  simp only [positionMessage, Pos.origin, List.append_assoc]

/-- At the beginning of the text, the messages of two windows differ only in the names. -/
theorem positionMessage_origin_inj :
    w.positionMessage .origin = next.positionMessage .origin ↔
      Text.withoutMark w.fileLabel = Text.withoutMark next.fileLabel := by
  rw [positionMessage_origin, positionMessage_origin, List.append_left_inj]

/-! ### Opening a file -/

theorem loadPath_eq_display {p : Path} (h : (w.loadPath p).result = some true) :
    ∃ t, (w.loadPath p).window = w.display t (some p) := by
  unfold loadPath at h ⊢
  split at h
  · cases h
  · cases h
  · split at h
    · cases h
    · exact ⟨_, rfl⟩

/-- Every action that opens a file or begins a document ends by displaying a text. -/
theorem act_eq_display (hOpens : opened? answers action = some file)
    (hDone : w.settles answers action = true) :
    ∃ t, (w.act answers action).window = w.display t file := by
  cases action with
  | newFile =>
      obtain rfl := Option.some.inj hOpens
      have hGoOn : (w.mayDiscard answers).2 = true := hDone
      exact ⟨[], by simp [act, newFile, hGoOn]⟩
  | openFile =>
      obtain rfl := Option.some.inj hOpens
      simp only [settles, Bool.and_eq_true, Bool.not_eq_true', beq_iff_eq] at hDone
      obtain ⟨⟨hGoOn, hPath⟩, hLoad⟩ := hDone
      simpa [act, openFile, hGoOn, hPath] using loadPath_eq_display hLoad
  | loadPath p =>
      obtain rfl := Option.some.inj hOpens
      apply loadPath_eq_display
      simpa [settles] using hDone
  | _ => cases hOpens

/-! ### Commands of the editor -/

/-- Commands of the editor keep the open file, and the status line shows the place that they
report last, if they report one. -/
theorem edits_spec (w : Window) (commands : List Command) :
    (w.edits commands).file = w.file ∧
      (w.edits commands).status =
        ((w.editor.lastReported commands).map w.positionMessage).getD w.status := by
  induction commands generalizing w with
  | nil => exact ⟨rfl, rfl⟩
  | cons command rest ih =>
      obtain ⟨hFile, hStatus⟩ := ih (w.edit command).1
      refine ⟨hFile, ?_⟩
      have hMessage : (w.edit command).1.positionMessage = w.positionMessage :=
        funext (positionMessage_congr rfl)
      rw [hMessage] at hStatus
      change ((w.edit command).1.edits rest).status = _
      rw [hStatus, Editor.lastReported]
      -- A place that the rest reports hides the one that this command may have reported.
      change (((w.editor.run command).1.lastReported rest).map w.positionMessage).getD
        (((w.editor.run command).2.reported.map w.positionMessage).getD w.status) = _
      cases (w.editor.run command).1.lastReported rest with
      | none => rfl
      | some p => rfl

/-- A window that opens a file or begins a document has that file, but shows the cursor in the file
that was open before. The name is right only if the two files go by the same name. The status line
keeps it until a command of the editor reports a place, which is shown with the right name. -/
theorem status_of_opening (hOpens : opened? answers action = some file)
    (hDone : w.settles answers action = true) (hNext : (w.act answers action).window = next) :
    next.file = file ∧
      next.status = w.positionMessage .origin ∧
      (next.status = next.positionMessage next.editor.page.cursor ↔
        Text.withoutMark w.fileLabel = Text.withoutMark next.fileLabel) ∧
      ∀ commands, (next.edits commands).status =
        ((next.editor.lastReported commands).map next.positionMessage).getD
          (w.positionMessage .origin) := by
  obtain ⟨t, hDisplay⟩ := act_eq_display hOpens hDone
  have hFile : next.file = file := by rw [← hNext, hDisplay, display]
  have hStatus : next.status = w.positionMessage .origin := by
    rw [← hNext, hDisplay]
    rfl
  have hCursor : next.editor.page.cursor = .origin := by
    rw [← hNext, hDisplay]
    rfl
  refine ⟨hFile, hStatus, ?_, fun commands => ?_⟩
  · rw [hStatus, hCursor]
    exact positionMessage_origin_inj
  · rw [(next.edits_spec commands).2, hStatus]

/-- Loading the open file once more shows its name. -/
theorem status_of_opening_again :
    ∃ store w next, Window.new store (.ofText "settings.json".toList) = .ok w ∧
      ((sessionOf w [.act {} (.loadPath (.ofText "a.dsc".toList))]).window.act {}
        (.loadPath (.ofText "a.dsc".toList))).window = next ∧
      next.file = some (.ofText "a.dsc".toList) ∧
      next.status = next.positionMessage next.editor.page.cursor := by
  obtain ⟨w, hNew, hFinal⟩ := @exists_session
    (Store.empty.putAt (.ofText "a.dsc".toList) (.file (Utf8.encode "x".toList)))
    (.ofText "settings.json".toList) [.act {} (.loadPath (.ofText "a.dsc".toList))]
    (fun s => s.window.settles {} (.loadPath (.ofText "a.dsc".toList)) = true ∧
      s.window.file = some (.ofText "a.dsc".toList))
    (by decide +kernel)
  obtain ⟨hDone, hBefore⟩ := of_decide_eq_true hFinal
  obtain ⟨hFile, -, hNamed, -⟩ := status_of_opening rfl hDone rfl
  refine ⟨_, w, _, hNew, rfl, hFile, hNamed.mpr ?_⟩
  simp only [fileLabel, hFile, hBefore]

/-- The file that is opened first in a new window is shown without a name. -/
theorem sessionOf_shows_untitled :
    ∃ store w events, Window.new store (.ofText "settings.json".toList) = .ok w ∧
      (sessionOf w events).window.file = some (.ofText "a.dsc".toList) ∧
      (sessionOf w events).window.status = "Untitled — Line 1, Column 1".toList ∧
      (sessionOf w events).window.positionMessage .origin =
        "a.dsc — Line 1, Column 1".toList := by
  obtain ⟨w, hNew, hFinal⟩ := @exists_session
    (Store.empty.putAt (.ofText "a.dsc".toList) (.file (Utf8.encode "x".toList)))
    (.ofText "settings.json".toList) [.act {} (.loadPath (.ofText "a.dsc".toList))]
    (fun s => s.window.file = some (.ofText "a.dsc".toList) ∧
      s.window.status = "Untitled — Line 1, Column 1".toList ∧
      s.window.positionMessage .origin = "a.dsc — Line 1, Column 1".toList)
    (by decide +kernel)
  exact ⟨_, w, _, hNew, of_decide_eq_true hFinal⟩

end Window

end ScriptEditor
