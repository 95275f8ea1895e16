import ScriptEditor.Proofs.Files.Utf8
import ScriptEditor.Proofs.Files.Written
import ScriptEditor.Proofs.Window.Unsaved

/-! Work with files that does not come to its end. The user refuses to lose changes or cancels a
dialog, there is no text to open, or the file cannot be written. The document, the window and all
files are then as they were before. -/
namespace ScriptEditor

open ScriptEditor.Files (Path Store)

namespace Files.Store

variable {s : Store} {p : Path}

/-- There is a file at the path, and its bytes are those of a text. -/
def HoldsText (s : Store) (p : Path) : Prop :=
  ∃ t, s.read p = .ok (Utf8.encode t)

/-- The path leads to a place where a file can be, and no directory is there. -/
def Writable (s : Store) (p : Path) : Prop :=
  ∃ place, s.placeOf p = .ok place ∧ s.entryAt? place ≠ some .directory

theorem exists_write_iff (bytes : List UInt8) :
    (∃ next, s.write p bytes = .ok next) ↔ s.Writable p := by
  constructor
  · rintro ⟨next, hWrite⟩
    obtain ⟨place, hPlace, hFile, -⟩ := write_eq_ok hWrite
    exact ⟨place, hPlace, hFile⟩
  · rintro ⟨place, hPlace, hFile⟩
    refine ⟨s.put place (.file bytes), ?_⟩
    rw [write, hPlace, ok_bind]
    split
    next hDirectory => exact absurd hDirectory hFile
    next => rfl

end Files.Store

namespace Window

variable {w : Window} {answers : Answers} {action : Action} {p : Path}

/-- The actions that open, save or give up a document. -/
def handlesFiles : Action → Bool
  | .newFile | .openFile | .loadPath _ | .save | .saveAs | .close => true
  | _ => false

/-- Whether an action comes to its end: the document was settled, or the window is closed. -/
def completes (w : Window) (answers : Answers) : Action → Bool
  | .close => (w.close answers).result == some true
  | action => w.settles answers action

/-- The ways in which an action does not come to its end. -/
inductive GivenUp (w : Window) (answers : Answers) : Action → Prop where
  | refused {action : Action} (gives : givesUp action = true)
      (modified : w.editor.isModified = true) (refusal : answers.discard = false) :
      GivenUp w answers action
  | openCancelled (cancelled : answers.path = []) : GivenUp w answers .openFile
  | openFailed (failed : ¬w.store.HoldsText (.ofText answers.path)) : GivenUp w answers .openFile
  | loadFailed {p : Path} (failed : ¬w.store.HoldsText p) : GivenUp w answers (.loadPath p)
  | saveAsCancelled (cancelled : answers.path = []) : GivenUp w answers .saveAs
  | saveAsFailed (failed : ¬w.store.Writable (.ofText answers.path)) : GivenUp w answers .saveAs
  | saveCancelled (untitled : w.file = none) (cancelled : answers.path = []) :
      GivenUp w answers .save
  | saveFailed (failed : ¬w.store.Writable (w.file.getD (.ofText answers.path))) :
      GivenUp w answers .save

/-! ### Opening and writing a file -/

theorem loadPath_of_holdsText (h : w.store.HoldsText p) : (w.loadPath p).result = some true := by
  obtain ⟨t, hRead⟩ := h
  unfold loadPath
  rw [hRead]
  dsimp only
  rw [Utf8.decode_encode]

theorem loadPath_of_not_holdsText (h : ¬w.store.HoldsText p) :
    (w.loadPath p).window = w ∧ (w.loadPath p).result ≠ some true := by
  unfold loadPath
  split
  next => exact ⟨rfl, nofun⟩
  next => exact ⟨rfl, nofun⟩
  next bytes hRead =>
    split
    next => exact ⟨rfl, nofun⟩
    next t hDecode =>
      rw [Utf8.decode_eq_ok_iff.mp hDecode] at hRead
      exact absurd ⟨t, hRead⟩ h

theorem writeTo_of_writable (h : w.store.Writable p) : (w.writeTo p).result = some true := by
  obtain ⟨store, hWrite⟩ := (Store.exists_write_iff (Utf8.encode w.editor.page.text)).mpr h
  unfold writeTo
  rw [hWrite]

theorem writeTo_of_not_writable (h : ¬w.store.Writable p) :
    (w.writeTo p).window = w ∧ (w.writeTo p).result ≠ some true := by
  unfold writeTo
  split
  next => exact ⟨rfl, nofun⟩
  next => exact ⟨rfl, nofun⟩
  next store hWrite => exact absurd ((Store.exists_write_iff _).mp ⟨store, hWrite⟩) h

/-! ### Actions -/

theorem mayDiscard_of_refusal (hModified : w.editor.isModified = true)
    (hRefusal : answers.discard = false) : w.mayDiscard answers = ([askDiscard], false) := by
  rw [mayDiscard, if_pos hModified, hRefusal]

theorem mayDiscard_of_not_givenUp (hGives : givesUp action = true)
    (h : ¬w.GivenUp answers action) : (w.mayDiscard answers).2 = true := by
  unfold mayDiscard
  split_ifs with hModified
  · by_contra hRefusal
    exact h (.refused hGives hModified (Bool.eq_false_iff.mpr hRefusal))
  · rfl

theorem window_openFile
    (h : answers.path = [] ∨ (w.loadPath (.ofText answers.path)).window = w) :
    (w.openFile answers).window = w := by
  unfold openFile
  dsimp only
  split_ifs with hRefused hCancelled
  · rfl
  · rfl
  · rcases h with hEmpty | hWindow
    · rw [hEmpty] at hCancelled
      exact absurd rfl hCancelled
    · exact hWindow

theorem saveAs_of_cancelled (hPath : answers.path = []) :
    (w.saveAs answers).window = w ∧ w.settles answers .saveAs = false := by
  unfold saveAs settles
  rw [hPath]
  exact ⟨rfl, rfl⟩

theorem saveAs_of_not_writable (h : ¬w.store.Writable (.ofText answers.path)) :
    (w.saveAs answers).window = w ∧ w.settles answers .saveAs = false := by
  obtain ⟨hWindow, hResult⟩ := writeTo_of_not_writable h
  constructor
  · unfold saveAs
    dsimp only
    rw [if_neg hResult, hWindow]
    split_ifs <;> rfl
  · simpa [settles] using fun _ => hResult

/-- What is given up changes nothing. -/
theorem GivenUp.unchanged (h : w.GivenUp answers action) :
    (w.act answers action).window = w ∧ w.completes answers action = false := by
  cases h with
  | @refused action gives modified refusal =>
      have hDiscard := mayDiscard_of_refusal modified refusal
      cases action with
      | newFile => simp [act, newFile, completes, settles, hDiscard]
      | openFile => simp [act, openFile, completes, settles, hDiscard]
      | close => simp [act, close, completes, hDiscard]
      | _ => cases gives
  | openCancelled cancelled =>
      exact ⟨window_openFile (Or.inl cancelled), by simp [completes, settles, cancelled]⟩
  | openFailed failed =>
      obtain ⟨hWindow, hResult⟩ := loadPath_of_not_holdsText failed
      exact ⟨window_openFile (Or.inr hWindow), by simpa [completes, settles] using fun _ _ => hResult⟩
  | loadFailed failed =>
      obtain ⟨hWindow, hResult⟩ := loadPath_of_not_holdsText failed
      exact ⟨hWindow, by simpa [completes, settles] using hResult⟩
  | saveAsCancelled cancelled => exact saveAs_of_cancelled cancelled
  | saveAsFailed failed => exact saveAs_of_not_writable failed
  | saveCancelled untitled cancelled =>
      unfold completes settles act save
      rw [untitled]
      exact saveAs_of_cancelled cancelled
  | saveFailed failed =>
      unfold completes settles act save
      cases hFile : w.file with
      | none =>
          rw [hFile] at failed
          exact saveAs_of_not_writable failed
      | some p =>
          rw [hFile] at failed
          obtain ⟨hWindow, hResult⟩ := writeTo_of_not_writable failed
          exact ⟨hWindow, by simpa using hResult⟩

/-- Every other action that handles files comes to its end. -/
theorem completes_of_not_givenUp (hFiles : handlesFiles action = true)
    (h : ¬w.GivenUp answers action) : w.completes answers action = true := by
  have hNamed : answers.path ≠ [] → answers.path.isEmpty = false := fun hPath => by
    simpa using hPath
  cases action with
  | newFile => exact mayDiscard_of_not_givenUp rfl h
  | openFile =>
      have hDiscard := mayDiscard_of_not_givenUp rfl h
      have hPath := hNamed fun hEmpty => h (.openCancelled hEmpty)
      have hText := loadPath_of_holdsText (not_not.mp fun hFailed => h (.openFailed hFailed))
      simp [completes, settles, hDiscard, hPath, hText]
  | loadPath p =>
      have hText := loadPath_of_holdsText (not_not.mp fun hFailed => h (.loadFailed hFailed))
      simp [completes, settles, hText]
  | save =>
      have hWritable := not_not.mp fun hFailed => h (.saveFailed hFailed)
      unfold completes settles
      cases hFile : w.file with
      | none =>
          have hPath := hNamed fun hEmpty => h (.saveCancelled hFile hEmpty)
          rw [hFile, Option.getD_none] at hWritable
          simp [hPath, writeTo_of_writable hWritable]
      | some p =>
          rw [hFile, Option.getD_some] at hWritable
          simp [writeTo_of_writable hWritable]
  | saveAs =>
      have hPath := hNamed fun hEmpty => h (.saveAsCancelled hEmpty)
      have hWritten := writeTo_of_writable (not_not.mp fun hFailed => h (.saveAsFailed hFailed))
      simp [completes, settles, hPath, hWritten]
  | close => simp [completes, close, mayDiscard_of_not_givenUp rfl h]
  | _ => cases hFiles

/-! ### The question before changes are lost -/

theorem count_asked_loadPath (w : Window) (p : Path) : (w.loadPath p).asked.count askDiscard = 0 := by
  unfold loadPath notOpened
  split
  · rfl
  · rfl
  · split <;> rfl

theorem count_asked_mayDiscard (w : Window) (answers : Answers) :
    (w.mayDiscard answers).1.count askDiscard = if w.editor.isModified then 1 else 0 := by
  unfold mayDiscard
  split_ifs <;> rfl

theorem count_asked (hGives : givesUp action = true) :
    (w.act answers action).asked.count askDiscard = if w.editor.isModified then 1 else 0 := by
  have hOpen : (askOpen == askDiscard) = false := by decide
  rw [← count_asked_mayDiscard w answers]
  cases action with
  | newFile =>
      unfold act newFile
      dsimp only
      split_ifs <;> rfl
  | openFile =>
      unfold act openFile
      dsimp only
      split_ifs
      · rfl
      · simp [List.count_append, List.count_cons, hOpen]
      · simp [List.count_append, List.count_cons, hOpen, count_asked_loadPath]
  | close => rfl
  | _ => cases hGives

/-- What handles files either comes to its end or leaves the window and all files as they were, and
it comes to its end exactly if it is not refused or cancelled and the files allow it. Before a
document is given up there is one question if it is modified, and none if not. -/
theorem act_givenUp (w : Window) (answers : Answers) {action : Action}
    (hFiles : handlesFiles action = true) :
    (w.GivenUp answers action →
        (w.act answers action).window = w ∧ w.completes answers action = false) ∧
      (¬w.GivenUp answers action → w.completes answers action = true) ∧
      (givesUp action = true →
        (w.act answers action).asked.count askDiscard = if w.editor.isModified then 1 else 0) :=
  ⟨GivenUp.unchanged, completes_of_not_givenUp hFiles, count_asked⟩

/-- Closing a window with changes is refused, and saving them fails at a directory. -/
theorem act_givenUp_modified :
    ∃ w : Window, w.editor.page.lines = ["x".toList] ∧
      (w.act {} .close).window = w ∧ (w.act {} .close).asked.count askDiscard = 1 ∧
      (w.act { path := "d".toList } .save).window = w ∧
      w.completes { path := "e".toList } .save = true := by
  obtain ⟨new, -, hFinal⟩ := @exists_session (Store.empty.putAt (.ofText "d".toList) .directory)
    (.ofText "settings.json".toList) [.edit (.insert "x".toList)]
    (fun s => s.window.editor.page.lines = ["x".toList] ∧ s.window.editor.isModified ∧
      s.window.file = none ∧
      (s.window.store.write (.ofText "d".toList) []).toOption.isNone ∧
      (s.window.store.write (.ofText "e".toList) []).toOption.any fun _ => true) (by decide +kernel)
  generalize (sessionOf new [.edit (.insert "x".toList)]).window = w at hFinal
  obtain ⟨hLines, hModified, hFile, hDirectory, hWritten⟩ := of_decide_eq_true hFinal
  have hRefused : w.GivenUp {} .close := .refused rfl hModified rfl
  have hFailed : w.GivenUp { path := "d".toList } .save := by
    apply GivenUp.saveFailed
    rw [hFile, Option.getD_none, ← Store.exists_write_iff []]
    rintro ⟨next, hNext⟩
    rw [hNext] at hDirectory
    cases hDirectory
  have hDone : ¬w.GivenUp { path := "e".toList } .save := by
    rintro ⟨⟩
    · contradiction
    · contradiction
    · rename_i failed
      rw [hFile, Option.getD_none, ← Store.exists_write_iff []] at failed
      obtain ⟨next, hNext, -⟩ := exists_of_any_toOption hWritten
      exact failed ⟨next, hNext⟩
  obtain ⟨hClosing, -, hAsked⟩ := @act_givenUp w {} .close rfl
  refine ⟨w, hLines, (hClosing hRefused).1, ?_, ?_, ?_⟩
  · rw [hAsked rfl, hModified]
    rfl
  · exact ((act_givenUp w { path := "d".toList } rfl).1 hFailed).1
  · exact (act_givenUp w { path := "e".toList } rfl).2.1 hDone

end Window

end ScriptEditor
