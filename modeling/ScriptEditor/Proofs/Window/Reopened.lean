import ScriptEditor.Proofs.Document.WholePage
import ScriptEditor.Proofs.Window.GivenUp

/-! Documents that are saved and opened again. On the way into a file and back, no-break spaces
become spaces, lines are broken at line separators, and a byte order mark before text with wide
characters is lost. All other lines come back as they were saved. -/
namespace ScriptEditor

open ScriptEditor.Text (isLineEnd joinLines plainChar plainText unifyLineEnds)
open ScriptEditor.Files (Path Store)

namespace Document

/-- A character of a line in a file, where all spaces are alike. -/
def spaced (c : Char) : Char :=
  if c = '\u00a0' then ' ' else c

/-- The lines of a file that come from one line of a document. -/
def writtenLines (line : Text) : List Text :=
  (line.splitOn '\u2028').map (·.map spaced)

/-- The lines of a document after it was saved and opened again. -/
def reopened (lines : List Text) : List Text :=
  let written := lines.flatMap writtenLines
  if LosesMark written then written.modifyHead List.tail else written

variable {lines rows rest : List Text} {line : Text} {c : Char}

/-! ### One line -/

theorem writtenLines_ne_nil (line : Text) : writtenLines line ≠ [] := by
  unfold writtenLines
  rw [ne_eq, List.map_eq_nil_iff]
  exact List.splitOn_ne_nil _ _

theorem writtenLines_cons (c : Char) (t : Text) :
    writtenLines (c :: t) =
      if c = '\u2028' then [] :: writtenLines t
      else (writtenLines t).modifyHead (spaced c :: ·) := by
  unfold writtenLines
  rw [List.splitOn_eq_splitOnP, List.splitOnP_cons_eq_if_modifyHead]
  simp only [beq_iff_eq]
  split_ifs with hSeparator
  · rfl
  · obtain ⟨piece, pieces, hPieces⟩ :=
      List.exists_cons_of_ne_nil (List.splitOnP_ne_nil (· == '\u2028') t)
    rw [List.splitOn_eq_splitOnP, hPieces]
    rfl

theorem joinLines_modifyHead (hRows : rows ≠ []) (c : Char) :
    joinLines (rows.modifyHead (c :: ·)) = c :: joinLines rows := by
  obtain ⟨row, others, rfl⟩ := List.exists_cons_of_ne_nil hRows
  cases others <;> rfl

theorem joinLines_cons (hRest : rest ≠ []) (line : Text) :
    joinLines (line :: rest) = line ++ '\n' :: joinLines rest := by
  obtain ⟨row, others, rfl⟩ := List.exists_cons_of_ne_nil hRest
  rfl

theorem joinLines_writtenLines (line : Text) :
    joinLines (writtenLines line) = line.map plainChar := by
  induction line with
  | nil => rfl
  | cons c t ih =>
      rw [writtenLines_cons, List.map_cons, ← ih]
      split_ifs with hSeparator
      · rw [hSeparator, joinLines_cons (writtenLines_ne_nil t)]
        rfl
      · rw [joinLines_modifyHead (writtenLines_ne_nil t)]
        simp [plainChar, spaced, hSeparator]

/-- What is in a file comes from the line, but is no longer special. -/
theorem mem_writtenLines (h : c ∈ (writtenLines line).flatten) :
    c ≠ '\u00a0' ∧ c ≠ '\u2028' ∧ (c = ' ' ∨ c ∈ line) := by
  induction line with
  | nil => cases h
  | cons x t ih =>
      rw [writtenLines_cons] at h
      split_ifs at h with hSeparator
      · obtain ⟨hSpace, hBreak, hOrigin⟩ := ih (by simpa using h)
        exact ⟨hSpace, hBreak, hOrigin.imp_right (List.mem_cons_of_mem x)⟩
      · obtain ⟨row, others, hRows⟩ := List.exists_cons_of_ne_nil (writtenLines_ne_nil t)
        rw [hRows] at h ih
        rcases List.mem_cons.mp h with rfl | hOther
        · unfold spaced
          split_ifs with hSpace
          · exact ⟨by decide, by decide, Or.inl rfl⟩
          · exact ⟨hSpace, hSeparator, Or.inr List.mem_cons_self⟩
        · obtain ⟨hSpace, hBreak, hOrigin⟩ := ih hOther
          exact ⟨hSpace, hBreak, hOrigin.imp_right (List.mem_cons_of_mem x)⟩

theorem writtenLines_of_not_mem (hSpace : '\u00a0' ∉ line) (hBreak : '\u2028' ∉ line) :
    writtenLines line = [line] := by
  have hSame : line.map spaced = line := by
    refine (List.map_congr_left fun c hc => ?_).trans (List.map_id line)
    exact if_neg fun hEq : c = '\u00a0' => hSpace (hEq ▸ hc)
  rw [writtenLines, List.splitOn_eq_singleton hBreak, List.map_singleton, hSame]

/-! ### Whole documents -/

theorem joinLines_append (hRows : rows ≠ []) (hRest : rest ≠ []) :
    joinLines (rows ++ rest) = joinLines rows ++ '\n' :: joinLines rest := by
  fun_induction joinLines rows with
  | case1 => contradiction
  | case2 row => exact joinLines_cons hRest row
  | case3 row others hOthers ih =>
      have hMore : others ++ rest ≠ [] := List.append_ne_nil_of_left_ne_nil hOthers rest
      rw [List.cons_append, joinLines_cons hMore, ih hOthers, List.append_assoc, List.cons_append]

theorem flatMap_writtenLines_ne_nil (hLines : lines ≠ []) : lines.flatMap writtenLines ≠ [] := by
  obtain ⟨first, others, rfl⟩ := List.exists_cons_of_ne_nil hLines
  rw [List.flatMap_cons]
  exact List.append_ne_nil_of_left_ne_nil (writtenLines_ne_nil first) _

theorem plainText_eq (lines : List Text) :
    plainText lines = joinLines (lines.flatMap writtenLines) := by
  unfold plainText
  fun_induction joinLines lines with
  | case1 => rfl
  | case2 line => rw [List.flatMap_singleton, joinLines_writtenLines]
  | case3 line rest hRest ih =>
      rw [List.flatMap_cons,
        joinLines_append (writtenLines_ne_nil line) (flatMap_writtenLines_ne_nil hRest),
        joinLines_writtenLines, ← ih, List.map_append, List.map_cons]
      rfl

theorem mem_flatMap_writtenLines (h : c ∈ (lines.flatMap writtenLines).flatten) :
    c ≠ '\u00a0' ∧ c ≠ '\u2028' ∧ (c = ' ' ∨ c ∈ lines.flatten) := by
  obtain ⟨row, hRow, hc⟩ := List.mem_flatten.mp h
  obtain ⟨line, hLine, hRow⟩ := List.mem_flatMap.mp hRow
  obtain ⟨hSpace, hBreak, hOrigin⟩ := mem_writtenLines (List.mem_flatten.mpr ⟨row, hRow, hc⟩)
  exact ⟨hSpace, hBreak, hOrigin.imp_right fun hc => List.mem_flatten.mpr ⟨line, hLine, hc⟩⟩

theorem mem_joinLines (h : c ∈ joinLines rows) : c = '\n' ∨ c ∈ rows.flatten := by
  fun_induction joinLines rows with
  | case1 => cases h
  | case2 row => exact Or.inr (by simpa using h)
  | case3 row others hOthers ih =>
      rcases List.mem_append.mp h with hRow | hRest
      · exact Or.inr (List.mem_append_left _ hRow)
      · rcases List.mem_cons.mp hRest with rfl | hRest
        · exact Or.inl rfl
        · exact (ih hRest).imp_right (List.mem_append_right row)

/-- Lines as they come back from the text of a document. -/
theorem linesOf_plainText (hLines : lines ≠ []) (h : ∀ c ∈ lines.flatten, isLineEnd c = false) :
    linesOf (unifyLineEnds (plainText lines)) = reopened lines := by
  have hEnds : ∀ c ∈ (lines.flatMap writtenLines).flatten, isLineEnd c = false := by
    intro c hc
    obtain ⟨-, -, rfl | hOrigin⟩ := mem_flatMap_writtenLines hc
    · decide
    · exact h c hOrigin
  have hReturn : '\r' ∉ joinLines (lines.flatMap writtenLines) := by
    intro hMem
    rcases mem_joinLines hMem with hFeed | hWritten
    · exact absurd hFeed (by decide)
    · exact absurd (hEnds _ hWritten) (by decide)
  rw [plainText_eq, Text.unifyLineEnds_of_not_mem hReturn,
    linesOf_joinLines (flatMap_writtenLines_ne_nil hLines) hEnds]
  rfl

theorem flatMap_writtenLines_of_not_mem (hSpace : '\u00a0' ∉ lines.flatten)
    (hBreak : '\u2028' ∉ lines.flatten) : lines.flatMap writtenLines = lines := by
  have hSame : ∀ line ∈ lines, writtenLines line = [line] := by
    intro line hLine
    exact writtenLines_of_not_mem (fun hc => hSpace (List.mem_flatten.mpr ⟨line, hLine, hc⟩))
      fun hc => hBreak (List.mem_flatten.mpr ⟨line, hLine, hc⟩)
  rw [List.flatMap_def, List.map_congr_left hSame, ← List.flatMap_def]
  exact List.flatMap_singleton' lines

theorem mem_flatten_modifyHead_tail (h : c ∈ (rows.modifyHead List.tail).flatten) :
    c ∈ rows.flatten := by
  cases rows with
  | nil => cases h
  | cons row others =>
      rw [List.modifyHead_cons, List.flatten_cons] at h
      rcases List.mem_append.mp h with hRow | hOther
      · exact List.mem_append_left _ (List.mem_of_mem_tail hRow)
      · exact List.mem_append_right _ hOther

/-- Without its byte order mark a page is another one. -/
theorem modifyHead_tail_ne (h : LosesMark lines) : lines.modifyHead List.tail ≠ lines := by
  cases lines with
  | nil => cases h.1
  | cons first others =>
      cases first with
      | nil => cases h.1
      | cons c t =>
          intro hSame
          exact List.cons_ne_self c t (List.cons.inj hSame).1.symm

/-- The lines that come back unchanged. -/
theorem reopened_eq_iff :
    reopened lines = lines ↔
      '\u00a0' ∉ lines.flatten ∧ '\u2028' ∉ lines.flatten ∧ ¬LosesMark lines := by
  constructor
  · intro hSame
    -- What comes back holds neither of the two characters, so what was saved does not either.
    have hPlain : ∀ c ∈ lines.flatten, c ≠ '\u00a0' ∧ c ≠ '\u2028' := by
      intro c hc
      have hWritten : c ∈ (lines.flatMap writtenLines).flatten := by
        rw [← hSame] at hc
        unfold reopened at hc
        dsimp only at hc
        split_ifs at hc
        · exact mem_flatten_modifyHead_tail hc
        · exact hc
      obtain ⟨hSpace, hBreak, -⟩ := mem_flatMap_writtenLines hWritten
      exact ⟨hSpace, hBreak⟩
    have hSpace : '\u00a0' ∉ lines.flatten := fun hc => (hPlain _ hc).1 rfl
    have hBreak : '\u2028' ∉ lines.flatten := fun hc => (hPlain _ hc).2 rfl
    refine ⟨hSpace, hBreak, fun hLost => modifyHead_tail_ne hLost ?_⟩
    rw [reopened, flatMap_writtenLines_of_not_mem hSpace hBreak] at hSame
    exact (if_pos hLost).symm.trans hSame
  · rintro ⟨hSpace, hBreak, hKept⟩
    rw [reopened, flatMap_writtenLines_of_not_mem hSpace hBreak]
    exact if_neg hKept

end Document

namespace Window

variable {w : Window} {answers : Answers}

/-- What is saved is opened again, as far as it can be written to a file. -/
theorem loadPath_saveAs (hSound : w.editor.Sound) (hPath : answers.path ≠ [])
    (hWritable : w.store.Writable (.ofText answers.path)) :
    ((w.saveAs answers).window.loadPath (.ofText answers.path)).result = some true ∧
      ((w.saveAs answers).window.loadPath (.ofText answers.path)).window.editor.page.lines =
        Document.reopened w.editor.page.lines := by
  obtain ⟨store, hWrite⟩ :=
    (Store.exists_write_iff (Utf8.encode w.editor.page.text)).mpr hWritable
  have hStore : (w.saveAs answers).window.store = store := by
    unfold saveAs writeTo
    rw [if_neg (by simpa using hPath)]
    dsimp only
    rw [hWrite]
  have hRead := Store.read_of_write hWrite
  have hLines : w.editor.page.lines ≠ [] := List.length_pos_iff.mp hSound.page.lines_pos
  unfold loadPath
  rw [hStore, hRead]
  dsimp only
  rw [Utf8.decode_encode]
  exact ⟨rfl, Document.linesOf_plainText hLines hSound.page.rows⟩

/-- Whatever was done in a window, its document can be saved to every path that can be written,
and opened again. The lines are those that were saved unless they hold a no-break space or a line
separator, or begin with a byte order mark and hold wide characters. -/
theorem sessionOf_reopened {store : Store} {path : Path} (opened : Window.new store path = .ok w)
    (events : List Event) (hPath : answers.path ≠ [])
    (hWritable : (sessionOf w events).window.store.Writable (.ofText answers.path)) :
    let before := (sessionOf w events).window
    let saved := before.saveAs answers
    let again := saved.window.loadPath (.ofText answers.path)
    before.settles answers .saveAs = true ∧ again.result = some true ∧
      again.window.editor.page.lines = Document.reopened before.editor.page.lines ∧
      (again.window.editor.page.lines = before.editor.page.lines ↔
        '\u00a0' ∉ before.editor.page.lines.flatten ∧
          '\u2028' ∉ before.editor.page.lines.flatten ∧
          ¬Document.LosesMark before.editor.page.lines) := by
  have hSound := (sound_sessionOf opened events).editor
  generalize (sessionOf w events).window = before at hSound hWritable ⊢
  obtain ⟨hResult, hLines⟩ := loadPath_saveAs hSound hPath hWritable
  refine ⟨?_, hResult, hLines, ?_⟩
  · simp [settles, hPath, writeTo_of_writable hWritable]
  · rw [hLines, Document.reopened_eq_iff]

/-- A program with letters beyond ASCII and a byte order mark comes back as it was. -/
theorem sessionOf_reopened_program :
    ∃ w events answers, Window.new .empty (.ofText "settings.json".toList) = .ok w ∧
      (sessionOf w events).window.store.Writable (.ofText answers.path) ∧
      (sessionOf w events).window.editor.page.lines =
        ["\ufeffloop é".toList, "    x".toList, []] ∧
      (((sessionOf w events).window.saveAs answers).window.loadPath
        (.ofText answers.path)).window.editor.page.lines =
        ["\ufeffloop é".toList, "    x".toList, []] := by
  obtain ⟨w, hNew, hFinal⟩ := @exists_session .empty (.ofText "settings.json".toList)
    [.edit (.insert "\ufeffloop é\r\n    x\n".toList)]
    (fun s => s.window.editor.page.lines = ["\ufeffloop é".toList, "    x".toList, []] ∧
      (s.window.store.write (.ofText "a.dsc".toList) []).toOption.any fun _ => true)
    (by decide +kernel)
  obtain ⟨hLines, hWritten⟩ := of_decide_eq_true hFinal
  obtain ⟨next, hNext, -⟩ := exists_of_any_toOption hWritten
  have hWritable := (Store.exists_write_iff []).mp ⟨next, hNext⟩
  refine ⟨w, _, { path := "a.dsc".toList }, hNew, hWritable, hLines, ?_⟩
  obtain ⟨-, -, -, hSame⟩ := @sessionOf_reopened _ { path := "a.dsc".toList } _ _ hNew _
    (List.cons_ne_nil _ _) hWritable
  rw [hLines] at hSame
  exact hSame.mpr (by decide)

/-- A no-break space comes back as a space. -/
theorem sessionOf_reopened_space :
    ∃ w events answers, Window.new .empty (.ofText "settings.json".toList) = .ok w ∧
      (sessionOf w events).window.settles answers .saveAs = true ∧
      (sessionOf w events).window.editor.page.lines = ["a\u00a0b".toList] ∧
      (((sessionOf w events).window.saveAs answers).window.loadPath
        (.ofText answers.path)).window.editor.page.lines = ["a b".toList] := by
  obtain ⟨w, hNew, hFinal⟩ := @exists_session .empty (.ofText "settings.json".toList)
    [.edit (.insert "a\u00a0b".toList)]
    (fun s => s.window.settles { path := "a.dsc".toList } .saveAs = true ∧
      s.window.editor.page.lines = ["a\u00a0b".toList] ∧
      ((s.window.saveAs { path := "a.dsc".toList }).window.loadPath
        (.ofText "a.dsc".toList)).window.editor.page.lines = ["a b".toList])
    (by decide +kernel)
  exact ⟨w, _, { path := "a.dsc".toList }, hNew, of_decide_eq_true hFinal⟩

end Window

end ScriptEditor
