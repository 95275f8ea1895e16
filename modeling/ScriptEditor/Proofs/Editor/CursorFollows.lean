import ScriptEditor.Proofs.Editor.CursorPlaces

/-! Indenting lines takes cursor and anchor along. Without a selection the command itself
puts the cursor, and with one the edits of each line move both ends. Either way an end stays
before the same text, or goes to the end of an indentation that was put in around it. -/
namespace ScriptEditor.Document

open ScriptEditor.Indent
open ScriptEditor.Text (units isIndent)

namespace Page

/-- What is to the right of a place on its line. These are units, since a place may be
inside of a wide character. -/
def unitsBehind (page : Page) (p : Pos) : Utf16 :=
  (Utf16.ofText (page.lineAt p.line)).drop p.column

/-- Where a place of a page goes in a page with another indentation of its line: with its
character if that is not part of the indentation, else to the end of the new one. Where the
indentation is the same, a place within it may also stay. -/
structure Carried (page next : Page) (p q : Pos) : Prop where
  length : next.lines.length = page.lines.length
  line : q.line = p.line
  body : body (next.lineAt p.line) = body (page.lineAt p.line)
  behind : (leading (page.lineAt p.line)).length ≤ p.column →
    q.column + (leading (page.lineAt p.line)).length =
      p.column + (leading (next.lineAt p.line)).length
  within : p.column < (leading (page.lineAt p.line)).length →
    q.column = (leading (next.lineAt p.line)).length ∨
      q.column = p.column ∧ leading (next.lineAt p.line) = leading (page.lineAt p.line)

/-- A place of a page and the place that it became after lines were indented. -/
structure Follows (page next : Page) (p q : Pos) : Prop where
  holds : next.Holds q
  line : q.line = p.line
  /-- At or behind the end of the indentation the same text is to the right. -/
  behind : (leading (page.lineAt p.line)).length ≤ p.column →
    next.unitsBehind q = page.unitsBehind p
  /-- From within the indentation the place does not go beyond the new one. -/
  within : p.column < (leading (page.lineAt p.line)).length →
    q.column ≤ (leading (next.lineAt q.line)).length
  /-- It is at the end of the new one if that is not the old one. -/
  atEnd : p.column < (leading (page.lineAt p.line)).length →
    leading (next.lineAt q.line) ≠ leading (page.lineAt p.line) →
      q.column = (leading (next.lineAt q.line)).length

/-- Behind the indentation, what is to the right of a place is told by the body of the line. -/
theorem unitsBehind_eq_drop_body {page : Page} {p : Pos}
    (h : (leading (page.lineAt p.line)).length ≤ p.column) :
    page.unitsBehind p =
      (Utf16.ofText (Indent.body (page.lineAt p.line))).drop
        (p.column - (leading (page.lineAt p.line)).length) := by
  have hLeading : (Utf16.ofText (leading (page.lineAt p.line))).length =
      (leading (page.lineAt p.line)).length := by
    rw [Utf16.length_ofText, Editor.units_leading]
  have hUnits : Utf16.ofText (page.lineAt p.line) =
      Utf16.ofText (leading (page.lineAt p.line)) ++
        Utf16.ofText (Indent.body (page.lineAt p.line)) := by
    rw [← Utf16.ofText_append, leading_append_body]
  rw [unitsBehind, hUnits, List.drop_append, hLeading, List.drop_eq_nil_of_le (hLeading ▸ h),
    List.nil_append]

namespace Carried

variable {page mid next : Page} {p q r : Pos}

theorem refl (page : Page) (p : Pos) : Carried page page p p :=
  ⟨rfl, rfl, rfl, fun _ => rfl, fun _ => Or.inr ⟨rfl, rfl⟩⟩

theorem trans (first : Carried page mid p q) (last : Carried mid next q r) :
    Carried page next p r := by
  obtain ⟨hLength, hLine, hBody, hBehind, hWithin⟩ := last
  rw [first.line] at hBody hBehind hWithin
  refine ⟨hLength.trans first.length, hLine.trans first.line, hBody.trans first.body, ?_, ?_⟩
  · intro hColumn
    have hFirst := first.behind hColumn
    have hLast := hBehind (by omega)
    omega
  · intro hColumn
    rcases first.within hColumn with hEnd | ⟨hStay, hSame⟩
    -- At the end of an indentation the place is no longer within one.
    · have hLast := hBehind (Nat.le_of_eq hEnd.symm)
      exact Or.inl (by omega)
    · rw [hStay, hSame] at hWithin
      exact hWithin hColumn

theorem holds (h : Carried page next p q) (hp : page.Holds p) : next.Holds q := by
  have hWidth : ∀ line : Text, units line = (leading line).length + units (Indent.body line) := by
    intro line
    conv_lhs => rw [← leading_append_body line]
    rw [Text.units_append, Editor.units_leading]
  have hColumn := hp.2
  rw [hWidth] at hColumn
  refine ⟨?_, ?_⟩
  · rw [h.line, h.length]
    exact hp.1
  · rw [h.line, hWidth, h.body]
    rcases Nat.lt_or_ge p.column (leading (page.lineAt p.line)).length with hIn | hBehind
    · rcases h.within hIn with hEnd | ⟨hStay, hSame⟩
      · omega
      · rw [hSame]
        omega
    · have hMoved := h.behind hBehind
      omega

theorem follows (h : Carried page next p q) (hp : page.Holds p) : Follows page next p q := by
  refine ⟨h.holds hp, h.line, ?_, ?_, ?_⟩
  · intro hBehind
    have hMoved := h.behind hBehind
    have hStill : (leading (next.lineAt q.line)).length ≤ q.column := by
      rw [h.line]
      omega
    have hOffset : q.column - (leading (next.lineAt p.line)).length =
        p.column - (leading (page.lineAt p.line)).length := by
      omega
    rw [unitsBehind_eq_drop_body hStill, unitsBehind_eq_drop_body hBehind, h.line, h.body, hOffset]
  · intro hIn
    rw [h.line]
    rcases h.within hIn with hEnd | ⟨hStay, hSame⟩
    · exact Nat.le_of_eq hEnd
    · rw [hSame, hStay]
      exact Nat.le_of_lt hIn
  · intro hIn hChanged
    rw [h.line] at hChanged ⊢
    rcases h.within hIn with hEnd | ⟨-, hSame⟩
    · exact hEnd
    · exact absurd hSame hChanged

variable {n : Nat} {row : Text}

/-- A place on the line that gets another indentation. -/
theorem shift (hn : n < page.lines.length)
    (hLines : next.lines = page.lines.set n (row ++ Indent.body (page.lineAt n)))
    (hRow : ∀ c ∈ row, isIndent c = true) (column : Nat) :
    Carried page next ⟨n, column⟩
      ⟨n, column - (leading (page.lineAt n)).length + row.length⟩ := by
  have hLine := lineAt_set hn hLines
  have hLeading : leading (next.lineAt n) = row := by
    rw [hLine, leading_indent_append hRow]
  refine ⟨?_, rfl, ?_, ?_, ?_⟩
  · rw [hLines, List.length_set]
  · change Indent.body (next.lineAt n) = Indent.body (page.lineAt n)
    rw [hLine, body_indent_append hRow, body_body]
  · intro hBehind
    change (leading (page.lineAt n)).length ≤ column at hBehind
    change column - (leading (page.lineAt n)).length + row.length +
      (leading (page.lineAt n)).length = column + (leading (next.lineAt n)).length
    rw [hLeading]
    omega
  · intro hIn
    change column < (leading (page.lineAt n)).length at hIn
    refine Or.inl ?_
    change column - (leading (page.lineAt n)).length + row.length = (leading (next.lineAt n)).length
    rw [hLeading]
    omega

/-- A place on another line. -/
theorem of_set {line : Text} (hLines : next.lines = page.lines.set n line) (hLine : p.line ≠ n) :
    Carried page next p p := by
  have hKept := lineAt_set_ne hLines hLine
  refine ⟨?_, rfl, congrArg _ hKept, fun _ => ?_, fun _ => Or.inr ⟨rfl, congrArg _ hKept⟩⟩
  · rw [hLines, List.length_set]
  · rw [hKept]

end Carried

end Page

end ScriptEditor.Document

namespace ScriptEditor.Editor

open ScriptEditor.Document
open ScriptEditor.Indent
open ScriptEditor.Text (units isIndent)

variable {e : Editor} {d : Draft} {n : Nat} {tabWidth : Int}

/-- Both ends of the selection are carried along. -/
def CarriesEnds (page next : Page) : Prop :=
  page.Carried next page.cursor next.cursor ∧ page.Carried next page.anchor next.anchor

theorem CarriesEnds.refl (page : Page) : CarriesEnds page page :=
  ⟨.refl page _, .refl page _⟩

theorem CarriesEnds.trans {page mid next : Page} (first : CarriesEnds page mid)
    (last : CarriesEnds mid next) : CarriesEnds page next :=
  ⟨first.1.trans last.1, first.2.trans last.2⟩

/-! ### Edits of lines -/

/-- The two edits that give a line another indentation carry every place along. -/
theorem carried_indentLine (tabWidth : Int) (hn : n < d.page.lines.length) (p : Pos) :
    d.page.Carried (indentLine tabWidth d n).page p
      ((p.afterErase ⟨n, 0⟩ ⟨n, (leading (d.page.lineAt n)).length⟩).afterInsert ⟨n, 0⟩
        [spaces (columnIn tabWidth d n)]) := by
  have hLines := lines_indentLine tabWidth hn
  obtain ⟨line, column⟩ := p
  by_cases hSame : line = n
  · subst hSame
    rw [Pos.afterErase_lineStart, Pos.afterInsert_lineStart,
      units_of_isIndent fun _ => isIndent_of_mem_spaces]
    exact .shift hn hLines (fun _ => isIndent_of_mem_spaces) column
  · have hOther : (⟨line, column⟩ : Pos).line ≠ n := hSame
    rw [Pos.afterErase_of_line_ne hOther, Pos.afterInsert_of_line_ne hOther]
    exact .of_set hLines hOther

theorem carriesEnds_indentLine (tabWidth : Int) (hn : n < d.page.lines.length) :
    CarriesEnds d.page (indentLine tabWidth d n).page := by
  by_cases hSame : leading (d.page.lineAt n) = spaces (columnIn tabWidth d n)
  · rw [indentLine, if_pos hSame]
    exact .refl _
  · have hEdits : indentLine tabWidth d n =
        d.replace ⟨n, 0⟩ ⟨n, (leading (d.page.lineAt n)).length⟩ (spaces (columnIn tabWidth d n)) := by
      rw [indentLine, if_neg hSame]
    obtain ⟨hCursor, hAnchor⟩ :=
      d.places_replace ⟨n, 0⟩ ⟨n, (leading (d.page.lineAt n)).length⟩
        (isRow_spaces (columnIn tabWidth d n))
    rw [← hEdits] at hCursor hAnchor
    refine ⟨?_, ?_⟩
    · exact hCursor ▸ carried_indentLine tabWidth hn _
    · exact hAnchor ▸ carried_indentLine tabWidth hn _

theorem carriesEnds_indentLines (tabWidth : Int) {ns : List Nat}
    (hns : ∀ n ∈ ns, n < d.page.lines.length) :
    CarriesEnds d.page (indentLines tabWidth d ns).draft.page := by
  induction ns generalizing d with
  | nil => exact .refl _
  | cons n rest ih =>
      have hn : n < d.page.lines.length := hns n (List.mem_cons_self ..)
      rw [indentLines]
      split
      · exact .refl _
      · exact (carriesEnds_indentLine tabWidth hn).trans
          (ih ((editsLine_indentLine tabWidth hn).bound_rest hns))

/-! ### The command -/

/-- Without a selection the command puts the cursor where the edits of its line would have
moved it. -/
theorem carriesEnds_indentCurrent (hCursor : e.page.Holds e.page.cursor)
    (hEmpty : ¬ e.page.hasSelection = true) :
    CarriesEnds e.page (indentCurrent e).draft.page := by
  have hSame : e.page.cursor = e.page.anchor := by simpa [Page.hasSelection] using hEmpty
  rcases indentCurrent_cases e with ⟨fault, -, hBroken⟩ | ⟨-, hDone⟩
  · rw [hBroken]
    exact .refl _
  · have hLines : (indentCurrent e).draft.page.lines = e.page.lines.set e.page.cursor.line
        (spaces (columnIn e.tabWidth e.draft e.page.cursor.line) ++
          body (e.page.lineAt e.page.cursor.line)) := by
      rw [hDone]
      exact @lines_indentLine e.draft e.page.cursor.line e.tabWidth hCursor.1
    have hCarried : e.page.Carried (indentCurrent e).draft.page e.page.cursor
        (indentCurrent e).draft.page.cursor := by
      have hShift := Page.Carried.shift hCursor.1 hLines (fun _ => isIndent_of_mem_spaces)
        e.page.cursor.column
      rw [← units_leading, ← units_of_isIndent fun _ => isIndent_of_mem_spaces] at hShift
      rw [hDone] at hShift ⊢
      exact hShift
    have hTogether : (indentCurrent e).draft.page.anchor = (indentCurrent e).draft.page.cursor := by
      rw [hDone]
      rfl
    refine ⟨hCarried, ?_⟩
    rw [← hSame, hTogether]
    exact hCarried

theorem carriesEnds_indentSelection (hCursor : e.page.Holds e.page.cursor)
    (hAnchor : e.page.Holds e.page.anchor) :
    CarriesEnds e.page (indentSelection e).draft.page := by
  unfold indentSelection
  split_ifs with hSelection
  · have hStop : e.page.Holds e.page.stop := (Page.earlier_later_of hCursor hAnchor).2.2
    have hLines : ∀ n ∈ selectedLines e.page, n < e.draft.page.lines.length := fun n hn =>
      Nat.lt_of_le_of_lt (mem_selectedLines.mp hn).2 hStop.1
    exact carriesEnds_indentLines e.tabWidth hLines
  · exact carriesEnds_indentCurrent hCursor hSelection

/-- The key that indents, and the command that it stands for, leave cursor and anchor on
their lines. Each one is before the same text as it was unless it was within the
indentation, and then it is not beyond the new indentation, and at its end if that is another
one. This holds in either direction of the selection, and also when a column is too far to
the right and the command is broken off. -/
theorem run_indentSelection_follows (hCursor : e.page.Holds e.page.cursor)
    (hAnchor : e.page.Holds e.page.anchor) {command : Command}
    (hTab : command = .indentSelection ∨ ∃ ctrl shift, command = .press .tab ctrl shift) :
    e.page.Follows (e.run command).1.page e.page.cursor (e.run command).1.page.cursor ∧
      e.page.Follows (e.run command).1.page e.page.anchor (e.run command).1.page.anchor := by
  have hPage : (e.run command).1.page = (indentSelection e).draft.page := by
    rcases hTab with rfl | ⟨ctrl, shift, rfl⟩
    · exact page_finishAttempt e _
    · exact page_finishAttempt e _
  obtain ⟨hCarriedCursor, hCarriedAnchor⟩ := carriesEnds_indentSelection hCursor hAnchor
  rw [hPage]
  exact ⟨hCarriedCursor.follows hCursor, hCarriedAnchor.follows hAnchor⟩

/-- The anchor is behind a wide character, and the cursor above it is within an indentation
of tabulators. -/
theorem press_tab_follows :
    ∃ e : Editor, e.page.lines = ["loop".toList, "\t\tx".toList, "   y😀z".toList] ∧
      e.page.cursor = ⟨1, 1⟩ ∧ e.page.anchor = ⟨2, 6⟩ ∧
      (e.run (.press .tab false false)).1.page.lines =
        ["loop".toList, "    x".toList, "    y😀z".toList] ∧
      (e.run (.press .tab false false)).1.page.cursor = ⟨1, 4⟩ ∧
      (e.run (.press .tab false false)).1.page.anchor = ⟨2, 7⟩ ∧
      (e.run (.press .tab false false)).1.page.unitsBehind ⟨2, 7⟩ = e.page.unitsBehind ⟨2, 6⟩ := by
  let e := (((new .dark 4).run (.load "loop\n\t\tx\n   y😀z".toList)).1.run
    (.move (1, 1) (some (2, 6)))).1
  have hReached : Reachable e := (reachable_new.run _).run _
  have hFollows := run_indentSelection_follows hReached.sound.page.cursor
    hReached.sound.page.anchor (Or.inr ⟨false, false, rfl⟩)
  have hNext : (e.run (.press .tab false false)).1.page.anchor = ⟨2, 7⟩ := by decide +kernel
  have hOld : e.page.anchor = ⟨2, 6⟩ := by decide +kernel
  have hBehind : (leading (e.page.lineAt e.page.anchor.line)).length ≤ e.page.anchor.column := by
    decide +kernel
  have hText := hFollows.2.behind hBehind
  rw [hNext, hOld] at hText
  exact ⟨e, by decide +kernel, by decide +kernel, hOld, by decide +kernel, by decide +kernel, hNext,
    hText⟩

end ScriptEditor.Editor
