import ScriptEditor.Proofs.Document.Between
import ScriptEditor.Proofs.Editor.Entering
import ScriptEditor.Proofs.Editor.Reachable
import ScriptEditor.Proofs.Indent.Reach

/-! Indenting the lines of a selection one after another in the page itself. Each line is
decided about in a page of which some lines were indented already, and yet the decisions are
those of the page in the end: they look only at lines above, which are not touched any more.
So the command agrees with indenting the document as a whole. -/
namespace ScriptEditor.Editor

open ScriptEditor.Document
open ScriptEditor.Indent
open ScriptEditor.Script (commentMark)

variable {e : Editor} {d next : Draft} {n : Nat} {tabWidth : Int}

/-- A line stands where the decision about it puts it, with the body it had among other
lines. -/
def Stands (tabWidth : Int) (old lines : List Text) (k : Nat) : Prop :=
  ∃ indent, ((resolve commentMark tabWidth lines k).bind fun decision =>
      makeSpaces (columnOf decision)) = .ok indent ∧
    lines[k]? = some (indent ++ body (old.getD k []))

theorem stands_iff (hWidth : 1 ≤ tabWidth) {old lines : List Text} {k : Nat}
    (hk : k < lines.length) :
    Stands tabWidth old lines k ↔
      spacesFault? (columnAt commentMark tabWidth lines k) = none ∧
        lines[k]? = some (spaces (columnAt commentMark tabWidth lines k) ++ body (old.getD k [])) := by
  have hResolve : ((resolve commentMark tabWidth lines k).bind fun decision =>
      makeSpaces (columnOf decision)) = makeSpaces (columnAt commentMark tabWidth lines k) := by
    rw [resolve_eq_ok hWidth hk]
    rfl
  simp only [Stands, hResolve, makeSpaces_eq_ok_iff]
  constructor
  · rintro ⟨indent, ⟨hRoom, rfl⟩, hLine⟩
    exact ⟨hRoom, hLine⟩
  · rintro ⟨hRoom, hLine⟩
    exact ⟨_, ⟨hRoom, rfl⟩, hLine⟩

/-! ### Lines one after another -/

/-- A draft after some of its lines were indented: these stand where the decisions about
them put them now, and the others are as they were. -/
structure IndentedAt (tabWidth : Int) (d : Draft) (ns : List Nat) (next : Draft) : Prop where
  done : ∀ k ∈ ns, spacesFault? (columnIn tabWidth next k) = none ∧
    next.page.lines[k]? = some (spaces (columnIn tabWidth next k) ++ body (d.page.lineAt k))
  others : ∀ k, k ∉ ns → next.page.lines[k]? = d.page.lines[k]?

theorem indentedAt_nil (tabWidth : Int) (d : Draft) : IndentedAt tabWidth d [] d :=
  ⟨by simp, by simp⟩

theorem getElem?_indentLine (hn : n < d.page.lines.length) (k : Nat) :
    (indentLine tabWidth d n).page.lines[k]? =
      if k = n then some (spaces (columnIn tabWidth d n) ++ body (d.page.lineAt n))
      else d.page.lines[k]? := by
  rw [lines_indentLine tabWidth hn, List.getElem?_set]
  by_cases hk : k = n
  · simp [hk, hn]
  · simp [hk, Ne.symm hk]

/-- One more line above: what was decided about it holds in the end, since no line above it
is touched any more. -/
theorem IndentedAt.cons {ns : List Nat} (hn : n < d.page.lines.length)
    (hRoom : spacesFault? (columnIn tabWidth d n) = none) (hLater : ∀ k ∈ ns, n < k)
    (h : IndentedAt tabWidth (indentLine tabWidth d n) ns next) :
    IndentedAt tabWidth d (n :: ns) next := by
  have hNew : n ∉ ns := fun hMem => Nat.lt_irrefl n (hLater n hMem)
  have hAt : next.page.lines[n]? =
      some (spaces (columnIn tabWidth d n) ++ body (d.page.lineAt n)) := by
    rw [h.others n hNew, getElem?_indentLine hn, if_pos rfl]
  have hAbove : next.page.lines.take n = d.page.lines.take n := by
    refine List.ext_getElem? fun k => ?_
    rw [List.getElem?_take, List.getElem?_take]
    split_ifs with hk
    · have hEarlier : k ∉ ns := fun hMem => Nat.lt_asymm hk (hLater k hMem)
      rw [h.others k hEarlier, getElem?_indentLine hn, if_neg (Nat.ne_of_lt hk)]
    · rfl
  have hBody : body (next.page.lines.getD n []) = body (d.page.lines.getD n []) := by
    rw [List.getD_eq_getElem?_getD, hAt]
    change body (spaces _ ++ body (d.page.lineAt n)) = body (d.page.lineAt n)
    rw [body_spaces_append, body_body]
  have hColumn : columnIn tabWidth next n = columnIn tabWidth d n :=
    columnAt_congr markApart_commentMark hAbove hBody
  constructor
  · intro k hk
    rcases List.mem_cons.mp hk with rfl | hRest
    · rw [hColumn]
      exact ⟨hRoom, hAt⟩
    · have hLine : (indentLine tabWidth d n).page.lineAt k = d.page.lineAt k :=
        Page.lineAt_set_ne (lines_indentLine tabWidth hn) (Nat.ne_of_gt (hLater k hRest))
      rw [← hLine]
      exact h.done k hRest
  · intro k hk
    rw [List.mem_cons, not_or] at hk
    rw [h.others k hk.2, getElem?_indentLine hn, if_neg hk.1]

/-- Lines are indented in their order up to the first one without room. -/
theorem indentLines_indentedAt {ns : List Nat} (hns : ns.Pairwise (· < ·))
    (hBound : ∀ n ∈ ns, n < d.page.lines.length) :
    ∃ done rest, ns = done ++ rest ∧
      IndentedAt tabWidth d done (indentLines tabWidth d ns).draft ∧
      (indentLines tabWidth d ns).fault = rest.head?.bind
        (fun k => spacesFault? (columnIn tabWidth (indentLines tabWidth d ns).draft k)) ∧
      (rest ≠ [] → (indentLines tabWidth d ns).fault ≠ none) := by
  induction ns generalizing d with
  | nil => exact ⟨[], [], rfl, indentedAt_nil tabWidth d, rfl, fun hRest => absurd rfl hRest⟩
  | cons n ns ih =>
      obtain ⟨hLater, hRest⟩ := List.pairwise_cons.mp hns
      have hn : n < d.page.lines.length := hBound n (List.mem_cons_self ..)
      cases hFault : spacesFault? (columnIn tabWidth d n) with
      | some fault =>
          have hBroken : indentLines tabWidth d (n :: ns) = ⟨d, some fault⟩ := by
            rw [indentLines, hFault]
          rw [hBroken]
          exact ⟨[], n :: ns, rfl, indentedAt_nil tabWidth d, hFault.symm,
            fun _ => Option.some_ne_none fault⟩
      | none =>
          have hNext : indentLines tabWidth d (n :: ns) =
              indentLines tabWidth (indentLine tabWidth d n) ns := by
            rw [indentLines, hFault]
          have hFirst := editsLine_indentLine tabWidth hn
          obtain ⟨done, rest, rfl, hDone, hBroken, hWhy⟩ := ih hRest (hFirst.bound_rest hBound)
          rw [hNext]
          refine ⟨n :: done, rest, rfl, hDone.cons hn hFault fun k hk => ?_, hBroken, hWhy⟩
          exact hLater k (List.mem_append_left _ hk)

/-- Lines that stand where the decisions about them put them are left as they are. -/
theorem indentLines_of_standing {ns : List Nat}
    (h : ∀ k ∈ ns, spacesFault? (columnIn tabWidth d k) = none ∧
      ∃ line, d.page.lines[k]? = some (spaces (columnIn tabWidth d k) ++ body line)) :
    indentLines tabWidth d ns = { draft := d } := by
  induction ns with
  | nil => rfl
  | cons n ns ih =>
      obtain ⟨hRoom, line, hLine⟩ := h n (List.mem_cons_self ..)
      have hAt : d.page.lineAt n = spaces (columnIn tabWidth d n) ++ body line := by
        rw [Page.lineAt, List.getD_eq_getElem?_getD, hLine]
        rfl
      have hSame : indentLine tabWidth d n = d := by
        rw [indentLine, hAt, leading_indent_append (fun _ => isIndent_of_mem_spaces) line,
          if_pos rfl]
      rw [indentLines, hRoom]
      simp only [hSame]
      exact ih fun k hk => h k (List.mem_cons_of_mem _ hk)

/-! ### The lines of the selection -/

theorem pairwise_selectedLines (page : Page) : (selectedLines page).Pairwise (· < ·) :=
  List.pairwise_lt_range.sublist (List.drop_sublist _ _)

theorem start_stop_line (page : Page) :
    page.start.line = min page.cursor.line page.anchor.line ∧
      page.stop.line = max page.cursor.line page.anchor.line := by
  unfold Page.start Page.stop
  rcases Pos.earlier_later page.cursor page.anchor with
    ⟨hOrder, hFirst, hLast⟩ | ⟨hOrder, hFirst, hLast⟩
  all_goals
    rw [hFirst, hLast]
    rw [Pos.upTo_iff] at hOrder
    omega

theorem places_indentLine (tabWidth : Int) (d : Draft) (n : Nat) :
    (indentLine tabWidth d n).page.cursor.line = d.page.cursor.line ∧
      (indentLine tabWidth d n).page.anchor.line = d.page.anchor.line := by
  unfold indentLine
  dsimp only
  split_ifs
  · exact ⟨rfl, rfl⟩
  · obtain ⟨hCursor, hAnchor⟩ :=
      d.places_replace ⟨n, 0⟩ ⟨n, (leading (d.page.lineAt n)).length⟩
        (isRow_spaces (columnIn tabWidth d n))
    rw [hCursor, hAnchor, Pos.line_afterInsert, Pos.line_afterInsert, Pos.line_afterErase,
      Pos.line_afterErase]
    exact ⟨rfl, rfl⟩

theorem places_indentLines (tabWidth : Int) (d : Draft) (ns : List Nat) :
    (indentLines tabWidth d ns).draft.page.cursor.line = d.page.cursor.line ∧
      (indentLines tabWidth d ns).draft.page.anchor.line = d.page.anchor.line := by
  induction ns generalizing d with
  | nil => exact ⟨rfl, rfl⟩
  | cons n ns ih =>
      obtain ⟨hCursor, hAnchor⟩ := places_indentLine tabWidth d n
      rw [indentLines]
      split
      · exact ⟨rfl, rfl⟩
      · exact ⟨(ih _).1.trans hCursor, (ih _).2.trans hAnchor⟩

/-- A command on lines that stand where the decisions about them put them changes none. -/
theorem lines_indentSelection_of_standing
    (h : ∀ k, e.page.start.line ≤ k → k ≤ e.page.stop.line →
      spacesFault? (columnIn e.tabWidth e.draft k) = none ∧
        ∃ line, e.page.lines[k]? = some (spaces (columnIn e.tabWidth e.draft k) ++ body line)) :
    (indentSelection e).draft.page.lines = e.page.lines := by
  unfold indentSelection
  split_ifs with hSelection
  · have hKept := @indentLines_of_standing e.draft e.tabWidth (selectedLines e.page) fun k hk =>
      h k (mem_selectedLines.mp hk).1 (mem_selectedLines.mp hk).2
    rw [indentSelected, hKept]
    rfl
  -- Nothing is selected: the line of the cursor is the first and the last one.
  · obtain ⟨hStart, hStop⟩ := Page.start_stop_of_not_hasSelection hSelection
    have hLine := h e.page.cursor.line (by rw [hStart]) (by rw [hStop])
    have hKept := @indentLines_of_standing e.draft e.tabWidth [e.page.cursor.line] fun k hk => by
      rw [List.mem_singleton.mp hk]
      exact hLine
    simp only [indentCurrent, hKept, Attempt.andThen, Option.isSome_none, Bool.false_eq_true,
      if_false]
    rfl

/-! ### The document as a whole -/

/-- Where every line stands as decided, the document is indented as a whole, blank lines
apart. -/
theorem arrangeAll_of_standing (hWidth : 1 ≤ tabWidth) {old lines : List Text}
    (hBodies : lines.map body = old.map body)
    (h : ∀ k, k < lines.length → spacesFault? (columnAt commentMark tabWidth lines k) = none ∧
      lines[k]? = some (spaces (columnAt commentMark tabWidth lines k) ++ body (old.getD k []))) :
    ∃ formatted, (arrangeAll commentMark tabWidth old).map Prod.fst = .ok formatted ∧
      ∀ k, body (old.getD k []) ≠ [] → lines[k]? = formatted[k]? := by
  have hLength : lines.length = old.length := by simpa using congrArg List.length hBodies
  have hAligned : Aligned commentMark tabWidth 0 lines := by
    refine aligned_of_columnAt hWidth fun i hi => ?_
    obtain ⟨-, hLine⟩ := h i hi
    rw [List.getElem?_eq_getElem hi, Option.some.injEq] at hLine
    rw [hLine, width_spaces_append tabWidth _ (columnAt_nonneg ..)]
  -- The level of a line of the old document is told by the bodies, hence by the new one.
  have hEntry (i : Nat) (hi : i < old.length) : ∃ level : Nat,
      (outline commentMark 0 old)[i]? = some (old[i], level) ∧
        level * tabWidth = columnAt commentMark tabWidth lines i := by
    have hi' : i < lines.length := hLength ▸ hi
    refine ⟨_, getElem?_outline_level hi, ?_⟩
    rw [columnAt_eq_level hWidth hAligned hi']
    have hBody : body lines[i] = body old[i] := by
      have hAt := congrArg (·[i]?) hBodies
      simpa [hi, hi'] using hAt
    have hTake : (lines.take i).map body = (old.take i).map body := by
      rw [List.map_take, List.map_take, hBodies]
    rw [ofLine_eq_of_body_eq markApart_commentMark hBody,
      levelAfterAll_eq_of_body_eq markApart_commentMark hTake]
  have hNoFault : ((outline commentMark 0 old).findSome? fun entry =>
      placeFault? entry.1 (entry.2 * tabWidth)) = none := by
    refine List.findSome?_eq_none_iff.mpr fun entry hMem => ?_
    obtain ⟨i, hi, rfl⟩ := List.mem_iff_getElem.mp hMem
    have hi' : i < old.length := by simpa using hi
    obtain ⟨level, hAt, hColumn⟩ := hEntry i hi'
    rw [List.getElem?_eq_getElem hi, Option.some.injEq] at hAt
    have hRoom := (h i (hLength ▸ hi')).1
    rw [hAt, placeFault?, hColumn, hRoom, ite_self]
  refine ⟨(outline commentMark 0 old).map fun entry => place entry.1 (entry.2 * tabWidth), ?_,
    fun k hBody => ?_⟩
  · rw [arrangeAll_eq_layOut markApart_commentMark hWidth, layOut_eq, hNoFault]
  · have hk : k < old.length := by
      by_contra hBeyond
      have hNone : old.getD k [] = [] := by simp [Nat.le_of_not_lt hBeyond]
      rw [hNone] at hBody
      exact hBody rfl
    obtain ⟨level, hAt, hColumn⟩ := hEntry k hk
    have hLine : old.getD k [] = old[k] := by simp [hk]
    rw [hLine] at hBody
    rw [(h k (hLength ▸ hk)).2, hLine, List.getElem?_map, hAt]
    simp [place, hColumn, hBody]

/-! ### The command -/

/-- How far the command gets with the lines of a selection: some of them are done, and the
first one of the rest has no room. -/
structure Gets (e : Editor) (done rest : List Nat) : Prop where
  split : selectedLines e.page = done ++ rest
  indented : IndentedAt e.tabWidth e.draft done (indentSelection e).draft
  fault_eq : (indentSelection e).fault =
    rest.head?.bind fun k => spacesFault? (columnIn e.tabWidth (indentSelection e).draft k)
  fault_ne : rest ≠ [] → (indentSelection e).fault ≠ none
  onlyIndents : OnlyIndents (· ∈ selectedLines e.page) e.page.lines
    (indentSelection e).draft.page.lines

theorem indentSelection_eq (hSelection : e.page.hasSelection = true) :
    indentSelection e = indentLines e.tabWidth e.draft (selectedLines e.page) := by
  rw [indentSelection, if_pos hSelection]
  rfl

theorem gets_indentSelection (hSelection : e.page.hasSelection = true)
    (hStop : e.page.stop.line < e.page.lines.length) : ∃ done rest, Gets e done rest := by
  have hBound : ∀ n ∈ selectedLines e.page, n < e.draft.page.lines.length := fun n hn =>
    Nat.lt_of_le_of_lt (mem_selectedLines.mp hn).2 hStop
  obtain ⟨done, rest, hSplit, hDone, hFault, hWhy⟩ :=
    @indentLines_indentedAt e.draft e.tabWidth _ (pairwise_selectedLines e.page) hBound
  obtain ⟨edited, hEdited, hEdits⟩ := editsLines_indentLines e.tabWidth hBound
  rw [← indentSelection_eq hSelection] at hDone hFault hWhy hEdits
  exact ⟨done, rest, hSplit, hDone, hFault, hWhy,
    hEdits.onlyIndents.mono fun i hi => hEdited.subset hi⟩

namespace Gets

variable {done rest : List Nat} {k : Nat}

theorem mem_iff (h : Gets e done rest) :
    k ∈ done ++ rest ↔ e.page.start.line ≤ k ∧ k ≤ e.page.stop.line := by
  rw [← h.split, mem_selectedLines]

theorem line_lt (h : Gets e done rest) (hStop : e.page.stop.line < e.page.lines.length)
    (hk : k ≤ e.page.stop.line) : k < (indentSelection e).draft.page.lines.length := by
  rw [h.onlyIndents.length_eq]
  exact Nat.lt_of_le_of_lt hk hStop

theorem fault_eq_none_iff (h : Gets e done rest) :
    (indentSelection e).fault = none ↔ rest = [] := by
  constructor
  · intro hNone
    by_contra hRest
    exact h.fault_ne hRest hNone
  · rintro rfl
    exact h.fault_eq

theorem stands (h : Gets e done rest) (hWidth : 1 ≤ e.tabWidth)
    (hStop : e.page.stop.line < e.page.lines.length) (hk : k ∈ done) :
    Stands e.tabWidth e.page.lines (indentSelection e).draft.page.lines k := by
  have hLe := (h.mem_iff.mp (List.mem_append_left _ hk)).2
  exact (stands_iff hWidth (h.line_lt hStop hLe)).mpr (h.indented.done k hk)

/-- All lines of the selection are done exactly if all of them stand as decided. -/
theorem rest_eq_nil_iff (h : Gets e done rest) (hWidth : 1 ≤ e.tabWidth)
    (hStop : e.page.stop.line < e.page.lines.length) :
    rest = [] ↔ ∀ k, e.page.start.line ≤ k → k ≤ e.page.stop.line →
      Stands e.tabWidth e.page.lines (indentSelection e).draft.page.lines k := by
  constructor
  · rintro rfl k hStart hEnd
    have hk := h.mem_iff.mpr ⟨hStart, hEnd⟩
    rw [List.append_nil] at hk
    exact h.stands hWidth hStop hk
  · intro hAll
    by_contra hRest
    obtain ⟨k, others, rfl⟩ := List.exists_cons_of_ne_nil hRest
    obtain ⟨hStart, hEnd⟩ := h.mem_iff.mp (List.mem_append_right done (List.mem_cons_self ..))
    have hRoom := ((stands_iff hWidth (h.line_lt hStop hEnd)).mp (hAll k hStart hEnd)).1
    exact h.fault_ne hRest (h.fault_eq.trans hRoom)

/-- The same lines indented once more, in the page that the command led to. -/
theorem lines_again (h : Gets e done []) {again : Editor} (hTab : again.tabWidth = e.tabWidth)
    (hLines : again.page.lines = (indentSelection e).draft.page.lines)
    (hStart : again.page.start.line = e.page.start.line)
    (hStop : again.page.stop.line = e.page.stop.line) :
    (indentSelection again).draft.page.lines = again.page.lines := by
  refine lines_indentSelection_of_standing fun k hFirst hLast => ?_
  rw [hStart] at hFirst
  rw [hStop] at hLast
  have hk := h.mem_iff.mpr ⟨hFirst, hLast⟩
  rw [List.append_nil] at hk
  obtain ⟨hRoom, hLine⟩ := h.indented.done k hk
  rw [columnIn, ← hLines, ← hTab] at hRoom hLine
  exact ⟨hRoom, _, hLine⟩

/-- All lines of the page are selected. -/
theorem arrangeAll_whole (h : Gets e done []) (hWidth : 1 ≤ e.tabWidth)
    (hStart : e.page.start.line = 0) (hStop : e.page.stop.line + 1 = e.page.lines.length) :
    ∃ formatted, (arrangeAll commentMark e.tabWidth e.page.lines).map Prod.fst = .ok formatted ∧
      ∀ k, body (e.page.lines.getD k []) ≠ [] →
        (indentSelection e).draft.page.lines[k]? = formatted[k]? := by
  refine arrangeAll_of_standing hWidth h.onlyIndents.bodies fun k hk => ?_
  rw [h.onlyIndents.length_eq] at hk
  have hDone := h.mem_iff.mpr (show e.page.start.line ≤ k ∧ k ≤ e.page.stop.line by omega)
  rw [List.append_nil] at hDone
  exact h.indented.done k hDone

/-- The command stops at a line without room: the lines before it are done, and those from
it on are as they were. -/
theorem broken (h : Gets e done rest) (hWidth : 1 ≤ e.tabWidth)
    (hStop : e.page.stop.line < e.page.lines.length) {why : Indent.Fault}
    (hBroken : (indentSelection e).fault = some why) :
    ∃ k, e.page.start.line ≤ k ∧ k ≤ e.page.stop.line ∧
      ((resolve commentMark e.tabWidth (indentSelection e).draft.page.lines k).bind
        fun decision => makeSpaces (columnOf decision)) = .error why ∧
      (∀ j, e.page.start.line ≤ j → j < k →
        Stands e.tabWidth e.page.lines (indentSelection e).draft.page.lines j) ∧
      ∀ j, k ≤ j → (indentSelection e).draft.page.lines[j]? = e.page.lines[j]? := by
  have hRest : rest ≠ [] := by
    intro hNil
    rw [h.fault_eq_none_iff.mpr hNil] at hBroken
    cases hBroken
  obtain ⟨k, others, rfl⟩ := List.exists_cons_of_ne_nil hRest
  obtain ⟨hStart, hEnd⟩ := h.mem_iff.mp (List.mem_append_right done (List.mem_cons_self ..))
  have hColumn : spacesFault? (columnIn e.tabWidth (indentSelection e).draft k) = some why :=
    h.fault_eq.symm.trans hBroken
  have hOrder := pairwise_selectedLines e.page
  rw [h.split, List.pairwise_append] at hOrder
  obtain ⟨-, hBehind, hAcross⟩ := hOrder
  refine ⟨k, hStart, hEnd, ?_, fun j hFirst hj => ?_, fun j hj => ?_⟩
  · rw [resolve_eq_ok hWidth (h.line_lt hStop hEnd)]
    change makeSpaces (columnIn e.tabWidth (indentSelection e).draft k) = _
    rw [makeSpaces, hColumn]
  · refine h.stands hWidth hStop ?_
    rcases List.mem_append.mp (h.mem_iff.mpr ⟨hFirst, by omega⟩) with hBefore | hFrom
    · exact hBefore
    · rcases List.mem_cons.mp hFrom with rfl | hLater
      · exact absurd hj (Nat.lt_irrefl j)
      · have hAfter := (List.pairwise_cons.mp hBehind).1 j hLater
        omega
  · refine h.indented.others j fun hBefore => ?_
    have hEarlier := hAcross j hBefore k (List.mem_cons_self ..)
    omega

end Gets

/-- The selection stays on its lines. -/
theorem lines_of_selection (hSelection : e.page.hasSelection = true) :
    (indentSelection e).draft.page.start.line = e.page.start.line ∧
      (indentSelection e).draft.page.stop.line = e.page.stop.line := by
  obtain ⟨hCursor, hAnchor⟩ := places_indentLines e.tabWidth e.draft (selectedLines e.page)
  rw [← indentSelection_eq hSelection] at hCursor hAnchor
  obtain ⟨hStart, hStop⟩ := start_stop_line e.page
  obtain ⟨hStart', hStop'⟩ := start_stop_line (indentSelection e).draft.page
  rw [hStart', hStop', hCursor, hAnchor, hStart, hStop]
  exact ⟨rfl, rfl⟩

/-- Indenting the lines of a selection agrees with the decisions about the page that it
leads to, unless there is no room for a line, at which the command stops. Then it changes
nothing when it is repeated, and if all lines are selected, it indents them as if they were
indented as a whole, blank lines apart. -/
theorem indentSelection_agrees (hWidth : 1 ≤ e.tabWidth) (hSelection : e.page.hasSelection = true)
    (hStop : e.page.stop.line < e.page.lines.length) :
    let next := (e.run .indentSelection).1
    let fault := (e.run .indentSelection).2.fault
    (fault = none ↔ ∀ k, e.page.start.line ≤ k → k ≤ e.page.stop.line →
      Stands e.tabWidth e.page.lines next.page.lines k) ∧
    (fault = none → next.page.start.line = e.page.start.line ∧
      next.page.stop.line = e.page.stop.line ∧
      (∀ again : Editor, again.tabWidth = e.tabWidth → again.page.lines = next.page.lines →
        again.page.start.line = e.page.start.line → again.page.stop.line = e.page.stop.line →
          (again.run .indentSelection).1.page.lines = next.page.lines) ∧
      (e.page.start.line = 0 → e.page.stop.line + 1 = e.page.lines.length →
        ∃ formatted, (arrangeAll commentMark e.tabWidth e.page.lines).map Prod.fst = .ok formatted ∧
          ∀ k, body (e.page.lines.getD k []) ≠ [] → next.page.lines[k]? = formatted[k]?)) ∧
    (∀ reason, fault = some reason → ∃ k why, e.page.start.line ≤ k ∧ k ≤ e.page.stop.line ∧
      reason = .indent why ∧
      ((resolve commentMark e.tabWidth next.page.lines k).bind fun decision =>
        makeSpaces (columnOf decision)) = .error why ∧
      (∀ j, e.page.start.line ≤ j → j < k →
        Stands e.tabWidth e.page.lines next.page.lines j) ∧
      ∀ j, k ≤ j → next.page.lines[j]? = e.page.lines[j]?) := by
  intro next fault
  have hPage : next.page = (indentSelection e).draft.page := page_finishAttempt e _
  have hReason : fault = (indentSelection e).fault.map .indent := fault_finishAttempt e _
  obtain ⟨done, rest, hGets⟩ := gets_indentSelection hSelection hStop
  have hNone : fault = none ↔ rest = [] := by
    rw [hReason, Option.map_eq_none_iff, hGets.fault_eq_none_iff]
  obtain ⟨hFirst, hLast⟩ := lines_of_selection hSelection
  rw [hPage, hNone]
  refine ⟨hGets.rest_eq_nil_iff hWidth hStop, ?_, fun reason hSome => ?_⟩
  · rintro rfl
    refine ⟨hFirst, hLast, fun again hTab hLines hStart hEnd => ?_,
      hGets.arrangeAll_whole hWidth⟩
    have hAgain : (again.run .indentSelection).1.page = (indentSelection again).draft.page :=
      page_finishAttempt again _
    rw [hAgain, ← hLines]
    exact hGets.lines_again hTab hLines hStart hEnd
  · rw [hReason, Option.map_eq_some_iff] at hSome
    obtain ⟨why, hBroken, rfl⟩ := hSome
    obtain ⟨k, hStart, hEnd, hLine⟩ := hGets.broken hWidth hStop hBroken
    exact ⟨k, why, hStart, hEnd, rfl, hLine⟩

theorem indentSelection_agrees_whole :
    ∃ e : Editor, 1 ≤ e.tabWidth ∧ e.page.hasSelection = true ∧
      e.page.stop.line < e.page.lines.length ∧
      e.page.lines = ["\tloop".toList, "x # 😀".toList, "\t".toList, "end".toList, "end".toList] ∧
      (e.run .indentSelection).1.page.lines =
        ["loop".toList, "    x # 😀".toList, "    ".toList, "end".toList, "end".toList] ∧
      (∀ k ≤ 4, Stands 4 e.page.lines (e.run .indentSelection).1.page.lines k) ∧
      ∃ formatted, (arrangeAll commentMark 4 e.page.lines).map Prod.fst = .ok formatted ∧
        (e.run .indentSelection).1.page.lines[1]? = formatted[1]? := by
  let e := (((new .dark 4).run (.load "\tloop\nx # 😀\n\t\nend\nend".toList)).1.run .selectAll).1
  have hWidth : 1 ≤ e.tabWidth := by decide +kernel
  have hSelection : e.page.hasSelection = true := by decide +kernel
  have hStop : e.page.stop.line < e.page.lines.length := by decide +kernel
  have hNone : (e.run .indentSelection).2.fault = none := by decide +kernel
  obtain ⟨hStands, hDone, -⟩ := indentSelection_agrees hWidth hSelection hStop
  obtain ⟨-, -, -, hWhole⟩ := hDone hNone
  obtain ⟨formatted, hFormatted, hSame⟩ := hWhole (by decide +kernel) (by decide +kernel)
  exact ⟨e, hWidth, hSelection, hStop, by decide +kernel, by decide +kernel,
    fun k hk => hStands.mp hNone k (Nat.zero_le k) hk, formatted, hFormatted,
    hSame 1 (by decide +kernel)⟩

/-- With a tab width that cannot be counted, a line inside of a block is not indented: the
command stops there. -/
theorem indentSelection_stops :
    ∃ e : Editor, 1 ≤ e.tabWidth ∧ e.page.hasSelection = true ∧
      e.page.lines = ["loop".toList, ['x']] ∧ e.page.start.line = 0 ∧ e.page.stop.line = 1 ∧
      (e.run .indentSelection).2.fault = some (.indent .uncountable) ∧
      ¬ Stands e.tabWidth e.page.lines (e.run .indentSelection).1.page.lines 1 := by
  let e := (((new .dark 9223372036854775808).run (.load "loop\nx".toList)).1.run .selectAll).1
  have hWidth : 1 ≤ e.tabWidth := by decide +kernel
  refine ⟨e, hWidth, by decide +kernel, by decide +kernel, by decide +kernel, by decide +kernel,
    by decide +kernel, ?_⟩
  rw [stands_iff hWidth (by decide +kernel)]
  rintro ⟨hRoom, -⟩
  revert hRoom
  decide +kernel

end ScriptEditor.Editor
