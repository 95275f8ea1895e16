import ScriptEditor.Proofs.Document.Content

/-! A text that takes the place of a whole page. Lines that are joined come back as they
were, except for a byte order mark before text with wide characters, which is lost on the
way. -/
namespace ScriptEditor.Document

open ScriptEditor.Text (units isLineEnd splitLines joinLines withoutMark hasWide byteOrderMark)

theorem splitLines_append_lineFeed {line : Text} (hLine : ∀ c ∈ line, isLineEnd c = false)
    (rest : Text) : splitLines (line ++ '\n' :: rest) = line :: splitLines rest := by
  induction line with
  | nil =>
      have hEnd : isLineEnd '\n' = true := by decide
      simp [splitLines, hEnd]
  | cons c line ih =>
      have hFirst : isLineEnd c = false := hLine c (List.mem_cons_self ..)
      have hRest := ih fun x hx => hLine x (List.mem_cons_of_mem _ hx)
      have hReturn : c ≠ '\r' := by
        rintro rfl
        exact absurd hFirst (by decide)
      rw [List.cons_append, splitLines]
      · simp [hFirst, hRest]
      · intro t hEq
        exact absurd hEq.symm (by simpa using fun h => absurd h.symm hReturn)

theorem splitLines_joinLines {lines : List Text} (hLines : lines ≠ [])
    (h : ∀ c ∈ lines.flatten, isLineEnd c = false) : splitLines (joinLines lines) = lines := by
  fun_induction joinLines lines with
  | case1 => contradiction
  | case2 line => exact splitLines_of_not_isLineEnd (by simpa using h)
  | case3 line rest hRest ih =>
      have hFirst : ∀ c ∈ line, isLineEnd c = false := fun c hc => h c (by simp [hc])
      have hOthers : ∀ c ∈ rest.flatten, isLineEnd c = false := fun c hc =>
        h c (List.mem_append_right _ hc)
      rw [splitLines_append_lineFeed hFirst, ih hRest hOthers]

theorem hasWide_joinLines (lines : List Text) : hasWide (joinLines lines) = lines.any hasWide := by
  fun_induction joinLines lines with
  | case1 => rfl
  | case2 line => simp
  | case3 line rest hRest ih =>
      have hNarrow : (Text.unitWidth '\n' == 2) = false := by decide
      rw [List.any_cons, ← ih]
      simp [hasWide, hNarrow]

/-- Whether lines lose a byte order mark when they are put in as one text. -/
def LosesMark (lines : List Text) : Prop :=
  (lines.headD []).head? = some byteOrderMark ∧ lines.any hasWide = true

instance (lines : List Text) : Decidable (LosesMark lines) :=
  inferInstanceAs (Decidable (_ ∧ _))

theorem head?_joinLines (first : Text) (rest : List Text) :
    (joinLines (first :: rest)).head? = some byteOrderMark ↔ first.head? = some byteOrderMark := by
  have hFeed : '\n' ≠ byteOrderMark := by decide
  cases first with
  | nil => cases rest <;> simp [joinLines, hFeed]
  | cons c first => cases rest <;> simp [joinLines]

theorem tail_joinLines {first : Text} (hFirst : first ≠ []) (rest : List Text) :
    (joinLines (first :: rest)).tail = joinLines (first.tail :: rest) := by
  obtain ⟨c, others, rfl⟩ := List.exists_cons_of_ne_nil hFirst
  cases rest <;> rfl

/-- The lines that joined lines become in a page. -/
theorem linesOf_joinLines {lines : List Text} (hLines : lines ≠ [])
    (h : ∀ c ∈ lines.flatten, isLineEnd c = false) :
    linesOf (joinLines lines) = if LosesMark lines then lines.modifyHead List.tail else lines := by
  obtain ⟨first, rest, rfl⟩ := List.exists_cons_of_ne_nil hLines
  have hMark : ((joinLines (first :: rest)).head? == some byteOrderMark &&
      hasWide (joinLines (first :: rest))) = true ↔ LosesMark (first :: rest) := by
    rw [Bool.and_eq_true, beq_iff_eq, head?_joinLines, hasWide_joinLines]
    rfl
  rw [linesOf, withoutMark]
  simp only [hMark]
  split_ifs with hLost
  · have hFirst : first ≠ [] := by
      rintro rfl
      simp [LosesMark] at hLost
    rw [tail_joinLines hFirst, List.modifyHead_cons, splitLines_joinLines (List.cons_ne_nil _ _)]
    intro c hc
    refine h c ?_
    rw [List.flatten_cons] at hc ⊢
    rcases List.mem_append.mp hc with hTail | hRest
    · exact List.mem_append_left _ (List.mem_of_mem_tail hTail)
    · exact List.mem_append_right _ hRest
  · exact splitLines_joinLines hLines h

theorem Rows.weave_nil {α : Type} {rows : List (List α)} (hRows : rows ≠ []) :
    weave [] rows [] = rows := by
  induction rows with
  | nil => contradiction
  | cons row rest ih =>
      cases rest with
      | nil => simp [weave]
      | cons next others => simp [weave, ih (List.cons_ne_nil next others)]

variable {page : Page} {d : Draft}

theorem lines_erase_whole (hLines : page.lines ≠ []) :
    (page.erase .origin page.finish).lines = [[]] := by
  have hPos : 0 < page.lines.length := List.length_pos_iff.mpr hLines
  have hSeam : page.seam .origin page.finish = [] :=
    @Page.seam_units page _ _ [] _ _ [] rfl (List.append_nil _).symm
  have hEnd : page.lines.length - 1 + 1 = page.lines.length := by omega
  simp only [Page.erase, hSeam]
  simp [Page.finish, Pos.origin, hEnd]

/-- Putting in a text for the whole page leaves the lines of that text. -/
theorem lines_replace_whole (hLines : d.page.lines ≠ []) (t : Text) :
    (d.replace .origin d.page.finish t).page.lines = linesOf t := by
  have hErased : (d.erase .origin d.page.finish).page.lines = [[]] := by
    unfold Draft.erase
    split_ifs with hSame
    · have hCount : d.page.lines.length - 1 = 0 := (congrArg Pos.line hSame).symm
      have hColumn : units (d.page.lineAt (d.page.lines.length - 1)) = 0 :=
        (congrArg Pos.column hSame).symm
      obtain ⟨first, others, hEq⟩ := List.exists_cons_of_ne_nil hLines
      have hOthers : others = [] := by simpa [hEq] using hCount
      have hFirst : first = [] := by
        rw [hCount, units_eq_zero_iff] at hColumn
        simpa [Page.lineAt, hEq] using hColumn
      rw [hEq, hOthers, hFirst]
    · exact lines_erase_whole hLines
  unfold Draft.replace Draft.insert
  dsimp only
  split_ifs with hEmpty
  · rw [hErased, List.isEmpty_iff.mp hEmpty]
    rfl
  · simp only [Page.insert, Rows.graft, hErased]
    simp [Pos.origin, Rows.weave_nil (linesOf_ne_nil t)]

end ScriptEditor.Document
