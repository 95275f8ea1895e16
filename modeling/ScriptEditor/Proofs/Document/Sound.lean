import Mathlib.Data.List.Flatten
import ScriptEditor.Proofs.Document.Places

/-! Pages that can come about. Whatever is edited between places of the page, cursor and
anchor stay places of the page and no line holds a line end. -/
namespace ScriptEditor.Document

open ScriptEditor.Text (isLineEnd)

namespace Page

variable {page : Page} {a b : Pos}

/-- A page as every one is that can come about: cursor and anchor are places of it, and no
line holds a line end. -/
structure Sound (page : Page) : Prop where
  rows : ∀ c ∈ page.lines.flatten, isLineEnd c = false
  cursor : page.Holds page.cursor
  anchor : page.Holds page.anchor

theorem Sound.lines_pos (h : page.Sound) : 0 < page.lines.length :=
  Nat.zero_lt_of_lt h.cursor.1

theorem sound_ofText (t : Text) : (ofText t).Sound := by
  have hLines : 0 < (linesOf t).length := List.length_pos_iff.mpr (linesOf_ne_nil t)
  have hOrigin : (ofText t).Holds .origin := ⟨hLines, Nat.zero_le _⟩
  exact ⟨fun _ => not_isLineEnd_of_mem_linesOf, hOrigin, hOrigin⟩

theorem not_isLineEnd_of_mem_lineAt (h : page.Sound) (n : Nat) :
    ∀ c ∈ page.lineAt n, isLineEnd c = false := by
  intro c hc
  refine h.rows c ?_
  rw [← List.take_append_drop n page.lines, List.flatten_append, flatten_drop]
  exact List.mem_append_right _ (List.mem_append_left _ hc)

theorem not_isLineEnd_of_mem_seam (h : page.Sound) (a b : Pos) :
    ∀ c ∈ page.seam a b, isLineEnd c = false := by
  intro c hc
  refine Utf16.not_isLineEnd_of_mem_toText (t := page.lineAt a.line ++ page.lineAt b.line) ?_ ?_ hc
  · rw [Utf16.ofText_append]
    refine List.append_subset.mpr ⟨fun u hu => ?_, fun u hu => ?_⟩
    · exact List.mem_append_left _ (List.mem_of_mem_take hu)
    · exact List.mem_append_right _ (List.mem_of_mem_drop hu)
  · intro x hx
    rcases List.mem_append.mp hx with hFront | hBack
    · exact not_isLineEnd_of_mem_lineAt h _ x hFront
    · exact not_isLineEnd_of_mem_lineAt h _ x hBack

theorem Sound.erase (h : page.Sound) (ha : page.Holds a) (hb : page.Holds b)
    (hOrder : a.upTo b = true) : (page.erase a b).Sound := by
  refine ⟨fun c hc => ?_, h.cursor.afterErase ha hb hOrder, h.anchor.afterErase ha hb hOrder⟩
  change c ∈ (page.lines.take a.line ++ page.seam a b :: page.lines.drop (b.line + 1)).flatten at hc
  rw [List.flatten_append, List.flatten_cons, List.mem_append, List.mem_append] at hc
  rcases hc with hAbove | hSeam | hBelow
  · exact h.rows c ((List.take_sublist _ _).flatten.subset hAbove)
  · exact not_isLineEnd_of_mem_seam h a b c hSeam
  · exact h.rows c ((List.drop_sublist _ _).flatten.subset hBelow)

theorem Sound.insert (h : page.Sound) (ha : page.Holds a) {rows : List Text} (hRows : rows ≠ [])
    (hUnbroken : ∀ c ∈ rows.flatten, isLineEnd c = false) (stamp : Nat) :
    (page.insert a rows stamp).Sound := by
  refine ⟨fun c hc => ?_, h.cursor.afterInsert ha hRows stamp, h.anchor.afterInsert ha hRows stamp⟩
  have hWhole : ∀ x, x ∈ page.textBefore a ∨ x ∈ page.textBehind a → isLineEnd x = false := by
    intro x hx
    refine h.rows x ?_
    rw [← page.textBefore_append_textBehind a]
    exact List.mem_append.mpr hx
  rw [flatten_insert, List.mem_append, List.mem_append] at hc
  rcases hc with (hFront | hNew) | hBack
  · exact hWhole c (Or.inl hFront)
  · exact hUnbroken c hNew
  · exact hWhole c (Or.inr hBack)

theorem Sound.select (h : page.Sound) {cursor anchor : Pos} (hCursor : page.Holds cursor)
    (hAnchor : page.Holds anchor) : ({ page with cursor, anchor } : Page).Sound :=
  ⟨h.rows, hCursor, hAnchor⟩

/-- The two ends of the selection are places of the page, in their order. -/
theorem Sound.selection (h : page.Sound) :
    page.start.upTo page.stop = true ∧ page.Holds page.start ∧ page.Holds page.stop :=
  earlier_later_of h.cursor h.anchor

end Page

namespace Draft

variable {d : Draft} {a b : Pos}

/-- A draft that comes about from another one. Lines change only by an edit, of which
note is taken, and the page of the new draft can come about if that of the old one can. -/
structure Leads (d next : Draft) : Prop where
  noted : next.edited = false → d.edited = false ∧ next.page.lines = d.page.lines
  sound : d.page.Sound → next.page.Sound

@[simp] theorem edited_erase (d : Draft) (a b : Pos) :
    (d.erase a b).edited = (d.edited || decide (a ≠ b)) := by
  unfold Draft.erase
  split_ifs with hSame <;> simp [hSame]

@[simp] theorem edited_insert (d : Draft) (a : Pos) (t : Text) :
    (d.insert a t).edited = (d.edited || !t.isEmpty) := by
  unfold Draft.insert
  dsimp only
  split_ifs with hEmpty <;> simp [hEmpty]

@[simp] theorem edited_replace (d : Draft) (a b : Pos) (t : Text) :
    (d.replace a b t).edited = (d.edited || decide (a ≠ b) || !t.isEmpty) := by
  rw [replace, edited_insert, edited_erase]

/-- The place where text was taken out is still there. -/
theorem holds_erase (ha : d.page.Holds a) (hb : d.page.Holds b) (hOrder : a.upTo b = true) :
    (d.erase a b).page.Holds a := by
  unfold Draft.erase
  split_ifs
  · exact ha
  · have hPlace := ha.afterErase ha hb hOrder
    rwa [(Pos.afterErase_ends hOrder).1] at hPlace

namespace Leads

theorem refl (d : Draft) : d.Leads d :=
  ⟨fun h => ⟨h, rfl⟩, fun h => h⟩

theorem trans {d mid next : Draft} (first : d.Leads mid) (last : mid.Leads next) :
    d.Leads next := by
  refine ⟨fun hEdited => ?_, fun hSound => last.sound (first.sound hSound)⟩
  obtain ⟨hMid, hNext⟩ := last.noted hEdited
  obtain ⟨hFirst, hLines⟩ := first.noted hMid
  exact ⟨hFirst, hNext.trans hLines⟩

theorem erase (ha : d.page.Holds a) (hb : d.page.Holds b) (hOrder : a.upTo b = true) :
    d.Leads (d.erase a b) := by
  unfold Draft.erase
  split_ifs
  · exact refl d
  · exact ⟨fun hEdited => by simp at hEdited, fun hSound => hSound.erase ha hb hOrder⟩

theorem insert (ha : d.page.Holds a) (t : Text) : d.Leads (d.insert a t) := by
  unfold Draft.insert
  dsimp only
  split_ifs
  · exact refl d
  · refine ⟨fun hEdited => by simp at hEdited, fun hSound => ?_⟩
    exact hSound.insert ha (linesOf_ne_nil t) (fun _ => not_isLineEnd_of_mem_linesOf) _

theorem replace (ha : d.page.Holds a) (hb : d.page.Holds b) (hOrder : a.upTo b = true)
    (t : Text) : d.Leads (d.replace a b t) :=
  (erase ha hb hOrder).trans (insert (holds_erase ha hb hOrder) t)

/-- Text that takes the place of what a line begins with. -/
theorem replace_front {n : Nat} {front : Text} (hn : n < d.page.lines.length)
    (hFront : front <+: d.page.lineAt n) (t : Text) :
    d.Leads (d.replace ⟨n, 0⟩ ⟨n, Text.units front⟩ t) := by
  have hStart : d.page.Holds ⟨n, 0⟩ := ⟨hn, Nat.zero_le _⟩
  have hStop : d.page.Holds ⟨n, Text.units front⟩ := (Page.isPlace_of_begins hn hFront).holds
  exact replace hStart hStop (Pos.upTo_iff.mpr (Or.inr ⟨rfl, Nat.zero_le _⟩)) t

theorem eraseSelection (hSound : d.page.Sound) : d.Leads d.eraseSelection := by
  obtain ⟨hOrder, hStart, hStop⟩ := hSound.selection
  unfold Draft.eraseSelection
  dsimp only
  split_ifs
  · exact ⟨fun hEdited => by simp at hEdited, fun _ => hSound.erase hStart hStop hOrder⟩
  · exact refl d

theorem replaceSelection (hSound : d.page.Sound) (t : Text) : d.Leads (d.replaceSelection t) :=
  (eraseSelection hSound).trans (insert ((eraseSelection hSound).sound hSound).cursor t)

theorem select {cursor anchor : Pos} (hCursor : d.page.Holds cursor)
    (hAnchor : d.page.Holds anchor) : d.Leads (d.select cursor anchor) :=
  ⟨fun hEdited => ⟨hEdited, rfl⟩, fun hSound => hSound.select hCursor hAnchor⟩

end Leads

end Draft

end ScriptEditor.Document
