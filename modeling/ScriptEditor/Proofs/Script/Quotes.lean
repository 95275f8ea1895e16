import Mathlib.Data.List.Basic
import Mathlib.Tactic.Common
import ScriptEditor.Script.Role

/-! Strings and the comment of a line. Every line falls into characters outside of strings,
strings, and perhaps a string without a second quote at its end, in exactly one way. The
comment begins at the first mark outside of strings, and what it says plays no role. -/
namespace ScriptEditor.Script

/-- A piece of a line whose quotes are paired from left to right: a character outside of
strings, or a string between two quotes of one kind. -/
inductive Piece where
  | bare (c : Char) (outside : isQuote c = false)
  | quoted (q : Char) (inside : Text) (opens : isQuote q = true) (unclosed : q ∉ inside)

def Piece.text : Piece → Text
  | .bare c _ => [c]
  | .quoted q inside _ _ => q :: (inside ++ [q])

/-- A string without a second quote. -/
structure OpenString where
  quote : Char
  inside : Text
  opens : isQuote quote = true
  unclosed : quote ∉ inside

def OpenString.text (s : OpenString) : Text :=
  s.quote :: s.inside

/-- A line with its quotes paired from left to right. A quote without a partner begins a
string that runs to the end of the line. -/
structure Pairing where
  pieces : List Piece
  last : Option OpenString

namespace Pairing

/-- The text of pieces one after another. -/
def textOf (pieces : List Piece) : Text :=
  pieces.flatMap Piece.text

/-- The characters of pieces that are outside of strings. -/
def outsideOf (pieces : List Piece) : Text :=
  pieces.flatMap fun
    | .bare c _ => [c]
    | .quoted .. => []

/-- The line that was paired. -/
def text (pairing : Pairing) : Text :=
  textOf pairing.pieces ++ (pairing.last.map OpenString.text).getD []

/-- The characters of the line that are outside of strings. -/
def outside (pairing : Pairing) : Text :=
  outsideOf pairing.pieces

@[simp] theorem textOf_cons (piece : Piece) (pieces : List Piece) :
    textOf (piece :: pieces) = piece.text ++ textOf pieces := rfl

@[simp] theorem textOf_append (front back : List Piece) :
    textOf (front ++ back) = textOf front ++ textOf back :=
  List.flatMap_append

theorem outsideOf_cons (piece : Piece) (pieces : List Piece) :
    outsideOf (piece :: pieces) = outsideOf [piece] ++ outsideOf pieces := by
  simp [outsideOf]

@[simp] theorem outsideOf_bare (c : Char) (h : isQuote c = false) (pieces : List Piece) :
    outsideOf (.bare c h :: pieces) = c :: outsideOf pieces := rfl

/-! ### Existence and uniqueness -/

/-- The line that has one more piece in front of the others. -/
def cons (piece : Piece) (pairing : Pairing) : Pairing :=
  ⟨piece :: pairing.pieces, pairing.last⟩

@[simp] theorem text_cons (piece : Piece) (pairing : Pairing) :
    (cons piece pairing).text = piece.text ++ pairing.text := by
  simp [cons, text]

theorem exists_text (line : Text) : ∃ pairing : Pairing, pairing.text = line := by
  -- A string is passed as a whole, so the rest is shorter by any number of characters.
  induction hLength : line.length using Nat.strongRecOn generalizing line with
  | ind length ih =>
      cases line with
      | nil => exact ⟨⟨[], none⟩, rfl⟩
      | cons c line =>
          subst hLength
          cases hQuote : isQuote c with
          | false =>
              obtain ⟨pairing, hText⟩ := ih line.length (Nat.lt_succ_self _) line rfl
              exact ⟨cons (.bare c hQuote) pairing, by simp [Piece.text, hText]⟩
          | true =>
              by_cases hPartner : c ∈ line
              · obtain ⟨inside, rest, rfl, hInside⟩ := List.eq_append_cons_of_mem hPartner
                have hShorter : rest.length < (c :: (inside ++ c :: rest)).length := by
                  simp only [List.length_cons, List.length_append]
                  omega
                obtain ⟨pairing, hText⟩ := ih rest.length hShorter rest rfl
                exact ⟨cons (.quoted c inside hQuote hInside) pairing, by simp [Piece.text, hText]⟩
              · exact ⟨⟨[], some ⟨c, line, hQuote, hPartner⟩⟩, rfl⟩

/-- A string ends at the first quote of its kind. -/
theorem inside_unique {q : Char} {inside inside' rest rest' : Text} (hInside : q ∉ inside)
    (hInside' : q ∉ inside') (h : inside ++ q :: rest = inside' ++ q :: rest') :
    inside = inside' ∧ rest = rest' := by
  have hTake {s t : Text} (hs : q ∉ s) : (s ++ q :: t).takeWhile (· != q) = s := by
    have hAll : ∀ c ∈ s, (c != q) = true := fun c hc => bne_iff_ne.mpr fun hSame => hs (hSame ▸ hc)
    rw [List.takeWhile_append_of_pos hAll]
    simp
  have hSame : inside = inside' := by
    rw [← hTake hInside, h, hTake hInside']
  subst hSame
  exact ⟨rfl, (List.cons.inj (List.append_cancel_left h)).2⟩

theorem text_of_pieces_nil (last : Option OpenString) :
    text ⟨[], last⟩ = (last.map OpenString.text).getD [] := rfl

/-- A line with a piece in front is no line that has an open string only. -/
theorem text_cons_ne_open (piece : Piece) (pairing : Pairing) (last : Option OpenString) :
    (cons piece pairing).text ≠ text ⟨[], last⟩ := by
  rw [text_cons, text_of_pieces_nil]
  intro hSame
  cases last with
  | none => cases piece <;> simp [Piece.text] at hSame
  | some s =>
      cases piece with
      | bare c hOutside =>
          have hFirst : c = s.quote := (List.cons.inj hSame).1
          rw [hFirst, s.opens] at hOutside
          cases hOutside
      | quoted q inside hOpens hInside =>
          obtain ⟨hFirst, hRest⟩ := List.cons.inj hSame
          refine s.unclosed (hRest ▸ ?_)
          rw [← hFirst]
          simp

theorem text_cons_inj {piece piece' : Piece} {pairing pairing' : Pairing}
    (h : (cons piece pairing).text = (cons piece' pairing').text) :
    piece = piece' ∧ pairing.text = pairing'.text := by
  rw [text_cons, text_cons] at h
  cases piece with
  | bare c hOutside =>
      cases piece' with
      | bare c' hOutside' =>
          obtain ⟨rfl, hRest⟩ := List.cons.inj h
          exact ⟨rfl, hRest⟩
      | quoted q' inside' hOpens' hInside' =>
          obtain ⟨rfl, -⟩ := List.cons.inj h
          rw [hOpens'] at hOutside
          cases hOutside
  | quoted q inside hOpens hInside =>
      cases piece' with
      | bare c' hOutside' =>
          obtain ⟨rfl, -⟩ := List.cons.inj h
          rw [hOpens] at hOutside'
          cases hOutside'
      | quoted q' inside' hOpens' hInside' =>
          obtain ⟨rfl, hRest⟩ := List.cons.inj h
          have hSplit : inside ++ q :: pairing.text = inside' ++ q :: pairing'.text := by
            simpa using hRest
          obtain ⟨rfl, hText⟩ := inside_unique hInside hInside' hSplit
          exact ⟨rfl, hText⟩

theorem text_injective {pairing pairing' : Pairing} (h : pairing.text = pairing'.text) :
    pairing = pairing' := by
  obtain ⟨pieces, last⟩ := pairing
  induction pieces generalizing pairing' with
  | nil =>
      obtain ⟨pieces', last'⟩ := pairing'
      cases pieces' with
      | nil =>
          rw [text_of_pieces_nil, text_of_pieces_nil] at h
          obtain _ | ⟨q, inside, hOpens, hInside⟩ := last <;>
            obtain _ | ⟨q', inside', hOpens', hInside'⟩ := last'
          · rfl
          · simp [OpenString.text] at h
          · simp [OpenString.text] at h
          · obtain ⟨rfl, rfl⟩ := List.cons.inj h
            rfl
      | cons piece' pieces' => exact absurd h.symm (text_cons_ne_open piece' ⟨pieces', last'⟩ last)
  | cons piece pieces ih =>
      obtain ⟨pieces', last'⟩ := pairing'
      cases pieces' with
      | nil => exact absurd h (text_cons_ne_open piece ⟨pieces, last⟩ last')
      | cons piece' pieces' =>
          have hParts := @text_cons_inj piece piece' ⟨pieces, last⟩ ⟨pieces', last'⟩ h
          obtain ⟨rfl, hRest⟩ := hParts
          have hSame := @ih ⟨pieces', last'⟩ hRest
          cases hSame
          rfl

/-- No quote is outside of strings. -/
theorem isQuote_of_mem_outside {pairing : Pairing} {c : Char} (h : c ∈ pairing.outside) :
    isQuote c = false := by
  obtain ⟨piece, -, hc⟩ := List.mem_flatMap.mp h
  cases piece with
  | bare x hOutside =>
      rw [List.mem_singleton.mp hc]
      exact hOutside
  | quoted q inside hOpens hInside => cases hc

/-- The first of the pieces that is a given character outside of strings. -/
theorem exists_first_outside {c : Char} {pieces : List Piece} (h : c ∈ outsideOf pieces) :
    ∃ front back hOutside, pieces = front ++ .bare c hOutside :: back ∧ c ∉ outsideOf front := by
  induction pieces with
  | nil => cases h
  | cons piece pieces ih =>
      by_cases hFirst : c ∈ outsideOf [piece]
      · cases piece with
        | bare x hOutside =>
            obtain rfl : c = x := List.mem_singleton.mp hFirst
            exact ⟨[], pieces, hOutside, rfl, List.not_mem_nil⟩
        | quoted q inside hOpens hInside => cases hFirst
      · rw [outsideOf_cons, List.mem_append] at h
        obtain ⟨front, back, hOutside, rfl, hFront⟩ := ih (h.resolve_left hFirst)
        refine ⟨piece :: front, back, hOutside, rfl, ?_⟩
        rw [outsideOf_cons, List.mem_append, not_or]
        exact ⟨hFirst, hFront⟩

end Pairing

/-! ### Reading piece by piece -/

variable {mark : Text} {q : Char} {inside : Text}

theorem codeFrom_begins (mark : Text) (quote : Option Char) (line : Text) :
    codeFrom mark quote line <+: line := by
  fun_induction codeFrom mark quote line with
  | case1 => exact List.nil_prefix
  | case2 q c line ih => exact List.cons_prefix_cons.mpr ⟨rfl, ih⟩
  | case3 c line hQuote ih => exact List.cons_prefix_cons.mpr ⟨rfl, ih⟩
  | case4 c line hQuote hMark => exact List.nil_prefix
  | case5 c line hQuote hMark ih => exact List.cons_prefix_cons.mpr ⟨rfl, ih⟩

theorem codePart_begins (mark line : Text) : codePart mark line <+: line :=
  codeFrom_begins mark none line

theorem codeFrom_inside (mark : Text) (hInside : q ∉ inside) (rest : Text) :
    codeFrom mark (some q) (inside ++ rest) = inside ++ codeFrom mark (some q) rest := by
  induction inside with
  | nil => rfl
  | cons c inside ih =>
      rw [List.mem_cons, not_or] at hInside
      have hOther : (c == q) = false := beq_eq_false_iff_ne.mpr (Ne.symm hInside.1)
      rw [List.cons_append, codeFrom, hOther, List.cons_append]
      simp [ih hInside.2]

theorem codePart_bare {c : Char} (hOutside : isQuote c = false) (hMark : [c] ≠ mark) (rest : Text) :
    codePart mark (c :: rest) = c :: codePart mark rest := by
  simp [codePart, codeFrom, hOutside, hMark]

theorem codePart_quoted (mark : Text) (hOpens : isQuote q = true) (hInside : q ∉ inside)
    (rest : Text) :
    codePart mark (q :: (inside ++ q :: rest)) = q :: (inside ++ q :: codePart mark rest) := by
  rw [codePart, codeFrom, if_pos hOpens, codeFrom_inside mark hInside, codeFrom, beq_self_eq_true,
    if_pos rfl, codePart]

theorem codePart_open (s : OpenString) : codePart mark s.text = s.text := by
  have hInside := codeFrom_inside mark s.unclosed []
  rw [List.append_nil, codeFrom, List.append_nil] at hInside
  rw [OpenString.text, codePart, codeFrom, if_pos s.opens, hInside]

/-- One piece without a mark outside of strings is passed. -/
theorem codePart_piece {piece : Piece} (hMark : ∀ c ∈ Pairing.outsideOf [piece], [c] ≠ mark)
    (rest : Text) : codePart mark (piece.text ++ rest) = piece.text ++ codePart mark rest := by
  cases piece with
  | bare c hOutside => exact codePart_bare hOutside (hMark c (by simp)) rest
  | quoted q inside hOpens hInside =>
      have hPassed := codePart_quoted mark hOpens hInside rest
      simpa [Piece.text] using hPassed

/-- Pieces without a mark outside of strings are passed one by one. -/
theorem codePart_pieces {pieces : List Piece}
    (hMark : ∀ c ∈ Pairing.outsideOf pieces, [c] ≠ mark) (rest : Text) :
    codePart mark (Pairing.textOf pieces ++ rest) =
      Pairing.textOf pieces ++ codePart mark rest := by
  induction pieces with
  | nil => rfl
  | cons piece pieces ih =>
      rw [Pairing.outsideOf_cons] at hMark
      have hFirst := fun c hc => hMark c (List.mem_append_left _ hc)
      have hRest := fun c hc => hMark c (List.mem_append_right _ hc)
      rw [Pairing.textOf_cons, List.append_assoc, codePart_piece hFirst, ih hRest,
        List.append_assoc]

theorem ne_mark_of_not_mem {c : Char} {t : Text} (h : c ∉ t) : ∀ x ∈ t, [x] ≠ [c] := by
  rintro x hx hSame
  exact h ((List.cons.inj hSame).1 ▸ hx)

/-- A line without a mark outside of strings has no comment. -/
theorem codePart_text {pairing : Pairing} (hMark : ∀ c ∈ pairing.outside, [c] ≠ mark) :
    codePart mark pairing.text = pairing.text := by
  rw [Pairing.text, codePart_pieces hMark]
  cases pairing.last with
  | none => rfl
  | some s => exact congrArg _ (codePart_open s)

/-- The comment begins at the first mark outside of strings. -/
theorem codePart_pieces_comment {c : Char} (hOutside : isQuote c = false) {pieces : List Piece}
    (hMark : c ∉ Pairing.outsideOf pieces) (comment : Text) :
    codePart [c] (Pairing.textOf pieces ++ c :: comment) = Pairing.textOf pieces := by
  have hCut : codePart [c] (c :: comment) = [] := by simp [codePart, codeFrom, hOutside]
  rw [codePart_pieces (ne_mark_of_not_mem hMark), hCut, List.append_nil]

/-- A line has a mark outside of strings, of which the first one ends its code, or it is all
code. -/
theorem codePart_cases {c : Char} (hOutside : isQuote c = false) (line : Text) :
    (∃ pairing : Pairing, pairing.text = line ∧ c ∉ pairing.outside ∧ codePart [c] line = line) ∨
      ∃ pieces comment, line = Pairing.textOf pieces ++ c :: comment ∧
        c ∉ Pairing.outsideOf pieces ∧ codePart [c] line = Pairing.textOf pieces := by
  obtain ⟨pairing, rfl⟩ := Pairing.exists_text line
  by_cases hMark : c ∈ pairing.outside
  · obtain ⟨front, back, hFirst, hPieces, hFront⟩ := Pairing.exists_first_outside hMark
    have hLine : pairing.text = Pairing.textOf front ++ c ::
        (Pairing.textOf back ++ (pairing.last.map OpenString.text).getD []) := by
      simp [Pairing.text, hPieces, Piece.text]
    refine Or.inr ⟨front, _, hLine, hFront, ?_⟩
    rw [hLine, codePart_pieces_comment hOutside hFront]
  · exact Or.inl ⟨pairing, rfl, hMark, codePart_text (ne_mark_of_not_mem hMark)⟩

/-- The comment of a line begins at the first mark that no string holds, and nothing that it
says is read. A mark that is a quote or no single character starts no comment. -/
theorem codePart_cuts (mark line : Text) :
    ((mark.length ≠ 1 ∨ ∃ q, mark = [q] ∧ isQuote q = true) → codePart mark line = line) ∧
    ∀ c, mark = [c] → isQuote c = false →
      codePart mark line <+: line ∧
      ∃ pairing : Pairing, pairing.text = codePart mark line ∧
        (∀ other : Pairing, other.text = codePart mark line → other = pairing) ∧
        c ∉ pairing.outside ∧
        (codePart mark line ≠ line →
          (∃ comment, line = codePart mark line ++ c :: comment) ∧ pairing.last = none ∧
          ∀ comment,
            codePart mark (codePart mark line ++ c :: comment) = codePart mark line ∧
            Role.ofLine mark (codePart mark line ++ c :: comment) =
              Role.ofLine mark (codePart mark line) ∧
            hasCode mark (codePart mark line ++ c :: comment) =
              hasCode mark (codePart mark line)) := by
  refine ⟨fun hMark => ?_, ?_⟩
  · obtain ⟨pairing, rfl⟩ := Pairing.exists_text line
    refine codePart_text fun c hc => ?_
    rintro rfl
    rcases hMark with hLength | ⟨q, hSame, hQuote⟩
    · exact hLength rfl
    · have hOutside := Pairing.isQuote_of_mem_outside hc
      rw [(List.cons.inj hSame).1, hQuote] at hOutside
      cases hOutside
  · rintro c rfl hOutside
    refine ⟨codePart_begins [c] line, ?_⟩
    rcases codePart_cases hOutside line with
      ⟨pairing, hText, hMark, hWhole⟩ | ⟨pieces, comment, hLine, hMark, hCode⟩
    · rw [hWhole]
      refine ⟨pairing, hText, fun other hOther => ?_, hMark, fun hCut => ?_⟩
      · exact Pairing.text_injective (hOther.trans hText.symm)
      · exact absurd rfl hCut
    · have hText : Pairing.text ⟨pieces, none⟩ = Pairing.textOf pieces := List.append_nil _
      have hAlone : codePart [c] (Pairing.textOf pieces) = Pairing.textOf pieces := by
        rw [← hText]
        exact codePart_text (ne_mark_of_not_mem hMark)
      rw [hCode]
      refine ⟨⟨pieces, none⟩, hText, fun other hOther => ?_, hMark,
        fun _ => ⟨⟨comment, hLine⟩, rfl, fun tail => ?_⟩⟩
      · exact Pairing.text_injective (hOther.trans hText.symm)
      · have hTail := codePart_pieces_comment hOutside hMark tail
        refine ⟨hTail, ?_, ?_⟩
        · rw [Role.ofLine, Role.ofLine, statement, statement, hTail, hAlone]
        · rw [hasCode, hasCode, statement, statement, hTail, hAlone]

theorem codePart_cuts_condition :
    let code := "if s = 'a#b' then ".toList
    codePart commentMark "if s = 'a#b' then # it's".toList = code ∧ isQuote '#' = false ∧
      (∃ pairing : Pairing, pairing.text = code ∧ '#' ∉ pairing.outside ∧ pairing.last = none) ∧
      ∀ comment, codePart commentMark (code ++ '#' :: comment) = code ∧
        Role.ofLine commentMark (code ++ '#' :: comment) = .opener ∧
        hasCode commentMark (code ++ '#' :: comment) = true := by
  intro code
  have hCode : codePart commentMark "if s = 'a#b' then # it's".toList = code := by decide +kernel
  have hRole : Role.ofLine commentMark code = .opener := by decide +kernel
  have hHas : hasCode commentMark code = true := by decide +kernel
  have hOutside : isQuote '#' = false := by decide
  obtain ⟨-, pairing, hText, -, hMark, hCut⟩ :=
    (codePart_cuts commentMark "if s = 'a#b' then # it's".toList).2 '#' rfl hOutside
  rw [hCode] at hText hCut
  obtain ⟨-, hLast, hComment⟩ := hCut (by decide +kernel)
  rw [hRole, hHas] at hComment
  exact ⟨hCode, hOutside, ⟨pairing, hText, hMark, hLast⟩, hComment⟩

end ScriptEditor.Script
