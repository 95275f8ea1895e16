import ScriptEditor.Highlight.Paint
import ScriptEditor.Proofs.Highlight.Scan
import ScriptEditor.Proofs.Script.Quotes

/-! Strings, as the search for a comment and as the colouring see them. The search goes from
character to character and keeps the quote that is open; the colouring takes each string as a
whole. Both find the same characters in strings. -/
namespace ScriptEditor.Script

/-- The quote that is open behind one more character. -/
def quoteNext : Option Char → Char → Option Char
  | some q, c => if c == q then none else some q
  | none, c => if isQuote c then some c else none

/-- The quote that is open behind a text. -/
def quoteBehind (t : Text) : Option Char :=
  t.foldl quoteNext none

/-- The character at an index is read while a string is open, or it opens or closes one. -/
def InString (t : Text) (i : Nat) : Prop :=
  i < t.length ∧ (quoteBehind (t.take i) ≠ none ∨ quoteBehind (t.take (i + 1)) ≠ none)

instance (t : Text) (i : Nat) : Decidable (InString t i) :=
  inferInstanceAs (Decidable (_ ∧ _))

variable {mark front rest inside line : Text} {q c : Char} {quote : Option Char} {i : Nat}

/-- Reading the code of a line keeps the open quote: what is read behind a beginning of the code
depends on the quote that is open there only. -/
theorem codeFrom_take (h : i ≤ (codeFrom mark quote line).length) (tail : Text) :
    codeFrom mark quote (line.take i ++ tail) =
      line.take i ++ codeFrom mark ((line.take i).foldl quoteNext quote) tail := by
  fun_induction codeFrom mark quote line generalizing i with
  | case1 quote => simp
  | case2 q c line ih =>
      cases i with
      | zero => rfl
      | succ i =>
          have hRest := ih (Nat.le_of_succ_le_succ h)
          rw [List.take_succ_cons, List.cons_append, codeFrom, hRest]
          rfl
  | case3 c line hQuote ih =>
      cases i with
      | zero => rfl
      | succ i =>
          have hRest := ih (Nat.le_of_succ_le_succ h)
          rw [List.take_succ_cons, List.cons_append, codeFrom, if_pos hQuote, hRest,
            List.foldl_cons, quoteNext, if_pos hQuote]
          rfl
  | case4 c line hQuote hMark =>
      obtain rfl : i = 0 := Nat.le_zero.mp h
      rfl
  | case5 c line hQuote hMark ih =>
      cases i with
      | zero => rfl
      | succ i =>
          have hRest := ih (Nat.le_of_succ_le_succ h)
          rw [List.take_succ_cons, List.cons_append, codeFrom, if_neg hQuote, if_neg hMark, hRest,
            List.foldl_cons, quoteNext, if_neg hQuote]
          rfl

/-- A mark in the code of a line is in a string. -/
theorem inString_mark (h : (codePart [c] line)[i]? = some c) : InString (codePart [c] line) i := by
  obtain ⟨hBound, hChar⟩ := List.getElem?_eq_some_iff.mp h
  refine ⟨hBound, ?_⟩
  by_contra hOutside
  rw [not_or, not_not, not_not] at hOutside
  obtain ⟨hBefore, hBehind⟩ := hOutside
  have hQuote : isQuote c = false := by
    by_contra hQuote
    rw [List.take_add_one, h, quoteBehind, List.foldl_append, ← quoteBehind, hBefore] at hBehind
    simp [quoteNext, hQuote] at hBehind
  obtain ⟨comment, hLine⟩ := codePart_begins [c] line
  have hTake : line.take i = (codePart [c] line).take i := by
    rw [← List.take_append_of_le_length (Nat.le_of_lt hBound), hLine]
  have hDrop : line.drop i = c :: ((codePart [c] line).drop (i + 1) ++ comment) := by
    have hCode := List.drop_eq_getElem_cons hBound
    rw [hChar] at hCode
    rw [← List.cons_append, ← hCode, ← List.drop_append_of_le_length (Nat.le_of_lt hBound), hLine]
  -- Outside of strings the mark ends the code, which would have no character at the index.
  have hCut := codeFrom_take (Nat.le_of_lt hBound) (line.drop i)
  rw [List.take_append_drop, hTake, ← quoteBehind, hBefore, hDrop, codeFrom, hQuote,
    if_neg Bool.false_ne_true, beq_self_eq_true, if_pos rfl, List.append_nil] at hCut
  have hLength := congrArg List.length hCut
  rw [← codePart, List.length_take] at hLength
  omega

/-! ### Strings in pieces -/

theorem foldl_quoteNext_inside (hInside : q ∉ inside) :
    inside.foldl quoteNext (some q) = some q := by
  induction inside with
  | nil => rfl
  | cons c inside ih =>
      rw [List.mem_cons, not_or] at hInside
      have hOther : (c == q) = false := beq_eq_false_iff_ne.mpr (Ne.symm hInside.1)
      rw [List.foldl_cons, quoteNext, hOther, if_neg Bool.false_ne_true, ih hInside.2]

theorem quoteBehind_open (hOpens : isQuote q = true) (hInside : q ∉ inside) :
    quoteBehind (q :: inside) = some q := by
  rw [quoteBehind, List.foldl_cons, quoteNext, if_pos hOpens, foldl_quoteNext_inside hInside]

theorem quoteBehind_piece (piece : Piece) : quoteBehind piece.text = none := by
  cases piece with
  | bare c hOutside => simp [quoteBehind, Piece.text, quoteNext, hOutside]
  | quoted q inside hOpens hInside =>
      have hOpen := quoteBehind_open hOpens hInside
      rw [quoteBehind] at hOpen
      rw [Piece.text, ← List.cons_append, quoteBehind, List.foldl_append, hOpen]
      simp [quoteNext]

theorem inString_append (hClosed : quoteBehind front = none) (k : Nat) :
    InString (front ++ rest) (front.length + k) ↔ InString rest k := by
  have hTake (k : Nat) : quoteBehind ((front ++ rest).take (front.length + k)) =
      quoteBehind (rest.take k) := by
    rw [List.take_length_add_append, quoteBehind, List.foldl_append, ← quoteBehind, hClosed,
      ← quoteBehind]
  rw [InString, InString, Nat.add_assoc, hTake, hTake, List.length_append,
    Nat.add_lt_add_iff_left]

theorem inString_of_lt (hBound : i < front.length) :
    InString (front ++ rest) i ↔ InString front i := by
  rw [InString, InString, List.take_append_of_le_length (Nat.le_of_lt hBound),
    List.take_append_of_le_length (Nat.succ_le_of_lt hBound), List.length_append]
  exact and_congr_left fun _ => iff_of_true (by omega) hBound

/-- All characters of an open string are in it, the quote as well. -/
theorem inString_open (s : OpenString) (hBound : i < s.text.length) : InString s.text i := by
  refine ⟨hBound, Or.inr ?_⟩
  have hPart : s.quote ∉ s.inside.take i := fun hMem => s.unclosed (List.mem_of_mem_take hMem)
  rw [OpenString.text, List.take_succ_cons, quoteBehind_open s.opens hPart]
  exact Option.some_ne_none s.quote

/-- All characters of a closed string are in it, both quotes as well. -/
theorem inString_quoted (hOpens : isQuote q = true) (hInside : q ∉ inside)
    (hBound : i < (Piece.quoted q inside hOpens hInside).text.length) :
    InString (Piece.quoted q inside hOpens hInside).text i := by
  let opening : OpenString := ⟨q, inside, hOpens, hInside⟩
  have hText : (Piece.quoted q inside hOpens hInside).text = opening.text ++ [q] := rfl
  rw [hText, List.length_append, List.length_singleton] at hBound
  rw [hText]
  rcases Nat.lt_succ_iff_lt_or_eq.mp hBound with hLess | hLast
  · exact (inString_of_lt hLess).mpr (inString_open opening hLess)
  · have hOpen : quoteBehind opening.text = some q := quoteBehind_open hOpens hInside
    refine ⟨by simp [hLast], Or.inl ?_⟩
    rw [hLast, List.take_left, hOpen]
    exact Option.some_ne_none q

theorem not_inString_bare (hOutside : isQuote c = false) :
    ¬ InString (Piece.bare c hOutside).text i := by
  rintro ⟨hBound, hOpen⟩
  obtain rfl : i = 0 := Nat.lt_one_iff.mp hBound
  simp [Piece.text, quoteBehind, quoteNext, hOutside] at hOpen

end ScriptEditor.Script

namespace ScriptEditor.Highlight

open ScriptEditor.Script

variable {inside rest : Text} {q c : Char} {before : Option Char}

theorem string_bare (hOutside : isQuote c = false) : string before (c :: rest) = none := by
  rw [isQuote] at hOutside
  simp [string, hOutside]

theorem string_of_isQuote (hOpens : isQuote q = true) :
    string before (q :: rest) =
      some ⟨0, min ((rest.takeWhile (· != q)).length + 2) (rest.length + 1)⟩ :=
  if_pos hOpens

theorem takeWhile_inside (hInside : q ∉ inside) (rest : Text) :
    (inside ++ rest).takeWhile (· != q) = inside ++ rest.takeWhile (· != q) :=
  List.takeWhile_append_of_pos fun _ hc => bne_iff_ne.mpr fun hSame => hInside (hSame ▸ hc)

theorem string_quoted (hOpens : isQuote q = true) (hInside : q ∉ inside) :
    string before (q :: (inside ++ q :: rest)) = some ⟨0, inside.length + 2⟩ := by
  have hStop : (q :: rest).takeWhile (· != q) = [] := List.takeWhile_cons_of_neg (by simp)
  rw [string_of_isQuote hOpens, takeWhile_inside hInside, hStop, List.append_nil,
    Nat.min_eq_left]
  simp only [List.length_append, List.length_cons]
  omega

theorem string_open (before : Option Char) (s : OpenString) :
    string before s.text = some ⟨0, s.text.length⟩ := by
  have hWhole := takeWhile_inside s.unclosed []
  rw [List.takeWhile_nil, List.append_nil] at hWhole
  rw [OpenString.text, string_of_isQuote s.opens, hWhole, Nat.min_eq_right]
  · rfl
  · omega

/-- One piece of a line is passed, and what is found in it are the characters in strings. -/
theorem spansFrom_string_piece (piece : Piece) (i : Nat) (before : Option Char) (rest : Text) :
    ∃ found, spansFrom string i 0 before (piece.text ++ rest) =
        found ++ spansFrom string (i + piece.text.length) 0 (piece.text.getLast?.or before) rest ∧
      ∀ k, Covers found (i + k) ↔ InString piece.text k := by
  cases piece with
  | bare c hOutside =>
      refine ⟨[], ?_, fun k => iff_of_false (not_covers_nil _) (not_inString_bare hOutside)⟩
      rw [Piece.text, List.singleton_append, spansFrom, string_bare hOutside]
      rfl
  | quoted q inside hOpens hInside =>
      refine ⟨[⟨i, (Piece.quoted q inside hOpens hInside).text.length⟩], ?_, fun k => ?_⟩
      · have hHit : string before (q :: (inside ++ [q] ++ rest)) = some ⟨0, inside.length + 2⟩ := by
          rw [List.append_assoc]
          exact string_quoted hOpens hInside
        have hPassed := spansFrom_passed string (i + 1) (some q) (inside ++ [q]) rest
        rw [List.length_append, List.length_singleton] at hPassed
        rw [Piece.text, List.cons_append, spansFrom, hHit, getLast?_cons_or]
        dsimp only
        rw [Nat.zero_add, Nat.add_sub_assoc (by omega), hPassed]
        simp only [List.length_cons, List.length_append, List.length_nil, List.singleton_append]
        congr 2
        omega
      · rw [covers_singleton, Nat.add_lt_add_iff_left]
        exact ⟨fun h => inString_quoted hOpens hInside h.2, fun h => ⟨Nat.le_add_right i k, h.1⟩⟩

theorem covers_spansFrom_string (pieces : List Piece) (last : Option OpenString) (i : Nat)
    (before : Option Char) (k : Nat) :
    Covers (spansFrom string i 0 before (Pairing.text ⟨pieces, last⟩)) (i + k) ↔
      InString (Pairing.text ⟨pieces, last⟩) k := by
  induction pieces generalizing i before k with
  | nil =>
      rw [Pairing.text_of_pieces_nil]
      cases last with
      | none => exact iff_of_false (not_covers_nil _) fun h => Nat.not_lt_zero k h.1
      | some s =>
          have hFound : spansFrom string i 0 before s.text = [⟨i, s.text.length⟩] := by
            have hPassed := spansFrom_passed string (i + 1) (some s.quote) s.inside []
            rw [List.append_nil, spansFrom] at hPassed
            have hHit := string_open before s
            rw [OpenString.text] at hHit ⊢
            rw [spansFrom, hHit]
            simp [hPassed]
          rw [Option.map_some, Option.getD_some, hFound, covers_singleton, Nat.add_lt_add_iff_left]
          exact ⟨fun h => inString_open s h.2, fun h => ⟨Nat.le_add_right i k, h.1⟩⟩
  | cons piece pieces ih =>
      have hText : Pairing.text ⟨piece :: pieces, last⟩ =
          piece.text ++ Pairing.text ⟨pieces, last⟩ := Pairing.text_cons piece ⟨pieces, last⟩
      obtain ⟨found, hFound, hCovers⟩ :=
        spansFrom_string_piece piece i before (Pairing.text ⟨pieces, last⟩)
      rw [hText, hFound, covers_append, hCovers]
      by_cases hBound : k < piece.text.length
      · rw [inString_of_lt hBound, or_iff_left]
        intro hLater
        have hStart := le_of_covers_spansFrom hLater
        omega
      · obtain ⟨n, rfl⟩ := Nat.exists_eq_add_of_le (Nat.not_lt.mp hBound)
        rw [inString_append (quoteBehind_piece piece), or_iff_right fun h => hBound h.1,
          ← Nat.add_assoc, ih]

/-- The strings that are found in a text cover the characters in strings. -/
theorem covers_spans_string (t : Text) (i : Nat) : Covers (spans string t) i ↔ InString t i := by
  obtain ⟨pairing, rfl⟩ := Pairing.exists_text t
  have hCovers := covers_spansFrom_string pairing.pieces pairing.last 0 none i
  rwa [Nat.zero_add] at hCovers

theorem inString_withoutMark (t : Text) (i : Nat) :
    InString (Text.withoutMark t) i ↔ InString t (t.length - (Text.withoutMark t).length + i) := by
  rw [Text.withoutMark]
  split_ifs with hMark
  · obtain ⟨rest, rfl⟩ := List.head?_eq_some_iff.mp (beq_iff_eq.mp (Bool.and_eq_true_iff.mp hMark).1)
    have hShift : InString ([Text.byteOrderMark] ++ rest) (1 + i) ↔ InString rest i :=
      inString_append rfl i
    simpa using hShift.symm
  · rw [Nat.sub_self, Nat.zero_add]

/-- The colouring and the search for a comment agree on strings. At every place of the code the
search goes on with the quote that is open there. The strings that are found in the code, or in
what is left of it without its byte order mark, cover the characters that are read inside of
strings and no others, and a mark in the code is covered. -/
theorem covers_spans_string_codePart (mark line : Text) :
    (∀ i ≤ (codePart mark line).length, ∀ tail, codePart mark (line.take i ++ tail) =
      line.take i ++ codeFrom mark (quoteBehind (line.take i)) tail) ∧
    (∀ i, Covers (spans string (codePart mark line)) i ↔ InString (codePart mark line) i) ∧
    (∀ i, Covers (spans string (Text.withoutMark (codePart mark line))) i ↔
      InString (codePart mark line)
        ((codePart mark line).length - (Text.withoutMark (codePart mark line)).length + i)) ∧
    ∀ i c, mark = [c] → (codePart mark line)[i]? = some c →
      Covers (spans string (codePart mark line)) i := by
  refine ⟨fun i hi => codeFrom_take hi, covers_spans_string _, fun i => ?_, ?_⟩
  · rw [covers_spans_string, inString_withoutMark]
  · rintro i c rfl hChar
    exact (covers_spans_string _ i).mpr (inString_mark hChar)

theorem covers_spans_string_codePart_apostrophe :
    let line := "x\"it's#\"#'y".toList
    (∀ tail, codePart commentMark ("x\"it'".toList ++ tail) =
      "x\"it'".toList ++ codeFrom commentMark (some Text.doubleQuote) tail) ∧
    (codePart commentMark line)[6]? = some '#' ∧
    Covers (spans string (codePart commentMark line)) 6 ∧
    ¬ Covers (spans string (codePart commentMark line)) 0 := by
  intro line
  have hLength : 5 ≤ (codePart commentMark line).length := by decide +kernel
  have hChar : (codePart commentMark line)[6]? = some '#' := by decide +kernel
  have hFirst : ¬ InString (codePart commentMark line) 0 := by decide +kernel
  obtain ⟨hState, hCovers, -, hMark⟩ := covers_spans_string_codePart commentMark line
  exact ⟨hState 5 hLength, hChar, hMark 6 '#' rfl hChar, (hCovers 0).not.mpr hFirst⟩

end ScriptEditor.Highlight
