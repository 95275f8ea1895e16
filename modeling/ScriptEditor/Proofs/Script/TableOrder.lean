import ScriptEditor.Proofs.Script.Grammar

/-! The order of the table of forms. The role of a text is that of the first form it has, as if
an earlier form could hide a later one. It never does: every form asks for a first word of its
own, so a text has one form at most and any order of the table gives the same roles. -/
namespace ScriptEditor.Script

/-- The role of a text by any table of forms: that of the first form it has. -/
def Role.byTable (table : List (Role × Shape)) (code : Text) : Role :=
  ((table.find? fun entry => entry.2.fits code).map (·.1)).getD .plain

/-- Where what holds of one element excludes it for every later one, it holds once at most. -/
theorem countP_le_one_of_pairwise {α : Type} {p : α → Bool} {xs : List α}
    (h : xs.Pairwise fun x y => p x = true → p y = false) : xs.countP p ≤ 1 := by
  induction h with
  | nil => simp
  | @cons x xs hApart _ ih =>
      by_cases hFirst : p x = true
      · have hNone : xs.countP p = 0 := by
          rw [List.countP_eq_zero]
          intro y hy
          simp [hApart y hy hFirst]
        simp [hFirst, hNone]
      · simpa [hFirst] using ih

theorem countP_tableFits_le_one (t : Text) : (tableFits t).countP (·.2) ≤ 1 := by
  rw [tableFits, List.countP_map]
  exact countP_le_one_of_pairwise (pairwise_fits t)

/-- Any table with the entries of the usual one gives the usual roles. The order decides which
form is found first, but the one that is found is the only one. -/
theorem Role.byTable_of_perm {table : List (Role × Shape)} (hOrder : table.Perm roleTable)
    (code : Text) : Role.byTable table code = Role.ofStatement code := by
  unfold Role.byTable
  cases hFound : table.find? fun entry => entry.2.fits code with
  | some entry =>
      have hEntry : entry ∈ roleTable := hOrder.subset (List.mem_of_find?_eq_some hFound)
      have hFits : entry.2.fits code = true := by simpa using List.find?_some hFound
      exact (ofStatement_of_fits hEntry hFits).symm
  | none =>
      rcases ofStatement_cases code with ⟨entry, hEntry, hFits, -⟩ | ⟨-, hPlain⟩
      · have hNot := List.find?_eq_none.mp hFound entry (hOrder.symm.subset hEntry)
        exact absurd hFits hNot
      · exact hPlain.symm

/-- No text, of whatever characters and with or without blanks around it, has two forms of the
table. Hence the role of a line does not depend on the order in which the table lists them. -/
theorem roleTable_exclusive :
    (∀ t : Text, (tableFits t).countP (·.2) ≤ 1) ∧
    ∀ table : List (Role × Shape), table.Perm roleTable →
      ∀ mark line : Text, Role.byTable table (statement mark line) = Role.ofLine mark line := by
  refine ⟨countP_tableFits_le_one, ?_⟩
  intro table hOrder mark line
  exact Role.byTable_of_perm hOrder (statement mark line)

theorem roleTable_exclusive_reversed :
    roleTable.reverse.Perm roleTable ∧
    Role.byTable roleTable.reverse (statement commentMark "\tİF next\u00a0Then # else".toList) =
      .opener := by
  have hOrder : roleTable.reverse.Perm roleTable := List.reverse_perm roleTable
  have hRole : Role.ofLine commentMark "\tİF next\u00a0Then # else".toList = .opener := by
    decide +kernel
  exact ⟨hOrder, (roleTable_exclusive.2 _ hOrder commentMark _).trans hRole⟩

end ScriptEditor.Script
