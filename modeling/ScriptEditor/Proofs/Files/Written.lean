import ScriptEditor.Files.Store
import ScriptEditor.Proofs.Failing

/-! Files that were written. What was written to a path is read from it, and the path can be
written again. The way to a file leads through directories, and writing the file leaves these as
they are. -/
namespace ScriptEditor.Files

/-- A path on which there can be a file: none of its names holds a null character. -/
def Path.WithoutNull (p : Path) : Prop :=
  p.parts.any (·.contains '\x00') = false

namespace Store

variable {s next : Store} {p : Path} {place here : Place} {bytes : List UInt8}

@[simp] theorem entryAt?_put_self (s : Store) (place : Place) (e : Entry) :
    (s.put place e).entryAt? place = some e := by
  have hOthers : (s.entries.filter fun x => x.1 != place).find? (fun x => x.1 == place) = none := by
    rw [List.find?_eq_none]
    intro x hx
    simpa using (List.mem_filter.mp hx).2
  unfold entryAt? put
  simp [List.find?_append, hOthers]

/-- What is at other places stays there. -/
theorem entryAt?_put_of_ne {e found : Entry} (hPlace : here ≠ place)
    (hFound : s.entryAt? here = some found) : (s.put place e).entryAt? here = some found := by
  have hSame : (s.put place e).entries.find? (fun x => x.1 == here) =
      s.entries.find? fun x => x.1 == here := by
    have hFilter : (s.entries.filter fun x => x.1 != place).find? (fun x => x.1 == here) =
        s.entries.find? fun x => x.1 == here := by
      rw [List.find?_filter]
      congr 1
      funext x
      by_cases hHere : x.1 = here
      · simp [hHere, hPlace]
      · simp [hHere]
    have hOther : (place == here) = false := beq_eq_false_iff_ne.mpr (Ne.symm hPlace)
    rw [put, List.find?_append, hFilter, List.find?_singleton, hOther]
    simp
  unfold entryAt? at hFound ⊢
  rw [hSame]
  split at hFound
  · exact hFound
  -- A directory may be there because of what is below it, and that stays below it.
  · have hBelow : s.entries.any (fun x => here.isPrefixOf x.1) = true →
        (s.put place e).entries.any (fun x => here.isPrefixOf x.1) = true := by
      rw [List.any_eq_true, List.any_eq_true]
      rintro ⟨x, hx, hPrefix⟩
      by_cases hHere : x.1 = place
      · exact ⟨(place, e), List.mem_append_right _ (List.mem_singleton_self _), hHere ▸ hPrefix⟩
      · exact ⟨x, List.mem_append_left _ (List.mem_filter.mpr ⟨hx, by simpa using hHere⟩), hPrefix⟩
    split_ifs at hFound with hDirectory
    cases hFound
    refine if_pos ?_
    simp only [Bool.or_eq_true] at hDirectory ⊢
    exact hDirectory.imp_right hBelow

theorem walk_put {names : List Text} {e : Entry} (hFile : s.entryAt? place ≠ some .directory)
    (h : s.walk here names = .ok place) : (s.put place e).walk here names = .ok place := by
  induction names generalizing here with
  | nil => exact h
  | cons name names ih =>
      rw [walk] at h ⊢
      split at h
      next => cases h
      next => cases h
      next hDirectory =>
        have hOther : here ≠ place := by
          rintro rfl
          exact hFile hDirectory
        rw [entryAt?_put_of_ne hOther hDirectory]
        dsimp only
        split_ifs at h ⊢
        · exact ih h
        · exact ih h

/-- Writing puts a file at the place of the path, where no directory was. -/
theorem write_eq_ok (h : s.write p bytes = .ok next) :
    ∃ place, s.placeOf p = .ok place ∧ s.entryAt? place ≠ some .directory ∧
      next = s.put place (.file bytes) := by
  obtain ⟨place, hPlace, h⟩ := exists_of_bind_eq_ok h
  refine ⟨place, hPlace, ?_⟩
  split at h
  next => cases h
  next hFile => exact ⟨hFile, (Except.ok.inj h).symm⟩

theorem write_ne_nullCharacter (hPath : p.WithoutNull) : s.write p bytes ≠ .error .nullCharacter := by
  have hPlace : s.placeOf p ≠ .error .nullCharacter := by
    unfold placeOf
    rw [hPath, if_neg Bool.false_ne_true]
    split_ifs
    · exact nofun
    · cases s.walk p.base p.parts with
      | error cause => exact nofun
      | ok place => exact nofun
  unfold write
  cases hFound : s.placeOf p with
  | error fault =>
      rintro ⟨⟩
      exact hPlace hFound
  | ok place =>
      rw [ok_bind]
      split <;> exact nofun

theorem placeOf_put {e : Entry} (hPlace : s.placeOf p = .ok place)
    (hFile : s.entryAt? place ≠ some .directory) : (s.put place e).placeOf p = .ok place := by
  unfold placeOf at hPlace ⊢
  split_ifs at hPlace ⊢
  rw [walk_put hFile (eq_ok_of_mapError_eq_ok hPlace)]
  rfl

/-- After a path was written, it leads to a file with the bytes. -/
theorem exists_placeOf_of_write (h : s.write p bytes = .ok next) :
    ∃ place, next.placeOf p = .ok place ∧ next.entryAt? place = some (.file bytes) := by
  obtain ⟨place, hPlace, hFile, rfl⟩ := write_eq_ok h
  exact ⟨place, placeOf_put hPlace hFile, entryAt?_put_self s place _⟩

theorem has_of_write (h : s.write p bytes = .ok next) : next.has p = .ok true := by
  obtain ⟨place, hPlace, hEntry⟩ := exists_placeOf_of_write h
  rw [has, hPlace]
  dsimp only
  rw [hEntry]
  rfl

theorem read_of_write (h : s.write p bytes = .ok next) : next.read p = .ok bytes := by
  obtain ⟨place, hPlace, hEntry⟩ := exists_placeOf_of_write h
  rw [read, hPlace, ok_bind, hEntry]
  rfl

theorem write_of_write (h : s.write p bytes = .ok next) (more : List UInt8) :
    ∃ last, next.write p more = .ok last := by
  obtain ⟨place, hPlace, hEntry⟩ := exists_placeOf_of_write h
  refine ⟨next.put place (.file more), ?_⟩
  rw [write, hPlace, ok_bind, hEntry]
  rfl

end Store

end ScriptEditor.Files
