import RondeDesFacs.Servlet.Pivot

/-!
# Where the loop over the rows fails

`previousId`, `j` and `data` are null at some point of the loop, and nothing checks
for it.

* `previousId` starts as the empty string, so a first row with that very identifier
  is taken for the continuation of a run that does not exist, and `data` is null.
* `previousId` becomes the identifier of the row, which may be null, and the next row
  calls a method of it.

A null identifier in the last row does no harm, nor does an empty one after the first
row.  So the call fails exactly unless the rows are `Parcourable` (`pivot_safe`).
-/

namespace RondeDesFacs
namespace Servlet

/-- **A turn of the loop** asks `previousId` and leaves it the identifier of the
row. -/
theorem tour_eq_some {isFirst isLast : Bool} {s s' : Locals} {row : LineRow}
    (h : tour isFirst isLast s row = some s') :
    s.previousId ≠ none ∧ s'.previousId = row.ident := by
  unfold tour at h
  rcases hprevious : s.previousId with _ | previousId
  · rw [hprevious] at h
    cases h
  · refine ⟨Option.some_ne_none _, ?_⟩
    simp only [hprevious] at h
    by_cases hne : some previousId ≠ row.ident
    · -- the row opens a run
      rw [if_pos hne] at h
      split at h
      · cases h
      · cases h
        rfl
    · rw [if_neg hne] at h
      split at h
      · cases h
      · split_ifs at h with hlast
        · obtain ⟨series, -, rfl⟩ := Option.map_eq_some_iff.mp h
          rfl
        · cases h
          rfl

/-- A loop that ends has met no null identifier but in the last row. -/
theorem notNull_of_parcours {isFirst : Bool} {s s' : Locals} {rows : List LineRow}
    (h : parcours isFirst s rows = some s') : ∀ r ∈ rows.dropLast, r.ident ≠ none := by
  induction rows generalizing isFirst s with
  | nil => exact fun r hr => absurd hr List.not_mem_nil
  | cons row rows ih =>
    obtain ⟨s₁, htour, hrest⟩ := Option.bind_eq_some_iff.mp h
    rcases rows with _ | ⟨row', rows⟩
    · exact fun r hr => absurd hr List.not_mem_nil
    · -- the next row calls a method of the identifier of this one
      obtain ⟨s₂, hnext, -⟩ := Option.bind_eq_some_iff.mp hrest
      have hrow : row.ident ≠ none := (tour_eq_some htour).2 ▸ (tour_eq_some hnext).1
      exact List.forall_mem_cons.mpr ⟨hrow, ih hrest⟩

/-- A first row with the empty identifier fails. -/
theorem tour_init_of_empty {row : LineRow} (hrow : row.ident = some []) (isLast : Bool) :
    tour true isLast Locals.init row = none := by
  simp [tour, Locals.init, hrow]

/-- **Which result sets become a line chart.** -/
theorem lineEntity_isSome_iff (procName : Text) (rows : List LineRow) :
    (lineEntity procName rows).isSome ↔ Parcourable rows := by
  constructor
  · intro h
    obtain ⟨s', hs'⟩ : ∃ s', parcours true Locals.init rows = some s' := by
      rw [lineEntity, Option.isSome_map] at h
      exact Option.isSome_iff_exists.mp h
    refine ⟨fun r hr hempty => ?_, notNull_of_parcours hs'⟩
    obtain ⟨rest, rfl⟩ := List.head?_eq_some_iff.mp hr
    rw [parcours, tour_init_of_empty hempty] at hs'
    cases hs'
  · intro h
    rw [lineEntity_of_parcourable procName h]
    rfl

/-- **When the line pivot does not fail.**  Exactly when the first identifier is not
the empty string and no identifier but the last is null. -/
theorem pivot_safe (base : Connection) (param1 param2 param3 : Option Text)
    (args : Option (ℤ × Text)) (hargs : arguments param2 param3 = some args)
    (rows : List LineRow) (others : List ResultSet)
    (hbase : base (orNull param1) args = some (.line rows :: others)) :
    (∃ entity, call (some base) param1 param2 param3 = .status200 entity) ↔
      Parcourable rows := by
  rw [call_of_line hargs hbase, ← lineEntity_isSome_iff (orNull param1) rows]
  rcases lineEntity (orNull param1) rows with _ | entity
  · simp
  · simp

/-- Runners without an origin, who come first in the order of the statement, and one
with an origin. -/
def sansOrigine : List LineRow :=
  [⟨none, some "0".toList, 1⟩, ⟨some "IUT".toList, some "0".toList, 1⟩]

/-- The servlet does not answer for them. -/
theorem pivot_safe_sansOrigine :
    call (some fun _ _ => some [.line sansOrigine]) (some "nbCoureurDepartement".toList)
      (some []) (some []) = .status503 := by
  decide

/-- The condition at these rows. -/
theorem pivot_safe_at_sansOrigine :
    (∃ entity, call (some fun _ _ => some [.line sansOrigine])
        (some "nbCoureurDepartement".toList) (some []) (some []) = .status200 entity) ↔
      Parcourable sansOrigine :=
  pivot_safe (fun _ _ => some [.line sansOrigine]) (some "nbCoureurDepartement".toList) (some [])
    (some []) none rfl sansOrigine [] rfl

end Servlet
end RondeDesFacs
