import Mathlib.Data.List.Basic

/-!
# Lists with separators

`sep.intercalate ls` puts lists one behind the other, with `sep` between them; `splitOn`
takes it apart again.  What is missing about it: that it goes through maps, what its entries
are, and that it is its first list with the others behind it, each with the separator in
front.
-/

namespace RondeDesFacs
namespace Separators

variable {α β : Type}

/-- The first list, and the others with the separator in front. -/
theorem intercalate_cons (sep l : List α) (ls : List (List α)) :
    sep.intercalate (l :: ls) = l ++ ls.flatMap fun l' => sep ++ l' := by
  induction ls generalizing l with
  | nil => rw [List.intercalate_singleton, List.flatMap_nil, List.append_nil]
  | cons l' ls ih =>
    rw [List.intercalate_cons_cons, ih, List.flatMap_cons, List.append_assoc, List.append_assoc]

theorem flatMap_intercalate (f : α → List β) (sep : List α) (ls : List (List α)) :
    (sep.intercalate ls).flatMap f = (sep.flatMap f).intercalate (ls.map (·.flatMap f)) := by
  rcases ls with _ | ⟨l, ls⟩
  · rfl
  · rw [List.map_cons, intercalate_cons, intercalate_cons, List.flatMap_append, List.flatMap_assoc,
      List.flatMap_map]
    simp only [List.flatMap_append]

theorem map_intercalate (f : α → β) (sep : List α) (ls : List (List α)) :
    (sep.intercalate ls).map f = (sep.map f).intercalate (ls.map (·.map f)) := by
  simp only [List.map_eq_flatMap, flatMap_intercalate]

theorem mem_intercalate {sep l : List α} {ls : List (List α)} {a : α} (ha : a ∈ l)
    (hl : l ∈ ls) : a ∈ sep.intercalate ls := by
  rcases ls with _ | ⟨l', ls⟩
  · exact absurd hl List.not_mem_nil
  · rw [intercalate_cons, List.mem_append]
    rcases List.mem_cons.mp hl with rfl | hl
    · exact Or.inl ha
    · exact Or.inr (List.mem_flatMap.mpr ⟨l, hl, List.mem_append_right _ ha⟩)

theorem of_mem_intercalate {sep : List α} {ls : List (List α)} {a : α}
    (ha : a ∈ sep.intercalate ls) : a ∈ sep ∨ ∃ l ∈ ls, a ∈ l := by
  rcases ls with _ | ⟨l, ls⟩
  · exact absurd ha List.not_mem_nil
  · rw [intercalate_cons, List.mem_append] at ha
    rcases ha with ha | ha
    · exact Or.inr ⟨l, List.mem_cons_self .., ha⟩
    · obtain ⟨l', hl', ha⟩ := List.mem_flatMap.mp ha
      rcases List.mem_append.mp ha with ha | ha
      · exact Or.inl ha
      · exact Or.inr ⟨l', List.mem_cons_of_mem _ hl', ha⟩

end Separators
end RondeDesFacs
