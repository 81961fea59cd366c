import Mathlib.Data.List.Basic

/-!
# Where a pattern occurs first

A list is `Clear` of a pattern, with another list behind it, if no occurrence of the pattern
begins in it; one may end in it, or begin where it ends.  A list that has the pattern in it is
cut at the first occurrence: into what is clear of it, the pattern, and the rest
(`exists_clear`).
-/

namespace RondeDesFacs
namespace Occurrence

variable {α : Type}

/-- No occurrence of `p` begins in `a`, where `b` follows. -/
def Clear (p a b : List α) : Prop := ∀ w, w <:+ a → w ≠ [] → ¬ p <+: w ++ b

variable {p a b : List α}

theorem clear_nil (p b : List α) : Clear p [] b :=
  fun _ hw hne => absurd (List.suffix_nil.mp hw) hne

theorem clear_cons {x : α} : Clear p (x :: a) b ↔ ¬ p <+: x :: (a ++ b) ∧ Clear p a b := by
  constructor
  · exact fun h => ⟨h (x :: a) (List.suffix_refl _) (List.cons_ne_nil _ _),
      fun w hw => h w (hw.trans (List.suffix_cons x a))⟩
  · rintro ⟨hx, ha⟩ w hw hne
    rcases List.suffix_cons_iff.mp hw with rfl | hw
    · exact hx
    · exact ha w hw hne

/-- A pattern that does not begin with any entry of the list. -/
theorem clear_of_notMem {x : α} (h : x ∉ a) (p b : List α) : Clear (x :: p) a b := by
  intro w hw hne hstart
  obtain ⟨y, w, rfl⟩ := List.exists_cons_of_ne_nil hne
  rw [List.cons_append, List.cons_prefix_cons] at hstart
  exact h (hstart.1 ▸ hw.subset (List.mem_cons_self ..))

/-- What stands behind the pattern makes no difference. -/
theorem Clear.append_right (h : Clear p a p) (r : List α) : Clear p a (p ++ r) := by
  intro w hw hne hstart
  rw [← List.append_assoc] at hstart
  refine h w hw hne (List.prefix_of_prefix_length_le hstart (List.prefix_append _ r) ?_)
  rw [List.length_append]
  exact Nat.le_add_left _ _

/-- **The first occurrence.** -/
theorem exists_clear {t : List α} (h : p <:+: t) : ∃ a r, t = a ++ (p ++ r) ∧ Clear p a p := by
  induction t with
  | nil =>
    rw [List.infix_nil.mp h]
    exact ⟨[], [], rfl, clear_nil _ _⟩
  | cons x t ih =>
    by_cases hstart : p <+: x :: t
    · obtain ⟨r, hr⟩ := hstart
      exact ⟨[], r, hr.symm, clear_nil _ _⟩
    · obtain ⟨a, r, rfl, ha⟩ := ih ((List.infix_cons_iff.mp h).resolve_left hstart)
      refine ⟨x :: a, r, rfl, clear_cons.mpr ⟨fun hx => hstart (hx.trans ?_), ha⟩⟩
      rw [← List.append_assoc, ← List.cons_append]
      exact List.prefix_append _ r

end Occurrence
end RondeDesFacs
