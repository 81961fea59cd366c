import Mathlib.Data.List.TakeWhile

/-!
# Terminated strings

A string that ends at the first terminator is a *reading* of memory, not an
object with a length of its own: `upTo z l` is what a reader sees that starts at
the beginning of `l` and stops at the first `z`.  Where the terminator occurs in
the first part of the memory, nothing after that part is seen
(`upTo_append_of_mem`); where it does not, the reader walks on
(`upTo_append_of_notMem`).
-/

namespace RondeDesFacs
namespace Terminated

variable {α : Type*} [DecidableEq α] {z : α} {l m : List α}

/-- The entries before the first terminator. -/
def upTo (z : α) (l : List α) : List α := l.takeWhile fun a => a ≠ z

@[simp] theorem upTo_nil : upTo z ([] : List α) = [] := rfl

@[simp] theorem upTo_cons_self : upTo z (z :: l) = [] := by
  simp [upTo]

@[simp] theorem upTo_cons_of_ne {a : α} (h : a ≠ z) : upTo z (a :: l) = a :: upTo z l := by
  simp [upTo, h]

theorem notMem_upTo : z ∉ upTo z l := fun h => by
  have hz := List.mem_takeWhile_imp h
  simp at hz

/-- Without a terminator everything is read. -/
theorem upTo_append_of_notMem (h : z ∉ l) : upTo z (l ++ m) = l ++ upTo z m := by
  induction l with
  | nil => rfl
  | cons a l ih =>
    rw [List.mem_cons, not_or] at h
    rw [List.cons_append, upTo_cons_of_ne (Ne.symm h.1), ih h.2, List.cons_append]

/-- **Nothing past a terminator is seen.** -/
theorem upTo_append_of_mem (h : z ∈ l) : upTo z (l ++ m) = upTo z l := by
  induction l with
  | nil => exact absurd h List.not_mem_nil
  | cons a l ih =>
    by_cases ha : a = z
    · rw [ha, List.cons_append, upTo_cons_self, upTo_cons_self]
    · have hl : z ∈ l := (List.mem_cons.mp h).resolve_left (Ne.symm ha)
      rw [List.cons_append, upTo_cons_of_ne ha, upTo_cons_of_ne ha, ih hl]

/-- A terminated string and what stands after its terminator. -/
theorem exists_eq_upTo_append (h : z ∈ l) : ∃ m, l = upTo z l ++ z :: m := by
  obtain ⟨s, m, rfl, hs⟩ := List.eq_append_cons_of_mem h
  refine ⟨m, ?_⟩
  rw [upTo_append_of_notMem hs, upTo_cons_self, List.append_nil]

/-- The terminator stands after the string. -/
theorem length_upTo_lt (h : z ∈ l) : (upTo z l).length < l.length := by
  obtain ⟨m, hm⟩ := exists_eq_upTo_append h
  have hlen := congrArg List.length hm
  rw [List.length_append, List.length_cons] at hlen
  omega

/-- The string ends where a terminator is found. -/
theorem length_upTo_le_of_getD {i : ℕ} (h : l.getD i z = z) : (upTo z l).length ≤ i := by
  induction l generalizing i with
  | nil => exact Nat.zero_le _
  | cons a l ih =>
    by_cases ha : a = z
    · rw [ha, upTo_cons_self]
      exact Nat.zero_le _
    · cases i with
      | zero => exact absurd h ha
      | succ i =>
        rw [upTo_cons_of_ne ha, List.length_cons]
        exact Nat.succ_le_succ (ih h)

theorem isPrefix_upTo (z : α) (l : List α) : upTo z l <+: l := List.takeWhile_prefix _

end Terminated
end RondeDesFacs
