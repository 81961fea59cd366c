import Mathlib.Algebra.Order.Group.Int
import Mathlib.Tactic.Ring

/-!
# Cursors in a list

A cursor is a position in a list of some length, and 0 in the empty list (`InRange`).  It
moves by some number of places, or stays where it is if there is no such place (`move`).

`seek` moves it until it stands where it should.  It arrives if all places on the way are
there (`seek_eq_some`), and never does if no place of the list is the one it looks for
(`seek_eq_none`).
-/

namespace RondeDesFacs
namespace Cursor

/-- A position in a list of `n` entries. -/
def InRange (n : ℕ) (i : ℤ) : Prop := 0 ≤ i ∧ (i < n ∨ n = 0 ∧ i = 0)

/-- Moves a cursor by `d` places, if there is such a place. -/
def move (n : ℕ) (d i : ℤ) : ℤ := if 0 ≤ i + d ∧ i + d < n then i + d else i

/-- Moves a cursor until it stands at a place to stop at; none if the fuel does not suffice. -/
def seek (n : ℕ) (d : ℤ) (stop : ℤ → Bool) : ℕ → ℤ → Option ℤ
  | 0, _ => none
  | fuel + 1, i => if stop (move n d i) then some (move n d i) else seek n d stop fuel (move n d i)

variable {n : ℕ} {d i : ℤ} {stop : ℤ → Bool}

theorem InRange.move (h : InRange n i) (d : ℤ) : InRange n (move n d i) := by
  unfold Cursor.move
  split_ifs with hd
  · exact ⟨hd.1, Or.inl hd.2⟩
  · exact h

/-- An entry more leaves a cursor where it is. -/
theorem InRange.succ (h : InRange n i) : InRange (n + 1) i := by
  obtain ⟨hnonneg, hlt | ⟨rfl, rfl⟩⟩ := h
  · exact ⟨hnonneg, Or.inl (by omega)⟩
  · exact ⟨le_rfl, Or.inl (by omega)⟩

/-- **A cursor that looks for nothing in the list** never arrives. -/
theorem seek_eq_none (hstop : ∀ j, InRange n j → stop j = false) (h : InRange n i) (fuel : ℕ) :
    seek n d stop fuel i = none := by
  induction fuel generalizing i with
  | zero => rfl
  | succ fuel ih =>
    have hmove := h.move d
    rw [seek, hstop _ hmove, if_neg Bool.false_ne_true]
    exact ih hmove

/-- **A cursor arrives** after as many moves as it takes. -/
theorem seek_eq_some {m : ℕ} (hway : ∀ j : ℕ, 1 ≤ j → j ≤ m + 1 → 0 ≤ i + j * d ∧ i + j * d < n)
    (hgo : ∀ j : ℕ, 1 ≤ j → j ≤ m → stop (i + j * d) = false)
    (hstop : stop (i + (m + 1 : ℕ) * d) = true) :
    seek n d stop (m + 1) i = some (i + (m + 1 : ℕ) * d) := by
  induction m generalizing i with
  | zero =>
    have hmove : Cursor.move n d i = i + d := by
      have := hway 1 le_rfl le_rfl
      rw [Nat.cast_one, one_mul] at this
      exact if_pos this
    rw [zero_add, Nat.cast_one, one_mul] at hstop ⊢
    rw [seek, hmove, if_pos hstop]
  | succ m ih =>
    have hmove : Cursor.move n d i = i + d := by
      have := hway 1 le_rfl (by omega)
      rw [Nat.cast_one, one_mul] at this
      exact if_pos this
    have hfirst : stop (i + d) = false := by
      have := hgo 1 le_rfl (by omega)
      rwa [Nat.cast_one, one_mul] at this
    -- from the next place on, every place is one move nearer
    have hshift : ∀ j : ℕ, i + d + j * d = i + (j + 1 : ℕ) * d := by
      intro j
      push_cast
      ring
    rw [seek, hmove, hfirst, if_neg Bool.false_ne_true, ih, hshift]
    · intro j hj hjm
      rw [hshift]
      exact hway (j + 1) (by omega) (by omega)
    · intro j hj hjm
      rw [hshift]
      exact hgo (j + 1) (by omega) (by omega)
    · rw [hshift]
      exact hstop

end Cursor
end RondeDesFacs
