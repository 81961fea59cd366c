import Mathlib.Algebra.BigOperators.Group.List.Basic
import Mathlib.Logic.Function.Basic

/-!
# Tallies

Amounts are added up by key: an entry adds its amount to what its key has, and a key
that has nothing yet starts at zero.  `tally` is the table after a list of entries,
and `total` what the entries of one key add up to.

* `tally_apply`, `tally_of_eq_some`: every key has what it had, and its total.
* `total_filter`: entries of other keys may be left out.
* `sum_total`: the totals of the keys add up to the total of all entries.
-/

namespace RondeDesFacs
namespace Tally

variable {κ M : Type*} [DecidableEq κ] [AddCommMonoid M]

/-- One more entry. -/
def bump (T : κ → Option M) (k : κ) (m : M) : κ → Option M :=
  Function.update T k (some ((T k).getD 0 + m))

/-- The table after some entries. -/
def tally (T : κ → Option M) (l : List (κ × M)) : κ → Option M :=
  l.foldl (fun T e => bump T e.1 e.2) T

/-- What the entries of a key add up to. -/
def total (l : List (κ × M)) (k : κ) : M := ((l.filter fun e => e.1 = k).map Prod.snd).sum

theorem bump_self (T : κ → Option M) (k : κ) (m : M) :
    bump T k m k = some ((T k).getD 0 + m) :=
  Function.update_self ..

theorem bump_of_ne {k k' : κ} (h : k' ≠ k) (T : κ → Option M) (m : M) : bump T k m k' = T k' :=
  Function.update_of_ne h ..

theorem total_cons (e : κ × M) (l : List (κ × M)) (k : κ) :
    total (e :: l) k = (if e.1 = k then e.2 else 0) + total l k := by
  unfold total
  by_cases h : e.1 = k
  · rw [List.filter_cons_of_pos (by simpa using h), List.map_cons, List.sum_cons, if_pos h]
  · rw [List.filter_cons_of_neg (by simpa using h), if_neg h, zero_add]

theorem total_of_notMem {l : List (κ × M)} {k : κ} (h : k ∉ l.map Prod.fst) : total l k = 0 := by
  rw [total, List.filter_eq_nil_iff.mpr]
  · rfl
  · intro e he heq
    exact h (of_decide_eq_true heq ▸ List.mem_map_of_mem he)

/-- **What a tally comes to.** -/
theorem tally_apply (T : κ → Option M) (l : List (κ × M)) (k : κ) :
    tally T l k = if k ∈ l.map Prod.fst then some ((T k).getD 0 + total l k) else T k := by
  induction l generalizing T with
  | nil => rfl
  | cons e l ih =>
    have hstep : tally T (e :: l) = tally (bump T e.1 e.2) l := rfl
    rw [hstep, ih, total_cons, List.map_cons]
    by_cases hk : e.1 = k
    · subst hk
      rw [bump_self, if_pos rfl, if_pos (List.mem_cons_self ..), Option.getD_some, add_assoc]
      split_ifs with hmem
      · rfl
      · rw [total_of_notMem hmem, add_zero]
    · have hmem : k ∈ e.1 :: l.map Prod.fst ↔ k ∈ l.map Prod.fst :=
        List.mem_cons.trans (or_iff_right (Ne.symm hk))
      rw [bump_of_ne (Ne.symm hk), if_neg hk, zero_add]
      simp only [hmem]

/-- A key that has something has its total besides. -/
theorem tally_of_eq_some {T : κ → Option M} {k : κ} {m : M} (h : T k = some m)
    (l : List (κ × M)) : tally T l k = some (m + total l k) := by
  rw [tally_apply, h]
  split_ifs with hk
  · rfl
  · rw [total_of_notMem hk, add_zero]

/-- Entries of other keys may be left out. -/
theorem total_filter {p : κ × M → Bool} {l : List (κ × M)} {k : κ}
    (h : ∀ e ∈ l, e.1 = k → p e = true) : total (l.filter p) k = total l k := by
  rw [total, total, List.filter_filter]
  refine congrArg (fun l : List (κ × M) => (l.map Prod.snd).sum) (List.filter_congr fun e he => ?_)
  by_cases hk : e.1 = k
  · simp [hk, h e he hk]
  · simp [hk]

/-- One key among distinct ones. -/
theorem sum_map_ite_of_mem {ks : List κ} (hks : ks.Nodup) {k : κ} (hk : k ∈ ks) (m : M) :
    (ks.map fun k' => if k = k' then m else 0).sum = m := by
  induction ks with
  | nil => exact absurd hk List.not_mem_nil
  | cons k' ks ih =>
    obtain ⟨hnotMem, hnodup⟩ := List.nodup_cons.mp hks
    rw [List.map_cons, List.sum_cons]
    rcases List.mem_cons.mp hk with rfl | hk
    · have hrest : (ks.map fun k' => if k = k' then m else 0) = ks.map fun _ => 0 :=
        List.map_congr_left fun k' hk' => if_neg fun h : k = k' => hnotMem (h ▸ hk')
      rw [if_pos rfl, hrest, List.sum_map_zero, add_zero]
    · have hne : k ≠ k' := fun h => hnotMem (h ▸ hk)
      rw [if_neg hne, zero_add, ih hnodup hk]

/-- **The totals add up to the total.** -/
theorem sum_total {l : List (κ × M)} {ks : List κ} (hks : ks.Nodup)
    (hl : ∀ e ∈ l, e.1 ∈ ks) : (ks.map (total l)).sum = (l.map Prod.snd).sum := by
  induction l with
  | nil =>
    have hzero : ks.map (total ([] : List (κ × M))) = ks.map fun _ => 0 := rfl
    rw [hzero, List.sum_map_zero, List.map_nil, List.sum_nil]
  | cons e l ih =>
    obtain ⟨he, hrest⟩ := List.forall_mem_cons.mp hl
    have hsplit : ks.map (total (e :: l)) =
        ks.map fun k => (if e.1 = k then e.2 else 0) + total l k :=
      List.map_congr_left fun k _ => total_cons e l k
    rw [hsplit, List.sum_map_add, sum_map_ite_of_mem hks he, ih hrest, List.map_cons, List.sum_cons]

end Tally
end RondeDesFacs
