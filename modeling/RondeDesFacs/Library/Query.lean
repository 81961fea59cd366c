import Mathlib.Algebra.BigOperators.Group.List.Lemmas
import Mathlib.Algebra.GroupWithZero.Nat
import Mathlib.Data.List.Dedup
import Mathlib.Data.List.Sort

/-!
# The operators of a query

Tables are lists of rows: a table may hold a row twice, and the order of its
list stands for whatever order the server scans it in.  The operators below are
the ones a `SELECT` is built from.

* `innerJoin`, with `map_fst_innerJoin`: when every row of the left table meets
  at most one row of the right one, joining is filtering.  This is what keys buy,
  and what makes `count(*)` over a join mean anything.
* `groupBy`, one group for each key, which loses no row
  (`sum_length_groupBy`), and `orderBy`, a stable sort.
* `limit`, and `RowOrder`, the freedom a server has in a `SELECT` without
  `ORDER BY`.
-/

namespace RondeDesFacs
namespace Query

variable {α β κ : Type*}

/-! ## Joins -/

/-- `l INNER JOIN r ON on`. -/
def innerJoin (l : List α) (r : List β) (on : α → β → Bool) : List (α × β) :=
  l.flatMap fun a => (r.filter (on a)).map (Prod.mk a)

/-- A condition on the right row may be moved into the join condition. -/
theorem filter_innerJoin (l : List α) (r : List β) (on : α → β → Bool) (p : α → β → Bool) :
    (innerJoin l r on).filter (fun x => p x.1 x.2) = innerJoin l r fun a b => on a b && p a b := by
  rw [innerJoin, innerJoin, List.filter_flatMap]
  refine List.flatMap_congr fun a _ => ?_
  rw [List.filter_map, List.filter_filter]
  refine congrArg _ (List.filter_congr fun b _ => ?_)
  simp [Bool.and_comm]

/-- **A join on a key is a filter.**  When every row of `l` meets at most one row
of `r`, the join holds each row of `l` that meets one, once. -/
theorem map_fst_innerJoin {l : List α} {r : List β} {on : α → β → Bool}
    (huniq : ∀ a ∈ l, (r.filter (on a)).length ≤ 1) :
    (innerJoin l r on).map Prod.fst = l.filter fun a => r.any (on a) := by
  induction l with
  | nil => rfl
  | cons a l ih =>
    have hl := ih fun b hb => huniq b (List.mem_cons_of_mem _ hb)
    have ha := huniq a (List.mem_cons_self ..)
    rw [innerJoin, List.flatMap_cons, List.map_append, ← innerJoin, hl, List.filter_cons]
    rcases hf : r.filter (on a) with _ | ⟨b, t⟩
    · have hany : r.any (on a) = false := by
        simpa [List.filter_eq_nil_iff] using hf
      simp [hany]
    · have ht : t = [] := by
        rw [hf, List.length_cons] at ha
        exact List.length_eq_zero_iff.mp (by omega)
      have hb : b ∈ r.filter (on a) := by rw [hf]; exact List.mem_cons_self ..
      have hany : r.any (on a) = true :=
        List.any_eq_true.mpr ⟨b, List.mem_of_mem_filter hb, List.of_mem_filter hb⟩
      simp [hany, ht]

/-- **A join on a key of the left table** lists the rows of the right one that meet a
row, each once. -/
theorem map_snd_innerJoin {l : List α} {r : List β} {on : α → β → Bool}
    (huniq : l.Pairwise fun a a' => ∀ b ∈ r, ¬ (on a b = true ∧ on a' b = true)) :
    ((innerJoin l r on).map Prod.snd).Perm (r.filter fun b => l.any fun a => on a b) := by
  induction l with
  | nil => simp [innerJoin]
  | cons a l ih =>
    obtain ⟨ha, hl⟩ := List.pairwise_cons.mp huniq
    have hfirst : ((r.filter (on a)).map (Prod.mk a)).map Prod.snd = r.filter (on a) := by
      rw [List.map_map]
      exact List.map_id _
    rw [innerJoin, List.flatMap_cons, List.map_append, ← innerJoin, hfirst]
    refine ((ih hl).append_left _).trans ?_
    -- what meets `a` and what meets a later row are two parts of what meets any
    have hmeets : r.filter (on a) =
        (r.filter fun b => (a :: l).any fun a' => on a' b).filter (on a) := by
      rw [List.filter_filter]
      refine List.filter_congr fun b _ => ?_
      rw [List.any_cons, Bool.and_or_distrib_left, Bool.and_self, Bool.or_eq_left_iff_imp.mpr]
      exact fun h => (Bool.and_eq_true_iff.mp h).1
    have hlater : (r.filter fun b => l.any fun a' => on a' b) =
        (r.filter fun b => (a :: l).any fun a' => on a' b).filter fun b => !on a b := by
      rw [List.filter_filter]
      refine List.filter_congr fun b hb => ?_
      rw [List.any_cons, Bool.eq_iff_iff]
      simp only [Bool.and_eq_true, Bool.or_eq_true, Bool.not_eq_true', List.any_eq_true]
      constructor
      · rintro ⟨a', ha', hon⟩
        exact ⟨Bool.eq_false_iff.mpr fun hona => ha a' ha' b hb ⟨hona, hon⟩, Or.inr ⟨a', ha', hon⟩⟩
      · rintro ⟨hona, hon | hon⟩
        · rw [hona] at hon
          cases hon
        · exact hon
    rw [hmeets, hlater]
    exact List.filter_append_perm _ _

/-- Rows told apart by a key meet a given row at most once. -/
theorem length_filter_le_one {r : List β} {p : β → Bool}
    (h : r.Pairwise fun b b' => ¬ (p b = true ∧ p b' = true)) : (r.filter p).length ≤ 1 := by
  have hpair : (r.filter p).Pairwise fun _ _ => False := by
    refine (h.filter p).imp_of_mem fun {b b'} hb hb' hnot => ?_
    exact hnot ⟨List.of_mem_filter hb, List.of_mem_filter hb'⟩
  rcases hf : r.filter p with _ | ⟨b, _ | ⟨b', t⟩⟩
  · simp
  · simp
  · rw [hf] at hpair
    exact absurd (List.rel_of_pairwise_cons hpair (List.mem_cons_self ..)) (by simp)

/-- **A key picks out one row.** -/
theorem filter_eq_singleton {f : α → κ} [DecidableEq κ] {l : List α} (h : (l.map f).Nodup) {a : α}
    (ha : a ∈ l) : l.filter (fun b => f b = f a) = [a] := by
  induction l with
  | nil => exact absurd ha List.not_mem_nil
  | cons b l ih =>
    rw [List.map_cons, List.nodup_cons] at h
    rcases List.mem_cons.mp ha with rfl | ha
    · rw [List.filter_cons_of_pos (by simp), List.filter_eq_nil_iff.mpr]
      intro b hb heq
      exact h.1 (of_decide_eq_true heq ▸ List.mem_map_of_mem hb)
    · have hne : f b ≠ f a := fun heq => h.1 (heq ▸ List.mem_map_of_mem ha)
      rw [List.filter_cons_of_neg (by simpa using hne), ih h.2 ha]

/-! ## Groups -/

section Groups

variable [DecidableEq κ] (key : α → κ)

/-- `GROUP BY key`: the rows of each key that occurs. -/
def groupBy (l : List α) : List (List α) :=
  (l.map key).dedup.map fun k => l.filter fun a => key a = k

variable {key}

theorem mem_groupBy_iff {l g : List α} :
    g ∈ groupBy key l ↔ ∃ a ∈ l, g = l.filter fun b => key b = key a := by
  simp only [groupBy, List.mem_map, List.mem_dedup]
  constructor
  · rintro ⟨k, ⟨a, ha, rfl⟩, rfl⟩
    exact ⟨a, ha, rfl⟩
  · rintro ⟨a, ha, rfl⟩
    exact ⟨key a, ⟨a, ha, rfl⟩, rfl⟩

theorem groupBy_eq_nil_iff {l : List α} : groupBy key l = [] ↔ l = [] := by
  rw [groupBy, List.map_eq_nil_iff, List.dedup_eq_nil, List.map_eq_nil_iff]

theorem ne_nil_of_mem_groupBy {l g : List α} (h : g ∈ groupBy key l) : g ≠ [] := by
  obtain ⟨a, ha, rfl⟩ := mem_groupBy_iff.mp h
  have hmem : a ∈ l.filter fun b => decide (key b = key a) :=
    List.mem_filter.mpr ⟨ha, decide_eq_true rfl⟩
  exact List.ne_nil_of_mem hmem

/-- Rows of different groups have different keys. -/
theorem pairwise_groupBy (l : List α) :
    (groupBy key l).Pairwise fun g g' => ∀ a ∈ g, ∀ b ∈ g', key a ≠ key b := by
  refine List.Pairwise.map _ ?_ (List.nodup_dedup (l.map key))
  intro k k' hne a ha b hb
  have h1 : key a = k := of_decide_eq_true (List.mem_filter.mp ha).2
  have h2 : key b = k' := of_decide_eq_true (List.mem_filter.mp hb).2
  rw [h1, h2]
  exact hne

/-- **Grouping loses no row.** -/
theorem sum_length_groupBy (l : List α) : ((groupBy key l).map List.length).sum = l.length := by
  have hcount : ∀ k, (l.filter fun a => decide (key a = k)).length = (l.map key).count k := by
    intro k
    rw [← List.countP_eq_length_filter, List.count, List.countP_map]
    rfl
  rw [groupBy, List.map_map, ← List.length_map key, ← List.sum_map_count_dedup_eq_length]
  exact congrArg List.sum (List.map_congr_left fun k _ => hcount k)

/-- **The group of a key** has the rows of that key; there may be none. -/
theorem sum_length_filter_groupBy (l : List α) (k : κ) :
    (((groupBy key l).filter fun g => g.head?.map key = some k).map List.length).sum =
      (l.filter fun a => key a = k).length := by
  have hkey : ∀ k' ∈ (l.map key).dedup,
      decide ((l.filter fun a => key a = k').head?.map key = some k) = decide (k' = k) := by
    intro k' hk'
    obtain ⟨a, ha, rfl⟩ := List.mem_map.mp (List.mem_dedup.mp hk')
    have hgroup : (l.filter fun b => decide (key b = key a)) ∈ groupBy key l :=
      mem_groupBy_iff.mpr ⟨a, ha, rfl⟩
    obtain ⟨b, g, hg⟩ := List.exists_cons_of_ne_nil (ne_nil_of_mem_groupBy hgroup)
    have hb : key b = key a := by
      have hmem : b ∈ l.filter fun b => decide (key b = key a) := by
        rw [hg]
        exact List.mem_cons_self ..
      exact of_decide_eq_true (List.mem_filter.mp hmem).2
    simp [hg, hb]
  have hone : (groupBy key l).filter (fun g => g.head?.map key = some k) =
      (List.replicate ((l.map key).dedup.count k) k).map fun k => l.filter fun a => key a = k := by
    rw [groupBy, List.filter_map, ← List.filter_eq]
    exact congrArg _ (List.filter_congr hkey)
  rw [hone, List.count_dedup]
  split_ifs with hmem
  · simp
  · have hnil : l.filter (fun a => decide (key a = k)) = [] :=
      List.filter_eq_nil_iff.mpr fun a ha heq =>
        hmem (List.mem_map.mpr ⟨a, ha, of_decide_eq_true heq⟩)
    rw [hnil]
    rfl

end Groups

/-! ## Counting in steps -/

theorem length_filter_lt_succ (f : α → ℕ) (l : List α) (n : ℕ) :
    (l.filter fun a => f a < n + 1).length =
      (l.filter fun a => f a < n).length + (l.filter fun a => f a = n).length := by
  simp only [← List.countP_eq_length_filter]
  induction l with
  | nil => rfl
  | cons a l ih =>
    simp only [List.countP_cons, ih, decide_eq_true_eq]
    split_ifs <;> omega

/-- **Rows that are added** add what they count, and if no row that was there counts anew
they are all that is added. -/
theorem length_filter_le_of_prefix {l l' : List α} (h : l <+: l') {p p' q : α → Bool}
    (hp : ∀ a ∈ l, p' a = true → p a = true) (hq : ∀ a ∈ l', p' a = true → q a = true) :
    (l'.filter p').length ≤ (l.filter p).length + ((l'.drop l.length).filter q).length := by
  obtain ⟨rest, rfl⟩ := h
  rw [List.filter_append, List.length_append, List.drop_left]
  simp only [← List.countP_eq_length_filter]
  refine Nat.add_le_add (List.countP_mono_left hp) (List.countP_mono_left fun a ha => ?_)
  exact hq a (List.mem_append_right _ ha)

/-- Counting value by value below a bound counts everything below it, once. -/
theorem sum_length_filter_range (f : α → ℕ) (l : List α) (n : ℕ) :
    ((List.range n).map fun v => (l.filter fun a => f a = v).length).sum =
      (l.filter fun a => f a < n).length := by
  induction n with
  | zero => simp
  | succ n ih =>
    rw [List.range_succ, List.map_append, List.sum_append, ih, List.map_singleton,
      List.sum_singleton, length_filter_lt_succ]

/-- A loop that does something at one value only. -/
theorem flatten_map_range_ite (l : List α) {v n : ℕ} (hv : v < n) :
    ((List.range n).map fun w => if w = v then l else []).flatten = l := by
  induction n with
  | zero => exact absurd hv (Nat.not_lt_zero v)
  | succ n ih =>
    rw [List.range_succ, List.map_append, List.flatten_append, List.map_singleton,
      List.flatten_singleton]
    rcases Nat.lt_succ_iff_lt_or_eq.mp hv with hlt | heq
    · rw [ih hlt, if_neg (Nat.ne_of_gt hlt), List.append_nil]
    · have hbefore : ((List.range n).map fun w => if w = v then l else []).flatten = [] := by
        refine List.flatten_eq_nil_iff.mpr fun m hm => ?_
        obtain ⟨w, hw, rfl⟩ := List.mem_map.mp hm
        have hwn := List.mem_range.mp hw
        rw [if_neg (by omega)]
      rw [hbefore, if_pos heq.symm, List.nil_append]

/-! ## Order and windows -/

/-- `ORDER BY le`, rows that tie staying in table order. -/
def orderBy (le : α → α → Bool) (l : List α) : List α :=
  l.insertionSort fun a b => le a b

theorem orderBy_perm (le : α → α → Bool) (l : List α) : (orderBy le l).Perm l :=
  List.perm_insertionSort _ l

/-- The rows come out in order. -/
theorem pairwise_orderBy {le : α → α → Bool} (htotal : ∀ a b, le a b || le b a)
    (htrans : ∀ a b c, le a b → le b c → le a c) (l : List α) :
    (orderBy le l).Pairwise fun a b => le a b = true := by
  have : Std.Total fun a b => le a b = true := ⟨fun a b => by simpa using htotal a b⟩
  have : IsTrans α fun a b => le a b = true := ⟨htrans⟩
  exact List.pairwise_insertionSort _ l

/-- Rows in order stay where they are. -/
theorem orderBy_eq_self {le : α → α → Bool} {l : List α}
    (h : l.Pairwise fun a b => le a b = true) : orderBy le l = l :=
  h.insertionSort_eq

/-- Ordering by a column commutes with the projection to it. -/
theorem map_orderBy {le : α → α → Bool} {le' : β → β → Bool} {f : α → β}
    (h : ∀ a b, le a b = le' (f a) (f b)) (l : List α) :
    (orderBy le l).map f = orderBy le' (l.map f) :=
  List.map_insertionSort _ _ _ _ fun a _ b _ => by rw [h]

/-- `LIMIT offset, count`. -/
def limit (offset count : ℕ) (l : List α) : List α := (l.drop offset).take count

/-- The order in which a server hands out the rows of a `SELECT` without
`ORDER BY`: any rearrangement. -/
structure RowOrder (α : Type*) where
  /-- The rows, as they are handed out. -/
  arrange : List α → List α
  /-- Nothing is lost and nothing is added. -/
  perm : ∀ l, (arrange l).Perm l

/-- The first row fetched. -/
def RowOrder.fetch (o : RowOrder α) (l : List α) : Option α := (o.arrange l).head?

theorem RowOrder.mem_of_fetch {o : RowOrder α} {l : List α} {a : α} (h : o.fetch l = some a) :
    a ∈ l :=
  (o.perm l).mem_iff.mp (List.mem_of_mem_head? h)

theorem RowOrder.exists_fetch {o : RowOrder α} {l : List α} (h : l ≠ []) :
    ∃ a, o.fetch l = some a := by
  rcases hl : o.arrange l with _ | ⟨a, t⟩
  · have hp := o.perm l
    rw [hl] at hp
    exact absurd hp.symm.eq_nil h
  · exact ⟨a, by rw [fetch, hl, List.head?_cons]⟩

/-- Table order. -/
def RowOrder.table : RowOrder α where
  arrange l := l
  perm := List.Perm.refl

/-- The order that hands out one chosen row first. -/
def RowOrder.startWith [DecidableEq α] (a : α) : RowOrder α where
  arrange l := if a ∈ l then a :: l.erase a else l
  perm l := by
    split_ifs with h
    · exact (List.perm_cons_erase h).symm
    · exact List.Perm.refl l

theorem RowOrder.fetch_startWith [DecidableEq α] {a : α} {l : List α} (h : a ∈ l) :
    (RowOrder.startWith a).fetch l = some a := by
  simp [fetch, startWith, h]

/-- The order that hands out some chosen rows first. -/
def RowOrder.startWithAll [DecidableEq α] (c : List α) : RowOrder α where
  arrange l := if c.Subperm l then c ++ l.diff c else l
  perm l := by
    split_ifs with h
    · exact List.subperm_append_diff_self_of_count_le (List.subperm_ext_iff.mp h)
    · exact List.Perm.refl l

theorem RowOrder.arrange_startWithAll [DecidableEq α] {c l : List α} (h : c.Subperm l) :
    (RowOrder.startWithAll c).arrange l = c ++ l.diff c :=
  if_pos h

end Query
end RondeDesFacs
