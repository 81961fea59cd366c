import Mathlib.Data.List.Nodup
import Mathlib.Data.List.Perm.Basic
import Mathlib.Logic.Function.Basic

/-!
# Association lists

A map that remembers the order in which its keys came.  `get` reads a key, `put`
writes one: a key that is there keeps its place, a new one comes last.

The two laws are the usual ones (`get_put_self`, `get_put_of_ne`).  Where the keys
are distinct, which `put` preserves, the order does not matter to `get`
(`get_eq_of_perm`), and writing under a key that a filter drops is invisible behind
the filter (`filter_put_of_not`).
-/

namespace RondeDesFacs
namespace Association

variable {κ α β : Type*} [DecidableEq κ] {l m : List (κ × α)} {k k' : κ}

/-- What is stored under a key. -/
def get (l : List (κ × α)) (k : κ) : Option α := (l.find? fun e => e.1 = k).map Prod.snd

/-- Stores under a key. -/
def put (l : List (κ × α)) (k : κ) (a : α) : List (κ × α) :=
  match l with
  | [] => [(k, a)]
  | e :: l => if e.1 = k then (k, a) :: l else e :: put l k a

/-- The keys. -/
def keys (l : List (κ × α)) : List κ := l.map Prod.fst

@[simp] theorem get_nil : get ([] : List (κ × α)) k = none := rfl

theorem get_cons (e : κ × α) (l : List (κ × α)) (k : κ) :
    get (e :: l) k = if e.1 = k then some e.2 else get l k := by
  by_cases h : e.1 = k <;> simp [get, h]

@[simp] theorem get_put_self (l : List (κ × α)) (k : κ) (a : α) : get (put l k a) k = some a := by
  induction l with
  | nil => rw [put, get_cons, if_pos rfl]
  | cons e l ih =>
    rw [put]
    split_ifs with h
    · rw [get_cons, if_pos rfl]
    · rw [get_cons, if_neg h, ih]

theorem get_put_of_ne (h : k' ≠ k) (l : List (κ × α)) (a : α) :
    get (put l k a) k' = get l k' := by
  induction l with
  | nil => rw [put, get_cons, if_neg (Ne.symm h)]
  | cons e l ih =>
    rw [put]
    split_ifs with he
    · rw [get_cons, if_neg (Ne.symm h), get_cons, if_neg (he ▸ Ne.symm h)]
    · rw [get_cons, get_cons, ih]

theorem mem_keys_iff : k ∈ keys l ↔ ∃ a, get l k = some a := by
  induction l with
  | nil => simp [keys]
  | cons e l ih =>
    rw [keys, List.map_cons, List.mem_cons, get_cons]
    by_cases he : e.1 = k
    · simp [he]
    · rw [if_neg he, ← ih]
      exact or_iff_right fun h => he h.symm

theorem get_eq_none_iff : get l k = none ↔ k ∉ keys l := by
  rw [mem_keys_iff, Option.eq_none_iff_forall_ne_some, not_exists]

/-- A key that is there keeps its place, a new one comes last. -/
theorem keys_put (l : List (κ × α)) (k : κ) (a : α) :
    keys (put l k a) = if k ∈ keys l then keys l else keys l ++ [k] := by
  induction l with
  | nil => rfl
  | cons e l ih =>
    rw [put]
    by_cases he : e.1 = k
    · simp [he, keys]
    · have hmem : k ∈ keys (e :: l) ↔ k ∈ keys l := by
        rw [keys, List.map_cons, List.mem_cons]
        exact or_iff_right fun h => he h.symm
      rw [if_neg he]
      show e.1 :: keys (put l k a) = _
      rw [ih, ite_cond_congr (propext hmem)]
      split_ifs <;> rfl

theorem mem_keys_put {a : α} : k' ∈ keys (put l k a) ↔ k' = k ∨ k' ∈ keys l := by
  rw [keys_put]
  split_ifs with h
  · exact ⟨Or.inr, fun h' => h'.elim (fun heq => heq ▸ h) id⟩
  · rw [List.mem_append, List.mem_singleton, or_comm]

theorem put_of_notMem (h : k ∉ keys l) (a : α) : put l k a = l ++ [(k, a)] := by
  induction l with
  | nil => rfl
  | cons e l ih =>
    rw [keys, List.map_cons, List.mem_cons, not_or] at h
    rw [put, if_neg (Ne.symm h.1), ih h.2, List.cons_append]

/-- Writing what is there changes nothing. -/
theorem put_get {a : α} (h : get l k = some a) : put l k a = l := by
  induction l with
  | nil => cases h
  | cons e l ih =>
    rw [get_cons] at h
    rw [put]
    split_ifs at h ⊢ with he
    · rw [← he, ← Option.some.inj h]
    · rw [ih h]

theorem get_map_of_mem {ks : List κ} (hk : k ∈ ks) (f : κ → α) :
    get (ks.map fun k => (k, f k)) k = some (f k) := by
  induction ks with
  | nil => exact absurd hk List.not_mem_nil
  | cons k' ks ih =>
    rw [List.map_cons, get_cons]
    split_ifs with h
    · exact congrArg (fun k => some (f k)) h
    · exact ih ((List.mem_cons.mp hk).resolve_left (Ne.symm h))

/-- Writing into a table changes its function. -/
theorem put_map_of_mem {ks : List κ} (hks : ks.Nodup) (hk : k ∈ ks) (f : κ → α) (a : α) :
    put (ks.map fun k => (k, f k)) k a = ks.map fun k' => (k', Function.update f k a k') := by
  induction ks with
  | nil => exact absurd hk List.not_mem_nil
  | cons k' ks ih =>
    obtain ⟨hnotMem, hnodup⟩ := List.nodup_cons.mp hks
    rw [List.map_cons, List.map_cons, put]
    by_cases h : k' = k
    · subst h
      rw [if_pos rfl, Function.update_self]
      refine congrArg _ (List.map_congr_left fun k hk => ?_)
      have hne : k ≠ k' := fun heq => hnotMem (heq ▸ hk)
      rw [Function.update_of_ne hne]
    · rw [if_neg h, Function.update_of_ne h, ih hnodup ((List.mem_cons.mp hk).resolve_left
        (Ne.symm h))]

/-- Values that are made of others, each with its key. -/
theorem get_map (f : κ → β → α) (l : List (κ × β)) (k : κ) :
    get (l.map fun e => (e.1, f e.1 e.2)) k = (get l k).map (f k) := by
  induction l with
  | nil => rfl
  | cons e l ih =>
    rw [List.map_cons, get_cons, get_cons]
    split_ifs with h
    · rw [Option.map_some, ← h]
    · exact ih

theorem map_put (f : κ → β → α) (l : List (κ × β)) (k : κ) (b : β) :
    (put l k b).map (fun e => (e.1, f e.1 e.2)) =
      put (l.map fun e => (e.1, f e.1 e.2)) k (f k b) := by
  induction l with
  | nil => rfl
  | cons e l ih =>
    rw [List.map_cons, put, put]
    split_ifs
    · rfl
    · rw [List.map_cons, ih]

theorem nodup_keys_put (h : (keys l).Nodup) (k : κ) (a : α) : (keys (put l k a)).Nodup := by
  rw [keys_put]
  split_ifs with hk
  · exact h
  · exact h.append (List.nodup_singleton k) (List.disjoint_singleton.mpr hk)

/-- Where keys are distinct, a pair is what is stored under its key. -/
theorem get_eq_some_iff (hl : (keys l).Nodup) (k : κ) (a : α) : get l k = some a ↔ (k, a) ∈ l := by
  induction l with
  | nil => simp
  | cons e l ih =>
    rw [keys, List.map_cons, List.nodup_cons] at hl
    rw [get_cons, List.mem_cons]
    split_ifs with he
    · have hnot : (k, a) ∉ l := fun hmem => hl.1 (he ▸ List.mem_map_of_mem hmem)
      rw [or_iff_left hnot, Option.some_inj, Prod.ext_iff]
      exact ⟨fun h => ⟨he.symm, h.symm⟩, fun h => h.2.symm⟩
    · rw [ih hl.2]
      refine (or_iff_right fun h => he ?_).symm
      rw [← h]

/-- **Where keys are distinct, their order does not matter.** -/
theorem get_eq_of_perm (hl : (keys l).Nodup) (h : l.Perm m) (k : κ) : get l k = get m k := by
  refine Option.ext fun a => ?_
  rw [get_eq_some_iff hl, get_eq_some_iff ((h.map Prod.fst).nodup_iff.mp hl), h.mem_iff]

/-- Writing under a key that is filtered out changes nothing behind the filter. -/
theorem filter_put_of_not {p : κ → Bool} (hk : p k = false) (l : List (κ × α)) (a : α) :
    (put l k a).filter (fun e => p e.1) = l.filter fun e => p e.1 := by
  induction l with
  | nil => simp [put, hk]
  | cons e l ih =>
    rw [put]
    split_ifs with he
    · simp [he, hk]
    · rw [List.filter_cons, List.filter_cons, ih]

end Association
end RondeDesFacs
