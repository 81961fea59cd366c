import Mathlib.Data.List.Perm.Basic
import Mathlib.Data.List.Induction
import Mathlib.Data.Option.Basic

/-!
# Writes in any order

An event writes at some places, and `w e k` is what the event `e` writes at `k`, if it
writes there.  A place keeps what was written to it last, so the order of the events
matters only where two of them write different values.

* `run_eq_some`: what a place shows was there, or some event wrote it.
* `run_eq_of_coherent`: events that never disagree may come in any order, and more than
  once.
* `forall_perm_run_eq_iff`: and no other events may.
-/

namespace RondeDesFacs
namespace Writes

variable {ε κ ν : Type*} (w : ε → κ → Option ν)

/-- The places after an event. -/
def write (T : κ → Option ν) (e : ε) : κ → Option ν := fun k => (w e k).or (T k)

/-- The places after some events. -/
def run (T : κ → Option ν) (es : List ε) : κ → Option ν := es.foldl (write w) T

/-- No two events write different values at a place. -/
def Coherent (es : List ε) : Prop :=
  ∀ e ∈ es, ∀ e' ∈ es, ∀ k, ∀ v ∈ w e k, ∀ v' ∈ w e' k, v = v'

variable {w} {T : κ → Option ν} {es es' : List ε} {k : κ} {v : ν}

theorem run_concat (T : κ → Option ν) (es : List ε) (e : ε) :
    run w T (es ++ [e]) = write w (run w T es) e := by
  rw [run, List.foldl_append]
  rfl

/-- The last event has the last word. -/
theorem run_concat_of_mem (T : κ → Option ν) (es : List ε) {e : ε} (hv : v ∈ w e k) :
    run w T (es ++ [e]) k = some v := by
  rw [run_concat, write, Option.mem_def.mp hv, Option.some_or]

/-- A place at which nothing is written. -/
theorem run_eq_of_forall_eq_none (h : ∀ e ∈ es, w e k = none) : run w T es k = T k := by
  induction es using List.reverseRecOn with
  | nil => rfl
  | append_singleton es e ih =>
    rw [List.forall_mem_append] at h
    rw [run_concat, write, h.2 e (List.mem_singleton_self e), Option.none_or, ih h.1]

/-- A place at which something is written shows one of the values written there. -/
theorem exists_run_eq {e : ε} (he : e ∈ es) (hk : (w e k).isSome) :
    ∃ e' ∈ es, (w e' k).isSome ∧ run w T es k = w e' k := by
  induction es using List.reverseRecOn with
  | nil => exact absurd he List.not_mem_nil
  | append_singleton es e' ih =>
    rw [run_concat, write]
    rcases hlast : w e' k with _ | v
    · have hbefore : e ∈ es := by
        rcases List.mem_append.mp he with h | h
        · exact h
        · rw [List.mem_singleton.mp h, hlast] at hk
          cases hk
      obtain ⟨d, hd, hsome, hrun⟩ := ih hbefore
      exact ⟨d, List.mem_append_left _ hd, hsome, by rw [Option.none_or, hrun]⟩
    · exact ⟨e', List.mem_append_right _ (List.mem_singleton_self e'), by rw [hlast]; rfl,
        by rw [hlast, Option.some_or]⟩

/-- **What a place shows** was there before, or was written there. -/
theorem run_eq_some (h : run w T es k = some v) : T k = some v ∨ ∃ e ∈ es, v ∈ w e k := by
  by_cases hw : ∃ e ∈ es, (w e k).isSome
  · obtain ⟨e, he, hsome⟩ := hw
    obtain ⟨e', he', -, hrun⟩ := exists_run_eq (T := T) he hsome
    exact Or.inr ⟨e', he', hrun.symm.trans h⟩
  · refine Or.inl ?_
    rw [run_eq_of_forall_eq_none fun e he => ?_] at h
    · exact h
    · exact Option.not_isSome_iff_eq_none.mp fun hsome => hw ⟨e, he, hsome⟩

/-- Where the events agree, a place shows what any of them writes. -/
theorem Coherent.run_eq (h : Coherent w es) {e : ε} (he : e ∈ es) (hv : v ∈ w e k) :
    run w T es k = some v := by
  obtain ⟨e', he', hsome, hrun⟩ := exists_run_eq (T := T) he (Option.isSome_of_mem hv)
  obtain ⟨v', hv'⟩ := Option.isSome_iff_exists.mp hsome
  rw [hrun, hv', h e he e' he' k v hv v' hv']

/-- **Events that never disagree** may come in any order, and more than once. -/
theorem run_eq_of_coherent (h : Coherent w es) (hsame : ∀ e, e ∈ es' ↔ e ∈ es) :
    run w T es' = run w T es := by
  have h' : Coherent w es' := fun e he e' he' =>
    h e ((hsame e).mp he) e' ((hsame e').mp he')
  funext k
  by_cases hw : ∃ e ∈ es, (w e k).isSome
  · obtain ⟨e, he, hsome⟩ := hw
    obtain ⟨v, hv⟩ := Option.isSome_iff_exists.mp hsome
    rw [h.run_eq he hv, h'.run_eq ((hsame e).mpr he) hv]
  · have hnone : ∀ e ∈ es, w e k = none := fun e he =>
      Option.not_isSome_iff_eq_none.mp fun hsome => hw ⟨e, he, hsome⟩
    rw [run_eq_of_forall_eq_none hnone,
      run_eq_of_forall_eq_none fun e he => hnone e ((hsame e).mp he)]

/-- An event of a list may come last. -/
theorem exists_perm_concat {e : ε} (he : e ∈ es) : ∃ l, (l ++ [e]).Perm es := by
  obtain ⟨before, after, rfl⟩ := List.append_of_mem he
  refine ⟨before ++ after, ?_⟩
  rw [List.append_assoc]
  exact List.Perm.append_left before List.perm_append_comm

/-- **When the order does not matter.** -/
theorem forall_perm_run_eq_iff :
    (∀ es', es'.Perm es → run w T es' = run w T es) ↔ Coherent w es := by
  constructor
  · intro h e he e' he' k v hv v' hv'
    obtain ⟨l, hl⟩ := exists_perm_concat he
    obtain ⟨l', hl'⟩ := exists_perm_concat he'
    have hrun := congrFun ((h _ hl).trans (h _ hl').symm) k
    rw [run_concat_of_mem T l hv, run_concat_of_mem T l' hv'] at hrun
    exact Option.some_inj.mp hrun
  · exact fun h es' hperm => run_eq_of_coherent h fun e => hperm.mem_iff

end Writes
end RondeDesFacs
