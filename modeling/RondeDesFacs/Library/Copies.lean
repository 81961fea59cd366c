import Mathlib.Data.List.Nodup
import Mathlib.Data.Set.Function
import Mathlib.Logic.Function.Basic

/-!
# Copies in place

Places `ps` are overwritten one after the other with what is then in the places `qs`.  This is
no simultaneous assignment: a place that has been overwritten is read with its new content.

If the places are read in their own order nothing happens (`copie_self`).  If they are read in
any other order, with each read once, then something is lost (`exists_lost`): at the first
place that is not its own source, what was there is nowhere else, and nobody has read it.
-/

namespace RondeDesFacs
namespace Copies

variable {ι α β : Type} [DecidableEq ι]

/-- The contents after the copies, and what was copied. -/
def copie : List ι → List ι → (ι → α) → (ι → α) × List α
  | p :: ps, q :: qs, h =>
    let r := copie ps qs (Function.update h p (h q))
    (r.1, h q :: r.2)
  | _, _, h => (h, [])

variable {ps qs : List ι} {h : ι → α}

@[simp] theorem copie_nil (qs : List ι) (h : ι → α) : copie [] qs h = (h, []) := by
  cases qs <;> rfl

theorem copie_cons (p q : ι) (ps qs : List ι) (h : ι → α) :
    copie (p :: ps) (q :: qs) h =
      ((copie ps qs (Function.update h p (h q))).1,
        h q :: (copie ps qs (Function.update h p (h q))).2) := rfl

/-- Places read in their own order keep what they have. -/
theorem copie_self (ps : List ι) (h : ι → α) : copie ps ps h = (h, ps.map h) := by
  induction ps with
  | nil => exact copie_nil [] h
  | cons p ps ih => rw [copie_cons, Function.update_eq_self, ih, List.map_cons]

theorem length_copie (hlength : ps.length = qs.length) : (copie ps qs h).2.length = ps.length := by
  induction ps generalizing qs h with
  | nil => rw [copie_nil]; rfl
  | cons p ps ih =>
    rcases qs with _ | ⟨q, qs⟩
    · cases hlength
    · rw [copie_cons, List.length_cons, List.length_cons, ih (Nat.succ_inj.mp hlength)]

/-- What is in none of the places that are read is not copied. -/
theorem notMem_copie {f : α → β} {v : β} (hv : ∀ q ∈ qs, f (h q) ≠ v) :
    v ∉ (copie ps qs h).2.map f := by
  induction ps generalizing qs h with
  | nil => rw [copie_nil]; exact List.not_mem_nil
  | cons p ps ih =>
    rcases qs with _ | ⟨q, qs⟩
    · exact List.not_mem_nil
    · rw [List.forall_mem_cons] at hv
      rw [copie_cons, List.map_cons, List.mem_cons, not_or]
      refine ⟨hv.1.symm, ih fun q' hq' => ?_⟩
      by_cases heq : q' = p
      · rw [heq, Function.update_self]
        exact hv.1
      · rw [Function.update_of_ne heq]
        exact hv.2 q' hq'

/-- **Something is lost** if the places are not read in their own order. -/
theorem exists_lost {f : α → β} (hperm : qs.Perm ps) (hps : ps.Nodup)
    (hinj : Set.InjOn (fun p => f (h p)) {p | p ∈ ps}) (hne : qs ≠ ps) :
    ∃ q ∈ qs, f (h q) ∉ (copie ps qs h).2.map f := by
  induction ps generalizing qs h with
  | nil => exact absurd hperm.eq_nil hne
  | cons p ps ih =>
    rcases qs with _ | ⟨q, qs⟩
    · exact absurd hperm.symm.eq_nil (List.cons_ne_nil _ _)
    · have hqs : (q :: qs).Nodup := hperm.nodup_iff.mpr hps
      rw [List.nodup_cons] at hps hqs
      by_cases heq : q = p
      · -- nothing happens here, so it is later that something is lost
        subst heq
        have hrest : qs ≠ ps := fun hrest => hne (congrArg (q :: ·) hrest)
        have hinj' : Set.InjOn (fun p => f (h p)) {p | p ∈ ps} :=
          hinj.mono fun p hp => List.mem_cons_of_mem q hp
        obtain ⟨r, hr, hlost⟩ := ih (hperm.cons_inv) hps.2 hinj' hrest
        rw [copie_cons, Function.update_eq_self]
        refine ⟨r, List.mem_cons_of_mem _ hr, ?_⟩
        rw [List.map_cons, List.mem_cons, not_or]
        refine ⟨fun hsame => hqs.1 ?_, hlost⟩
        have hmem : r ∈ q :: ps := hperm.subset (List.mem_cons_of_mem _ hr)
        exact hinj hmem (List.mem_cons_self ..) hsame ▸ hr
      · -- what was in `p` is overwritten before it is read
        have hp : p ∈ q :: qs := hperm.symm.subset (List.mem_cons_self ..)
        have hq : q ∈ p :: ps := hperm.subset (List.mem_cons_self ..)
        have hqp : f (h q) ≠ f (h p) := fun hsame => heq (hinj hq (List.mem_cons_self ..) hsame)
        refine ⟨p, hp, ?_⟩
        rw [copie_cons, List.map_cons, List.mem_cons, not_or]
        refine ⟨hqp.symm, notMem_copie fun q' hq' => ?_⟩
        by_cases heq' : q' = p
        · rw [heq', Function.update_self]
          exact hqp
        · rw [Function.update_of_ne heq']
          have hmem : q' ∈ p :: ps := hperm.subset (List.mem_cons_of_mem _ hq')
          exact fun hsame => heq' (hinj hmem (List.mem_cons_self ..) hsame)

end Copies
end RondeDesFacs
