import Mathlib.Data.Option.Basic
import Mathlib.Logic.Function.Basic

/-!
# Overlays

A partial function is changed by several parties, each of which lays its own entries over what
is there.  Whatever the order, every place shows the entry of somebody who has laid one there
(`Covers`), and this is kept when somebody lays another overlay (`Covers.or`).  So if the parties
agree in the end, the order has made no difference (`Covers.eq`).
-/

namespace RondeDesFacs
namespace Overlay

variable {ι α β : Type*} {base f g : α → Option β} {P : ι → α → Option β}

/-- Every place of `f` shows one of the overlays `P`, or `base` where there is none. -/
def Covers (base f : α → Option β) (P : ι → α → Option β) : Prop :=
  ∀ a, ((∀ i, P i a = none) ∧ f a = base a) ∨ ∃ i b, P i a = some b ∧ f a = some b

/-- No overlays. -/
theorem covers_none (base : α → Option β) : Covers base base fun (_ : ι) _ => none :=
  fun _ => Or.inl ⟨fun _ => rfl, rfl⟩

/-- **One party lays another overlay.** -/
theorem Covers.or [DecidableEq ι] (h : Covers base f P) (i : ι) (k : α → Option β) :
    Covers base (fun a => (k a).or (f a)) (Function.update P i fun a => (k a).or (P i a)) := by
  intro a
  rcases hk : k a with _ | b
  · rcases h a with ⟨hnone, hbase⟩ | ⟨j, b, hj, hf⟩
    · refine Or.inl ⟨fun j => ?_, (congrArg (·.or (f a)) hk).trans hbase⟩
      by_cases hij : j = i
      · rw [hij, Function.update_self, hk, Option.none_or, hnone]
      · rw [Function.update_of_ne hij, hnone]
    · refine Or.inr ⟨j, b, ?_, (congrArg (·.or (f a)) hk).trans hf⟩
      by_cases hij : j = i
      · rw [hij, Function.update_self, hk, Option.none_or, ← hij, hj]
      · rw [Function.update_of_ne hij, hj]
  · exact Or.inr ⟨i, b, by rw [Function.update_self, hk, Option.some_or],
      congrArg (·.or (f a)) hk⟩

/-- **Overlays that agree** give one function. -/
theorem Covers.eq (hf : Covers base f P) (hg : Covers base g P)
    (hagree : ∀ i j a, ∀ b ∈ P i a, ∀ c ∈ P j a, b = c) : f = g := by
  funext a
  rcases hf a with ⟨hnone, hbase⟩ | ⟨i, b, hi, hb⟩
  · rcases hg a with ⟨-, hbase'⟩ | ⟨j, c, hj, -⟩
    · rw [hbase, hbase']
    · rw [hnone] at hj
      cases hj
  · rcases hg a with ⟨hnone, -⟩ | ⟨j, c, hj, hc⟩
    · rw [hnone] at hi
      cases hi
    · rw [hb, hc, hagree i j a b hi c hj]

end Overlay
end RondeDesFacs
