import Mathlib.Data.Option.Basic
import Mathlib.Data.List.Basic

/-!
# Passes that may fail

A pass over a list threads a value through its entries (`foldlM`) or computes
something of each of them (`mapM`), and ends without a result as soon as an entry
has none.

* What every step preserves, a pass that ends preserves (`foldlM_inv`).
* A pass that fails exactly at missing entries ends exactly if none is missing
  (`forall_isSome_of_foldlM`, `isSome_foldlM`).
* Computing something of each entry and adding it up at once is the same as
  computing everything first (`foldlM_map_eq`).
-/

namespace RondeDesFacs
namespace Passes

variable {α β γ : Type*}

/-- **An invariant of passes.** -/
theorem foldlM_inv {f : β → α → Option β} {I : β → Prop}
    (hstep : ∀ b a b', I b → f b a = some b' → I b') {l : List α} {b r : β} (hb : I b)
    (h : l.foldlM f b = some r) : I r := by
  induction l generalizing b with
  | nil => exact Option.some_inj.mp h ▸ hb
  | cons a l ih =>
    rw [List.foldlM_cons] at h
    obtain ⟨b', hb', hl⟩ := Option.bind_eq_some_iff.mp h
    exact ih (hstep b a b' hb hb') hl

/-- A pass none of whose steps fails. -/
theorem foldlM_eq_foldl {f : β → α → Option β} {g : β → α → β} {l : List α}
    (h : ∀ b, ∀ a ∈ l, f b a = some (g b a)) (b : β) : l.foldlM f b = some (l.foldl g b) := by
  induction l generalizing b with
  | nil => rfl
  | cons a l ih =>
    rw [List.foldlM_cons, h b a (List.mem_cons_self ..)]
    exact ih (fun b a' ha' => h b a' (List.mem_cons_of_mem _ ha')) _

/-- What every step says of its entry, a pass that ends says of all. -/
theorem forall_of_foldlM {f : β → α → Option β} {P : α → Prop}
    (hstep : ∀ b a b', f b a = some b' → P a) {l : List α} {b r : β} (h : l.foldlM f b = some r) :
    ∀ a ∈ l, P a := by
  induction l generalizing b with
  | nil => exact fun a ha => absurd ha List.not_mem_nil
  | cons a l ih =>
    rw [List.foldlM_cons] at h
    obtain ⟨b', hb', hl⟩ := Option.bind_eq_some_iff.mp h
    exact List.forall_mem_cons.mpr ⟨hstep b a b' hb', ih hl⟩

/-! ## Missing entries -/

section Missing

variable {f : β → Option α → Option β}

/-- A pass that fails where an entry is missing ends only if none is. -/
theorem forall_isSome_of_foldlM (hf : ∀ b, f b none = none) {l : List (Option α)} {b r : β}
    (h : l.foldlM f b = some r) : ∀ e ∈ l, e.isSome := by
  induction l generalizing b with
  | nil => exact fun e he => absurd he List.not_mem_nil
  | cons e l ih =>
    rw [List.foldlM_cons] at h
    obtain ⟨b', hb', hl⟩ := Option.bind_eq_some_iff.mp h
    rcases e with _ | a
    · rw [hf] at hb'
      cases hb'
    · exact List.forall_mem_cons.mpr ⟨rfl, ih hl⟩

/-- A pass that fails nowhere else ends if no entry is missing. -/
theorem isSome_foldlM (hf : ∀ b a, (f b (some a)).isSome) {l : List (Option α)}
    (hl : ∀ e ∈ l, e.isSome) (b : β) : (l.foldlM f b).isSome := by
  induction l generalizing b with
  | nil => rfl
  | cons e l ih =>
    obtain ⟨he, hrest⟩ := List.forall_mem_cons.mp hl
    obtain ⟨a, rfl⟩ := Option.isSome_iff_exists.mp he
    obtain ⟨b', hb'⟩ := Option.isSome_iff_exists.mp (hf b a)
    rw [List.foldlM_cons, hb']
    exact ih hrest b'

end Missing

/-! ## Something of each entry -/

section Each

variable {f : α → Option γ} {l : List α} {cs : List γ}

theorem mapM_cons_eq_some_iff {a : α} :
    (a :: l).mapM f = some cs ↔ ∃ c cs', f a = some c ∧ l.mapM f = some cs' ∧ c :: cs' = cs := by
  rw [List.mapM_cons]
  rcases f a with _ | c
  · simp
  · rcases l.mapM f with _ | cs' <;> simp

/-- Everything can be computed. -/
theorem mapM_eq_map {g : α → γ} (h : ∀ a ∈ l, f a = some (g a)) : l.mapM f = some (l.map g) := by
  induction l with
  | nil => rfl
  | cons a l ih =>
    obtain ⟨ha, hrest⟩ := List.forall_mem_cons.mp h
    exact mapM_cons_eq_some_iff.mpr ⟨g a, l.map g, ha, ih hrest, rfl⟩

/-- What has been computed of an entry. -/
theorem exists_of_mapM (h : l.mapM f = some cs) {a : α} (ha : a ∈ l) :
    ∃ c ∈ cs, f a = some c := by
  induction l generalizing cs with
  | nil => exact absurd ha List.not_mem_nil
  | cons a' l ih =>
    obtain ⟨c, cs', hc, hcs', rfl⟩ := mapM_cons_eq_some_iff.mp h
    rcases List.mem_cons.mp ha with rfl | ha
    · exact ⟨c, List.mem_cons_self .., hc⟩
    · obtain ⟨c', hc', hf⟩ := ih hcs' ha
      exact ⟨c', List.mem_cons_of_mem _ hc', hf⟩

/-- What holds of everything that can be computed of an entry. -/
theorem forall_of_mapM {P : γ → Prop} (hf : ∀ a c, f a = some c → P c)
    (h : l.mapM f = some cs) : ∀ c ∈ cs, P c := by
  induction l generalizing cs with
  | nil =>
    obtain rfl : [] = cs := Option.some_inj.mp h
    exact fun c hc => absurd hc List.not_mem_nil
  | cons a l ih =>
    obtain ⟨c, cs', hc, hcs', rfl⟩ := mapM_cons_eq_some_iff.mp h
    exact List.forall_mem_cons.mpr ⟨hf a c hc, ih hcs'⟩

/-- **Adding up at once** what is computed of each entry. -/
theorem foldlM_map_eq (f : α → Option γ) (g : β → γ → β) (l : List α) (b : β) :
    l.foldlM (fun b a => (f a).map (g b)) b = (l.mapM f).map fun cs => cs.foldl g b := by
  induction l generalizing b with
  | nil => rfl
  | cons a l ih =>
    rw [List.foldlM_cons, List.mapM_cons]
    rcases f a with _ | c
    · rfl
    · show l.foldlM _ (g b c) = _
      rw [ih]
      rcases l.mapM f with _ | cs <;> rfl

end Each

end Passes
end RondeDesFacs
