import Mathlib.Data.List.DropRight
import Mathlib.Data.List.Lex

/-!
# PAD SPACE collations

An SQL server does not compare text letter by letter.  A collation gives every
character a *weight*, two characters of one weight being the same to `=`, and a
PAD SPACE collation extends the shorter of two strings by spaces before it
compares them.  So a string stands for all the strings with the same weights and
any number of trailing spaces, and a comparison by `=` is a comparison of the
trimmed weight lists (`Collation.key`).

What a column of bounded width does to this is `same_take_iff`: cutting a string
at `n` characters changes what it is compared as exactly when something other
than spaces is cut off.
-/

namespace RondeDesFacs

/-- A collation over an alphabet.  The last field says that nothing but the space
itself weighs what a space weighs, so that padding and trimming agree. -/
structure Collation (α : Type*) where
  /-- The weight `=` compares a character by. -/
  weight : α → ℕ
  /-- The padding character. -/
  space : α
  /-- Only the space has the weight of a space. -/
  eq_space : ∀ a, weight a = weight space → a = space

namespace Collation

variable {α : Type*} [DecidableEq α] (c : Collation α)

/-- A string without its trailing spaces. -/
def trim (s : List α) : List α := s.rdropWhile fun a => a = c.space

/-- What `=` compares of a string. -/
def key (s : List α) : List ℕ := (c.trim s).map c.weight

/-- Two strings are equal for `=`. -/
def Same (s t : List α) : Prop := c.key s = c.key t

instance (s t : List α) : Decidable (c.Same s t) :=
  inferInstanceAs (Decidable (c.key s = c.key t))

/-- The weights of a string, padded to `n` characters. -/
def pad (n : ℕ) (s : List α) : List ℕ :=
  s.map c.weight ++ List.replicate (n - s.length) (c.weight c.space)

/-- The order of `ORDER BY`: lexicographic in the weights, the shorter string
padded. -/
def le (s t : List α) : Bool :=
  decide (c.pad (max s.length t.length) s ≤ c.pad (max s.length t.length) t)

@[refl] theorem Same.refl (s : List α) : c.Same s s := rfl

variable {c}

theorem Same.symm {s t : List α} (h : c.Same s t) : c.Same t s := Eq.symm h

theorem Same.trans {s t u : List α} (h : c.Same s t) (h' : c.Same t u) : c.Same s u :=
  Eq.trans h h'

/-! ## Trimming -/

@[simp] theorem trim_nil : c.trim [] = [] := by simp [trim]

theorem trim_eq_nil_iff {s : List α} : c.trim s = [] ↔ ∀ a ∈ s, a = c.space := by
  simp [trim, List.rdropWhile_eq_nil_iff]

@[simp] theorem trim_trim (s : List α) : c.trim (c.trim s) = c.trim s :=
  List.rdropWhile_idempotent _ _

/-- Trimming does not change what `=` compares. -/
@[simp] theorem key_trim (s : List α) : c.key (c.trim s) = c.key s := by
  rw [key, trim_trim, key]

theorem same_trim_iff {s t : List α} : c.Same s (c.trim t) ↔ c.Same s t := by
  rw [Same, Same, key_trim]

theorem trim_concat_space (s : List α) : c.trim (s ++ [c.space]) = c.trim s :=
  List.rdropWhile_concat_pos _ _ _ (decide_eq_true rfl)

theorem trim_concat_of_ne {b : α} (hb : b ≠ c.space) (s : List α) :
    c.trim (s ++ [b]) = s ++ [b] :=
  List.rdropWhile_concat_neg _ _ _ (by simpa using hb)

/-- Trailing spaces do not count. -/
theorem trim_append_of_forall (s : List α) {v : List α} (hv : ∀ a ∈ v, a = c.space) :
    c.trim (s ++ v) = c.trim s := by
  induction v using List.reverseRecOn with
  | nil => rw [List.append_nil]
  | append_singleton v b ih =>
    rw [← List.append_assoc, hv b (by simp), trim_concat_space]
    exact ih fun a ha => hv a (by simp [ha])

/-- A string that is not blank starts with its first character, trimmed or not. -/
theorem trim_cons (a : α) (s : List α) :
    c.trim (a :: s) = if a = c.space ∧ c.trim s = [] then [] else a :: c.trim s := by
  induction s using List.reverseRecOn with
  | nil =>
    by_cases h : a = c.space <;> simp [trim, List.rdropWhile_singleton, h]
  | append_singleton s b ih =>
    by_cases hb : b = c.space
    · rw [hb, ← List.cons_append, trim_concat_space, trim_concat_space, ih]
    · rw [← List.cons_append, trim_concat_of_ne hb, trim_concat_of_ne hb,
        if_neg (by simp), List.cons_append]

theorem trim_cons_of_ne {a : α} (h : a ≠ c.space) (s : List α) :
    c.trim (a :: s) = a :: c.trim s := by
  rw [trim_cons, if_neg fun h' => h h'.1]

theorem length_trim_cons_le (a : α) (s : List α) :
    (c.trim (a :: s)).length ≤ (c.trim s).length + 1 := by
  rw [trim_cons]
  split_ifs <;> simp

/-- A character in front of two strings does not change which counts for more. -/
theorem length_trim_cons_mono {s t : List α}
    (h : (c.trim s).length ≤ (c.trim t).length) (a : α) :
    (c.trim (a :: s)).length ≤ (c.trim (a :: t)).length := by
  rw [trim_cons, trim_cons]
  split_ifs with h1 h2 h2
  · exact le_rfl
  · exact Nat.zero_le _
  · -- the longer string is blank, so the shorter is too
    rw [h2.2, List.length_nil, Nat.le_zero, List.length_eq_zero_iff] at h
    exact absurd ⟨h2.1, h⟩ h1
  · exact Nat.succ_le_succ h

/-- Cutting a string cannot make more of it count. -/
theorem length_trim_take_le (n : ℕ) (s : List α) :
    (c.trim (s.take n)).length ≤ (c.trim s).length := by
  induction s generalizing n with
  | nil => simp
  | cons a s ih =>
    cases n with
    | zero => simp
    | succ n =>
      rw [List.take_succ_cons]
      exact length_trim_cons_mono (ih n) a

/-- Strings that are the same for `=` have the same number of characters that
count. -/
theorem Same.length_trim_eq {s t : List α} (h : c.Same s t) :
    (c.trim s).length = (c.trim t).length := by
  have h' := congrArg List.length (h : c.key s = c.key t)
  simpa [key] using h'

/-- **Cutting at a width.**  A string is the same for `=` as its first `n`
characters exactly when only spaces are cut off. -/
theorem same_take_iff (n : ℕ) (s : List α) :
    c.Same s (s.take n) ↔ ∀ a ∈ s.drop n, a = c.space := by
  constructor
  · intro h
    have hlen := h.length_trim_eq
    clear h
    induction s generalizing n with
    | nil => simp
    | cons a s ih =>
      cases n with
      | zero =>
        rw [List.take_zero, trim_nil, List.length_nil, List.length_eq_zero_iff] at hlen
        exact trim_eq_nil_iff.mp hlen
      | succ n =>
        rw [List.drop_succ_cons]
        refine ih n ?_
        rw [List.take_succ_cons, trim_cons, trim_cons] at hlen
        split_ifs at hlen with h1 h2 h2
        · rw [h1.2, h2.2]
        · simpa using hlen
  · intro h
    have htrim := trim_append_of_forall (s.take n) h
    rw [List.take_append_drop] at htrim
    rw [Same, key, key, htrim]

end Collation
end RondeDesFacs
