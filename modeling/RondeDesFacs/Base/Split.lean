import RondeDesFacs.Base.Script
import RondeDesFacs.Library.Occurrence

/-!
# What a split gives

`split` cuts a string at the occurrences of a separator, the first one first.  Its first
piece (`avant`) is what stands before that: a string that is `Clear` of the separator goes
into the piece as it is, and at the separator the piece ends.
-/

namespace RondeDesFacs
namespace Script

open Occurrence

variable {sep : Chaine}

/-- The first piece of a split. -/
def avant (sep t : Chaine) : Chaine := (split sep t).headD []

theorem morceaux_saute (courant w t : Chaine) :
    morceaux sep w.length courant (w ++ t) = morceaux sep 0 courant t := by
  induction w with
  | nil => rfl
  | cons c w ih => exact ih

/-- What is clear of the separator is added to the piece. -/
theorem morceaux_append {a b : Chaine} (h : Clear sep a b) (courant : Chaine) :
    morceaux sep 0 courant (a ++ b) = morceaux sep 0 (courant ++ a) b := by
  induction a generalizing courant with
  | nil => rw [List.nil_append, List.append_nil]
  | cons c a ih =>
    obtain ⟨hc, ha⟩ := clear_cons.mp h
    have hstart : ¬ sep.isPrefixOf (c :: (a ++ b)) = true := fun hp =>
      hc (List.isPrefixOf_iff_prefix.mp hp)
    rw [List.cons_append, morceaux, if_neg hstart, ih ha, List.append_assoc, List.singleton_append]

/-- The units a piece has so far stand in front of it. -/
theorem morceaux_courant (n : ℕ) (courant t : Chaine) :
    morceaux sep n courant t = (morceaux sep n [] t).modifyHead (courant ++ ·) := by
  induction t generalizing n courant with
  | nil => simp [morceaux]
  | cons c t ih =>
    rcases n with _ | n
    · rw [morceaux, morceaux]
      split_ifs
      · simp
      · rw [ih, ih 0 ([] ++ [c]), List.modifyHead_modifyHead]
        simp [Function.comp_def]
    · exact ih n courant

/-- **A split at the separator.** -/
theorem split_sep (hsep : sep ≠ []) (t : Chaine) : split sep (sep ++ t) = [] :: split sep t := by
  obtain ⟨c, w, rfl⟩ := List.exists_cons_of_ne_nil hsep
  have hstart : (c :: w).isPrefixOf (c :: (w ++ t)) = true :=
    List.isPrefixOf_iff_prefix.mpr (List.prefix_append (c :: w) t)
  rw [split, List.cons_append, morceaux, if_pos hstart]
  exact congrArg _ (morceaux_saute [] w t)

/-- **A split goes on** through what is clear of the separator. -/
theorem split_append {a b : Chaine} (h : Clear sep a b) :
    split sep (a ++ b) = (split sep b).modifyHead (a ++ ·) := by
  rw [split, morceaux_append h, List.nil_append, morceaux_courant, split]

/-- A split at the first separator. -/
theorem split_append_sep (hsep : sep ≠ []) {a : Chaine} (h : Clear sep a sep) (t : Chaine) :
    split sep (a ++ (sep ++ t)) = a :: split sep t := by
  rw [split_append (h.append_right t), split_sep hsep, List.modifyHead_cons, List.append_nil]

theorem avant_append {a b : Chaine} (h : Clear sep a b) :
    avant sep (a ++ b) = a ++ avant sep b := by
  obtain ⟨p, ps, hp⟩ := List.exists_cons_of_ne_nil (split_ne_nil sep b)
  rw [avant, avant, split_append h, hp]
  rfl

theorem avant_append_sep (hsep : sep ≠ []) {a : Chaine} (h : Clear sep a sep) (t : Chaine) :
    avant sep (a ++ (sep ++ t)) = a := by
  rw [avant, split_append_sep hsep h]
  rfl

/-- Behind a separator nothing matters. -/
theorem avant_sep_append (hsep : sep ≠ []) (a t : Chaine) :
    avant sep (a ++ (sep ++ t)) = avant sep (a ++ sep) := by
  obtain ⟨c, r, hr, hc⟩ := exists_clear (List.suffix_append a sep).isInfix
  rw [← List.append_assoc, hr, avant_append_sep hsep hc, List.append_assoc, List.append_assoc,
    avant_append_sep hsep hc]

end Script
end RondeDesFacs
