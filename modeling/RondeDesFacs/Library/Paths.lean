import Mathlib.Data.List.Basic

/-!
# Paths

A path names a place by its components, which stand between separators.  From a
directory an ordinary component leads down, the parent component leads up, and the
empty component and the one for the directory itself lead nowhere.  A directory is
the list of the names that lead to it, and above the first there is nothing.

What a program that appends to a path needs to know is where its own text ends up.
Text without separators goes into the last component (`splitOnP_append_of_forall`),
so the place of `s ++ t` is a child of where the *parents* of `s` lead
(`resolve_append_of_forall`): what `s` has before its last separator decides about
the directory, and nothing else does.
-/

namespace RondeDesFacs
namespace Paths

variable {α : Type*} [DecidableEq α]

/-- One component, from a directory. -/
def enter (dot : α) (dir : List (List α)) (c : List α) : List (List α) :=
  if c = [] ∨ c = [dot] then dir
  else if c = [dot, dot] then dir.dropLast
  else dir ++ [c]

/-- Where some components lead from a directory. -/
def follow (dot : α) (dir : List (List α)) (cs : List (List α)) : List (List α) :=
  cs.foldl (enter dot) dir

/-- The place of a relative path. -/
def resolve (sep : α → Bool) (dot : α) (dir : List (List α)) (path : List α) : List (List α) :=
  follow dot dir (path.splitOnP sep)

/-- The components before the last separator. -/
def parents (sep : α → Bool) (path : List α) : List (List α) := (path.splitOnP sep).dropLast

/-- What stands behind the last separator. -/
def base (sep : α → Bool) (path : List α) : List α := (path.splitOnP sep).getLastD []

variable {sep : α → Bool} {dot : α} {dir : List (List α)}

/-- An ordinary component. -/
theorem enter_of_ne {c : List α} (hne : c ≠ []) (hdot : c ≠ [dot]) (hup : c ≠ [dot, dot]) :
    enter dot dir c = dir ++ [c] := by
  rw [enter, if_neg (not_or.mpr ⟨hne, hdot⟩), if_neg hup]

omit [DecidableEq α] in
theorem parents_of_forall {path : List α} (h : ∀ c ∈ path, sep c = false) :
    parents sep path = [] := by
  rw [parents, List.splitOnP_eq_singleton h]
  rfl

omit [DecidableEq α] in
/-- **Text without separators** goes into the last component. -/
theorem splitOnP_append_of_forall (s : List α) {t : List α} (ht : ∀ c ∈ t, sep c = false) :
    (s ++ t).splitOnP sep = parents sep s ++ [base sep s ++ t] := by
  induction s with
  | nil =>
    rw [List.nil_append, List.splitOnP_eq_singleton ht]
    rfl
  | cons c s ih =>
    obtain ⟨a, l, hl⟩ := List.exists_cons_of_ne_nil (List.splitOnP_ne_nil sep s)
    rw [List.cons_append, List.splitOnP_cons_eq_if_modifyHead, ih, parents, parents, base, base,
      List.splitOnP_cons_eq_if_modifyHead, hl]
    by_cases hc : sep c = true
    · simp only [hc, if_true]
      rw [List.dropLast_cons_of_ne_nil (List.cons_ne_nil a l), List.getLastD_cons,
        List.getLastD_cons, List.getLastD_cons]
      rfl
    · simp only [hc, Bool.false_eq_true, if_false, List.modifyHead_cons]
      rcases l with _ | ⟨a', l⟩
      · rfl
      · rw [List.dropLast_cons_cons, List.dropLast_cons_cons]
        rfl

/-- A separator makes two steps of one path. -/
theorem resolve_append_cons (s : List α) {c : α} (hc : sep c = true) (t : List α) :
    resolve sep dot dir (s ++ c :: t) = resolve sep dot (resolve sep dot dir s) t := by
  rw [resolve, List.splitOnP_append_cons s t hc, follow, List.foldl_append]
  rfl

/-- **The directory of a path** is where its parents lead. -/
theorem resolve_append_of_forall (s : List α) {t : List α} (ht : ∀ c ∈ t, sep c = false) :
    resolve sep dot dir (s ++ t) =
      enter dot (follow dot dir (parents sep s)) (base sep s ++ t) := by
  rw [resolve, splitOnP_append_of_forall s ht, follow, List.foldl_append]
  rfl

end Paths
end RondeDesFacs
