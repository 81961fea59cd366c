import RondeDesFacs.Base.Text

/-!
# Values and strings of PHP

The pages read `$_POST`, whose values are strings or arrays, and pass them through
a handful of library functions.  A PHP string is a list of bytes.

The one function with a theory is `stripslashes`, which the registration applies to
every field and the login to none.  It shortens a string by a character that counts
wherever it finds a backslash, trailing or not, so a string with a backslash is
never stored as what was typed (`length_trim_stripslashes_lt`).
-/

namespace RondeDesFacs
namespace Web

/-- A value of `$_POST`. -/
inductive Valeur where
  | texte (b : Bytes)
  | tableau (entrees : List (Bytes × Valeur))

/-- An array of `$_POST` values. -/
abbrev Post := List (Bytes × Valeur)

/-- `$post[key]`, null if there is none. -/
def Post.get (post : Post) (key : Bytes) : Option Valeur :=
  (post.find? fun e => e.1 = key).map Prod.snd

/-- `stripslashes` of a string. -/
def stripslashes : Bytes → Bytes
  | [] => []
  | [c] => if c = 0x5C then [] else [c]
  | c :: c' :: b =>
    if c = 0x5C then (if c' = 0x30 then 0 else c') :: stripslashes b
    else c :: stripslashes (c' :: b)

/-- `stripslashes` of a value: null for an array. -/
def Valeur.stripslashes : Valeur → Option Bytes
  | .texte b => some (Web.stripslashes b)
  | .tableau _ => none

/-- `empty`. -/
def vide : Option Valeur → Bool
  | none => true
  | some (.texte b) => decide (b = []) || decide (b = ascii "0")
  | some (.tableau entrees) => entrees.isEmpty

/-- What the driver makes of a value it binds to a parameter. -/
def parametre : Option Valeur → Option Bytes
  | none => none
  | some (.texte b) => some b
  | some (.tableau _) => some (ascii "Array")

/-- `strrchr`: the end of a string from the last occurrence of a character on. -/
def strrchr (c : UInt8) : Bytes → Option Bytes
  | [] => none
  | x :: b =>
    match strrchr c b with
    | some s => some s
    | none => if x = c then some (x :: b) else none

/-- `strtolower`, of ASCII letters. -/
def strtolower (b : Bytes) : Bytes :=
  b.map fun x => if 0x41 ≤ x ∧ x ≤ 0x5A then x + 0x20 else x

/-! ## `stripslashes` -/

/-- Without a backslash nothing happens. -/
theorem stripslashes_of_notMem {b : Bytes} (h : 0x5C ∉ b) : stripslashes b = b := by
  induction b using stripslashes.induct with
  | case1 => rfl
  | case2 => exact absurd (List.mem_cons_self ..) h
  | case3 c hc => rw [stripslashes, if_neg hc]
  | case4 c' b ih => exact absurd (List.mem_cons_self ..) h
  | case5 c c' b hc ih =>
    rw [stripslashes, if_neg hc, ih fun hmem => h (List.mem_cons_of_mem _ hmem)]

/-- What counts of the text of a byte string. -/
def comptent (b : Bytes) : ℕ := (latin1SwedishCi.trim (latin1 b)).length

theorem comptent_cons_le (x : UInt8) (b : Bytes) : comptent (x :: b) ≤ comptent b + 1 :=
  Collation.length_trim_cons_le _ _

theorem comptent_cons_mono {b b' : Bytes} (h : comptent b ≤ comptent b') (x : UInt8) :
    comptent (x :: b) ≤ comptent (x :: b') :=
  Collation.length_trim_cons_mono h _

/-- A character other than the space counts. -/
theorem comptent_cons_of_ne {x : UInt8} (h : x ≠ 0x20) (b : Bytes) :
    comptent (x :: b) = comptent b + 1 := by
  have hchar : Char.ofNat x.toNat ≠ latin1SwedishCi.space :=
    fun hspace => h ((latin1_char_eq_space_iff x).mp hspace)
  rw [comptent, latin1, List.map_cons, Collation.trim_cons_of_ne hchar, List.length_cons]
  rfl

/-- A character in front of a string that is not blank counts. -/
theorem comptent_cons_of_pos {b : Bytes} (h : 0 < comptent b) (x : UInt8) :
    comptent (x :: b) = comptent b + 1 := by
  have hne : ¬ latin1SwedishCi.trim (latin1 b) = [] := by
    intro hnil
    rw [comptent, hnil] at h
    exact absurd h (Nat.lt_irrefl 0)
  rw [comptent, latin1, List.map_cons, Collation.trim_cons, if_neg fun h' => hne h'.2,
    List.length_cons]
  rfl

/-- What follows a backslash, taken literally or as a zero, counts for no more than
it did. -/
theorem comptent_escaped_le {b b' : Bytes} (h : comptent b ≤ comptent b') (c : UInt8) :
    comptent ((if c = 0x30 then 0 else c) :: b) ≤ comptent (c :: b') := by
  split_ifs with hc
  · rw [hc, comptent_cons_of_ne (by decide), comptent_cons_of_ne (by decide)]
    omega
  · exact comptent_cons_mono h c

theorem comptent_stripslashes_le (b : Bytes) : comptent (stripslashes b) ≤ comptent b := by
  induction b using stripslashes.induct with
  | case1 => exact le_rfl
  | case2 => exact Nat.zero_le _
  | case3 c hc => rw [stripslashes, if_neg hc]
  | case4 c' b ih =>
    rw [stripslashes, if_pos rfl, comptent_cons_of_ne (x := 0x5C) (by decide)]
    exact Nat.le_succ_of_le (comptent_escaped_le ih c')
  | case5 c c' b hc ih =>
    rw [stripslashes, if_neg hc]
    exact comptent_cons_mono ih c

/-- **A backslash is lost.** -/
theorem comptent_stripslashes_lt {b : Bytes} (h : 0x5C ∈ b) :
    comptent (stripslashes b) < comptent b := by
  induction b using stripslashes.induct with
  | case1 => exact absurd h List.not_mem_nil
  | case2 =>
    rw [stripslashes, if_pos rfl, comptent_cons_of_ne (x := 0x5C) (by decide)]
    exact Nat.succ_pos _
  | case3 c hc => exact absurd (List.mem_singleton.mp h).symm hc
  | case4 c' b ih =>
    rw [stripslashes, if_pos rfl, comptent_cons_of_ne (x := 0x5C) (by decide)]
    exact Nat.lt_succ_of_le (comptent_escaped_le (comptent_stripslashes_le b) c')
  | case5 c c' b hc ih =>
    have hlt := ih ((List.mem_cons.mp h).resolve_left (Ne.symm hc))
    have hle := comptent_cons_le c (stripslashes (c' :: b))
    have heq := comptent_cons_of_pos (Nat.zero_lt_of_lt hlt) c
    rw [stripslashes, if_neg hc, heq]
    omega

/-- **When a field keeps what was typed.**  A string that loses its backslashes and
what a column of width `w` cuts off is still the same for `=` exactly when it has no
backslash and nothing but spaces past the width. -/
theorem same_take_stripslashes_iff (w : ℕ) (b : Bytes) :
    SameText ((latin1 (stripslashes b)).take w) (latin1 b) ↔
      0x5C ∉ b ∧ ∀ x ∈ b.drop w, x = 0x20 := by
  have htake : ∀ t : Text, (latin1SwedishCi.trim (t.take w)).length ≤
      (latin1SwedishCi.trim t).length := fun t => Collation.length_trim_take_le w t
  have hspaces : (∀ a ∈ (latin1 b).drop w, a = ' ') ↔ ∀ x ∈ b.drop w, x = 0x20 := by
    rw [latin1, ← List.map_drop, List.forall_mem_map]
    exact forall₂_congr fun x _ => latin1_char_eq_space_iff x
  constructor
  · intro h
    have hslash : 0x5C ∉ b := by
      intro hmem
      have hlt := comptent_stripslashes_lt hmem
      have hle := htake (latin1 (stripslashes b))
      rw [h.length_trim_eq] at hle
      exact absurd hlt (Nat.not_lt.mpr hle)
    rw [stripslashes_of_notMem hslash] at h
    exact ⟨hslash, hspaces.mp ((Collation.same_take_iff w _).mp h.symm)⟩
  · rintro ⟨hslash, hdrop⟩
    rw [stripslashes_of_notMem hslash]
    exact Collation.Same.symm ((Collation.same_take_iff w _).mpr (hspaces.mpr hdrop))

end Web
end RondeDesFacs
