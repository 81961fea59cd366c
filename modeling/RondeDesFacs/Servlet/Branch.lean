import RondeDesFacs.Servlet.LDAP
import RondeDesFacs.Library.NameValues

/-!
# The branch that `LDAP` looks in

`call` puts the name of the user together from two parameters of the request, with nothing
escaped.  A comma in a parameter ends the component and begins another one, a plus sign adds
an attribute to it, a backslash takes the comma behind it into the value; then the name, if
it is one, is another than that of the user in the branch (`branch_kept`).  That it is one
can be told from each parameter by itself (`isSome_parse_name_iff`).
-/

namespace RondeDesFacs
namespace Servlet
namespace LDAP

open DistinguishedName

/-- The components of the name of a user, from the leaf to the root. -/
def composants (param1 param2 : Option Text) : List (Text × Text) :=
  [("uid".toList, orNull param1), ("ou".toList, orNull param2), ("ou".toList, "people".toList),
    ("dc".toList, "unice".toList), ("dc".toList, "fr".toList)]

/-- The name is rejected, or it is the one of the user, with the parameters as values. -/
def Garde (param1 param2 : Option Text) : Prop :=
  parse (name param1 param2) = none ∨
    parse (name param1 param2) = some
      [[("uid".toList, .string (utf8 (orNull param1)))],
        [("ou".toList, .string (utf8 (orNull param2)))],
        [("ou".toList, .string (utf8 "people".toList))],
        [("dc".toList, .string (utf8 "unice".toList))],
        [("dc".toList, .string (utf8 "fr".toList))]]

/-- `call` prints the components. -/
theorem name_eq_print (param1 param2 : Option Text) :
    name param1 param2 = print (composants param1 param2) := by
  unfold name composants
  simp only [print_cons, printAttribute, List.flatMap_cons, List.flatMap_nil, List.append_assoc,
    List.cons_append, List.append_nil]
  rfl

theorem isType_of_mem_composants (param1 param2 : Option Text) :
    ∀ e ∈ composants param1 param2, IsType e.1 := by
  have htypes : ∀ t ∈ ["uid".toList, "ou".toList, "dc".toList], IsType t := fun t ht =>
    Or.inl (by revert t; decide)
  simp only [composants, List.forall_mem_cons] at htypes ⊢
  obtain ⟨huid, hou, hdc, -⟩ := htypes
  exact ⟨huid, hou, hou, hdc, hdc, fun _ he => absurd he List.not_mem_nil⟩

/-- The last three components are as they should be. -/
theorem forall_plain_composants_iff (param1 param2 : Option Text) :
    (∀ e ∈ composants param1 param2, Plain e.2) ↔
      Plain (orNull param1) ∧ Plain (orNull param2) := by
  have hpeople : Plain "people".toList := isString_map_lit_iff.mp (by decide)
  have hunice : Plain "unice".toList := isString_map_lit_iff.mp (by decide)
  have hfr : Plain "fr".toList := isString_map_lit_iff.mp (by decide)
  simp only [composants, List.forall_mem_cons]
  exact ⟨fun h => ⟨h.1, h.2.1⟩, fun h =>
    ⟨h.1, h.2, hpeople, hunice, hfr, fun _ he => absurd he List.not_mem_nil⟩⟩

/-- The name is one exactly if the parameters fit; the rest of it does. -/
theorem isSome_parse_name_iff (param1 param2 : Option Text) :
    (parse (name param1 param2)).isSome ↔
      Fits false (closed (orNull param1)) ∧
        Fits (isOpen (orNull param1)) (closed (orNull param2)) := by
  have hpeople : ∀ inside, Fits inside (closed "people".toList) := by
    unfold Fits
    decide
  have hunice : Fits (isOpen "people".toList) (closed "unice".toList) := by
    unfold Fits
    decide
  have hfr : Fits (isOpen "unice".toList) "fr".toList := by
    unfold Fits
    decide
  rw [name_eq_print, isSome_parse_print_iff (l := composants param1 param2)
    (List.cons_ne_nil _ _) (isType_of_mem_composants param1 param2)]
  simp only [composants, List.map_cons, List.map_nil, Fit]
  exact ⟨fun h => ⟨h.1, h.2.1⟩, fun h => ⟨h.1, h.2, hpeople _, hunice, hfr⟩⟩

/-- **When the lookup stays in its branch.**  Exactly if nothing in the parameters needed to
be escaped, or one of them does not fit where it stands. -/
theorem branch_kept (param1 param2 : Option Text) :
    Garde param1 param2 ↔
      (Plain (orNull param1) ∧ Plain (orNull param2)) ∨
        ¬ Fits false (closed (orNull param1)) ∨
          ¬ Fits (isOpen (orNull param1)) (closed (orNull param2)) := by
  have hread := parse_print_iff (l := composants param1 param2) (List.cons_ne_nil _ _)
    (isType_of_mem_composants param1 param2)
  have hreject : parse (name param1 param2) = none ↔ ¬ Fits false (closed (orNull param1)) ∨
      ¬ Fits (isOpen (orNull param1)) (closed (orNull param2)) := by
    rw [← not_and_or, ← isSome_parse_name_iff, Option.not_isSome_iff_eq_none]
  rw [← hreject, ← forall_plain_composants_iff, ← hread, Garde, name_eq_print, or_comm]
  exact Iff.rfl

/-- A parameter with another branch in it. -/
def autreBranche : Text := "x,ou=admin".toList

/-- It is looked in. -/
theorem branch_kept_autreBranche : ¬ Garde (some autreBranche) (some "etudiants".toList) := by
  set l : List (Text × Text) := [("uid".toList, "x".toList), ("ou".toList, "admin".toList),
    ("ou".toList, "etudiants".toList), ("ou".toList, "people".toList),
    ("dc".toList, "unice".toList), ("dc".toList, "fr".toList)] with hl
  have hname : name (some autreBranche) (some "etudiants".toList) = print l := by decide
  have hread : parse (print l) = some (meant l) := by
    refine parse_of_plain (List.cons_ne_nil _ _) (fun e he => Or.inl ?_) fun e he => ?_
    · revert e
      decide
    · refine isString_map_lit_iff.mp ?_
      revert e
      decide
  rintro (hnone | hfive)
  · rw [hname, hread] at hnone
    cases hnone
  · rw [hname, hread] at hfive
    exact absurd (congrArg List.length (Option.some.inj hfive)) (by decide)

end LDAP
end Servlet
end RondeDesFacs
