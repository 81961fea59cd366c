import RondeDesFacs.Page.TopperZone

/-!
# Going to an entity

A click on a point of a chart moves the cursor of a zone to the position of the point.
`changeTopper` presses the arrow that leads there, and the arrow repeats its step until the
cursor stands where it should.  But at an end of the list the step is taken back each time,
so an arrow that looks for a position that is not there presses on for ever, and the page
with it.

So the call ends exactly for the positions of the list, and for `NaN`, which is neither
before nor behind the cursor (`change_topper_terminates`).
-/

namespace RondeDesFacs
namespace Page
namespace TopperZone

open Cursor

/-- `index < x`. -/
def Index.avant (x : Double) : Index → Bool
  | .entier i =>
    match x with
    | .fini q => decide ((i : ℚ) < q)
    | .plusInfini => true
    | _ => false
  | _ => false

/-- `index > x`. -/
def Index.apres (x : Double) : Index → Bool
  | .entier i =>
    match x with
    | .fini q => decide (q < (i : ℚ))
    | .moinsInfini => true
    | _ => false
  | _ => false

variable {E : Type}

/-- Presses an arrow, if the cursor is on its side of the position. -/
def presse (b : Bool) (f : Fleche) (fuel : ℕ) (s : Entities E) (id : Id) (index : Double) :
    Option (Entities E) :=
  if b then (event f fuel s id (some index)).map Prod.fst else some s

/-- `changeTopper`, as long as the fuel suffices for each of the loops; the arrows are those
in the wrapper of the zone, which the page has under its id. -/
def changeTopper (fuel : ℕ) (s : Entities E) (id : Id) (index : Double) :
    Option (Entities E × Issue E) :=
  match lire s id with
  | none => some (s, .typeError)
  | some entity =>
    (presse (entity.index.avant index) .next fuel s id index).bind fun s' =>
      -- `entity` is the object in the store, which the first arrow may have moved
      let entity' := (lire s' id).getD entity
      (presse (entity'.index.apres index) .previous fuel s' id index).map fun s'' =>
        (s'', .retour none)

/-- The call ends, with the cursor at the position if there is one, or where it was. -/
def Arrive (s : Entities E) (id : Id) (l : List E) (i : ℤ) (x : Double) : Prop :=
  ∃ fuel s' z', changeTopper fuel s id x = some (s', .retour none) ∧ lire s' id = some z' ∧
    z'.entities = some l ∧ (∀ k : ℕ, k < l.length → x = .fini k → z'.index = .entier k) ∧
      ((∀ k : ℕ, k < l.length → x ≠ .fini k) → z'.index = .entier i)

/-! ## The loop -/

/-- Where the loop of an arrow stops. -/
def arret (x : Double) (j : ℤ) : Bool := !(Index.entier j).differe x

section Zone

variable {s : Entities E} {id : Id} {z : Zone E} {l : List E} {i : ℤ} {x : Double}

/-- **The loop of an arrow** looks for the position like a cursor. -/
theorem boucle_eq (hl : z.entities = some l) (hi : z.index = .entier i) (d : ℤ) (fuel : ℕ) :
    (boucle d (some x) fuel z).map Prod.fst =
      (seek l.length d (arret x) fuel i).map fun j => { z with index := .entier j } := by
  induction fuel generalizing z i with
  | zero => rfl
  | succ fuel ih =>
    rw [boucle, seek, deplace_eq hl hi, Option.any_some, arret]
    rcases hdiffere : (Index.entier (move l.length d i)).differe x with _ | _
    · rfl
    · exact ih hl rfl

/-- What an arrow does to the store. -/
theorem event_eq (hz : lire s id = some z) (hl : z.entities = some l) (hi : z.index = .entier i)
    (f : Fleche) (fuel : ℕ) :
    (event f fuel s id (some x)).map Prod.fst =
      (seek l.length (pas f) (arret x) fuel i).map fun j =>
        Association.put s id (some { z with index := .entier j }) := by
  have hloop := congrArg (Option.map fun z' => Association.put s id (some z'))
    (boucle_eq (x := x) hl hi (pas f) fuel)
  rw [Option.map_map, Option.map_map] at hloop
  rw [event, hz]
  exact (Option.map_map ..).trans hloop

/-- The loop stops where the position is. -/
theorem arret_fini (k : ℕ) (j : ℤ) : arret (.fini k) j = decide (j = k) := by
  rw [arret, Index.differe, decide_not, Bool.not_not, decide_eq_decide]
  exact_mod_cast Iff.rfl

/-- **An arrow that looks for no position of the list** presses on for ever. -/
theorem event_eq_none (hz : lire s id = some z) (hl : z.entities = some l) (hne : l ≠ [])
    (hi : z.index = .entier i) (hrange : InRange l.length i)
    (hx : ∀ k : ℕ, k < l.length → x ≠ .fini k) (f : Fleche) (fuel : ℕ) :
    (event f fuel s id (some x)).map Prod.fst = none := by
  have harret : ∀ j, InRange l.length j → arret x j = false := by
    rintro j ⟨hnonneg, hlt | ⟨hzero, -⟩⟩
    · obtain ⟨k, rfl⟩ := Int.eq_ofNat_of_zero_le hnonneg
      have hk : k < l.length := by exact_mod_cast hlt
      rcases x with _ | _ | _ | q
      · rfl
      · rfl
      · rfl
      · have hq : ((k : ℤ) : ℚ) ≠ q := fun h =>
          hx k hk (congrArg Double.fini (by exact_mod_cast h.symm))
        rw [arret, Index.differe, decide_eq_true hq, Bool.not_true]
    · exact absurd (List.length_eq_zero_iff.mp hzero) hne
  rw [event_eq hz hl hi, seek_eq_none harret hrange, Option.map_none]

/-- **An arrow finds a position** on its side of the cursor. -/
theorem exists_event_eq (hz : lire s id = some z) (hl : z.entities = some l)
    (hi : z.index = .entier i) (hrange : InRange l.length i) {k m : ℕ} (hk : k < l.length)
    (f : Fleche) (hm : (k : ℤ) = i + (m + 1 : ℕ) * pas f) :
    (event f (m + 1) s id (some (.fini k))).map Prod.fst =
      some (Association.put s id (some { z with index := .entier k })) := by
  have hseek : seek l.length (pas f) (arret (.fini k)) (m + 1) i =
      some (i + (m + 1 : ℕ) * pas f) := by
    refine seek_eq_some (fun j hj hjm => ?_) (fun j hj hjm => ?_) ?_
    · obtain ⟨hnonneg, hlt | ⟨hzero, -⟩⟩ := hrange
      · cases f <;> simp only [pas] at hm ⊢ <;> push_cast at hm <;> omega
      · omega
    · rw [arret_fini]
      refine decide_eq_false ?_
      cases f <;> simp only [pas] at hm ⊢ <;> push_cast at hm <;> omega
    · rw [arret_fini, ← hm]
      exact decide_eq_true rfl
  rw [event_eq hz hl hi, hseek, ← hm, Option.map_some]

/-! ## The call -/

theorem avant_fini (i : ℤ) (k : ℕ) : (Index.entier i).avant (.fini k) = decide (i < k) := by
  rw [Index.avant, decide_eq_decide]
  exact_mod_cast Iff.rfl

theorem apres_fini (i : ℤ) (k : ℕ) : (Index.entier i).apres (.fini k) = decide (k < i) := by
  rw [Index.apres, decide_eq_decide]
  exact_mod_cast Iff.rfl

theorem changeTopper_of_zone (hz : lire s id = some z) (fuel : ℕ) (x : Double) :
    changeTopper fuel s id x =
      (presse (z.index.avant x) .next fuel s id x).bind fun s' =>
        (presse (((lire s' id).getD z).index.apres x) .previous fuel s' id x).map fun s'' =>
          (s'', .retour none) := by
  rw [changeTopper, hz]

/-- A position that is reached. -/
theorem arrive_of_eq (fuel : ℕ) {k : ℕ} (hk : k < l.length) (hl : z.entities = some l)
    {s' : Entities E} (hend : changeTopper fuel s id (.fini k) = some (s', .retour none))
    (hz' : lire s' id = some { z with index := .entier k }) : Arrive s id l i (.fini k) := by
  refine ⟨fuel, s', _, hend, hz', hl, fun k' _ h => ?_, fun h => absurd rfl (h k hk)⟩
  rw [Nat.cast_inj.mp (Double.fini.inj h)]

/-- `NaN` is on no side of the cursor. -/
theorem arrive_nan (hz : lire s id = some z) (hl : z.entities = some l)
    (hi : z.index = .entier i) : Arrive s id l i .nan := by
  refine ⟨0, s, z, ?_, hz, hl, fun k _ h => (by cases h), fun _ => hi⟩
  rw [changeTopper_of_zone hz, hi]
  show Option.map _ (presse (((lire s id).getD z).index.apres .nan) .previous 0 s id .nan) = _
  rw [hz, Option.getD_some, hi]
  rfl

/-- A position of the list is reached. -/
theorem arrive_fini (hz : lire s id = some z) (hl : z.entities = some l)
    (hi : z.index = .entier i) (hrange : InRange l.length i) {k : ℕ} (hk : k < l.length) :
    Arrive s id l i (.fini k) := by
  have hmoved : lire (Association.put s id (some { z with index := .entier (k : ℤ) })) id =
      some { z with index := .entier k } := lire_put_self s id _
  rcases lt_trichotomy i k with hlt | rfl | hgt
  · -- the arrow ahead
    obtain ⟨m, hm⟩ : ∃ m : ℕ, (k : ℤ) = i + (m + 1 : ℕ) * pas .next :=
      ⟨(k - i - 1).toNat, by rw [pas]; omega⟩
    refine arrive_of_eq (m + 1) hk hl ?_ hmoved
    rw [changeTopper_of_zone hz, hi, avant_fini, decide_eq_true hlt, presse, if_pos rfl,
      exists_event_eq hz hl hi hrange hk .next hm, Option.bind_some, hmoved, Option.getD_some,
      apres_fini, decide_eq_false (lt_irrefl _)]
    rfl
  · -- no arrow
    refine arrive_of_eq 0 hk hl ?_ (hz.trans (by rw [← hi]))
    rw [changeTopper_of_zone hz, hi, avant_fini, decide_eq_false (lt_irrefl _), presse,
      if_neg Bool.false_ne_true, Option.bind_some, hz, Option.getD_some, hi, apres_fini,
      decide_eq_false (lt_irrefl _)]
    rfl
  · -- the arrow behind
    obtain ⟨m, hm⟩ : ∃ m : ℕ, (k : ℤ) = i + (m + 1 : ℕ) * pas .previous :=
      ⟨(i - k - 1).toNat, by rw [pas]; omega⟩
    refine arrive_of_eq (m + 1) hk hl ?_ hmoved
    rw [changeTopper_of_zone hz, hi, avant_fini, decide_eq_false hgt.le.not_gt, presse,
      if_neg Bool.false_ne_true, Option.bind_some, hz, Option.getD_some, hi, apres_fini,
      decide_eq_true hgt, presse, if_pos rfl, exists_event_eq hz hl hi hrange hk .previous hm]
    rfl

/-- Anything but `NaN` and the cursor is on one side of it. -/
theorem avant_or_apres (hx : x ≠ .nan) (hi : ∀ q, x = .fini q → q ≠ i) :
    (Index.entier i).avant x = true ∨ (Index.entier i).apres x = true := by
  rcases x with _ | _ | _ | q
  · exact absurd rfl hx
  · exact Or.inr rfl
  · exact Or.inl rfl
  · rcases lt_or_gt_of_ne (hi q rfl) with h | h
    · exact Or.inr (decide_eq_true h)
    · exact Or.inl (decide_eq_true h)

/-- Anything else is on one side of the cursor, and looked for in vain. -/
theorem changeTopper_eq_none (hz : lire s id = some z) (hl : z.entities = some l) (hne : l ≠ [])
    (hi : z.index = .entier i) (hrange : InRange l.length i) (hnan : x ≠ .nan)
    (hx : ∀ k : ℕ, k < l.length → x ≠ .fini k) (fuel : ℕ) : changeTopper fuel s id x = none := by
  have hside : (Index.entier i).avant x = true ∨ (Index.entier i).apres x = true := by
    refine avant_or_apres hnan fun q hq heq => ?_
    obtain ⟨hnonneg, hlt | ⟨hzero, -⟩⟩ := hrange
    · obtain ⟨k, rfl⟩ := Int.eq_ofNat_of_zero_le hnonneg
      exact hx k (by exact_mod_cast hlt) (by rw [hq, heq, Int.cast_natCast])
    · exact hne (List.length_eq_zero_iff.mp hzero)
  have hnone := event_eq_none hz hl hne hi hrange hx
  rw [changeTopper_of_zone hz, hi]
  rcases havant : (Index.entier i).avant x with _ | _
  · rw [havant] at hside
    have hapres := hside.resolve_left Bool.false_ne_true
    rw [presse, if_neg Bool.false_ne_true, Option.bind_some, hz, Option.getD_some, hi, hapres,
      presse, if_pos rfl, hnone, Option.map_none]
  · rw [presse, if_pos rfl, hnone, Option.bind_none]

end Zone

/-- **When `changeTopper` ends.**  Exactly for the positions of the list and for `NaN`. -/
theorem change_topper_terminates (s : Entities E) (id : Id) (z : Zone E) (l : List E) (i : ℤ)
    (x : Double) (hz : lire s id = some z) (hl : z.entities = some l) (hne : l ≠ [])
    (hi : z.index = .entier i) (hrange : InRange l.length i) :
    Arrive s id l i x ↔ x = .nan ∨ ∃ k : ℕ, k < l.length ∧ x = .fini k := by
  constructor
  · rintro ⟨fuel, s', z', hend, -⟩
    by_contra hno
    rw [not_or, not_exists] at hno
    have hx : ∀ k : ℕ, k < l.length → x ≠ .fini k := fun k hk h => hno.2 k ⟨hk, h⟩
    rw [changeTopper_eq_none hz hl hne hi hrange hno.1 hx] at hend
    cases hend
  · rintro (rfl | ⟨k, hk, rfl⟩)
    · exact arrive_nan hz hl hi
    · exact arrive_fini hz hl hi hrange hk

/-- A zone of two entities. -/
def deux : Entities ℕ := [(registre, some ⟨some [1, 2], .entier 0, some (.type [])⟩)]

/-- There is no position 2, and the call does not end. -/
theorem change_topper_terminates_deux :
    ¬ Arrive deux registre [1, 2] 0 (.fini 2) := by
  rintro ⟨fuel, s', z', hend, -⟩
  have hz : lire deux registre = some ⟨some [1, 2], .entier 0, some (.type [])⟩ :=
    lire_put_self [] registre _
  have hx : ∀ k : ℕ, k < [1, 2].length → Double.fini 2 ≠ .fini k := by
    intro k hk h
    have htwo : k = 2 := by exact_mod_cast (Double.fini.inj h).symm
    exact absurd hk (by rw [htwo]; decide)
  rw [changeTopper_eq_none hz rfl (by decide) rfl ⟨le_rfl, Or.inl (by decide)⟩ (by decide) hx]
    at hend
  cases hend

/-- The condition at these zones. -/
theorem change_topper_terminates_at_deux :
    Arrive deux registre [1, 2] 0 (.fini 1) ↔
      Double.fini 1 = .nan ∨ ∃ k : ℕ, k < [1, 2].length ∧ Double.fini 1 = .fini k :=
  change_topper_terminates deux registre ⟨some [1, 2], .entier 0, some (.type [])⟩ [1, 2] 0
    (.fini 1) (lire_put_self [] registre _) rfl (by decide) rfl ⟨le_rfl, Or.inl (by decide)⟩

end TopperZone
end Page
end RondeDesFacs
