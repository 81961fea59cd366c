import RondeDesFacs.Page.SquareZone
import RondeDesFacs.Page.Groups
import RondeDesFacs.Library.Cursor

/-!
# The zones of the toppers

`TopperZone` keeps a list of entities for each zone, and a cursor in it.  A zone comes into
being with its first entity and is forgotten when it is cleared; the cursor is moved first
and put back if there is nothing where it stands.

Whether a zone is there is asked by comparing `_entities[id]` with `undefined`.
`addEntity`, `clearEntities` and the arrows ask; `getNextEntity` and `getPreviousEntity` do
not, and throw where there is no zone.  And `_entities` is a plain object, which has
something under some names from the start, a function that is taken for a zone.

Where neither happens, and the bound on the entities is one that counting can meet, the
store stays well formed in every run (`store_well_formed`): the cursor of a zone is one of
`Cursor`, its moves are those of `Cursor.move`.

The id `__proto__` is left out (`Id`): what is stored there is seen through every other
object.
-/

namespace RondeDesFacs
namespace Page
namespace TopperZone

open Script Association Cursor

/-! ## The store -/

/-- A number of the language. -/
inductive Double where
  | nan
  | moinsInfini
  | plusInfini
  | fini (q : ℚ)
  deriving DecidableEq

/-- The id of a zone. -/
abbrev Id := {id : Chaine // id ≠ proto}

/-- The property `index`. -/
inductive Index where
  | undefined
  | nan
  | entier (i : ℤ)
  deriving DecidableEq

/-- `index++` and `index--`. -/
def Index.plus (d : ℤ) : Index → Index
  | .undefined => .nan
  | .nan => .nan
  | .entier i => .entier (i + d)

/-- The third argument of `addEntity`: the type of the entities, or a function that shows
one. -/
inductive Choix where
  | type (t : Text)
  | updateFunction (f : Text)
  deriving DecidableEq

/-- A zone, or another object that is taken for one. -/
structure Zone (E : Type) where
  entities : Option (List E)
  index : Index
  choix : Option Choix

/-- An object without the properties of a zone. -/
def Zone.vide {E : Type} : Zone E := ⟨none, .undefined, none⟩

/-- `_entities`. -/
abbrev Entities (E : Type) := List (Id × Option (Zone E))

variable {E : Type}

/-- `_entities[id]`. -/
def lire (s : Entities E) (id : Id) : Option (Zone E) :=
  (get s id).getD (if Heritee id.1 then some Zone.vide else none)

/-- How a call ends. -/
inductive Issue (E : Type) where
  | retour (e : Option E)
  | typeError

/-! ## The cursor -/

/-- `entities[index]`. -/
def entree (l : List E) : Index → Option E
  | .undefined => none
  | .nan => none
  | .entier i => if i < 0 then none else l[i.toNat]?

/-- `_getNextEntity` and `_getPreviousEntity`, by the step of the cursor, for an object that
is there. -/
def deplace (d : ℤ) (z : Zone E) : Zone E × Option E :=
  let z' := { z with index := z.index.plus d }
  match z'.entities with
  -- an entry of `undefined` throws; then the cursor is put back twice
  | none => ({ z' with index := (z'.index.plus (-d)).plus (-d) }, none)
  | some l =>
    match entree l z'.index with
    | none => ({ z' with index := z'.index.plus (-d) }, none)
    | some entity => (z', some entity)

/-- `_getNextEntity` and `_getPreviousEntity`. -/
def getEntity (d : ℤ) (s : Entities E) (id : Id) : Entities E × Issue E :=
  match lire s id with
  | none => (s, .typeError)
  | some z => (put s id (some (deplace d z).1), .retour (deplace d z).2)

/-- `getNextEntity`. -/
def getNextEntity (s : Entities E) (id : Id) : Entities E × Issue E := getEntity 1 s id

/-- `getPreviousEntity`. -/
def getPreviousEntity (s : Entities E) (id : Id) : Entities E × Issue E := getEntity (-1) s id

/-! ## The entities -/

/-- `clearEntities`. -/
def clearEntities (s : Entities E) (id : Id) : Entities E := put s id none

/-- `entities.length == max`. -/
def atteint (n : ℕ) : Option Double → Bool
  | some (.fini q) => decide ((n : ℚ) = q)
  | _ => false

/-- The object that `addEntity` finds or makes. -/
def zone (s : Entities E) (id : Id) (option : Choix) : Zone E :=
  let z := (lire s id).getD Zone.vide
  match z.entities with
  | none => ⟨some [], .entier 0, some option⟩
  | some _ => z

/-- `addEntity`, where `meme` compares the ids of two entities by `==`. -/
def addEntity (meme : E → E → Bool) (s : Entities E) (id : Id) (entity : E) (option : Choix)
    (max : Option Double) : Entities E :=
  let z := zone s id option
  let l := z.entities.getD []
  if l.any fun e => meme e entity then put s id (some z)
  else if atteint l.length max then put s id (some z)
  else put s id (some { z with entities := some (l ++ [entity]) })

/-! ## The arrows -/

/-- What the page shows of a zone: an entity by its type or a function, the position, and
which arrows become active or not. -/
structure Affichage (E : Type) where
  choix : Option Choix
  entity : E
  index : Index
  desactive : Bool
  active : Bool

/-- The step of an arrow. -/
def pas : Fleche → ℤ
  | .previous => -1
  | .next => 1

/-- `index != x`. -/
def Index.differe (x : Double) : Index → Bool
  | .entier i =>
    match x with
    | .fini q => decide ((i : ℚ) ≠ q)
    | _ => true
  | _ => true

/-- The `do`–`while` of an arrow, as long as the fuel suffices. -/
def boucle (d : ℤ) (index : Option Double) : ℕ → Zone E → Option (Zone E × Option E)
  | 0, _ => none
  | fuel + 1, z =>
    if index.any fun x => (deplace d z).1.index.differe x then boucle d index fuel (deplace d z).1
    else some (deplace d z)

/-- What an arrow shows. -/
def affichage (f : Fleche) (z : Zone E) (entity : E) : Affichage E :=
  let debut := z.index == .entier 0
  let fin := z.index == .entier ((z.entities.getD []).length - 1)
  match f with
  | .previous => ⟨z.choix, entity, z.index, debut, !fin⟩
  | .next => ⟨z.choix, entity, z.index, fin, !debut⟩

/-- `_previousEvent` and `_nextEvent`, for an arrow in the wrapper of a zone. -/
def event (f : Fleche) (fuel : ℕ) (s : Entities E) (id : Id) (index : Option Double) :
    Option (Entities E × Option (Affichage E)) :=
  match lire s id with
  | none => some (s, none)
  | some z =>
    (boucle (pas f) index fuel z).map fun r => (put s id (some r.1), r.2.map (affichage f r.1))

/-- A click on an arrow: the body of the loop is run once. -/
def clic (f : Fleche) (s : Entities E) (id : Id) : Entities E :=
  ((event f 1 s id none).map Prod.fst).getD s

/-! ## Runs -/

/-- What can be done to the store. -/
inductive Op (E : Type) where
  | addEntity (id : Id) (entity : E) (option : Choix)
  | clearEntities (id : Id)
  | getNextEntity (id : Id)
  | getPreviousEntity (id : Id)
  | clic (f : Fleche) (id : Id)

/-- The zone an operation names. -/
def Op.id : Op E → Id
  | .addEntity id _ _ => id
  | .clearEntities id => id
  | .getNextEntity id => id
  | .getPreviousEntity id => id
  | .clic _ id => id

section Run

variable (meme : E → E → Bool) (maximum : Id → Option Double)

/-- An operation, where each zone has its own maximum or none. -/
def step (s : Entities E) : Op E → Entities E × Issue E
  | .addEntity id entity option =>
    (addEntity meme s id entity option (maximum id), .retour none)
  | .clearEntities id => (clearEntities s id, .retour none)
  | .getNextEntity id => getNextEntity s id
  | .getPreviousEntity id => getPreviousEntity s id
  | .clic f id => (clic f s id, .retour none)

/-- More entities than the maximum. -/
def Depasse (n : ℕ) : Option Double → Prop
  | some .moinsInfini => True
  | some (.fini q) => q < n
  | _ => False

/-- A maximum that counting meets, or none. -/
def Plafond : Option Double → Prop
  | some .moinsInfini => False
  | some (.fini q) => ∃ n : ℕ, q = n
  | _ => True

/-- A well-formed zone: no two entities with one id, no more than the maximum, and a cursor
in the list. -/
def Formee (max : Option Double) (z : Zone E) : Prop :=
  ∃ l i, z.entities = some l ∧ z.index = .entier i ∧
    (l.Pairwise fun e e' => meme e e' = false) ∧ ¬ Depasse l.length max ∧ InRange l.length i

/-- A well-formed store. -/
def Bien (s : Entities E) : Prop :=
  ∀ id z, get s id = some (some z) → Formee meme (maximum id) z

/-- The neighbour is returned and the cursor is moved to it, or there is none, and nothing
happens. -/
def Voisin (d : ℤ) (s s' : Entities E) (id : Id) (r : Issue E) : Prop :=
  ∃ z l i, lire s id = some z ∧ z.entities = some l ∧ z.index = .entier i ∧
    ((∃ e, 0 ≤ i + d ∧ l[(i + d).toNat]? = some e ∧ r = .retour (some e) ∧
        s' = put s id (some { z with index := .entier (i + d) })) ∨
      ¬ (0 ≤ i + d ∧ i + d < l.length) ∧ r = .retour none ∧ s' = s)

/-- What is asked of an operation. -/
structure Etape (s : Entities E) (op : Op E) : Prop where
  autres : ∀ id, id ≠ op.id → lire (step meme maximum s op).1 id = lire s id
  suivant : ∀ id, op = .getNextEntity id →
    Voisin 1 s (step meme maximum s op).1 id (step meme maximum s op).2
  precedent : ∀ id, op = .getPreviousEntity id →
    Voisin (-1) s (step meme maximum s op).1 id (step meme maximum s op).2

/-- A run: the store is well formed before every operation and at the end, and every
operation does what is asked of it. -/
def Tient : Entities E → List (Op E) → Prop
  | s, [] => Bien meme maximum s
  | s, op :: ops =>
    Bien meme maximum s ∧ Etape meme maximum s op ∧ Tient (step meme maximum s op).1 ops

/-- What `addEntity` and the two functions that do not ask for a zone rely on. -/
def Acceptable (s : Entities E) : Op E → Prop
  | .addEntity id _ _ => Plafond (maximum id)
  | .getNextEntity id => ∃ z, lire s id = some z
  | .getPreviousEntity id => ∃ z, lire s id = some z
  | _ => True

/-- An operation that the store can take. -/
structure Permis (s : Entities E) (op : Op E) : Prop where
  propre : ¬ Heritee op.id.1
  acceptable : Acceptable maximum s op

/-- A run of such operations. -/
def Permise : Entities E → List (Op E) → Prop
  | _, [] => True
  | s, op :: ops => Permis maximum s op ∧ Permise (step meme maximum s op).1 ops

end Run

/-! ## One operation -/

section Operation

variable {s : Entities E} {id : Id} {z : Zone E} {l : List E} {i : ℤ}

/-- An own property. -/
theorem lire_put_self (s : Entities E) (id : Id) (v : Option (Zone E)) :
    lire (put s id v) id = v := by
  rw [lire, get_put_self, Option.getD_some]

theorem lire_put_of_ne {id' : Id} (h : id' ≠ id) (s : Entities E) (v : Option (Zone E)) :
    lire (put s id v) id' = lire s id' := by
  rw [lire, lire, get_put_of_ne h]

/-- A zone under a name that is not inherited is an own property. -/
theorem get_of_lire (hid : ¬ Heritee id.1) (h : lire s id = some z) : get s id = some (some z) := by
  rw [lire, if_neg hid] at h
  rcases hget : get s id with _ | v
  · rw [hget] at h
    cases h
  · rw [hget, Option.getD_some] at h
    rw [h]

/-- **The cursor of a zone** moves like a cursor. -/
theorem deplace_eq (hl : z.entities = some l) (hi : z.index = .entier i) (d : ℤ) :
    deplace d z = ({ z with index := .entier (move l.length d i) },
      if 0 ≤ i + d ∧ i + d < l.length then l[(i + d).toNat]? else none) := by
  by_cases h : 0 ≤ i + d ∧ i + d < l.length
  · have hlt : (i + d).toNat < l.length := by omega
    have hentree : entree l (.entier (i + d)) = some l[(i + d).toNat] := by
      rw [entree, if_neg (not_lt.mpr h.1), List.getElem?_eq_getElem hlt]
    rw [if_pos h, move, if_pos h, List.getElem?_eq_getElem hlt]
    simp only [deplace, hl, hi, Index.plus, hentree]
  · have hentree : entree l (.entier (i + d)) = none := by
      rw [entree]
      split_ifs with hneg
      · rfl
      · exact List.getElem?_eq_none (by omega)
    rw [if_neg h, move, if_neg h]
    simp only [deplace, hl, hi, Index.plus, hentree, add_neg_cancel_right]

theorem voisin_getEntity (hz : lire s id = some z) (hget : get s id = some (some z))
    (hl : z.entities = some l) (hi : z.index = .entier i) (d : ℤ) :
    Voisin d s (getEntity d s id).1 id (getEntity d s id).2 := by
  have hstep : getEntity d s id = (put s id (some (deplace d z).1), .retour (deplace d z).2) := by
    rw [getEntity, hz]
  rw [hstep, deplace_eq hl hi]
  refine ⟨z, l, i, hz, hl, hi, ?_⟩
  by_cases h : 0 ≤ i + d ∧ i + d < l.length
  · have hlt : (i + d).toNat < l.length := by omega
    refine Or.inl ⟨l[(i + d).toNat], h.1, List.getElem?_eq_getElem hlt, ?_, ?_⟩
    · rw [if_pos h, List.getElem?_eq_getElem hlt]
    · rw [move, if_pos h]
  · refine Or.inr ⟨h, by rw [if_neg h], ?_⟩
    -- the zone that is written is the one that was there
    rw [move, if_neg h, ← hi]
    exact put_get hget

theorem clic_eq (f : Fleche) (s : Entities E) (id : Id) :
    clic f s id = (lire s id).elim s fun z => put s id (some (deplace (pas f) z).1) := by
  rw [clic, event]
  rcases lire s id with _ | z <;> rfl

end Operation

section Run

variable {meme : E → E → Bool} {maximum : Id → Option Double} {s : Entities E}

/-- A moved cursor keeps a zone well formed. -/
theorem Formee.deplace {max : Option Double} {z : Zone E} (h : Formee meme max z) (d : ℤ) :
    Formee meme max (TopperZone.deplace d z).1 := by
  obtain ⟨l, i, hl, hi, hpair, hmax, hrange⟩ := h
  rw [deplace_eq hl hi]
  exact ⟨l, _, hl, rfl, hpair, hmax, hrange.move d⟩

/-- Counting stops at a maximum that it meets. -/
theorem Plafond.succ {n : ℕ} {max : Option Double} (hmax : Plafond max) (h : ¬ Depasse n max)
    (hatteint : atteint n max = false) : ¬ Depasse (n + 1) max := by
  rcases max with _ | _ | _ | _ | q
  · exact id
  · exact id
  · exact h
  · exact id
  · obtain ⟨m, rfl⟩ := hmax
    have hle : n ≤ m := Nat.cast_le.mp (not_lt.mp h)
    have hne : n ≠ m := fun heq => of_decide_eq_false hatteint (congrArg _ heq)
    have hsucc : n + 1 ≤ m := by omega
    exact not_lt.mpr (Nat.cast_le.mpr hsucc)

theorem Plafond.zero {max : Option Double} (hmax : Plafond max) : ¬ Depasse 0 max := by
  rcases max with _ | _ | _ | _ | q
  · exact id
  · exact id
  · exact hmax.elim
  · exact id
  · obtain ⟨m, rfl⟩ := hmax
    exact not_lt.mpr (Nat.cast_le.mpr (Nat.zero_le m))

/-- The zone that `addEntity` finds or makes. -/
theorem Bien.zone (h : Bien meme maximum s) {id : Id} (hid : ¬ Heritee id.1)
    (hmax : Plafond (maximum id)) (option : Choix) :
    Formee meme (maximum id) (TopperZone.zone s id option) := by
  rw [TopperZone.zone]
  rcases hz : lire s id with _ | z
  · exact ⟨[], 0, rfl, rfl, List.Pairwise.nil, hmax.zero, le_rfl, Or.inr ⟨rfl, rfl⟩⟩
  · have hformee := h id z (get_of_lire hid hz)
    have ⟨l, _, hl, _⟩ := hformee
    simp only [Option.getD_some, hl]
    exact hformee

/-- A new entity keeps a zone well formed. -/
theorem Formee.ajoute {max : Option Double} {z : Zone E} {l : List E} {entity : E}
    (h : Formee meme max z) (hl : z.entities = some l)
    (hnew : (l.any fun e => meme e entity) = false) (hmax : Plafond max)
    (hatteint : atteint l.length max = false) :
    Formee meme max { z with entities := some (l ++ [entity]) } := by
  obtain ⟨l', i, hl', hi, hpair, hdepasse, hrange⟩ := h
  obtain rfl := Option.some.inj (hl.symm.trans hl')
  refine ⟨l ++ [entity], i, rfl, hi, ?_, ?_, ?_⟩
  · rw [List.pairwise_append]
    refine ⟨hpair, List.pairwise_singleton _ _, fun e he e' he' => ?_⟩
    rw [List.mem_singleton.mp he']
    exact Bool.eq_false_of_not_eq_true (List.any_eq_false.mp hnew e he)
  · rw [List.length_append, List.length_singleton]
    exact hmax.succ hdepasse hatteint
  · rw [List.length_append, List.length_singleton]
    exact hrange.succ

/-- **What an operation can do**: write the zone it names, or nothing. -/
theorem step_cases (meme : E → E → Bool) (maximum : Id → Option Double) (s : Entities E)
    (op : Op E) : (∃ v, (step meme maximum s op).1 = put s op.id v) ∨
      (step meme maximum s op).1 = s := by
  have hget : ∀ (d : ℤ) (id : Id), (∃ v, (getEntity d s id).1 = put s id v) ∨
      (getEntity d s id).1 = s := by
    intro d id
    rw [getEntity]
    rcases lire s id with _ | z
    · exact Or.inr rfl
    · exact Or.inl ⟨_, rfl⟩
  cases op with
  | addEntity id entity option =>
    left
    show ∃ v, addEntity meme s id entity option (maximum id) = put s id v
    rw [addEntity]
    split_ifs <;> exact ⟨_, rfl⟩
  | clearEntities id => exact Or.inl ⟨none, rfl⟩
  | getNextEntity id => exact hget 1 id
  | getPreviousEntity id => exact hget (-1) id
  | clic f id =>
    show (∃ v, clic f s id = put s id v) ∨ clic f s id = s
    rw [clic_eq]
    rcases lire s id with _ | z
    · exact Or.inr rfl
    · exact Or.inl ⟨_, rfl⟩

/-- A property that is written keeps the store well formed if it is. -/
theorem Bien.put (h : Bien meme maximum s) {id : Id} {v : Option (Zone E)}
    (hv : ∀ z, v = some z → Formee meme (maximum id) z) :
    Bien meme maximum (Association.put s id v) := by
  intro id' z hget
  by_cases hid : id' = id
  · subst hid
    rw [get_put_self] at hget
    exact hv z (Option.some.inj hget)
  · rw [get_put_of_ne hid] at hget
    exact h id' z hget

/-- **An operation keeps the store well formed.** -/
theorem Bien.step (h : Bien meme maximum s) {op : Op E} (hop : Permis maximum s op) :
    Bien meme maximum (TopperZone.step meme maximum s op).1 := by
  have hdeplace : ∀ {id z} (d : ℤ), ¬ Heritee id.1 → lire s id = some z →
      Bien meme maximum (Association.put s id (some (TopperZone.deplace d z).1)) := by
    intro id z d hid hz
    refine h.put fun z' hz' => ?_
    rw [← Option.some.inj hz']
    exact (h id z (get_of_lire hid hz)).deplace d
  have hget : ∀ {id} (d : ℤ), ¬ Heritee id.1 → (∃ z, lire s id = some z) →
      Bien meme maximum (getEntity d s id).1 := by
    rintro id d hid ⟨z, hz⟩
    rw [getEntity, hz]
    exact hdeplace d hid hz
  obtain ⟨hid, hacceptable⟩ := hop
  cases op with
  | addEntity id entity option =>
    have hformee : Formee meme (maximum id) (TopperZone.zone s id option) :=
      h.zone hid hacceptable option
    have ⟨l, _, hl, _⟩ := hformee
    have hput := fun {z} (hz : Formee meme (maximum id) z) => h.put (v := some z) fun z' hz' =>
      Option.some.inj hz' ▸ hz
    show Bien meme maximum (addEntity meme s id entity option (maximum id))
    rw [addEntity, hl, Option.getD_some]
    split_ifs with hnew hatteint
    · exact hput hformee
    · exact hput hformee
    · exact hput (hformee.ajoute hl (Bool.eq_false_of_not_eq_true hnew) hacceptable
        (Bool.eq_false_of_not_eq_true hatteint))
  | clearEntities id => exact h.put fun z hz => by cases hz
  | getNextEntity id => exact hget 1 hid hacceptable
  | getPreviousEntity id => exact hget (-1) hid hacceptable
  | clic f id =>
    show Bien meme maximum (clic f s id)
    rw [clic_eq]
    rcases hz : lire s id with _ | z
    · exact h
    · exact hdeplace (pas f) hid hz

/-- **An operation does what is asked of it.** -/
theorem etape (h : Bien meme maximum s) {op : Op E} (hop : Permis maximum s op) :
    Etape meme maximum s op := by
  obtain ⟨hid, hacceptable⟩ := hop
  have hvoisin : ∀ {id} (d : ℤ), ¬ Heritee id.1 → (∃ z, lire s id = some z) →
      Voisin d s (getEntity d s id).1 id (getEntity d s id).2 := by
    rintro id d hid ⟨z, hz⟩
    have hget := get_of_lire hid hz
    obtain ⟨l, i, hl, hi, -⟩ := h id z hget
    exact voisin_getEntity hz hget hl hi d
  constructor
  · intro id hne
    obtain ⟨v, hv⟩ | hsame := step_cases meme maximum s op
    · rw [hv, lire_put_of_ne hne]
    · rw [hsame]
  · rintro id rfl
    exact hvoisin 1 hid hacceptable
  · rintro id rfl
    exact hvoisin (-1) hid hacceptable

/-- **Runs.** -/
theorem tient_of_permise (h : Bien meme maximum s) {ops : List (Op E)}
    (hops : Permise meme maximum s ops) : Tient meme maximum s ops := by
  induction ops generalizing s with
  | nil => exact h
  | cons op ops ih => exact ⟨h, etape h hops.1, ih (h.step hops.1) hops.2⟩

end Run

/-- **The store stays well formed** in every run of operations that it can take. -/
theorem store_well_formed (meme : E → E → Bool) (maximum : Id → Option Double) (ops : List (Op E))
    (h : Permise meme maximum [] ops) : Tient meme maximum [] ops :=
  tient_of_permise (fun _ _ hget => by cases hget) h

/-- The register of a zone. -/
def registre : Id := ⟨chaine "TopperUsers", by decide⟩

/-- The next entity of a zone that has been cleared: a `TypeError`. -/
theorem store_well_formed_efface :
    ¬ Tient (fun e e' : ℕ => e == e') (fun _ => none) []
      [.clearEntities registre, .getNextEntity registre] := by
  rintro ⟨-, -, -, hetape, -⟩
  obtain ⟨z, -, -, hz, -⟩ := hetape.suivant registre rfl
  cases hz

/-- Two entities, a step and a click. -/
def parcours : List (Op ℕ) :=
  [.addEntity registre 1 (.type []), .addEntity registre 2 (.type []), .getNextEntity registre,
    .clic .previous registre]

/-- A run that the store can take. -/
theorem store_well_formed_at_parcours :
    Tient (fun e e' : ℕ => e == e') (fun _ => none) [] parcours := by
  have hregistre : ¬ Heritee registre.1 := by decide
  refine store_well_formed _ _ _ ⟨⟨hregistre, trivial⟩, ⟨hregistre, trivial⟩, ⟨hregistre, ?_⟩,
    ⟨hregistre, trivial⟩, trivial⟩
  exact ⟨_, lire_put_self _ _ _⟩

end TopperZone
end Page
end RondeDesFacs
