import RondeDesFacs.Page.ChangeTopper

/-!
# What the toppers show

A page that shows a zone is made on the server, with one row in it, the position `#1` and two
arrows, none of them active.  Its script clears the zone and adds the rows; the second entity
makes the arrow of the class `active` active.  From then on an arrow moves the cursor and
writes what it finds into the page: the entity, the position, and which arrows are active.

The page and the cursor are two copies of one thing, so what has to be shown is that they
stay in step (`EnPas`).  Two kinds of page are told apart.  Most start with their first row.
The one of the communities starts with its last row and puts the cursor on the last entity;
but entities are the rows without repetitions, and the last of them need not be the last row:
it is for rows `5, 6, 6` and not for `5, 6, 5` (`Juste`).  That is all that can go wrong
(`display_in_step`).

The names that every object has, such as `constructor`, are no zones here.

`getNextEntity` and `getPreviousEntity` move the cursor behind the back of the page.  No page
calls them.
-/

namespace RondeDesFacs
namespace Page
namespace TopperZone

open Script Association Cursor SquareZone

variable {E : Type}

/-! ## The page of a zone -/

/-- How a page shows a zone: how many entities it takes, whether it starts with the last row
(then the arrow back has the class `active`, and otherwise the arrow forward), and whether it
has a place for the entity and for the position. -/
structure Gabarit where
  max : Option ℕ
  dernier : Bool
  contenu : Bool
  position : Bool
  max_ne_zero : max ≠ some 0
  premier : dernier = true → position = false

/-- What a page shows: an entity and a position, in the places there are for them, and which
arrows have the class `activeArrow`. -/
structure Vue (E : Type) where
  contenu : Option E
  position : Option Text
  previous : Bool
  next : Bool

def diese (i : ℤ) : Text := "#".toList ++ decimal (i + 1)

/-- The page as it comes from the server. -/
def Gabarit.vue (g : Gabarit) (rows : List E) : Vue E where
  contenu := if g.contenu then (if g.dernier then rows.getLast? else rows.head?) else none
  position := if g.position then some (diese 0) else none
  previous := false
  next := false

/-- The third argument of `addEntity`, as a number. -/
def Gabarit.maximum (g : Gabarit) : Option Double := g.max.map fun n : ℕ => .fini (n : ℚ)

section Script

variable (meme : E → E → Bool) (g : Gabarit)

/-- What the zone keeps of some more rows. -/
def retenus : List E → List E → List E
  | l, [] => l
  | l, e :: rows =>
    if l.any fun e' => meme e' e then retenus l rows
    else if atteint l.length g.maximum then retenus l rows
    else retenus (l ++ [e]) rows

/-- The end of `addEntity`: a second entity makes an arrow active. -/
def Vue.ajoute (z : Zone E) (entity : E) (v : Vue E) : Vue E :=
  let l := z.entities.getD []
  if l.any fun e => meme e entity then v
  else if atteint l.length g.maximum then v
  else if 1 < (l ++ [entity]).length then
    (if g.dernier then { v with previous := true } else { v with next := true })
  else v

/-- `getEntities(id).index = getEntities(id).entities.length - 1`, which fails where there is
no zone. -/
def auDernier (s : Entities E) (id : Id) : Entities E :=
  match lire s id with
  | none => s
  | some z =>
    match z.entities with
    | none => s
    | some l => put s id (some { z with index := .entier (l.length - 1) })

def ajouteLigne (id : Id) (option : Choix) (r : Entities E × Vue E) (entity : E) :
    Entities E × Vue E :=
  (addEntity meme r.1 id entity option g.maximum,
    r.2.ajoute meme g (zone r.1 id option) entity)

/-- A page with some rows takes the place of what was shown of the zone. -/
def charge (id : Id) (option : Choix) (rows : List E) (s : Entities E) : Entities E × Vue E :=
  let r := rows.foldl (ajouteLigne meme g id option) (clearEntities s id, g.vue rows)
  (if g.dernier then auDernier r.1 id else r.1, r.2)

end Script

/-! ## The arrows -/

/-- What an arrow writes into the page.  It becomes inactive itself, and makes the other one
active. -/
def Vue.montre (f : Fleche) (v : Vue E) (a : Affichage E) : Vue E where
  contenu := v.contenu.map fun _ => a.entity
  position := v.position.map fun _ =>
    match a.index with
    | .entier i => diese i
    | _ => "#NaN".toList
  previous :=
    match f with
    | .previous => !a.desactive && v.previous
    | .next => a.active || v.previous
  next :=
    match f with
    | .previous => a.active || v.next
    | .next => !a.desactive && v.next

/-- `_previousEvent` and `_nextEvent`, with what they write. -/
def eventVue (f : Fleche) (fuel : ℕ) (id : Id) (index : Option Double)
    (r : Entities E × Vue E) : Option (Entities E × Vue E) :=
  (event f fuel r.1 id index).map fun e => (e.1, e.2.elim r.2 (r.2.montre f))

/-- `_changeTopper`, with what it writes. -/
def changeTopperVue (fuel : ℕ) (id : Id) (index : Double) (r : Entities E × Vue E) :
    Option (Entities E × Vue E) :=
  match lire r.1 id with
  | none => some r
  | some entity =>
    let r' := if entity.index.avant index then eventVue .next fuel id (some index) r else some r
    r'.bind fun r' =>
      let entity' := (lire r'.1 id).getD entity
      if entity'.index.apres index then eventVue .previous fuel id (some index) r' else some r'

/-! ## Runs -/

/-- The store, and what is shown of each zone. -/
structure Pages (E : Type) where
  store : Entities E
  vues : Id → Vue E

/-- What happens: a page is loaded, an arrow is clicked, or a point of a chart, and then the
arrows take as many steps as the fuel says. -/
inductive Geste (E : Type) where
  | charge (g : Gabarit) (id : Id) (option : Choix) (rows : List E)
  | clic (f : Fleche) (id : Id)
  | point (id : Id) (x : Double) (fuel : ℕ)

def Geste.id : Geste E → Id
  | .charge _ id _ _ => id
  | .clic _ id => id
  | .point id _ _ => id

/-- What it does to the zone; none while an arrow is still looking for a position. -/
def Geste.effet (meme : E → E → Bool) (r : Entities E × Vue E) :
    Geste E → Option (Entities E × Vue E)
  | .charge g id option rows => some (TopperZone.charge meme g id option rows r.1)
  | .clic f id => eventVue f 1 id none r
  | .point id x fuel => changeTopperVue fuel id x r

def Pages.apres (meme : E → E → Bool) (p : Pages E) (t : Geste E) : Option (Pages E) :=
  (t.effet meme (p.store, p.vues t.id)).map fun r => ⟨r.1, Function.update p.vues t.id r.2⟩

def Pages.apresTout (meme : E → E → Bool) : Pages E → List (Geste E) → Option (Pages E)
  | p, [] => some p
  | p, t :: ts => (p.apres meme t).bind fun p' => p'.apresTout meme ts

def Pages.vierges : Pages E := ⟨[], fun _ => ⟨none, none, false, false⟩⟩

/-- **The page and the cursor are in step**: the page shows the entity where the cursor
stands, and its position, and an arrow is active exactly if there is something to go to. -/
def EnPas (z : Option (Zone E)) (v : Vue E) : Prop :=
  match z with
  | none => v.contenu = none ∧ v.previous = false ∧ v.next = false
  | some z => ∃ l i, z.entities = some l ∧ z.index = .entier i ∧ 0 ≤ i ∧ i < l.length ∧
      (∀ e ∈ v.contenu, l[i.toNat]? = some e) ∧ (∀ t ∈ v.position, t = diese i) ∧
      (v.previous = true ↔ 0 < i) ∧ (v.next = true ↔ i + 1 < l.length)

/-- A page that starts with its last row, and shows it, starts with its last entity. -/
def Geste.Juste (meme : E → E → Bool) : Geste E → Prop
  | .charge g _ _ rows =>
    g.dernier = true → g.contenu = true → (retenus meme g [] rows).getLast? = rows.getLast?
  | _ => True

def Pages.EnPas (p : Pages E) : Prop :=
  ∀ id, ¬ Heritee id.1 → TopperZone.EnPas (lire p.store id) (p.vues id)

/-- They are in step all along a run, as far as it comes. -/
def Pages.Suivent (meme : E → E → Bool) : Pages E → List (Geste E) → Prop
  | p, [] => p.EnPas
  | p, t :: ts => p.EnPas ∧ ∀ p' ∈ p.apres meme t, p'.Suivent meme ts

/-- All pages loaded in a run, as far as it comes, start with their last entity if they do
with their last row. -/
def Pages.Justes (meme : E → E → Bool) : Pages E → List (Geste E) → Prop
  | _, [] => True
  | p, t :: ts => t.Juste meme ∧ ∀ p' ∈ p.apres meme t, p'.Justes meme ts

/-! ## Loading a page -/

section Charge

variable {meme : E → E → Bool} {g : Gabarit} {id : Id} {option : Choix}

/-- The arrows of a page whose zone has `n` entities, before any click. -/
def Gabarit.fleches (g : Gabarit) (v : Vue E) (n : ℕ) : Vue E :=
  { v with previous := g.dernier && decide (1 < n), next := !g.dernier && decide (1 < n) }

theorem retenus_cons (l : List E) (e : E) (rows : List E) :
    retenus meme g l (e :: rows) = retenus meme g (retenus meme g l [e]) rows := by
  simp only [retenus]
  split_ifs <;> rfl

theorem prefix_retenus (l rows : List E) : l <+: retenus meme g l rows := by
  induction rows generalizing l with
  | nil => exact List.prefix_refl l
  | cons e rows ih =>
    rw [retenus]
    split_ifs
    · exact ih l
    · exact ih l
    · exact (List.prefix_append l [e]).trans (ih _)

theorem head?_retenus (rows : List E) : (retenus meme g [] rows).head? = rows.head? := by
  rcases rows with _ | ⟨e, rows⟩
  · rfl
  · have hzero : atteint 0 g.maximum = false := by
      rcases hmax : g.max with _ | n
      · rw [Gabarit.maximum, hmax]
        rfl
      · have hn : n ≠ 0 := fun h => g.max_ne_zero (h ▸ hmax)
        rw [Gabarit.maximum, hmax, Option.map_some, atteint]
        exact decide_eq_false (by exact_mod_cast Ne.symm hn)
    have hone : retenus meme g [] [e] = [e] := by
      simp [retenus, hzero]
    obtain ⟨rest, hrest⟩ := @prefix_retenus E meme g [e] rows
    rw [retenus_cons, hone, ← hrest]
    rfl

/-- A row the script adds, to the entities and to the arrows. -/
theorem ajouteLigne_eq {s : Entities E} {v : Vue E} {l : List E}
    (hz : zone s id option = ⟨some l, .entier 0, some option⟩) (entity : E) :
    ajouteLigne meme g id option (s, g.fleches v l.length) entity =
      (put s id (some ⟨some (retenus meme g l [entity]), .entier 0, some option⟩),
        g.fleches v (retenus meme g l [entity]).length) := by
  rw [ajouteLigne, addEntity, hz, Vue.ajoute]
  simp only [Option.getD_some, retenus]
  split_ifs with hmeme hmax hlen hdernier
  · rfl
  · rfl
  · simp only [Gabarit.fleches, hdernier, decide_eq_true hlen, Bool.true_and, Bool.not_true,
      Bool.false_and]
  · simp only [Gabarit.fleches, Bool.eq_false_of_not_eq_true hdernier, decide_eq_true hlen,
      Bool.false_and, Bool.not_false, Bool.true_and]
  · have hshort : ¬ 1 < l.length := by
      rw [List.length_append] at hlen
      omega
    simp only [Gabarit.fleches, decide_eq_false hlen, decide_eq_false hshort]

theorem foldl_ajouteLigne (rows : List E) {s : Entities E} {v : Vue E} {l : List E}
    (hz : zone s id option = ⟨some l, .entier 0, some option⟩) :
    (rows.foldl (ajouteLigne meme g id option) (s, g.fleches v l.length)).2 =
        g.fleches v (retenus meme g l rows).length ∧
      (rows ≠ [] → lire (rows.foldl (ajouteLigne meme g id option)
          (s, g.fleches v l.length)).1 id =
        some ⟨some (retenus meme g l rows), .entier 0, some option⟩) := by
  induction rows generalizing s l with
  | nil => exact ⟨rfl, fun h => absurd rfl h⟩
  | cons e rows ih =>
    rw [List.foldl_cons, retenus_cons l e rows, ajouteLigne_eq hz]
    have hwritten := lire_put_self s id
      (some (⟨some (retenus meme g l [e]), .entier 0, some option⟩ : Zone E))
    have hnext : zone (put s id (some ⟨some (retenus meme g l [e]), .entier 0, some option⟩)) id
        option = ⟨some (retenus meme g l [e]), .entier 0, some option⟩ := by
      rw [zone, hwritten]
      rfl
    obtain ⟨hvue, hlire⟩ := ih hnext
    refine ⟨hvue, fun _ => ?_⟩
    rcases rows with _ | ⟨e', rows⟩
    · exact hwritten
    · exact hlire (List.cons_ne_nil _ _)

/-- A page without rows has no zone. -/
theorem charge_nil (s : Entities E) :
    lire (charge meme g id option [] s).1 id = none ∧
      (charge meme g id option [] s).2 = g.vue [] := by
  have hnone : lire (clearEntities s id) id = none := lire_put_self s id none
  refine ⟨?_, rfl⟩
  rw [charge]
  dsimp only [List.foldl_nil]
  split_ifs
  · rw [auDernier, hnone]
    exact hnone
  · exact hnone

theorem charge_eq {rows : List E} (hrows : rows ≠ []) (s : Entities E) :
    lire (charge meme g id option rows s).1 id =
        some ⟨some (retenus meme g [] rows),
          .entier (if g.dernier then (retenus meme g [] rows).length - 1 else 0), some option⟩ ∧
      (charge meme g id option rows s).2 =
        g.fleches (g.vue rows) (retenus meme g [] rows).length := by
  have hzone : zone (clearEntities s id) id option = ⟨some [], .entier 0, some option⟩ := by
    rw [zone, clearEntities, lire_put_self]
    rfl
  have hfleches : g.vue rows = g.fleches (g.vue rows) ([] : List E).length := by
    simp [Gabarit.vue, Gabarit.fleches]
  obtain ⟨hvue, hlire⟩ := @foldl_ajouteLigne E meme g id option rows _ (g.vue rows) _ hzone
  rw [charge, ← hfleches] at *
  refine ⟨?_, hvue⟩
  split_ifs
  · rw [auDernier, hlire hrows]
    exact lire_put_self _ _ _
  · exact hlire hrows

theorem enPas_some_iff {l : List E} {i : ℤ} {choix : Option Choix} {v : Vue E} :
    EnPas (some ⟨some l, .entier i, choix⟩) v ↔ 0 ≤ i ∧ i < l.length ∧
      (∀ e ∈ v.contenu, l[i.toNat]? = some e) ∧ (∀ t ∈ v.position, t = diese i) ∧
      (v.previous = true ↔ 0 < i) ∧ (v.next = true ↔ i + 1 < l.length) := by
  constructor
  · rintro ⟨l', i', hl, hi, h⟩
    cases hl
    cases hi
    exact h
  · exact fun h => ⟨l, i, rfl, rfl, h⟩

/-- The last row, where the cursor is on the last entity. -/
theorem forall_mem_getLast?_iff {l rows : List E} (hl : l ≠ []) (hrows : rows ≠ []) :
    (∀ e ∈ rows.getLast?, l[((l.length : ℤ) - 1).toNat]? = some e) ↔
      l.getLast? = rows.getLast? := by
  have hpos := List.length_pos_of_ne_nil hl
  have hindex : ((l.length : ℤ) - 1).toNat = l.length - 1 := by omega
  rw [hindex, ← List.getLast?_eq_getElem?, List.getLast?_eq_some_getLast hrows]
  simp

/-- **A page that is loaded** is in step exactly if it starts where the cursor does. -/
theorem enPas_charge_iff (rows : List E) (s : Entities E) :
    EnPas (lire (charge meme g id option rows s).1 id) (charge meme g id option rows s).2 ↔
      (Geste.charge g id option rows).Juste meme := by
  by_cases hrows : rows = []
  · subst hrows
    obtain ⟨hnone, hvue⟩ := @charge_nil E meme g id option s
    rw [hnone, hvue]
    refine iff_of_true ⟨?_, rfl, rfl⟩ fun _ _ => rfl
    simp [Gabarit.vue]
  · obtain ⟨hzone, hvue⟩ := @charge_eq E meme g id option rows hrows s
    have hhead := @head?_retenus E meme g rows
    have hne : retenus meme g [] rows ≠ [] := by
      intro hnil
      rw [hnil, List.head?_nil, eq_comm, List.head?_eq_none_iff] at hhead
      exact hrows hhead
    have hpos := List.length_pos_of_ne_nil hne
    rw [hzone, hvue, enPas_some_iff, Geste.Juste]
    generalize retenus meme g [] rows = l at *
    cases hdernier : g.dernier with
    | true =>
      -- the cursor is on the last entity
      have hposition := g.premier hdernier
      have hlast := forall_mem_getLast?_iff hne hrows
      simp only [Gabarit.fleches, Gabarit.vue, hdernier, hposition, if_true, Bool.true_and,
        Bool.not_true, Bool.false_and, Bool.false_eq_true, if_false, forall_true_left,
        decide_eq_true_eq]
      constructor
      · rintro ⟨-, -, hcontenu, -⟩ hplace
        rw [if_pos hplace] at hcontenu
        exact hlast.mp hcontenu
      · intro hjuste
        refine ⟨by omega, by omega, fun e he => ?_, fun t ht => (by cases ht), by omega,
          False.elim, fun h => by omega⟩
        split_ifs at he with hplace
        · exact hlast.mpr (hjuste hplace) e he
        · cases he
    | false =>
      -- the cursor is on the first entity, which is the first row
      refine iff_of_true ?_ fun h => absurd h Bool.false_ne_true
      simp only [Gabarit.fleches, Gabarit.vue, hdernier, Bool.false_and, Bool.not_false,
        Bool.true_and, Bool.false_eq_true, if_false, decide_eq_true_eq]
      refine ⟨le_rfl, by simpa using hpos, fun e he => ?_, fun t ht => ?_, by simp, by simp⟩
      · split_ifs at he with hplace
        · rw [← hhead, List.head?_eq_getElem?] at he
          exact he
        · cases he
      · split_ifs at ht
        · exact (Option.some_inj.mp ht).symm
        · cases ht

end Charge

/-! ## The arrows of a page in step -/

section Arrows

variable {s : Entities E} {id : Id} {z z' : Zone E} {l : List E} {i : ℤ} {v : Vue E}
  {r : Option E}

/-- Where an arrow ends: where the cursor was, with nothing to show, or further on its way,
with the entity there. -/
def Arrivee (l : List E) (f : Fleche) (i j : ℤ) (r : Option E) : Prop :=
  (r = none ∧ j = i) ∨ ∃ e, r = some e ∧ l[j.toNat]? = some e ∧ 0 ≤ j ∧ j < l.length ∧
    0 < pas f * (j - i)

theorem arrivee_move (l : List E) (f : Fleche) (i : ℤ) :
    Arrivee l f i (move l.length (pas f) i)
      (if 0 ≤ i + pas f ∧ i + pas f < l.length then l[(i + pas f).toNat]? else none) := by
  rw [move]
  split_ifs with h
  · have hlt : (i + pas f).toNat < l.length := by omega
    refine Or.inr ⟨l[(i + pas f).toNat], List.getElem?_eq_getElem hlt,
      List.getElem?_eq_getElem hlt, h.1, h.2, ?_⟩
    cases f <;> simp [pas]
  · exact Or.inl ⟨rfl, rfl⟩

theorem le_move (n : ℕ) (f : Fleche) (i : ℤ) : 0 ≤ pas f * (move n (pas f) i - i) := by
  rw [move]
  split_ifs
  · cases f <;> simp [pas]
  · simp

/-- **Where the loop of an arrow ends.** -/
theorem boucle_spec {f : Fleche} {index : Option Double} {fuel : ℕ} (hl : z.entities = some l)
    (hi : z.index = .entier i) (h : boucle (pas f) index fuel z = some (z', r)) :
    ∃ j, z' = { z with index := .entier j } ∧ Arrivee l f i j r ∧
      (index.any fun x => (Index.entier j).differe x) = false := by
  induction fuel generalizing z i with
  | zero => cases h
  | succ fuel ih =>
    rw [boucle, deplace_eq hl hi] at h
    rcases hgo : index.any fun x => (Index.entier (move l.length (pas f) i)).differe x with _ | _
    · rw [if_neg (by simp only [hgo, Bool.false_eq_true, not_false_eq_true])] at h
      obtain ⟨rfl, rfl⟩ := Prod.mk.inj (Option.some_inj.mp h)
      exact ⟨_, rfl, arrivee_move l f i, hgo⟩
    · -- the loop goes on from the next place
      rw [if_pos hgo] at h
      have hnext : ({ z with index := .entier (move l.length (pas f) i) } : Zone E).entities =
        some l := hl
      obtain ⟨j, hz', harrivee, hstop⟩ := ih hnext rfl h
      refine ⟨j, hz', ?_, hstop⟩
      rcases harrivee with ⟨-, rfl⟩ | ⟨e, hr, he, hnonneg, hlt, hfar⟩
      · rw [hstop] at hgo
        cases hgo
      · refine Or.inr ⟨e, hr, he, hnonneg, hlt, ?_⟩
        have hstep := le_move l.length f i
        rw [mul_sub] at hfar hstep ⊢
        omega

/-- **What an arrow writes** keeps a page in step. -/
theorem enPas_montre {f : Fleche} {j : ℤ} {e : E} (hl : z.entities = some l)
    (hi : z.index = .entier i) (h : EnPas (some z) v) (harrivee : Arrivee l f i j (some e)) :
    EnPas (some { z with index := .entier j })
      (v.montre f (affichage f { z with index := .entier j } e)) := by
  obtain ⟨l', i', hl', hi', hstart, hlt, -, -, hprevious, hnext⟩ := h
  obtain rfl : l = l' := Option.some_inj.mp (hl.symm.trans hl')
  obtain rfl : i = i' := Index.entier.inj (hi.symm.trans hi')
  obtain ⟨hr, -⟩ | ⟨e', hr, he, hnonneg, hltj, hfar⟩ := harrivee
  · cases hr
  · obtain rfl := Option.some_inj.mp hr
    refine ⟨l, j, hl, rfl, hnonneg, hltj, ?_, ?_, ?_, ?_⟩
    · intro e'' he''
      obtain ⟨_, -, rfl⟩ := Option.map_eq_some_iff.mp he''
      cases f <;> exact he
    · intro t ht
      obtain ⟨_, -, rfl⟩ := Option.map_eq_some_iff.mp ht
      cases f <;> rfl
    · cases f with
      | previous =>
        -- the cursor was further on, so the arrow back was active
        have hback : v.previous = true := hprevious.mpr (by simp only [pas] at hfar; omega)
        simp only [Vue.montre, affichage, hback, Bool.and_true, Bool.not_eq_true', beq_eq_false_iff_ne,
          ne_eq, Index.entier.injEq]
        omega
      | next =>
        have hmoved : 0 < j := by simp only [pas] at hfar; omega
        simp only [Vue.montre, affichage, Bool.or_eq_true, Bool.not_eq_true', beq_eq_false_iff_ne,
          ne_eq, Index.entier.injEq]
        exact iff_of_true (Or.inl (by omega)) hmoved
    · cases f with
      | previous =>
        have hmoved : j + 1 < l.length := by simp only [pas] at hfar; omega
        simp only [Vue.montre, affichage, hl, Option.getD_some, Bool.or_eq_true, Bool.not_eq_true',
          beq_eq_false_iff_ne, ne_eq, Index.entier.injEq]
        exact iff_of_true (Or.inl (by omega)) hmoved
      | next =>
        -- the cursor was before this, so the arrow forward was active
        have hforward : v.next = true := hnext.mpr (by simp only [pas] at hfar; omega)
        simp only [Vue.montre, affichage, hl, Option.getD_some, hforward, Bool.and_true,
          Bool.not_eq_true', beq_eq_false_iff_ne, ne_eq, Index.entier.injEq]
        omega

/-- **An arrow** keeps a page in step. -/
theorem enPas_eventVue {f : Fleche} {fuel : ℕ} {index : Option Double}
    {p p' : Entities E × Vue E} (h : EnPas (lire p.1 id) p.2)
    (hevent : eventVue f fuel id index p = some p') : EnPas (lire p'.1 id) p'.2 := by
  obtain ⟨e, he, rfl⟩ := Option.map_eq_some_iff.mp hevent
  rw [event] at he
  rcases hz : lire p.1 id with _ | z
  · rw [hz] at he
    obtain rfl := Option.some_inj.mp he
    exact h
  · rw [hz] at he h
    obtain ⟨⟨z', r⟩, hloop, rfl⟩ := Option.map_eq_some_iff.mp he
    have hbefore := h
    obtain ⟨l, i, hl, hi, -⟩ := hbefore
    obtain ⟨j, rfl, harrivee, -⟩ := boucle_spec hl hi hloop
    show EnPas (lire (put p.1 id (some _)) id) _
    rw [lire_put_self]
    rcases r with _ | entity
    · rcases harrivee with ⟨-, rfl⟩ | ⟨e, hr, -⟩
      · rw [← hi]
        exact h
      · cases hr
    · exact enPas_montre hl hi h harrivee

/-- What the arrows keep, `changeTopper` keeps. -/
theorem forall_changeTopperVue {P : Entities E × Vue E → Prop} {fuel : ℕ} {x : Double}
    {p p' : Entities E × Vue E}
    (hP : ∀ f q q', P q → eventVue f fuel id (some x) q = some q' → P q') (h : P p)
    (hchange : changeTopperVue fuel id x p = some p') : P p' := by
  have hpresse : ∀ {b : Bool} {f : Fleche} {q q' : Entities E × Vue E}, P q →
      (if b then eventVue f fuel id (some x) q else some q) = some q' → P q' := by
    intro b f q q' hq hq'
    cases b with
    | true => exact hP f q q' hq hq'
    | false =>
      obtain rfl := Option.some_inj.mp hq'
      exact hq
  rw [changeTopperVue] at hchange
  rcases hz : lire p.1 id with _ | entity
  · rw [hz] at hchange
    obtain rfl := Option.some_inj.mp hchange
    exact h
  · rw [hz] at hchange
    obtain ⟨q, hnext, hprevious⟩ := Option.bind_eq_some_iff.mp hchange
    exact hpresse (hpresse h hnext) hprevious

/-- **`changeTopper`** keeps a page in step. -/
theorem enPas_changeTopperVue {fuel : ℕ} {x : Double} {p p' : Entities E × Vue E}
    (h : EnPas (lire p.1 id) p.2) (hchange : changeTopperVue fuel id x p = some p') :
    EnPas (lire p'.1 id) p'.2 :=
  forall_changeTopperVue (fun _ _ _ hq hevent => enPas_eventVue hq hevent) h hchange

end Arrows

/-! ## Runs -/

section Runs

variable {meme : E → E → Bool} {p p' : Pages E} {t : Geste E}

theorem lire_eventVue_of_ne {id id' : Id} (hne : id' ≠ id) {f : Fleche} {fuel : ℕ}
    {index : Option Double} {r r' : Entities E × Vue E}
    (h : eventVue f fuel id index r = some r') : lire r'.1 id' = lire r.1 id' := by
  obtain ⟨e, he, rfl⟩ := Option.map_eq_some_iff.mp h
  rw [event] at he
  rcases hz : lire r.1 id with _ | z
  · rw [hz] at he
    rw [← Option.some_inj.mp he]
  · rw [hz] at he
    obtain ⟨_, -, rfl⟩ := Option.map_eq_some_iff.mp he
    exact lire_put_of_ne hne _ _

theorem lire_charge_of_ne {id id' : Id} (hne : id' ≠ id) (g : Gabarit) (option : Choix)
    (rows : List E) (s : Entities E) :
    lire (charge meme g id option rows s).1 id' = lire s id' := by
  have hrows : ∀ r : Entities E × Vue E,
      lire (rows.foldl (ajouteLigne meme g id option) r).1 id' = lire r.1 id' := by
    induction rows with
    | nil => exact fun r => rfl
    | cons e rows ih =>
      intro r
      rw [List.foldl_cons, ih, ajouteLigne, addEntity]
      dsimp only
      split_ifs <;> exact lire_put_of_ne hne _ _
  have hclear := lire_put_of_ne hne s none
  rw [charge]
  dsimp only
  split_ifs
  · rw [auDernier]
    split
    · exact (hrows _).trans hclear
    · split
      · exact (hrows _).trans hclear
      · exact (lire_put_of_ne hne _ _).trans ((hrows _).trans hclear)
  · exact (hrows _).trans hclear

/-- What happens to a zone leaves the others alone. -/
theorem lire_effet_of_ne {id' : Id} (hne : id' ≠ t.id) {r r' : Entities E × Vue E}
    (h : t.effet meme r = some r') : lire r'.1 id' = lire r.1 id' := by
  cases t with
  | charge g id option rows =>
    rw [← Option.some_inj.mp h]
    exact lire_charge_of_ne hne g option rows r.1
  | clic f id => exact lire_eventVue_of_ne hne h
  | point id x fuel =>
    have hP : ∀ f q q', lire q.1 id' = lire r.1 id' →
        eventVue f fuel id (some x) q = some q' → lire q'.1 id' = lire r.1 id' :=
      fun f q q' hq hevent => (lire_eventVue_of_ne hne hevent).trans hq
    exact forall_changeTopperVue (P := fun q => lire q.1 id' = lire r.1 id') hP rfl h

/-- Pages in step stay so exactly if what is loaded starts where the cursor does. -/
theorem Pages.enPas_apres_iff (h : p.EnPas) (ht : ¬ Heritee t.id.1)
    (hstep : p.apres meme t = some p') : p'.EnPas ↔ t.Juste meme := by
  obtain ⟨r, hr, rfl⟩ := Option.map_eq_some_iff.mp hstep
  have hautres : ∀ id, ¬ Heritee id.1 → id ≠ t.id →
      TopperZone.EnPas (lire r.1 id) (Function.update p.vues t.id r.2 id) := by
    intro id hid hne
    rw [Function.update_of_ne hne, lire_effet_of_ne hne hr]
    exact h id hid
  have hzone : TopperZone.EnPas (lire r.1 t.id) r.2 ↔ t.Juste meme := by
    cases t with
    | charge g id option rows =>
      rw [← Option.some_inj.mp hr]
      exact enPas_charge_iff rows p.store
    | clic f id => exact iff_of_true (enPas_eventVue (h id ht) hr) trivial
    | point id x fuel => exact iff_of_true (enPas_changeTopperVue (h id ht) hr) trivial
  rw [← hzone]
  constructor
  · intro h'
    have hself : TopperZone.EnPas (lire r.1 t.id) (Function.update p.vues t.id r.2 t.id) :=
      h' t.id ht
    rwa [Function.update_self] at hself
  · intro hself id hid
    show TopperZone.EnPas (lire r.1 id) (Function.update p.vues t.id r.2 id)
    by_cases hne : id = t.id
    · rw [hne, Function.update_self]
      exact hself
    · exact hautres id hid hne

theorem Pages.Suivent.enPas {ts : List (Geste E)} (h : p.Suivent meme ts) : p.EnPas := by
  cases ts with
  | nil => exact h
  | cons t ts => exact h.1

theorem Pages.apres_isSome_of_not_juste (p : Pages E) (h : ¬ t.Juste meme) :
    (p.apres meme t).isSome := by
  cases t with
  | charge g id option rows => rfl
  | clic f id => exact absurd trivial h
  | point id x fuel => exact absurd trivial h

/-- Through a run they stay in step exactly if that is so of all that it loads. -/
theorem Pages.suivent_iff (h : p.EnPas) {ts : List (Geste E)} (hts : ∀ t ∈ ts, ¬ Heritee t.id.1) :
    p.Suivent meme ts ↔ p.Justes meme ts := by
  induction ts generalizing p with
  | nil => exact iff_of_true h trivial
  | cons t ts ih =>
    rw [List.forall_mem_cons] at hts
    rw [Pages.Suivent, Pages.Justes, and_iff_right h]
    constructor
    · intro hsuivent
      refine ⟨?_, fun p' hp' => ?_⟩
      · by_contra hnot
        obtain ⟨p', hp'⟩ := Option.isSome_iff_exists.mp (p.apres_isSome_of_not_juste hnot)
        exact hnot ((Pages.enPas_apres_iff h hts.1 hp').mp (hsuivent p' hp').enPas)
      · exact (ih (hsuivent p' hp').enPas hts.2).mp (hsuivent p' hp')
    · rintro ⟨hjuste, hrest⟩ p' hp'
      exact (ih ((Pages.enPas_apres_iff h hts.1 hp').mpr hjuste) hts.2).mpr (hrest p' hp')

end Runs

/-- **The pages stay in step with their zones** through any loads, clicks on arrows and on
points of charts, exactly if each page that starts with its last row starts with its last
entity.  The zones have names of their own. -/
theorem display_in_step (meme : E → E → Bool) (ts : List (Geste E))
    (hts : ∀ t ∈ ts, ¬ Heritee t.id.1) :
    Pages.vierges.Suivent meme ts ↔ Pages.vierges.Justes meme ts := by
  refine Pages.suivent_iff (fun id hid => ?_) hts
  have hnone : lire ([] : Entities E) id = none := by
    rw [lire, if_neg hid]
    rfl
  show TopperZone.EnPas (lire [] id) _
  rw [hnone]
  exact ⟨rfl, rfl, rfl⟩

def utilisateurs : Gabarit := ⟨none, false, true, true, by simp, by simp⟩

def communautes : Gabarit := ⟨none, true, true, false, by simp, by simp⟩

/-- Two users, and the arrow forward; then three rows of two months. -/
theorem display_in_step_at_communautes :
    Pages.vierges.Suivent (fun e e' : ℕ => e == e')
        [.charge utilisateurs registre (.type []) [4, 7], .clic .next registre,
          .charge communautes registre (.type []) [5, 6, 5]] ↔
      Pages.vierges.Justes (fun e e' : ℕ => e == e')
        [.charge utilisateurs registre (.type []) [4, 7], .clic .next registre,
          .charge communautes registre (.type []) [5, 6, 5]] := by
  have hregistre : ¬ Heritee registre.1 := by decide
  refine display_in_step _ _ fun t ht => ?_
  simp only [List.mem_cons, List.not_mem_nil, or_false] at ht
  rcases ht with rfl | rfl | rfl <;> exact hregistre

end TopperZone
end Page
end RondeDesFacs
