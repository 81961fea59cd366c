import Mathlib.Data.List.NodupEquivFin
import RondeDesFacs.Page.TopperDisplay

/-!
# The points of a chart

With `get-in-topper`, a click on a point of a chart goes to the place of the point in a zone:
the first point to the first entity, and so on.  But the points are made of the rows, and the
entities are the rows without repetitions, no more of them than the page takes.  From the
first row on that is left out, the entities are not where the points are.

So a click shows the row of its point exactly if no row has been left out up to there
(`point_shows_row`).  Behind that it shows the entity of a later row, or, where there is none,
the page hangs.

All this is of a page that starts in step with its cursor.  One that starts with its last row,
where that is not the last entity, has the cursor on an entity that it does not show; a click
on the point of that entity moves nothing, and the page goes on showing the other.
-/

namespace RondeDesFacs
namespace Page
namespace TopperZone

open Script Association Cursor SquareZone

variable {E : Type} {meme : E → E → Bool} {g : Gabarit}

/-! ## The rows that are kept -/

theorem retenus_append (l rows rows' : List E) :
    retenus meme g l (rows ++ rows') = retenus meme g (retenus meme g l rows) rows' := by
  induction rows generalizing l with
  | nil => rfl
  | cons e rows ih => rw [List.cons_append, retenus_cons, ih, ← retenus_cons]

theorem retenus_sublist (l rows : List E) : (retenus meme g l rows).Sublist (l ++ rows) := by
  induction rows generalizing l with
  | nil => exact List.sublist_append_left l []
  | cons e rows ih =>
    have hskip : (l ++ rows).Sublist (l ++ e :: rows) :=
      (List.sublist_cons_self e rows).append_left l
    rw [retenus]
    split_ifs
    · exact (ih l).trans hskip
    · exact (ih l).trans hskip
    · have hkept := ih (l ++ [e])
      rwa [List.append_assoc, List.singleton_append] at hkept

theorem atteint_iff (n : ℕ) : atteint n g.maximum = true ↔ g.max = some n := by
  rcases hmax : g.max with _ | m
  · simp [Gabarit.maximum, hmax, atteint]
  · rw [Gabarit.maximum, hmax, Option.map_some, atteint, decide_eq_true_eq, Option.some_inj]
    exact_mod_cast eq_comm

/-- The entities of a page: no two alike, and no more than it takes. -/
structure Gardees (meme : E → E → Bool) (g : Gabarit) (l : List E) : Prop where
  distinctes : l.Pairwise fun e e' => meme e e' = false
  plafond : ∀ n ∈ g.max, l.length ≤ n

theorem Gardees.nil : Gardees meme g [] := ⟨List.Pairwise.nil, fun _ _ => Nat.zero_le _⟩

theorem Gardees.retenus {l : List E} (h : Gardees meme g l) (rows : List E) :
    Gardees meme g (retenus meme g l rows) := by
  induction rows generalizing l with
  | nil => exact h
  | cons e rows ih =>
    rw [TopperZone.retenus]
    split_ifs with hmeme hmax
    · exact ih h
    · exact ih h
    · refine ih ⟨?_, fun n hn => ?_⟩
      · refine List.pairwise_append.mpr ⟨h.distinctes, List.pairwise_singleton _ _, ?_⟩
        intro e' he' e'' he''
        rw [List.mem_singleton.mp he'']
        exact Bool.eq_false_of_not_eq_true fun hsame =>
          hmeme (List.any_eq_true.mpr ⟨e', he', hsame⟩)
      · have hle := h.plafond n hn
        have hne : l.length ≠ n := fun heq => hmax ((atteint_iff _).mpr (heq ▸ hn))
        rw [List.length_append, List.length_singleton]
        omega

/-- All rows are kept if they are like that. -/
theorem Gardees.retenus_eq {l rows : List E} (h : Gardees meme g (l ++ rows)) :
    TopperZone.retenus meme g l rows = l ++ rows := by
  induction rows generalizing l with
  | nil => exact (List.append_nil l).symm
  | cons e rows ih =>
    have hmeme : ¬ (l.any fun e' => meme e' e) = true := by
      intro hany
      obtain ⟨e', he', hsame⟩ := List.any_eq_true.mp hany
      have hnot := (List.pairwise_append.mp h.distinctes).2.2 e' he' e List.mem_cons_self
      rw [hnot] at hsame
      cases hsame
    have hmax : ¬ atteint l.length g.maximum = true := by
      intro hfull
      have hle := h.plafond _ ((atteint_iff _).mp hfull)
      rw [List.length_append, List.length_cons] at hle
      omega
    have happend : l ++ e :: rows = l ++ [e] ++ rows := by simp
    rw [TopperZone.retenus, if_neg hmeme, if_neg hmax, happend]
    exact ih (happend ▸ h)

/-- A row is like an entity behind it, unless there is no room for more. -/
theorem exists_meme_or_atteint (hmeme : ∀ e, meme e e = true) (l : List E) (e : E) :
    (∃ e' ∈ retenus meme g l [e], meme e' e = true) ∨
      g.max = some (retenus meme g l [e]).length := by
  simp only [retenus]
  split_ifs with hany hmax
  · obtain ⟨e', he', hsame⟩ := List.any_eq_true.mp hany
    exact Or.inl ⟨e', he', hsame⟩
  · exact Or.inr ((atteint_iff _).mp hmax)
  · exact Or.inl ⟨e, by simp, hmeme e⟩

/-- **The entity at the place of a row** is that row exactly if no row has been left out up to
there. -/
theorem getElem?_retenus_iff (hmeme : ∀ e, meme e e = true) {rows : List E} {k : ℕ}
    (hk : k < rows.length) :
    (retenus meme g [] rows)[k]? = rows[k]? ↔ Gardees meme g (rows.take (k + 1)) := by
  set acc := retenus meme g [] (rows.take (k + 1)) with hacc
  obtain ⟨suite, hsuite⟩ := @prefix_retenus E meme g acc (rows.drop (k + 1))
  have hsplit : retenus meme g [] rows = acc ++ suite := by
    rw [hsuite, hacc, ← retenus_append, List.take_append_drop]
  have hgardees : Gardees meme g (acc ++ suite) := hsplit ▸ Gardees.nil.retenus rows
  have hrow : rows[k]? = some rows[k] := List.getElem?_eq_getElem hk
  have hlength : (rows.take (k + 1)).length = k + 1 := List.length_take_of_le hk
  rw [hsplit]
  constructor
  · intro hplace
    by_contra hnot
    -- a row has been left out, so the entity came behind it
    have hshort : acc.length ≤ k := by
      have hsub : acc.Sublist (rows.take (k + 1)) := retenus_sublist [] _
      have hle := hsub.length_le
      have hne : acc.length ≠ (rows.take (k + 1)).length := fun heq =>
        hnot (hsub.eq_of_length heq ▸ Gardees.nil.retenus _)
      omega
    rw [List.getElem?_append_right hshort, hrow] at hplace
    have hmem : rows[k] ∈ suite := List.mem_of_getElem? hplace
    have hlast : acc = retenus meme g (retenus meme g [] (rows.take k)) [rows[k]] := by
      rw [hacc, List.take_succ_eq_append_getElem hk, retenus_append]
    rcases hlast ▸ @exists_meme_or_atteint E meme g hmeme _ rows[k] with ⟨e', he', hsame⟩ | hmax
    · have hdiff := (List.pairwise_append.mp hgardees.distinctes).2.2 e' he' _ hmem
      rw [hdiff] at hsame
      cases hsame
    · have hle := hgardees.plafond _ hmax
      rw [List.length_append] at hle
      have hpos := List.length_pos_of_mem hmem
      omega
  · intro hgarde
    have hall : acc = rows.take (k + 1) := by
      rw [hacc]
      exact @Gardees.retenus_eq E meme g [] _ hgarde
    have hlt : k < acc.length := by rw [hall, hlength]; exact Nat.lt_succ_self k
    rw [List.getElem?_append_left hlt, hall, List.getElem?_take_of_lt (Nat.lt_succ_self k)]

/-- **The entity at the place of a row that does not fit** is a later row. -/
theorem exists_later_of_not_gardees (hmeme : ∀ e, meme e e = true) {rows : List E} {k : ℕ}
    (hk : k < rows.length) (hlt : k < (retenus meme g [] rows).length)
    (hnot : ¬ Gardees meme g (rows.take (k + 1))) :
    ∃ j, k < j ∧ j < rows.length ∧ (retenus meme g [] rows)[k]? = rows[j]? := by
  obtain ⟨f, hf⟩ := List.sublist_iff_exists_orderEmbedding_getElem?_eq.mp
    (@retenus_sublist E meme g [] rows)
  have hplace : (retenus meme g [] rows)[k]? = rows[f k]? := hf k
  have hle : k ≤ f k := f.strictMono.le_apply
  have hne : k ≠ f k := by
    intro heq
    exact hnot ((getElem?_retenus_iff hmeme hk).mp (hplace.trans (by rw [← heq])))
  have hrow : f k < rows.length := by
    rw [List.getElem?_eq_getElem hlt] at hplace
    exact (List.getElem?_eq_some_iff.mp hplace.symm).1
  exact ⟨f k, lt_of_le_of_ne hle hne, hrow, hplace⟩

/-! ## The cursor -/

section Cursor

variable {id : Id} {l : List E} {choix : Option Choix}

/-- The zone has the entities `l`, and the page shows one of them, in step with the cursor. -/
structure Tenue (id : Id) (l : List E) (choix : Option Choix) (r : Entities E × Vue E) : Prop where
  zone : ∃ i, lire r.1 id = some ⟨some l, .entier i, choix⟩
  enPas : EnPas (lire r.1 id) r.2
  contenu : r.2.contenu.isSome

/-- **An arrow** leaves the entities as they are, and stops where it should. -/
theorem Tenue.eventVue {f : Fleche} {fuel : ℕ} {index : Option Double} {r r' : Entities E × Vue E}
    (h : Tenue id l choix r) (hevent : eventVue f fuel id index r = some r') :
    Tenue id l choix r' ∧ ∃ i, lire r'.1 id = some ⟨some l, .entier i, choix⟩ ∧
      (index.any fun x => (Index.entier i).differe x) = false := by
  obtain ⟨i, hz⟩ := h.zone
  have henPas := enPas_eventVue h.enPas hevent
  obtain ⟨e, he, rfl⟩ := Option.map_eq_some_iff.mp hevent
  rw [event, hz] at he
  obtain ⟨⟨z', a⟩, hloop, rfl⟩ := Option.map_eq_some_iff.mp he
  obtain ⟨j, rfl, -, hstop⟩ := boucle_spec rfl rfl hloop
  have hzone : lire (put r.1 id (some (⟨some l, .entier j, choix⟩ : Zone E))) id =
      some ⟨some l, .entier j, choix⟩ := lire_put_self _ _ _
  refine ⟨⟨⟨j, hzone⟩, henPas, ?_⟩, j, hzone, hstop⟩
  cases a with
  | none => exact h.contenu
  | some a => simpa [Vue.montre] using h.contenu

/-- **Where a click on a point ends**: at the place of the point. -/
theorem Tenue.changeTopperVue {fuel k : ℕ} {r r' : Entities E × Vue E} (h : Tenue id l choix r)
    (hchange : changeTopperVue fuel id (.fini k) r = some r') :
    Tenue id l choix r' ∧ lire r'.1 id = some ⟨some l, .entier k, choix⟩ := by
  have hplace : ∀ j : ℤ, (Index.entier j).differe (.fini k) = false → j = k := fun j hstop => by
    have harret : arret (.fini k) j = true := by rw [arret, hstop]; rfl
    rw [arret_fini] at harret
    exact of_decide_eq_true harret
  obtain ⟨i, hz⟩ := h.zone
  rw [TopperZone.changeTopperVue, hz] at hchange
  obtain ⟨q, hnext, hprevious⟩ := Option.bind_eq_some_iff.mp hchange
  -- the arrow ahead, if the cursor is before the place
  obtain ⟨hq, j, hzq, hj⟩ : Tenue id l choix q ∧
      ∃ j : ℤ, lire q.1 id = some ⟨some l, .entier j, choix⟩ ∧ k ≤ j := by
    rw [avant_fini] at hnext
    by_cases hlt : i < k
    · rw [decide_eq_true hlt, if_pos rfl] at hnext
      obtain ⟨hq, j, hzq, hstop⟩ := h.eventVue hnext
      exact ⟨hq, j, hzq, (hplace j hstop).ge⟩
    · rw [decide_eq_false hlt, if_neg Bool.false_ne_true] at hnext
      obtain rfl := Option.some_inj.mp hnext
      exact ⟨h, i, hz, not_lt.mp hlt⟩
  -- the arrow back, if it is behind
  rw [hzq, Option.getD_some] at hprevious
  dsimp only at hprevious
  rw [apres_fini] at hprevious
  by_cases hgt : (k : ℤ) < j
  · rw [decide_eq_true hgt, if_pos rfl] at hprevious
    obtain ⟨hr', j', hzr', hstop⟩ := hq.eventVue hprevious
    exact ⟨hr', hplace j' hstop ▸ hzr'⟩
  · rw [decide_eq_false hgt, if_neg Bool.false_ne_true] at hprevious
    obtain rfl := Option.some_inj.mp hprevious
    obtain rfl : j = k := le_antisymm (not_lt.mp hgt) hj
    exact ⟨hq, hzq⟩

/-- The page writes what it writes beside the moves of the cursor. -/
theorem map_fst_changeTopperVue (fuel : ℕ) (id : Id) (x : Double) (r : Entities E × Vue E) :
    (TopperZone.changeTopperVue fuel id x r).map Prod.fst =
      (changeTopper fuel r.1 id x).map Prod.fst := by
  have hpresse : ∀ (b : Bool) (f : Fleche) (q : Entities E × Vue E),
      (if b then TopperZone.eventVue f fuel id (some x) q else some q).map Prod.fst =
        presse b f fuel q.1 id x := by
    intro b f q
    cases b with
    | true => exact Option.map_map ..
    | false => rfl
  rw [TopperZone.changeTopperVue, changeTopper]
  rcases lire r.1 id with _ | entity
  · rfl
  · dsimp only
    rw [← hpresse]
    rcases (if entity.index.avant x then TopperZone.eventVue .next fuel id (some x) r else some r)
      with _ | q
    · rfl
    · rw [Option.bind_some, Option.map_some, Option.bind_some, Option.map_map, hpresse]
      exact (Option.map_id' ..).symm

/-- **A click on a point** ends exactly if there is an entity at its place. -/
theorem Tenue.exists_changeTopperVue_iff {k : ℕ} {r : Entities E × Vue E}
    (h : Tenue id l choix r) :
    (∃ fuel r', TopperZone.changeTopperVue fuel id (.fini k) r = some r') ↔ k < l.length := by
  constructor
  · rintro ⟨fuel, r', hchange⟩
    obtain ⟨hr', hz⟩ := h.changeTopperVue hchange
    have henPas := hr'.enPas
    rw [hz, enPas_some_iff] at henPas
    exact_mod_cast henPas.2.1
  · intro hk
    obtain ⟨i, hz⟩ := h.zone
    have henPas := h.enPas
    rw [hz, enPas_some_iff] at henPas
    obtain ⟨fuel, s', -, hend, -⟩ :=
      arrive_fini hz rfl rfl ⟨henPas.1, Or.inl henPas.2.1⟩ hk
    have hfst := map_fst_changeTopperVue fuel id (.fini k) r
    rw [hend] at hfst
    obtain ⟨r', hr', -⟩ := Option.map_eq_some_iff.mp hfst
    exact ⟨fuel, r', hr'⟩

/-- What is shown is the entity where the cursor stands. -/
theorem Tenue.contenu_eq {k : ℕ} {r : Entities E × Vue E} (h : Tenue id l choix r)
    (hz : lire r.1 id = some ⟨some l, .entier k, choix⟩) : r.2.contenu = l[k]? := by
  obtain ⟨e, he⟩ := Option.isSome_iff_exists.mp h.contenu
  have henPas := h.enPas
  rw [hz, enPas_some_iff] at henPas
  rw [he]
  exact (henPas.2.2.1 e he).symm

end Cursor

/-! ## Runs -/

section Runs

variable {id : Id} {l : List E} {choix : Option Choix} {option : Choix} {p p' : Pages E}

/-- No other page is loaded for the zone. -/
def Geste.Garde (id : Id) : Geste E → Prop
  | .charge _ id' _ _ => id' ≠ id
  | _ => True

theorem tenue_charge {rows : List E} (hrows : rows ≠ []) (hcontenu : g.contenu = true)
    (hjuste : (Geste.charge g id option rows).Juste meme) (s : Entities E) :
    Tenue id (retenus meme g [] rows) (some option) (charge meme g id option rows s) := by
  obtain ⟨hzone, hvue⟩ := @charge_eq E meme g id option rows hrows s
  refine ⟨⟨_, hzone⟩, (enPas_charge_iff rows s).mpr hjuste, ?_⟩
  rw [hvue]
  simp only [Gabarit.fleches, Gabarit.vue, hcontenu, if_true]
  split_ifs
  · exact List.getLast?_isSome.mpr hrows
  · rw [List.head?_eq_some_head hrows]
    rfl

/-- Whatever is clicked, in this zone or another, or loaded for another, the zone keeps its
entities and its page stays in step. -/
theorem Tenue.apres {t : Geste E} (h : Tenue id l choix (p.store, p.vues id)) (ht : t.Garde id)
    (hstep : p.apres meme t = some p') : Tenue id l choix (p'.store, p'.vues id) := by
  obtain ⟨r, hr, rfl⟩ := Option.map_eq_some_iff.mp hstep
  by_cases hid : t.id = id
  · subst hid
    have htenue : Tenue t.id l choix r := by
      cases t with
      | charge g id option rows => exact absurd rfl ht
      | clic f id => exact (h.eventVue hr).1
      | point id x fuel =>
        exact forall_changeTopperVue (fun f q q' hq hevent => (hq.eventVue hevent).1) h hr
    show Tenue t.id l choix (r.1, Function.update p.vues t.id r.2 t.id)
    rwa [Function.update_self]
  · have hstore := lire_effet_of_ne (Ne.symm hid) hr
    show Tenue id l choix (r.1, Function.update p.vues t.id r.2 id)
    rw [Function.update_of_ne (Ne.symm hid)]
    exact ⟨hstore ▸ h.zone, hstore ▸ h.enPas, h.contenu⟩

theorem Tenue.apresTout {ts : List (Geste E)} (h : Tenue id l choix (p.store, p.vues id))
    (hts : ∀ t ∈ ts, t.Garde id) (hrun : p.apresTout meme ts = some p') :
    Tenue id l choix (p'.store, p'.vues id) := by
  induction ts generalizing p with
  | nil =>
    obtain rfl := Option.some_inj.mp hrun
    exact h
  | cons t ts ih =>
    obtain ⟨ht, hts⟩ := List.forall_mem_cons.mp hts
    obtain ⟨q, hstep, hrest⟩ := Option.bind_eq_some_iff.mp hrun
    exact ih (h.apres ht hstep) hts hrest

end Runs

/-- **A click on the point of a row**, whatever has been clicked since the page was loaded, ends
exactly if there are so many entities, and shows the row exactly if no row has been left out up
to there; if one has, and the click ends, it shows a later row. -/
theorem point_shows_row (meme : E → E → Bool) (hmeme : ∀ e, meme e e = true) (g : Gabarit)
    (hcontenu : g.contenu = true) (id : Id) (option : Choix) (rows : List E)
    (hjuste : (Geste.charge g id option rows).Juste meme) (p₀ p : Pages E) (ts : List (Geste E))
    (hts : ∀ t ∈ ts, t.Garde id)
    (hrun : p₀.apresTout meme (.charge g id option rows :: ts) = some p) (k : ℕ)
    (hk : k < rows.length) :
    ((∃ fuel p', p.apres meme (.point id (.fini k) fuel) = some p') ↔
        k < (retenus meme g [] rows).length) ∧
      ((∃ fuel p', p.apres meme (.point id (.fini k) fuel) = some p' ∧
          (p'.vues id).contenu = rows[k]?) ↔ Gardees meme g (rows.take (k + 1))) ∧
      (k < (retenus meme g [] rows).length → ¬ Gardees meme g (rows.take (k + 1)) →
        ∃ j, k < j ∧ j < rows.length ∧ ∀ fuel p', p.apres meme (.point id (.fini k) fuel) = some p' →
          (p'.vues id).contenu = rows[j]?) := by
  obtain ⟨q, hload, hrest⟩ := Option.bind_eq_some_iff.mp hrun
  obtain rfl := Option.some_inj.mp hload
  have hp : Tenue id (retenus meme g [] rows) (some option) (p.store, p.vues id) := by
    refine Tenue.apresTout ?_ hts hrest
    show Tenue id _ _ ((charge meme g id option rows p₀.store).1,
      Function.update p₀.vues id (charge meme g id option rows p₀.store).2 id)
    rw [Function.update_self]
    exact tenue_charge (List.ne_nil_of_length_pos (by omega)) hcontenu hjuste p₀.store
  have hpoint : ∀ fuel, p.apres meme (.point id (.fini k) fuel) =
      (changeTopperVue fuel id (.fini k) (p.store, p.vues id)).map fun r =>
        ⟨r.1, Function.update p.vues id r.2⟩ := fun _ => rfl
  have hshown : ∀ fuel p', p.apres meme (.point id (.fini k) fuel) = some p' →
      (p'.vues id).contenu = (retenus meme g [] rows)[k]? := by
    intro fuel p' hstep
    rw [hpoint] at hstep
    obtain ⟨r', hr', rfl⟩ := Option.map_eq_some_iff.mp hstep
    obtain ⟨htenue, hplace⟩ := hp.changeTopperVue hr'
    show (Function.update p.vues id r'.2 id).contenu = _
    rw [Function.update_self]
    exact htenue.contenu_eq hplace
  refine ⟨?_, ?_, fun hlt hnot => ?_⟩
  · rw [← hp.exists_changeTopperVue_iff]
    simp only [hpoint, Option.map_eq_some_iff]
    exact ⟨fun ⟨fuel, _, r', hr', _⟩ => ⟨fuel, r', hr'⟩, fun ⟨fuel, r', hr'⟩ =>
      ⟨fuel, _, r', hr', rfl⟩⟩
  · rw [← getElem?_retenus_iff hmeme hk]
    constructor
    · rintro ⟨fuel, p', hstep, hrow⟩
      rw [← hshown fuel p' hstep, hrow]
    · intro hplace
      have hlt : k < (retenus meme g [] rows).length := by
        rw [List.getElem?_eq_getElem hk] at hplace
        exact (List.getElem?_eq_some_iff.mp hplace).1
      obtain ⟨fuel, r', hr'⟩ := hp.exists_changeTopperVue_iff.mpr hlt
      have hstep := (hpoint fuel).trans (congrArg _ hr')
      exact ⟨fuel, _, hstep, (hshown fuel _ hstep).trans hplace⟩
  · obtain ⟨j, hlater, hj, hplace⟩ := exists_later_of_not_gardees hmeme hk hlt hnot
    exact ⟨j, hlater, hj, fun fuel p' hstep => (hshown fuel p' hstep).trans hplace⟩

/-- The page of the users, when the first of them has two rows. -/
def doublon : Pages ℕ :=
  let r := charge (fun e e' => e == e') utilisateurs registre (.type []) [4, 4, 7] []
  ⟨r.1, Function.update Pages.vierges.vues registre r.2⟩

/-- The second point does not show him again, but the one behind. -/
theorem point_shows_row_doublon :
    (¬ ∃ fuel p', doublon.apres (fun e e' => e == e')
        (.point registre (.fini (1 : ℕ)) fuel) = some p' ∧
          (p'.vues registre).contenu = [4, 4, 7][1]?) ∧
      ∃ j, 1 < j ∧ j < 3 ∧ ∀ fuel p', doublon.apres (fun e e' => e == e')
        (.point registre (.fini (1 : ℕ)) fuel) = some p' →
          (p'.vues registre).contenu = [4, 4, 7][j]? := by
  have hdouble : ¬ Gardees (fun e e' : ℕ => e == e') utilisateurs ([4, 4, 7].take 2) :=
    fun h => absurd h.distinctes (by decide)
  obtain ⟨-, hshown, hlater⟩ := point_shows_row (fun e e' : ℕ => e == e')
    (fun e => beq_self_eq_true e) utilisateurs rfl registre (.type []) [4, 4, 7]
    (fun h => by cases h) Pages.vierges doublon [] (by simp) rfl 1 (by decide)
  exact ⟨fun h => hdouble (hshown.mp h), hlater (by decide) hdouble⟩

end TopperZone
end Page
end RondeDesFacs
