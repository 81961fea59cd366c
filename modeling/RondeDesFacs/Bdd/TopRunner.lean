import RondeDesFacs.Bdd.Procedures

/-!
# The top of the race

`topRunner(1, x)` lists the first nine of the runners with a card, `order by res`.
Three things make such a list the top of the race: the results do not increase down
the list, no runner is in it twice, and no runner with a card who is left out has a
better result (`Top`).

`order by` without `desc` puts the lowest results first, so the list is the top only
where it makes no difference: where all runners with a card have the same result.
The join has one row for each card, so a runner with two cards has two rows, and
where all results tie nothing keeps them apart.  Both conditions are exact
(`topRunner_top`); the order of rows that tie is the server's, and the result is for
every such order.
-/

namespace RondeDesFacs
namespace Bdd

open Query

/-- `participant inner join carte ON participant.PART_ID = carte.CARTE_IDETUDIANT`. -/
def participantCarte (b : Bdd) : List (Participant × Carte) :=
  innerJoin b.participant b.carte fun p c => p.partId = c.carteIdEtudiant

/-- What `topRunner` selects of a joined row. -/
def rankRow (b : Bdd) (x : Participant × Carte) : RankRow where
  ident := x.1.partIdEtudiant
  res := b.nbTourCoureur x.1.partId
  lastName := x.1.partNom
  firstName := x.1.partPrenom
  picture := x.1.partAvatar

/-- `order by res` on the joined rows. -/
def resLe (b : Bdd) (x y : Participant × Carte) : Bool :=
  decide (b.nbTourCoureur x.1.partId ≤ b.nbTourCoureur y.1.partId)

/-- The joined rows behind the result of `topRunner(indexx, idEtudiant)`.  Rows that
tie come in any order, which is the order `o` in which the join hands them out. -/
def topRunnerDe (b : Bdd) (o : RowOrder (Participant × Carte)) (indexx : ℤ) (_idEtudiant : Text) :
    List (List (Participant × Carte)) :=
  if indexx ≠ 0 then [topWindow indexx (orderBy b.resLe (o.arrange b.participantCarte))] else []

/-- The top of the race: in order of merit, each runner once, and nobody better left
out. -/
structure Top (b : Bdd) (listed : List (Participant × Carte)) : Prop where
  /-- The results do not increase. -/
  sorted : (listed.map b.rankRow).Pairwise fun r s => s.res ≤ r.res
  /-- No participant has two rows. -/
  once : (listed.map fun x => x.1.partId).Nodup
  /-- No participant with a card who is not listed has more laps than a listed one. -/
  best : ∀ p ∈ b.participant, (∃ c ∈ b.carte, c.carteIdEtudiant = p.partId) →
    (∀ x ∈ listed, x.1.partId ≠ p.partId) →
    ∀ x ∈ listed, b.nbTourCoureur p.partId ≤ b.nbTourCoureur x.1.partId

variable {b : Bdd}

theorem topWindow_map {α β : Type*} (f : α → β) (indexx : ℤ) (rows : List α) :
    topWindow indexx (rows.map f) = (topWindow indexx rows).map f := by
  rw [topWindow, topWindow, limit, limit, ← List.map_drop, ← List.map_take]

/-- The rows of `topRunner` are what it selects of these. -/
theorem topRunner_eq (b : Bdd) (indexx : ℤ) (idEtudiant : Text) :
    b.topRunner indexx idEtudiant =
      (b.topRunnerDe RowOrder.table indexx idEtudiant).map (List.map b.rankRow) := by
  have hclassement : (orderBy b.resLe b.participantCarte).map b.rankRow = b.classement := by
    refine map_orderBy (fun x y => ?_) b.participantCarte
    rfl
  rw [topRunner, topRunnerDe]
  split_ifs
  · rw [← hclassement, topWindow_map]
    rfl
  · rfl

/-- The first window holds the first nine rows. -/
theorem topRunnerDe_one (b : Bdd) (o : RowOrder (Participant × Carte)) (idEtudiant : Text) :
    b.topRunnerDe o 1 idEtudiant =
      [(orderBy b.resLe (o.arrange b.participantCarte)).take indexmax] := rfl

theorem mem_participantCarte_iff {x : Participant × Carte} :
    x ∈ b.participantCarte ↔
      x.1 ∈ b.participant ∧ x.2 ∈ b.carte ∧ x.1.partId = x.2.carteIdEtudiant := by
  rw [participantCarte, innerJoin, List.mem_flatMap]
  constructor
  · rintro ⟨p, hp, hx⟩
    obtain ⟨c, hc, rfl⟩ := List.mem_map.mp hx
    obtain ⟨hc, howner⟩ := List.mem_filter.mp hc
    exact ⟨hp, hc, of_decide_eq_true howner⟩
  · rintro ⟨hp, hc, howner⟩
    exact ⟨x.1, hp, List.mem_map.mpr ⟨x.2, List.mem_filter.mpr ⟨hc, decide_eq_true howner⟩, rfl⟩⟩

/-- **A card has one owner**, so the join has one row for each card. -/
theorem map_snd_participantCarte (hb : Keys b) :
    (b.participantCarte.map Prod.snd).Perm b.carte := by
  have hkey : b.participant.Pairwise fun p q => ∀ c ∈ b.carte,
      ¬ (decide (p.partId = c.carteIdEtudiant) = true ∧
        decide (q.partId = c.carteIdEtudiant) = true) := by
    refine hb.participant_pk.imp fun {p q} hne c _ howners => ?_
    exact hne ((of_decide_eq_true howners.1).trans (of_decide_eq_true howners.2).symm)
  refine (map_snd_innerJoin hkey).trans ?_
  rw [List.filter_eq_self.mpr]
  intro c hc
  obtain ⟨p, hp, howner⟩ := hb.carte_fk c hc
  exact List.any_eq_true.mpr ⟨p, hp, decide_eq_true howner⟩

/-- The owners of the joined rows are those of the cards. -/
theorem map_partId_participantCarte (hb : Keys b) :
    (b.participantCarte.map fun x => x.1.partId).Perm (b.carte.map fun c => c.carteIdEtudiant) := by
  have howner : (b.participantCarte.map fun x => x.1.partId) =
      (b.participantCarte.map Prod.snd).map fun c => c.carteIdEtudiant := by
    rw [List.map_map]
    exact List.map_congr_left fun x hx => (mem_participantCarte_iff.mp hx).2.2
  rw [howner]
  exact (map_snd_participantCarte hb).map _

theorem pairwise_resLe (b : Bdd) (l : List (Participant × Carte)) :
    (orderBy b.resLe l).Pairwise fun x y =>
      b.nbTourCoureur x.1.partId ≤ b.nbTourCoureur y.1.partId := by
  have hle : ∀ x y, b.resLe x y = true ↔
      b.nbTourCoureur x.1.partId ≤ b.nbTourCoureur y.1.partId := fun x y => decide_eq_true_iff
  refine (pairwise_orderBy (fun x y => ?_) (fun x y z => ?_) l).imp fun h => (hle _ _).mp h
  · rw [Bool.or_eq_true, hle, hle]
    exact Nat.le_total _ _
  · rw [hle, hle, hle]
    exact Nat.le_trans

/-- **A list with the lowest results first is the top only of a race that ties.** -/
theorem ties_of_top {l : List (Participant × Carte)} (hl : l.Perm b.participantCarte)
    (htop : Top b ((orderBy b.resLe l).take indexmax)) :
    ∀ x ∈ b.participantCarte, ∀ y ∈ b.participantCarte,
      b.nbTourCoureur x.1.partId = b.nbTourCoureur y.1.partId := by
  have hperm := (orderBy_perm b.resLe l).trans hl
  have hsorted := pairwise_resLe b l
  rcases hrows : orderBy b.resLe l with _ | ⟨first, rest⟩
  · intro x hx
    rw [hrows] at hperm
    exact absurd (hperm.mem_iff.mpr hx) List.not_mem_nil
  · rw [hrows] at hperm hsorted htop
    rw [indexmax, List.take_succ_cons] at htop
    -- the first row has the lowest result, and none may be above it
    have hfirst : ∀ x ∈ b.participantCarte,
        b.nbTourCoureur x.1.partId = b.nbTourCoureur first.1.partId := by
      intro x hx
      have hge : b.nbTourCoureur first.1.partId ≤ b.nbTourCoureur x.1.partId := by
        rcases List.mem_cons.mp (hperm.mem_iff.mpr hx) with rfl | hrest
        · exact le_refl _
        · exact List.rel_of_pairwise_cons hsorted hrest
      refine le_antisymm ?_ hge
      obtain ⟨hp, hc, howner⟩ := mem_participantCarte_iff.mp hx
      by_cases hlisted : ∀ y ∈ first :: rest.take 8, y.1.partId ≠ x.1.partId
      · exact htop.best x.1 hp ⟨x.2, hc, howner.symm⟩ hlisted first (List.mem_cons_self ..)
      · push Not at hlisted
        obtain ⟨y, hy, heq⟩ := hlisted
        rw [← heq]
        rcases List.mem_cons.mp hy with rfl | hy
        · exact le_refl _
        · have hdecreasing := htop.sorted
          rw [List.map_cons] at hdecreasing
          exact List.rel_of_pairwise_cons hdecreasing (List.mem_map_of_mem hy)
    intro x hx y hy
    rw [hfirst x hx, hfirst y hy]

/-- In a race that ties, the rows come in the order of the join. -/
theorem orderBy_eq_of_ties
    (hties : ∀ x ∈ b.participantCarte, ∀ y ∈ b.participantCarte,
      b.nbTourCoureur x.1.partId = b.nbTourCoureur y.1.partId)
    {l : List (Participant × Carte)} (hl : l.Perm b.participantCarte) :
    orderBy b.resLe l = l := by
  refine orderBy_eq_self (List.pairwise_of_forall_mem_list fun x hx y hy => ?_)
  exact decide_eq_true (le_of_eq (hties x (hl.mem_iff.mp hx) y (hl.mem_iff.mp hy)))

/-- **Two rows of one runner** may both be among the first nine of a race that
ties. -/
theorem nodup_of_top
    (htop : ∀ o : RowOrder (Participant × Carte),
      Top b ((orderBy b.resLe (o.arrange b.participantCarte)).take indexmax)) :
    (b.participantCarte.map fun x => x.1.partId).Nodup := by
  have hties := ties_of_top (List.Perm.refl _) (htop RowOrder.table)
  refine List.pairwise_map.mpr (List.pairwise_iff_forall_sublist.mpr fun {x y} hxy heq => ?_)
  have hperm := (RowOrder.startWithAll [x, y]).perm b.participantCarte
  have honce := (htop (RowOrder.startWithAll [x, y])).once
  rw [orderBy_eq_of_ties hties hperm, RowOrder.arrange_startWithAll hxy.subperm] at honce
  exact (List.nodup_cons.mp honce).1 (List.mem_cons.mpr (Or.inl heq))

/-- In a race that ties, any nine rows are the top, if no runner has two. -/
theorem top_of_ties
    (hties : ∀ x ∈ b.participantCarte, ∀ y ∈ b.participantCarte,
      b.nbTourCoureur x.1.partId = b.nbTourCoureur y.1.partId)
    (hnodup : (b.participantCarte.map fun x => x.1.partId).Nodup)
    {l : List (Participant × Carte)} (hl : l.Perm b.participantCarte) :
    Top b ((orderBy b.resLe l).take indexmax) := by
  rw [orderBy_eq_of_ties hties hl]
  have hmem : ∀ x ∈ l.take indexmax, x ∈ b.participantCarte :=
    fun x hx => hl.mem_iff.mp (List.mem_of_mem_take hx)
  refine ⟨?_, ?_, ?_⟩
  · refine List.pairwise_map.mpr (List.pairwise_of_forall_mem_list fun x hx y hy => ?_)
    exact le_of_eq (hties y (hmem y hy) x (hmem x hx))
  · refine ((hl.map _).nodup_iff.mpr hnodup).sublist ?_
    exact (List.take_sublist indexmax l).map _
  · rintro p hp ⟨c, hc, howner⟩ - x hx
    have hpc : (p, c) ∈ b.participantCarte := mem_participantCarte_iff.mpr ⟨hp, hc, howner.symm⟩
    exact le_of_eq (hties (p, c) hpc x (hmem x hx))

/-- The joined rows tie exactly if the owners of the cards do. -/
theorem ties_iff (hb : Keys b) :
    (∀ x ∈ b.participantCarte, ∀ y ∈ b.participantCarte,
        b.nbTourCoureur x.1.partId = b.nbTourCoureur y.1.partId) ↔
      ∀ c ∈ b.carte, ∀ c' ∈ b.carte,
        b.nbTourCoureur c.carteIdEtudiant = b.nbTourCoureur c'.carteIdEtudiant := by
  constructor
  · intro h c hc c' hc'
    obtain ⟨p, hp, howner⟩ := hb.carte_fk c hc
    obtain ⟨p', hp', howner'⟩ := hb.carte_fk c' hc'
    rw [← howner, ← howner']
    exact h (p, c) (mem_participantCarte_iff.mpr ⟨hp, hc, howner⟩) (p', c')
      (mem_participantCarte_iff.mpr ⟨hp', hc', howner'⟩)
  · intro h x hx y hy
    obtain ⟨-, hc, howner⟩ := mem_participantCarte_iff.mp hx
    obtain ⟨-, hc', howner'⟩ := mem_participantCarte_iff.mp hy
    rw [howner, howner']
    exact h x.2 hc y.2 hc'

/-- **When `topRunner(1, x)` is the top of the race.**  For every order of rows that
tie, exactly when all runners with a card have the same number of laps, and none has
two cards. -/
theorem topRunner_top (d : KeyedBdd) (idEtudiant : Text) :
    (∀ o : RowOrder (Participant × Carte), ∃ listed,
        d.bdd.topRunnerDe o 1 idEtudiant = [listed] ∧ Top d.bdd listed) ↔
      (∀ c ∈ d.bdd.carte, ∀ c' ∈ d.bdd.carte,
          d.bdd.nbTourCoureur c.carteIdEtudiant = d.bdd.nbTourCoureur c'.carteIdEtudiant) ∧
        (d.bdd.carte.map fun c => c.carteIdEtudiant).Nodup := by
  rw [← ties_iff d.keys, ← (map_partId_participantCarte d.keys).nodup_iff]
  constructor
  · intro h
    have htop : ∀ o : RowOrder (Participant × Carte),
        Top d.bdd ((orderBy d.bdd.resLe (o.arrange d.bdd.participantCarte)).take indexmax) := by
      intro o
      obtain ⟨listed, hlisted, htop⟩ := h o
      rw [topRunnerDe_one] at hlisted
      rw [List.singleton_inj.mp hlisted]
      exact htop
    exact ⟨ties_of_top (List.Perm.refl _) (htop RowOrder.table), nodup_of_top htop⟩
  · rintro ⟨hties, hnodup⟩ o
    exact ⟨_, topRunnerDe_one d.bdd o idEtudiant, top_of_ties hties hnodup (o.perm _)⟩

/-- A race of two runners with a card, one of whom has finished a lap. -/
def unTour : KeyedBdd where
  bdd :=
    { participant := [Participant.ofKey 1, Participant.ofKey 2]
      carte := [⟨"1".toList, 1⟩, ⟨"2".toList, 2⟩]
      passage := [⟨1, "1".toList, some 1, some 0⟩, ⟨2, "1".toList, some 1, some 600⟩] }
  keys :=
    { participant_pk := by decide
      carte_pk := by decide
      carte_fk := by decide
      passage_fk := by decide }

/-- The runner without a lap is listed first. -/
theorem topRunner_unTour :
    ¬ ∃ listed, unTour.bdd.topRunnerDe RowOrder.table 1 [] = [listed] ∧ Top unTour.bdd listed := by
  rintro ⟨listed, hlisted, htop⟩
  rw [topRunnerDe_one] at hlisted
  have hsorted := htop.sorted
  rw [← List.singleton_inj.mp hlisted] at hsorted
  exact absurd hsorted (by decide)

end Bdd
end RondeDesFacs
