import RondeDesFacs.Bdd.Procedures

/-!
# What the lap statistics count

The two distributions and the function `nbCoureurTourSexe` count the same
population in three ways: by origin, by sex, and one sex at a time.  Grouping
loses no participant (`sumRes_selectPar`), and the result sets of a distribution
are its groups at one lap count after another, so the statistics agree wherever
all three are defined (`statistics_agree`).

The loop of the procedures stops at ten laps.  The distributions therefore count
everyone who has run ten laps at most, once (`distributions_count`), and nobody
else.
-/

namespace RondeDesFacs
namespace Bdd

open Query

/-- The sum of `RES` over rows. -/
def sumRes (rows : List StatRow) : ℕ := (rows.map fun r => r.res).sum

variable {b : Bdd} {colonne : Participant → Option Text} {v1 : ℕ}

theorem sumRes_append (rows rows' : List StatRow) :
    sumRes (rows ++ rows') = sumRes rows + sumRes rows' := by
  rw [sumRes, List.map_append, List.sum_append, sumRes, sumRes]

theorem sumRes_flatten (rs : List (List StatRow)) : sumRes rs.flatten = (rs.map sumRes).sum := by
  induction rs with
  | nil => rfl
  | cons rows rs ih => rw [List.flatten_cons, sumRes_append, ih, List.map_cons, List.sum_cons]

/-- **A result set counts the runners with its lap count.** -/
theorem sumRes_selectPar (b : Bdd) (colonne : Participant → Option Text) (v1 : ℕ) :
    sumRes (b.selectPar colonne v1) = (b.runnersAt v1).length := by
  have hperm := (orderBy_perm axisIdentLe
    ((groupBy (fun p => groupText (colonne p)) (b.runnersAt v1)).map fun g =>
      (⟨g.head?.bind colonne, v1, g.length⟩ : StatRow))).map fun r => r.res
  rw [sumRes, selectPar, hperm.sum_eq, List.map_map]
  exact sum_length_groupBy (b.runnersAt v1)

/-! ## All result sets together -/

/-- **A distribution counts everyone with ten laps at most, once.** -/
theorem sumRes_nbCoureurPar (b : Bdd) (colonne : Participant → Option Text) :
    sumRes (b.nbCoureurPar colonne).flatten =
      (b.participant.filter fun p => b.nbTourCoureur p.partId < 11).length := by
  rw [nbCoureurPar, boucle_eq, sumRes_flatten, List.map_map,
    ← sum_length_filter_range (fun p => b.nbTourCoureur p.partId) b.participant 11]
  exact congrArg List.sum (List.map_congr_left fun v _ => sumRes_selectPar b colonne v)

/-- **What the distributions count.**  Both count the participants with ten laps at
most, so both count all participants exactly when nobody has more. -/
theorem distributions_count (b : Bdd) :
    (sumRes b.nbCoureurDepartement.flatten =
        (b.participant.filter fun p => b.nbTourCoureur p.partId ≤ 10).length ∧
      sumRes b.nbCoureurSexe.flatten =
        (b.participant.filter fun p => b.nbTourCoureur p.partId ≤ 10).length) ∧
    (sumRes b.nbCoureurDepartement.flatten = b.participant.length ↔
      ∀ p ∈ b.participant, b.nbTourCoureur p.partId ≤ 10) ∧
    (sumRes b.nbCoureurSexe.flatten = b.participant.length ↔
      ∀ p ∈ b.participant, b.nbTourCoureur p.partId ≤ 10) := by
  have hcount : ∀ colonne, sumRes (b.nbCoureurPar colonne).flatten =
      (b.participant.filter fun p => b.nbTourCoureur p.partId ≤ 10).length := by
    intro colonne
    rw [sumRes_nbCoureurPar]
    simp only [Nat.lt_succ_iff]
  have hall : ∀ colonne, sumRes (b.nbCoureurPar colonne).flatten = b.participant.length ↔
      ∀ p ∈ b.participant, b.nbTourCoureur p.partId ≤ 10 := by
    intro colonne
    rw [hcount, List.length_filter_eq_length_iff]
    simp only [decide_eq_true_eq]
  exact ⟨⟨hcount _, hcount _⟩, hall _, hall _⟩

/-- One runner with eleven laps. -/
def onzeTours : Bdd where
  participant := [Participant.ofKey 1]
  carte := [⟨"A".toList, 1⟩]
  passage := (List.range 22).map fun i => ⟨i + 1, "A".toList, none, some (60 * i)⟩

theorem keys_onzeTours : Keys onzeTours where
  participant_pk := List.pairwise_singleton _ _
  carte_pk := List.pairwise_singleton _ _
  carte_fk c hc := by
    rw [onzeTours, List.mem_singleton] at hc
    exact ⟨Participant.ofKey 1, List.mem_singleton_self _, by rw [hc]; rfl⟩
  passage_fk p hp := by
    obtain ⟨i, -, rfl⟩ := List.mem_map.mp hp
    exact ⟨⟨"A".toList, 1⟩, List.mem_singleton_self _, Collation.Same.refl latin1SwedishCi _⟩

/-- The distributions do not count him. -/
theorem distributions_count_onzeTours :
    Keys onzeTours ∧ sumRes onzeTours.nbCoureurDepartement.flatten ≠ onzeTours.participant.length ∧
      sumRes onzeTours.nbCoureurSexe.flatten ≠ onzeTours.participant.length := by
  have hlaps : (onzeTours.participant.filter fun p =>
      onzeTours.nbTourCoureur p.partId < 11).length ≠ onzeTours.participant.length := by
    decide
  refine ⟨keys_onzeTours, ?_, ?_⟩
  · rw [nbCoureurDepartement, sumRes_nbCoureurPar]
    exact hlaps
  · rw [nbCoureurSexe, sumRes_nbCoureurPar]
    exact hlaps

/-! ## The rows at one lap count -/

theorem axis_of_mem_selectPar {r : StatRow} (h : r ∈ b.selectPar colonne v1) : r.axis = v1 := by
  obtain ⟨g, -, rfl⟩ := mem_selectPar h
  rfl

/-- The rows of a distribution with one lap count are one of its result sets. -/
theorem filter_nbCoureurPar (b : Bdd) (colonne : Participant → Option Text) {v : ℕ}
    (hv : v ≤ 10) :
    (b.nbCoureurPar colonne).flatten.filter (fun r => r.axis = v) = b.selectPar colonne v := by
  have hset : ∀ w, (b.selectPar colonne w).filter (fun r => r.axis = v) =
      if w = v then b.selectPar colonne v else [] := by
    intro w
    by_cases hw : w = v
    · rw [if_pos hw, hw]
      exact List.filter_eq_self.mpr fun r hr => decide_eq_true (axis_of_mem_selectPar hr)
    · rw [if_neg hw]
      exact List.filter_eq_nil_iff.mpr fun r hr => by simp [axis_of_mem_selectPar hr, hw]
  rw [nbCoureurPar, boucle_eq, List.filter_flatten, List.map_map]
  have hmap : (List.range 11).map ((List.filter fun r => decide (r.axis = v)) ∘
      b.selectPar colonne) =
      (List.range 11).map fun w => if w = v then b.selectPar colonne v else [] :=
    List.map_congr_left fun w _ => hset w
  rw [hmap, flatten_map_range_ite _ (by omega)]

/-- The rows of one result set that show a value count those who have it. -/
theorem res_of_mem_selectPar {r : StatRow} (hr : r ∈ b.selectPar colonne v1) {t s : Text}
    (ht : r.ident = some t) (hs : SameText t s) :
    r.res = ((b.runnersAt v1).filter fun p =>
      (colonne p).any fun u => SameText u s).length := by
  obtain ⟨g, hg, rfl⟩ := mem_selectPar hr
  obtain ⟨a, -, hga⟩ := mem_groupBy_iff.mp hg
  obtain ⟨p, g', hpg⟩ := List.exists_cons_of_ne_nil (ne_nil_of_mem_groupBy hg)
  have hp : p ∈ (b.runnersAt v1).filter fun q =>
      decide (groupText (colonne q) = groupText (colonne a)) := by
    rw [← hga, hpg]
    exact List.mem_cons_self ..
  -- the key of the group is that of the value shown
  have hkey : groupText (colonne a) = some (latin1SwedishCi.key s) := by
    have h1 : groupText (colonne p) = groupText (colonne a) :=
      of_decide_eq_true (List.mem_filter.mp hp).2
    have h2 : colonne p = some t := by
      rw [hpg] at ht
      exact ht
    rw [← h1, h2, groupText, Option.map_some, hs]
  show g.length = _
  rw [hga, hkey]
  refine congrArg List.length (List.filter_congr fun q _ => ?_)
  cases colonne q with
  | none => rfl
  | some u => simp [groupText, Collation.Same]

/-- A value that no row shows is nobody's. -/
theorem filter_eq_nil_of_forall_mem_selectPar {s : Text}
    (h : ∀ r ∈ b.selectPar colonne v1, ∀ t, r.ident = some t → ¬ SameText t s) :
    (b.runnersAt v1).filter (fun p => (colonne p).any fun u => SameText u s) = [] := by
  refine List.filter_eq_nil_iff.mpr fun p hp hany => ?_
  obtain ⟨u, hu, hus⟩ := (Option.any_eq_true _ _).mp hany
  have hgroup : (b.runnersAt v1).filter (fun q =>
      decide (groupText (colonne q) = groupText (colonne p))) ∈
        groupBy (fun q => groupText (colonne q)) (b.runnersAt v1) :=
    mem_groupBy_iff.mpr ⟨p, hp, rfl⟩
  obtain ⟨q, g, hqg⟩ := List.exists_cons_of_ne_nil (ne_nil_of_mem_groupBy hgroup)
  have hq : groupText (colonne q) = groupText (colonne p) := by
    have hmem : q ∈ (b.runnersAt v1).filter fun q =>
        decide (groupText (colonne q) = groupText (colonne p)) := by
      rw [hqg]
      exact List.mem_cons_self ..
    exact of_decide_eq_true (List.mem_filter.mp hmem).2
  -- the row of that group shows the value of `q`
  rw [hu] at hq
  obtain ⟨t, ht, htu⟩ := Option.map_eq_some_iff.mp hq
  refine h ⟨some t, v1, (q :: g).length⟩ ?_ t rfl (Collation.Same.trans htu (of_decide_eq_true hus))
  rw [selectPar, (orderBy_perm _ _).mem_iff, ← hqg]
  refine List.mem_map.mpr ⟨_, hgroup, ?_⟩
  rw [hqg, List.head?_cons, Option.bind_some, ht]

/-! ## The three statistics -/

theorem nbCoureurTourSexe_eq (b : Bdd) (srv : Serveur) (v : ℕ) {s : Text} (hs : s.length ≤ 1) :
    b.nbCoureurTourSexe srv v (some s) =
      some ((b.runnersAt v).filter fun p => p.partSexe.any fun u => SameText u s).length := by
  have hdrop : s.drop 1 = [] := List.drop_eq_nil_of_le hs
  have htake : s.take 1 = s := List.take_of_length_le hs
  have hchar : srv.char 1 s = some (latin1SwedishCi.trim s) := by
    rw [Serveur.char, Serveur.varchar, hdrop, htake]
    simp
  rw [nbCoureurTourSexe, hchar, Option.map_some, runnersAt, List.filter_filter]
  refine congrArg _ (congrArg _ (List.filter_congr fun p _ => ?_))
  rw [Bool.and_comm]
  simp only [SameText, Collation.same_trim_iff, Nat.cast_inj]

/-- **The three lap statistics agree.**  For each lap count the procedures ask for,
both distributions have the same total; and for each sex the function answers what
the row of that sex shows, or 0 if there is none. -/
theorem statistics_agree (b : Bdd) (srv : Serveur) (v : ℕ) (hv : v ≤ 10) :
    sumRes (b.nbCoureurDepartement.flatten.filter fun r => r.axis = v) =
        sumRes (b.nbCoureurSexe.flatten.filter fun r => r.axis = v) ∧
      ∀ s : Text, s.length ≤ 1 →
        ∃ n, b.nbCoureurTourSexe srv v (some s) = some n ∧
          (∀ r ∈ b.nbCoureurSexe.flatten, r.axis = v →
            ∀ t, r.ident = some t → SameText t s → r.res = n) ∧
          ((∀ r ∈ b.nbCoureurSexe.flatten, r.axis = v →
            ∀ t, r.ident = some t → ¬ SameText t s) → n = 0) := by
  have hrow : ∀ r, r ∈ b.selectPar (fun p => p.partSexe) v ↔
      r ∈ b.nbCoureurSexe.flatten ∧ r.axis = v := by
    intro r
    rw [← filter_nbCoureurPar b _ hv, List.mem_filter, decide_eq_true_eq, nbCoureurSexe]
  constructor
  · rw [nbCoureurDepartement, nbCoureurSexe, filter_nbCoureurPar b _ hv,
      filter_nbCoureurPar b _ hv, sumRes_selectPar, sumRes_selectPar]
  · intro s hs
    refine ⟨_, nbCoureurTourSexe_eq b srv v hs, ?_, ?_⟩
    · intro r hr haxis t ht hsame
      exact res_of_mem_selectPar ((hrow r).mpr ⟨hr, haxis⟩) ht hsame
    · intro hnone
      have hnil := filter_eq_nil_of_forall_mem_selectPar fun r hr =>
        hnone r ((hrow r).mp hr).1 ((hrow r).mp hr).2
      exact congrArg List.length hnil

/-- Three runners who have not started, two of one sex. -/
def depart : Bdd where
  participant := [{ Participant.ofKey 1 with partSexe := some "M".toList },
    { Participant.ofKey 2 with partSexe := some "m".toList },
    { Participant.ofKey 3 with partSexe := some "F".toList }]
  carte := []
  passage := []

/-- The statistics of that race for the first sex. -/
theorem statistics_agree_depart :
    sumRes (depart.nbCoureurDepartement.flatten.filter fun r => r.axis = 0) =
        sumRes (depart.nbCoureurSexe.flatten.filter fun r => r.axis = 0) ∧
      ∃ n, depart.nbCoureurTourSexe ⟨false, fun _ => none, fun _ => none⟩ 0 (some "M".toList) =
          some n ∧
        (∀ r ∈ depart.nbCoureurSexe.flatten, r.axis = 0 →
          ∀ t, r.ident = some t → SameText t "M".toList → r.res = n) ∧
        ((∀ r ∈ depart.nbCoureurSexe.flatten, r.axis = 0 →
          ∀ t, r.ident = some t → ¬ SameText t "M".toList) → n = 0) :=
  have h := statistics_agree depart ⟨false, fun _ => none, fun _ => none⟩ 0 (by decide)
  ⟨h.1, h.2 "M".toList (by decide)⟩

end Bdd
end RondeDesFacs
