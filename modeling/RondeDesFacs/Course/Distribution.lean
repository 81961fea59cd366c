import RondeDesFacs.Bdd.Distributions
import RondeDesFacs.Course.Interleaving
import RondeDesFacs.Servlet.NullSafety

/-!
# The distributions during the race

A distribution says how many of those with a value of a column have run so many laps.  While
the race goes on its rows move, and they move one way only: nobody falls back.  So the number
of those with a value who have at most `k` laps grows by those who register, and never
otherwise.

The charts show the first result set, the runners without a lap.  Each bar of a chart is such
a number, so the charts count down, and without registrations no bar ever rises.

As in `Interleaving`, the events are regular: a statement that changes rows could take laps
away.
-/

namespace RondeDesFacs
namespace Bdd

open Query

/-- What a distribution shows for a value at a lap count: the `RES` of its row, and 0 if it
has none.  Values that the collation does not tell apart are one. -/
def montre (b : Bdd) (colonne : Participant → Option Text) (valeur : Option Text) (v : ℕ) : ℕ :=
  sumRes ((b.nbCoureurPar colonne).flatten.filter fun r =>
    r.axis = v && groupText r.ident = groupText valeur)

/-- The participants with a value of a column. -/
def ayant (colonne : Participant → Option Text) (valeur : Option Text) (l : List Participant) :
    List Participant :=
  l.filter fun p => groupText (colonne p) = groupText valeur

variable {b b' : Bdd} {colonne : Participant → Option Text} {valeur : Option Text} {v : ℕ}

theorem sumRes_eq_of_perm {rows rows' : List StatRow} (h : rows.Perm rows') :
    sumRes rows = sumRes rows' := by
  rw [sumRes, sumRes]
  exact (h.map _).sum_eq

/-- The row of a value in one result set counts those who have it. -/
theorem sumRes_filter_selectPar (b : Bdd) (colonne : Participant → Option Text)
    (valeur : Option Text) (v : ℕ) :
    sumRes ((b.selectPar colonne v).filter fun r => groupText r.ident = groupText valeur) =
      (ayant colonne valeur (b.runnersAt v)).length := by
  have hgroup : ∀ g ∈ groupBy (fun p => groupText (colonne p)) (b.runnersAt v),
      decide (groupText (g.head?.bind colonne) = groupText valeur) =
        decide (g.head?.map (fun p => groupText (colonne p)) = some (groupText valeur)) := by
    intro g hg
    obtain ⟨p, g, rfl⟩ := List.exists_cons_of_ne_nil (ne_nil_of_mem_groupBy hg)
    exact decide_eq_decide.mpr Option.some_inj.symm
  have hperm := (orderBy_perm axisIdentLe
    ((groupBy (fun p => groupText (colonne p)) (b.runnersAt v)).map fun g =>
      (⟨g.head?.bind colonne, v, g.length⟩ : StatRow))).filter
        fun r => groupText r.ident = groupText valeur
  rw [selectPar, sumRes_eq_of_perm hperm, List.filter_map, sumRes, List.map_map, ayant,
    ← sum_length_filter_groupBy, ← List.filter_congr hgroup]
  rfl

/-- **What a distribution shows**, at a lap count that it has. -/
theorem montre_eq (b : Bdd) (colonne : Participant → Option Text) (valeur : Option Text)
    (hv : v ≤ 10) : b.montre colonne valeur v = (ayant colonne valeur (b.runnersAt v)).length := by
  rw [← sumRes_filter_selectPar, ← filter_nbCoureurPar b colonne hv, List.filter_filter, montre]
  refine congrArg sumRes (List.filter_congr fun r _ => ?_)
  rw [Bool.and_comm]

/-- Those with a value who have at most `k` laps. -/
theorem sum_montre (b : Bdd) (colonne : Participant → Option Text) (valeur : Option Text) {k : ℕ}
    (hk : k ≤ 10) :
    ((List.range (k + 1)).map (b.montre colonne valeur)).sum =
      ((ayant colonne valeur b.participant).filter fun p =>
        b.nbTourCoureur p.partId < k + 1).length := by
  rw [← sum_length_filter_range]
  refine congrArg List.sum (List.map_congr_left fun v hv => ?_)
  have hle : v ≤ 10 := by
    have := List.mem_range.mp hv
    omega
  rw [montre_eq b colonne valeur hle, ayant, ayant, runnersAt, List.filter_filter,
    List.filter_filter]
  refine congrArg List.length (List.filter_congr fun p _ => ?_)
  rw [Bool.and_comm]

/-- **Nobody falls back.**  While rows are only added, the number of those with a value who
have at most `k` laps grows by those who are new, at most. -/
theorem sum_montre_le (hb : Keys b) (hb' : Keys b') (h : Extends b b')
    (colonne : Participant → Option Text) (valeur : Option Text) {k : ℕ} (hk : k ≤ 10) :
    ((List.range (k + 1)).map (b'.montre colonne valeur)).sum ≤
      ((List.range (k + 1)).map (b.montre colonne valeur)).sum +
        (ayant colonne valeur (b'.participant.drop b.participant.length)).length := by
  rw [sum_montre b' colonne valeur hk, sum_montre b colonne valeur hk, ayant, ayant,
    List.filter_filter, List.filter_filter, ayant]
  refine length_filter_le_of_prefix h.participant (fun p _ hp => ?_) (fun p _ hp => ?_)
  · rw [Bool.and_eq_true, decide_eq_true_eq] at hp ⊢
    have hle : b.nbTourCoureur p.partId ≤ b'.nbTourCoureur p.partId :=
      (resultOf_le_of_extends (d := ⟨b, hb⟩) (e := ⟨b', hb'⟩) h p.partId).1
    exact ⟨by omega, hp.2⟩
  · rw [Bool.and_eq_true] at hp
    exact hp.2

/-- A row counts those with its value. -/
theorem res_eq_montre {r : StatRow} (hv : v ≤ 10) (hr : r ∈ b.selectPar colonne v) :
    r.res = b.montre colonne r.ident v := by
  obtain ⟨g, hg, rfl⟩ := mem_selectPar hr
  obtain ⟨a, -, hga⟩ := mem_groupBy_iff.mp hg
  obtain ⟨p, g', hpg⟩ := List.exists_cons_of_ne_nil (ne_nil_of_mem_groupBy hg)
  have hp : groupText (colonne p) = groupText (colonne a) := by
    have hmem : p ∈ (b.runnersAt v).filter fun q =>
        decide (groupText (colonne q) = groupText (colonne a)) := by
      rw [← hga, hpg]
      exact List.mem_cons_self ..
    exact of_decide_eq_true (List.mem_filter.mp hmem).2
  have hident : g.head?.bind colonne = colonne p := by rw [hpg]; rfl
  show g.length = b.montre colonne (g.head?.bind colonne) v
  rw [montre_eq b colonne _ hv, hident, ayant, hp, hga]

end Bdd

namespace Servlet

open Runs

theorem mem_of_mem_closed {gs : List (List LineRow)} {g : List LineRow} (h : g ∈ closed gs) :
    g ∈ gs := by
  rcases List.eq_nil_or_concat gs with rfl | ⟨gs, g', rfl⟩
  · exact h
  · rw [List.concat_eq_append, closed_concat] at h
    rw [List.concat_eq_append]
    split_ifs at h
    · rw [List.append_nil] at h
      exact List.mem_append_left _ h
    · exact h

end Servlet

namespace Course

open Bdd Runs Servlet

/-- The two distributions. -/
inductive Repartition where
  | departement
  | sexe

/-- The procedure that sends it. -/
def Repartition.procedure : Repartition → Text
  | .departement => "nbCoureurDepartement".toList
  | .sexe => "nbCoureurSexe".toList

/-- The column that it groups by. -/
def Repartition.colonne : Repartition → Participant → Option Text
  | .departement => fun p => p.partOrigine
  | .sexe => fun p => p.partSexe

/-- **A series of a chart** is one number, what the distribution shows of those without a
lap. -/
theorem data_of_call (b : Bdd) (d : Repartition) {name : Text} {categories : List (Option Text)}
    {data : List Serie} (hcall : call (some (connection b)) (some d.procedure) (some []) (some []) =
      .status200 (.line name categories data)) :
    ∀ s ∈ data, s.data = [(b.montre d.colonne s.name 0 : ℤ)] := by
  have hargs : arguments (some []) (some []) = some none := rfl
  have hbase : ∃ others, connection b (orNull (some d.procedure)) none =
      some (.line ((b.selectPar d.colonne 0).map readRow) :: others) := by
    have hsets : ∃ others, distribution (b.nbCoureurPar d.colonne) =
        .line ((b.selectPar d.colonne 0).map readRow) :: others := by
      rw [distribution, nbCoureurPar, boucle_eq, List.range_eq_range', List.range'_succ]
      exact ⟨_, rfl⟩
    obtain ⟨others, hothers⟩ := hsets
    refine ⟨others, ?_⟩
    rw [← hothers]
    cases d <;> rfl
  obtain ⟨others, hbase⟩ := hbase
  have hrows := (pivot_safe (connection b) _ _ _ none hargs _ others hbase).mp ⟨_, hcall⟩
  rw [call_of_parcourable hargs hbase hrows] at hcall
  have hdata := Response.status200.inj hcall
  intro s hs
  have hs' : s ∈ (closed (runs (fun r => r.ident)
      ((b.selectPar d.colonne 0).map readRow))).map groupSerie := by
    injection hdata with _ _ hseries
    rw [hseries]
    exact hs
  obtain ⟨g, hg, rfl⟩ := List.mem_map.mp hs'
  have hnodup : (((b.selectPar d.colonne 0).map readRow).map fun r => r.ident).Nodup := by
    rw [List.map_map]
    exact nodup_ident_selectPar b d.colonne 0
  obtain ⟨row, hrow, rfl⟩ := eq_singleton_of_mem_runs hnodup (mem_of_mem_closed hg)
  obtain ⟨r, hr, rfl⟩ := List.mem_map.mp hrow
  show [(r.res : ℤ)] = [(b.montre d.colonne r.ident 0 : ℤ)]
  rw [res_eq_montre (Nat.zero_le 10) hr]

section Runs

variable {srv : Serveur} {cs : Charset} {Loc : Type*} [DecidableEq Loc] (resolve : Bytes → Loc)

/-- **The distributions during the race.**  In every regular run, from any moment to any later
one: the number of those with a value who have at most `k` laps has grown by no more than those
who registered meanwhile; and so each bar of the chart that the servlet then sends is at most
what it was, or what there was to show, and those who registered. -/
theorem distributions (site : Web.Site srv cs Loc) (hs : Keys site.bdd)
    (run suite : List Evenement) (hrun : ∀ e ∈ run, e.Regulier) (hsuite : ∀ e ∈ suite, e.Regulier)
    (d : Repartition) :
    let avant := (course resolve site run).bdd
    let apres := (course resolve site (run ++ suite)).bdd
    (∀ valeur, ∀ k ≤ 10, ((List.range (k + 1)).map (apres.montre d.colonne valeur)).sum ≤
      ((List.range (k + 1)).map (avant.montre d.colonne valeur)).sum +
        (ayant d.colonne valeur (apres.participant.drop avant.participant.length)).length) ∧
    ∀ name categories data,
      call (some (connection apres)) (some d.procedure) (some []) (some []) =
        .status200 (.line name categories data) →
      ∀ s ∈ data, ∃ n : ℕ, s.data = [(n : ℤ)] ∧ n ≤ avant.montre d.colonne s.name 0 +
        (ayant d.colonne s.name (apres.participant.drop avant.participant.length)).length := by
  intro avant apres
  obtain ⟨hkeys, -⟩ := spec_course resolve hs hrun
  have happres : apres = (course resolve (course resolve site run) suite).bdd := by
    simp only [apres, course, List.foldl_append]
  obtain ⟨hkeys', hextends⟩ := spec_course resolve hkeys hsuite
  rw [← happres] at hkeys' hextends
  refine ⟨fun valeur k hk => sum_montre_le hkeys hkeys' hextends d.colonne valeur hk, ?_⟩
  intro name categories data hcall s hs
  refine ⟨_, data_of_call apres d hcall s hs, ?_⟩
  have hzero := sum_montre_le hkeys hkeys' hextends d.colonne s.name (Nat.zero_le 10)
  simpa using hzero

end Runs

/-- The student of the short race, who has his card, runs his lap. -/
theorem distributions_unTour :
    let avant := (course id Web.siteVide (unTour.take 2)).bdd
    let apres := (course id Web.siteVide (unTour.take 2 ++ unTour.drop 2)).bdd
    (∀ valeur, ∀ k ≤ 10,
      ((List.range (k + 1)).map (apres.montre Repartition.departement.colonne valeur)).sum ≤
        ((List.range (k + 1)).map (avant.montre Repartition.departement.colonne valeur)).sum +
          (ayant Repartition.departement.colonne valeur
            (apres.participant.drop avant.participant.length)).length) ∧
    ∀ name categories data,
      call (some (connection apres)) (some Repartition.departement.procedure) (some [])
          (some []) = .status200 (.line name categories data) →
      ∀ s ∈ data, ∃ n : ℕ, s.data = [(n : ℤ)] ∧
        n ≤ avant.montre Repartition.departement.colonne s.name 0 +
          (ayant Repartition.departement.colonne s.name
            (apres.participant.drop avant.participant.length)).length :=
  distributions id Web.siteVide keys_siteVide (unTour.take 2) (unTour.drop 2)
    (fun e he => regulier_unTour e (List.mem_of_mem_take he))
    (fun e he => regulier_unTour e (List.mem_of_mem_drop he)) .departement

end Course
end RondeDesFacs
