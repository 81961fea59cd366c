import RondeDesFacs.Servlet.Pivot

/-!
# The lap distribution, from the tables to the chart

`nbCoureurDepartement` and `nbCoureurSexe` send eleven result sets, and the
servlet charts the first.  Within that one every identifier is a new one, so
every run is a single row, and the last of them is lost.

Together these leave little: the chart is complete only when there is nothing to
chart, that is, when every participant has run more laps than the procedure
counts (`reports_distribution_iff`).
-/

namespace RondeDesFacs
namespace Servlet

open Bdd Query Runs

/-- Every participant has a value in the column, and not the empty one. -/
def Filled (colonne : Participant → Option Text) (b : Bdd) : Prop :=
  ∀ p ∈ b.participant, ∃ t : Text, t ≠ [] ∧ colonne p = some t

/-- The answer reports every selected row: the series of its identifier has its
count among the data. -/
def Reports (resultSets : List (List StatRow)) : Response → Prop
  | .status200 (.line _ _ data) =>
    ∀ rows ∈ resultSets, ∀ r ∈ rows, ∃ s ∈ data, s.name = r.ident ∧ (r.res : ℤ) ∈ s.data
  | _ => False

variable {b : Bdd} {colonne : Participant → Option Text}

/-- Where no value is missing, neither is an identifier. -/
theorem named_selectPar (hb : Filled colonne b) (v1 : ℕ) :
    ∀ r ∈ (b.selectPar colonne v1).map readRow, Named r := by
  intro r hr
  obtain ⟨s, hs, rfl⟩ := List.mem_map.mp hr
  obtain ⟨p, hp, hident⟩ := exists_ident_of_mem_selectPar hs
  obtain ⟨t, hne, ht⟩ := hb p hp
  exact ⟨t, hne, hident.trans ht⟩

/-- What the servlet answers: the chart of the rows for lap count `0`. -/
theorem call_distribution (hb : Filled colonne b) {name : Text}
    (hname : connection b name none = some (distribution (b.nbCoureurPar colonne))) :
    call (some (connection b)) (some name) (some []) (some []) =
      .status200 (.line name (categoriesOf [] ((b.selectPar colonne 0).map readRow))
        ((closed (runs (fun r => r.ident) ((b.selectPar colonne 0).map readRow))).map
          groupSerie)) := by
  have hargs : arguments (some []) (some []) = some none := rfl
  have hsets : ∃ others, distribution (b.nbCoureurPar colonne) =
      .line ((b.selectPar colonne 0).map readRow) :: others := by
    rw [distribution, nbCoureurPar, boucle_eq, List.range_eq_range', List.range'_succ]
    exact ⟨_, rfl⟩
  obtain ⟨others, hothers⟩ := hsets
  rw [hothers] at hname
  exact call_line hargs hname (named_selectPar hb 0)

/-- **The last group is lost.**  No series has the name of the last row. -/
theorem name_ne_of_mem_closed (rows : List LineRow) {row : LineRow}
    (hnodup : ((rows ++ [row]).map fun r => r.ident).Nodup) {s : Serie}
    (hs : s ∈ (closed (runs (fun r => r.ident) (rows ++ [row]))).map groupSerie) :
    s.name ≠ row.ident := by
  have hnew : ∀ r ∈ rows, r.ident ≠ row.ident := by
    intro r hr heq
    rw [List.map_append, List.nodup_append] at hnodup
    exact hnodup.2.2 _ (List.mem_map_of_mem hr) _ (by simp) heq
  rw [closed_runs_concat_of_ne fun r hr => hnew r (List.mem_of_mem_getLast? hr)] at hs
  obtain ⟨g, hg, rfl⟩ := List.mem_map.mp hs
  rcases g with _ | ⟨r, g⟩
  · exact absurd hg (nil_notMem_runs _ _)
  · refine hnew r ?_
    rw [← flatten_runs (fun r : LineRow => r.ident) rows]
    exact List.mem_flatten.mpr ⟨_, hg, List.mem_cons_self ..⟩

/-- A result set whose every row has a series is empty: its last row would have
none. -/
theorem selectPar_eq_nil_of_named {v1 : ℕ}
    (h : ∀ r ∈ b.selectPar colonne v1,
      ∃ s ∈ (closed (runs (fun r => r.ident)
        ((b.selectPar colonne v1).map readRow))).map groupSerie, s.name = r.ident) :
    b.selectPar colonne v1 = [] := by
  have hnodup := nodup_ident_selectPar b colonne v1
  rcases List.eq_nil_or_concat (b.selectPar colonne v1) with hnil | ⟨rows, r, hrows⟩
  · exact hnil
  · rw [List.concat_eq_append] at hrows
    rw [hrows] at h hnodup
    obtain ⟨s, hs, hname⟩ := h r (List.mem_append_right _ (List.mem_singleton_self _))
    rw [List.map_append, List.map_cons, List.map_nil] at hs
    refine absurd hname (name_ne_of_mem_closed (rows.map readRow) ?_ hs)
    simpa [List.map_append, Function.comp_def, readRow] using hnodup

/-- **When a distribution is charted completely.**  Exactly when no participant
has a lap count the procedure asks for. -/
theorem reports_distribution_iff (hb : Filled colonne b) {name : Text}
    (hname : connection b name none = some (distribution (b.nbCoureurPar colonne))) :
    Reports (b.nbCoureurPar colonne)
        (call (some (connection b)) (some name) (some []) (some [])) ↔
      ∀ p ∈ b.participant, 10 < b.nbTourCoureur p.partId := by
  rw [call_distribution hb hname, Reports, nbCoureurPar, boucle_eq]
  constructor
  · intro h
    have hzero : b.selectPar colonne 0 = [] := by
      refine selectPar_eq_nil_of_named fun r hr => ?_
      obtain ⟨s, hs, hsname, -⟩ :=
        h _ (List.mem_map_of_mem (List.mem_range.mpr (Nat.zero_lt_succ 10))) r hr
      exact ⟨s, hs, hsname⟩
    -- so there is no series at all, and no other row may exist either
    intro p hp
    by_contra hle
    have hlaps : b.nbTourCoureur p.partId ∈ List.range 11 := List.mem_range.mpr (by omega)
    have hne : b.selectPar colonne (b.nbTourCoureur p.partId) ≠ [] :=
      fun h => selectPar_eq_nil_iff.mp h p hp rfl
    obtain ⟨r, hr⟩ := List.exists_mem_of_ne_nil _ hne
    obtain ⟨s, hs, -⟩ := h _ (List.mem_map_of_mem hlaps) r hr
    rw [hzero] at hs
    exact absurd hs (by simp)
  · intro h rows hrows r hr
    obtain ⟨v1, hv1, rfl⟩ := List.mem_map.mp hrows
    have hnil : b.selectPar colonne v1 = [] := by
      refine selectPar_eq_nil_iff.mpr fun p hp heq => ?_
      have h1 := h p hp
      have h2 := List.mem_range.mp hv1
      omega
    rw [hnil] at hr
    exact absurd hr List.not_mem_nil

theorem connection_nbCoureurDepartement (b : Bdd) :
    connection b "nbCoureurDepartement".toList none =
      some (distribution (b.nbCoureurPar fun p => p.partOrigine)) := rfl

theorem connection_nbCoureurSexe (b : Bdd) :
    connection b "nbCoureurSexe".toList none =
      some (distribution (b.nbCoureurPar fun p => p.partSexe)) := rfl

/-- **The lap distribution, end to end.**  For the two distributions alike, the
answer reports every row the procedure selects exactly when all participants have
run more than ten laps, so that it selects none. -/
theorem lap_distribution (b : Bdd) (horigine : Filled (fun p => p.partOrigine) b)
    (hsexe : Filled (fun p => p.partSexe) b) :
    (Reports b.nbCoureurDepartement
        (call (some (connection b)) (some "nbCoureurDepartement".toList) (some []) (some [])) ↔
      ∀ p ∈ b.participant, 10 < b.nbTourCoureur p.partId) ∧
    (Reports b.nbCoureurSexe
        (call (some (connection b)) (some "nbCoureurSexe".toList) (some []) (some [])) ↔
      ∀ p ∈ b.participant, 10 < b.nbTourCoureur p.partId) :=
  ⟨reports_distribution_iff horigine (connection_nbCoureurDepartement b),
    reports_distribution_iff hsexe (connection_nbCoureurSexe b)⟩

/-- A runner of a university site. -/
def coureur (partId : ℤ) (origine : String) : Participant :=
  { Participant.ofKey partId with
    partSexe := some "M".toList, partOrigine := some origine.toList }

/-- A race of two, one of whom has run a lap. -/
def courseADeux : Bdd where
  participant := [coureur 1 "IUT", coureur 2 "Sciences"]
  carte := [⟨"A".toList, 1⟩]
  passage := [⟨1, "A".toList, none, some 0⟩, ⟨2, "A".toList, none, some 60⟩]

theorem filled_courseADeux :
    Filled (fun p => p.partOrigine) courseADeux ∧ Filled (fun p => p.partSexe) courseADeux := by
  constructor <;> intro p hp <;> simp only [courseADeux, List.mem_cons, List.not_mem_nil,
    or_false] at hp <;> rcases hp with rfl | rfl <;> exact ⟨_, by decide, rfl⟩

/-- The runner of the IUT has one lap, and the answer does not say so. -/
theorem lap_distribution_courseADeux :
    ¬ Reports courseADeux.nbCoureurDepartement
        (call (some (connection courseADeux)) (some "nbCoureurDepartement".toList) (some [])
          (some [])) ∧
      ¬ Reports courseADeux.nbCoureurSexe
        (call (some (connection courseADeux)) (some "nbCoureurSexe".toList) (some [])
          (some [])) := by
  have hlaps : ¬ ∀ p ∈ courseADeux.participant, 10 < courseADeux.nbTourCoureur p.partId := by
    decide
  exact ⟨fun h => hlaps ((reports_distribution_iff filled_courseADeux.1
      (connection_nbCoureurDepartement _)).mp h),
    fun h => hlaps ((reports_distribution_iff filled_courseADeux.2
      (connection_nbCoureurSexe _)).mp h)⟩

/-- The two conditions at that race. -/
theorem lap_distribution_at_courseADeux :
    (Reports courseADeux.nbCoureurDepartement
        (call (some (connection courseADeux)) (some "nbCoureurDepartement".toList) (some [])
          (some [])) ↔
      ∀ p ∈ courseADeux.participant, 10 < courseADeux.nbTourCoureur p.partId) ∧
    (Reports courseADeux.nbCoureurSexe
        (call (some (connection courseADeux)) (some "nbCoureurSexe".toList) (some [])
          (some [])) ↔
      ∀ p ∈ courseADeux.participant, 10 < courseADeux.nbTourCoureur p.partId) :=
  lap_distribution courseADeux filled_courseADeux.1 filled_courseADeux.2

end Servlet
end RondeDesFacs
