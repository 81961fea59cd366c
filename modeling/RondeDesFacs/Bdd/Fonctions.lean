import RondeDesFacs.Bdd.Tables
import RondeDesFacs.Library.Query
import Mathlib.Order.WithBot
import Mathlib.Data.List.ReduceOption
import Mathlib.Data.Multiset.Basic
import Mathlib.Data.Int.ConditionallyCompleteOrder
import Mathlib.Order.ConditionallyCompleteLattice.Basic

/-!
# The stored functions

`nbTourCoureur` and `chronoRunner` turn the passages of cards into a result, and
`nbCoureurTourSexe` counts those with one result.  The first two read a join, so
as they stand they count *pairs* (and triples) of rows, and a card listed twice
would count its passages twice.  The keys exclude that: `passageTimes` is the
multiset of the times of the passages of a participant's cards, and under the
keys both functions are functions of it alone (`nbTourCoureur_eq`,
`chronoRunner_eq`).
-/

namespace RondeDesFacs
namespace Bdd

open Query

variable (b : Bdd)

/-- `passage inner join carte ON PASS_IDCARTE = CARTE_IDCARTE`. -/
def passageCarte : List (Passage × Carte) :=
  innerJoin b.passage b.carte fun p c => SameText p.passIdCarte c.carteIdCarte

/-- `nbTourCoureur(idEtudiant)`: half the passages, rounded down.  The argument is
declared `VARCHAR(40)` and compared with the integer `PART_ID` as a number. -/
def nbTourCoureur (idEtudiant : ℤ) : ℕ :=
  ((innerJoin b.passageCarte b.participant fun x q => x.2.carteIdEtudiant = q.partId).filter
    fun y => y.2.partId = idEtudiant).length / 2

/-- `nbCoureurTourSexe(NombreTour, Sexe)`.  The server makes a `CHAR(1)` of the
second argument, or refuses the call; no row has the sex NULL. -/
def nbCoureurTourSexe (srv : Serveur) (nombreTour : ℤ) (sexe : Option Text) : Option ℕ :=
  match sexe with
  | none => some 0
  | some t =>
    (srv.char 1 t).map fun s =>
      (b.participant.filter fun p =>
        decide ((b.nbTourCoureur p.partId : ℤ) = nombreTour) &&
          p.partSexe.any fun u => SameText u s).length

/-- `TIMESTAMPDIFF(second, t, u)`, which is NULL when an argument is. -/
def timestampDiff : Option ℤ → Option ℤ → Option ℤ
  | some t, some u => some (u - t)
  | _, _ => none

/-- `TIMESTAMPDIFF(second, min(c), max(c))` over a column.  The aggregates leave
NULL values out and are NULL themselves when nothing is left. -/
def extent (c : List (Option ℤ)) : Option ℤ :=
  timestampDiff c.reduceOption.min? c.reduceOption.max?

/-- `chronoRunner(idEtudiant)`: the seconds from the first passage to the last. -/
def chronoRunner (idEtudiant : ℤ) : Option ℤ :=
  extent ((b.passageCarte.filter fun x => x.2.carteIdEtudiant = idEtudiant).map
    fun x => x.1.passChrono)

/-! ## The passages of a participant -/

/-- Whether a card belongs to a participant and is the one a passage names. -/
def ownCard (idEtudiant : ℤ) (p : Passage) (c : Carte) : Bool :=
  decide (SameText p.passIdCarte c.carteIdCarte) && decide (c.carteIdEtudiant = idEtudiant)

/-- The passages of a participant's cards, in table order. -/
def passagesOf (idEtudiant : ℤ) : List Passage :=
  b.passage.filter fun p => b.carte.any (ownCard idEtudiant p)

/-- The times of the passages of a participant's cards. -/
def passageTimes (idEtudiant : ℤ) : Multiset (Option ℤ) :=
  (b.passagesOf idEtudiant).map fun p => p.passChrono

variable {b}

/-- A passage names one card at most. -/
theorem length_filter_ownCard_le_one (hb : Keys b) (idEtudiant : ℤ) (p : Passage) :
    (b.carte.filter (ownCard idEtudiant p)).length ≤ 1 := by
  refine length_filter_le_one (hb.carte_pk.imp ?_)
  rintro c d hne ⟨hc, hd⟩
  simp only [ownCard, Bool.and_eq_true, decide_eq_true_eq] at hc hd
  exact hne (hc.1.symm.trans hd.1)

/-- **The join with the cards lists each passage once.** -/
theorem map_fst_passageCarte (hb : Keys b) (idEtudiant : ℤ) :
    (b.passageCarte.filter fun x => x.2.carteIdEtudiant = idEtudiant).map Prod.fst =
      b.passagesOf idEtudiant := by
  have hfilter := filter_innerJoin b.passage b.carte
    (fun p c => decide (SameText p.passIdCarte c.carteIdCarte))
    (fun _ c => decide (c.carteIdEtudiant = idEtudiant))
  rw [passageCarte, hfilter]
  exact map_fst_innerJoin fun p _ => length_filter_ownCard_le_one hb idEtudiant p

/-- The join with the participants adds nothing: the owner of a card is one
participant. -/
theorem map_fst_passageCarteParticipant (hb : Keys b) (idEtudiant : ℤ) :
    ((innerJoin b.passageCarte b.participant fun x q => x.2.carteIdEtudiant = q.partId).filter
        fun y => y.2.partId = idEtudiant).map Prod.fst =
      b.passageCarte.filter fun x => x.2.carteIdEtudiant = idEtudiant := by
  have hfilter := filter_innerJoin b.passageCarte b.participant
    (fun x q => decide (x.2.carteIdEtudiant = q.partId))
    (fun _ q => decide (q.partId = idEtudiant))
  rw [hfilter, map_fst_innerJoin]
  · refine List.filter_congr fun x hx => ?_
    -- the card of a joined row is in `carte`, so its owner is a participant
    have hcard : x.2 ∈ b.carte := by
      obtain ⟨p, -, hx'⟩ := List.mem_flatMap.mp hx
      obtain ⟨c, hc, rfl⟩ := List.mem_map.mp hx'
      exact List.mem_of_mem_filter hc
    obtain ⟨q, hq, hqid⟩ := hb.carte_fk _ hcard
    rw [Bool.eq_iff_iff, List.any_eq_true, decide_eq_true_eq]
    constructor
    · rintro ⟨r, -, hr⟩
      simp only [Bool.and_eq_true, decide_eq_true_eq] at hr
      exact hr.1.trans hr.2
    · intro h
      exact ⟨q, hq, by simp [hqid, h]⟩
  · intro x _
    refine length_filter_le_one (hb.participant_pk.imp ?_)
    rintro q r hne ⟨hq, hr⟩
    simp only [Bool.and_eq_true, decide_eq_true_eq] at hq hr
    exact hne (hq.2.trans hr.2.symm)

/-- **`nbTourCoureur` is half the number of passages of one's own cards.** -/
theorem nbTourCoureur_eq (hb : Keys b) (idEtudiant : ℤ) :
    b.nbTourCoureur idEtudiant = (b.passageTimes idEtudiant).card / 2 := by
  have h1 := congrArg List.length (map_fst_passageCarteParticipant hb idEtudiant)
  have h2 := congrArg List.length (map_fst_passageCarte hb idEtudiant)
  rw [List.length_map] at h1 h2
  rw [nbTourCoureur, h1, h2, passageTimes, Multiset.coe_card, List.length_map]

/-- **`chronoRunner` is the extent of the times of one's own cards.** -/
theorem chronoRunner_eq (hb : Keys b) (idEtudiant : ℤ) :
    b.chronoRunner idEtudiant =
      extent ((b.passagesOf idEtudiant).map fun p => p.passChrono) := by
  rw [chronoRunner, ← map_fst_passageCarte hb idEtudiant, List.map_map]
  rfl

/-! ## The extent of a column -/

theorem extent_eq_some {c : List (Option ℤ)} {t u : ℤ} (ht : c.reduceOption.min? = some t)
    (hu : c.reduceOption.max? = some u) : extent c = some (u - t) := by
  rw [extent, ht, hu, timestampDiff]

theorem min?_eq_of_perm {l l' : List ℤ} (h : l.Perm l') : l.min? = l'.min? := by
  rcases hl : l.min? with _ | t
  · rw [List.min?_eq_none_iff] at hl
    rw [hl] at h
    rw [h.symm.eq_nil, List.min?_nil]
  · rw [eq_comm, List.min?_eq_some_iff]
    rw [List.min?_eq_some_iff] at hl
    exact ⟨h.mem_iff.mp hl.1, fun x hx => hl.2 x (h.mem_iff.mpr hx)⟩

theorem max?_eq_of_perm {l l' : List ℤ} (h : l.Perm l') : l.max? = l'.max? := by
  rcases hl : l.max? with _ | t
  · rw [List.max?_eq_none_iff] at hl
    rw [hl] at h
    rw [h.symm.eq_nil, List.max?_nil]
  · rw [eq_comm, List.max?_eq_some_iff]
    rw [List.max?_eq_some_iff] at hl
    exact ⟨h.mem_iff.mp hl.1, fun x hx => hl.2 x (h.mem_iff.mpr hx)⟩

/-- The order of a column does not matter. -/
theorem extent_eq_of_perm {c c' : List (Option ℤ)} (h : c.Perm c') : extent c = extent c' := by
  have hr : c.reduceOption.Perm c'.reduceOption := h.filterMap id
  rw [extent, extent, min?_eq_of_perm hr, max?_eq_of_perm hr]

/-- The values of `chronoRunner` with NULL below every number. -/
def belowNull (c : Option ℤ) : WithBot ℤ := c

/-- **The extent grows with the column.** -/
theorem extent_le_append (c c' : List (Option ℤ)) :
    belowNull (extent c) ≤ belowNull (extent (c ++ c')) := by
  rcases ht : c.reduceOption.min? with _ | t
  · have hbot : extent c = none := by rw [extent, ht, timestampDiff]; simp
    rw [hbot]
    exact bot_le
  · rw [List.min?_eq_some_iff] at ht
    have hne : c.reduceOption ≠ [] := List.ne_nil_of_mem ht.1
    obtain ⟨u, hu⟩ := Option.ne_none_iff_exists'.mp fun h => hne (List.max?_eq_none_iff.mp h)
    have hne' : (c ++ c').reduceOption ≠ [] := by
      rw [List.reduceOption_append]
      exact List.append_ne_nil_of_left_ne_nil hne _
    obtain ⟨t', ht'⟩ := Option.ne_none_iff_exists'.mp fun h => hne' (List.min?_eq_none_iff.mp h)
    obtain ⟨u', hu'⟩ := Option.ne_none_iff_exists'.mp fun h => hne' (List.max?_eq_none_iff.mp h)
    rw [extent_eq_some (List.min?_eq_some_iff.mpr ht) hu, extent_eq_some ht' hu']
    rw [List.max?_eq_some_iff] at hu hu'
    rw [List.min?_eq_some_iff] at ht'
    have hsub : ∀ x ∈ c.reduceOption, x ∈ (c ++ c').reduceOption := fun x hx => by
      rw [List.reduceOption_append]
      exact List.mem_append_left _ hx
    have h1 : t' ≤ t := ht'.2 t (hsub t ht.1)
    have h2 : u ≤ u' := hu'.2 u (hsub u hu.1)
    exact WithBot.coe_le_coe.mpr (by omega)

end Bdd
end RondeDesFacs
