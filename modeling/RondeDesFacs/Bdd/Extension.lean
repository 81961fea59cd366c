import RondeDesFacs.Bdd.LapAccounting
import RondeDesFacs.Library.Tally

/-!
# Tables that only grow

Nothing in the program updates or deletes a row.  So between two moments of the race the
tables differ by rows at their ends (`Extends`), and this is all one has to know of what
happened in between: a passage that was there still counts for the same participant
(`passagesOf_prefix`), and no result has decreased (`resultOf_le_of_extends`).

The keys alone say that the passages are accounted for: each counts for exactly one
participant (`sum_passagesOf`), so twice the laps of all and the passages left over come to
the number of passages (`accounts`).
-/

namespace RondeDesFacs
namespace Bdd

/-- Rows were added at the ends of the tables, and nothing else happened. -/
structure Extends (b b' : Bdd) : Prop where
  participant : b.participant <+: b'.participant
  carte : b.carte <+: b'.carte
  passage : b.passage <+: b'.passage

theorem Extends.refl (b : Bdd) : Extends b b :=
  ⟨List.prefix_refl _, List.prefix_refl _, List.prefix_refl _⟩

theorem Extends.trans {b b' b'' : Bdd} (h : Extends b b') (h' : Extends b' b'') :
    Extends b b'' :=
  ⟨h.participant.trans h'.participant, h.carte.trans h'.carte, h.passage.trans h'.passage⟩

variable {b b' : Bdd}

/-- **A passage counts for whom it counted.**  A later card is none of those the earlier
passages name. -/
theorem passagesOf_prefix (hb : Keys b) (hb' : Keys b') (h : Extends b b') (idEtudiant : ℤ) :
    b.passagesOf idEtudiant <+: b'.passagesOf idEtudiant := by
  obtain ⟨cartes, hcarte⟩ := h.carte
  obtain ⟨passages, hpassage⟩ := h.passage
  have hpk := hb'.carte_pk
  rw [← hcarte] at hpk
  have hsame : ∀ p ∈ b.passage,
      b'.carte.any (ownCard idEtudiant p) = b.carte.any (ownCard idEtudiant p) := by
    intro p hp
    obtain ⟨c, hc, hpc⟩ := hb.passage_fk p hp
    have hnone : cartes.any (ownCard idEtudiant p) = false := by
      rw [List.any_eq_false]
      intro c' hc' hown
      simp only [ownCard, Bool.and_eq_true, decide_eq_true_eq] at hown
      exact (List.pairwise_append.mp hpk).2.2 c hc c' hc' (hpc.symm.trans hown.1)
    rw [← hcarte, List.any_append, hnone, Bool.or_false]
  refine ⟨passages.filter fun p => b'.carte.any (ownCard idEtudiant p), ?_⟩
  rw [passagesOf, passagesOf, ← hpassage, List.filter_append, List.filter_congr hsame]

/-- **No result decreases** while the tables grow. -/
theorem resultOf_le_of_extends {d e : KeyedBdd} (h : Extends d.bdd e.bdd) (idEtudiant : ℤ) :
    d.resultOf idEtudiant ≤ e.resultOf idEtudiant := by
  obtain ⟨new, hnew⟩ := passagesOf_prefix d.keys e.keys h idEtudiant
  rw [KeyedBdd.resultOf_eq, KeyedBdd.resultOf_eq, ← hnew, List.map_append, List.length_append]
  exact ⟨Nat.div_le_div_right (Nat.le_add_right _ _), extent_le_append _ _⟩

/-! ## The passages are accounted for -/

/-- The owner of the card a passage names. -/
def owner (b : Bdd) (p : Passage) : ℤ :=
  ((b.carte.find? fun c => SameText p.passIdCarte c.carteIdCarte).map Carte.carteIdEtudiant).getD 0

/-- A passage counts for the owner of its card, who is a participant. -/
theorem owner_spec (hb : Keys b) {p : Passage} (hp : p ∈ b.passage) :
    (∀ idEtudiant, b.carte.any (ownCard idEtudiant p) = true ↔ b.owner p = idEtudiant) ∧
      ∃ q ∈ b.participant, q.partId = b.owner p := by
  obtain ⟨c₀, hc₀, hpc₀⟩ := hb.passage_fk p hp
  have hsome : (b.carte.find? fun c => SameText p.passIdCarte c.carteIdCarte).isSome = true := by
    rw [List.find?_isSome]
    exact ⟨c₀, hc₀, decide_eq_true hpc₀⟩
  obtain ⟨c, hfind⟩ := Option.isSome_iff_exists.mp hsome
  have hc := List.mem_of_find?_eq_some hfind
  have hpc : SameText p.passIdCarte c.carteIdCarte := by
    have hfound := List.find?_some hfind
    exact of_decide_eq_true hfound
  have howner : b.owner p = c.carteIdEtudiant := by
    rw [owner, hfind]
    rfl
  refine ⟨fun idEtudiant => ?_, ?_⟩
  · rw [List.any_eq_true, howner]
    constructor
    · rintro ⟨c', hc', hown⟩
      simp only [ownCard, Bool.and_eq_true, decide_eq_true_eq] at hown
      rw [KeyedBdd.owner_unique ⟨b, hb⟩ hc hc' hpc hown.1]
      exact hown.2
    · intro h
      exact ⟨c, hc, by simp [ownCard, hpc, h]⟩
  · rw [howner]
    exact hb.carte_fk c hc

theorem passagesOf_eq (hb : Keys b) (idEtudiant : ℤ) :
    b.passagesOf idEtudiant = b.passage.filter fun p => b.owner p = idEtudiant := by
  refine List.filter_congr fun p hp => ?_
  rw [Bool.eq_iff_iff, decide_eq_true_eq]
  exact (owner_spec hb hp).1 idEtudiant

/-- **Each passage counts for exactly one participant.** -/
theorem sum_passagesOf (hb : Keys b) :
    (b.participant.map fun q => (b.passagesOf q.partId).length).sum = b.passage.length := by
  have hlength : ∀ l : List Passage,
      ((l.map fun p => (b.owner p, 1)).map Prod.snd).sum = l.length := by
    intro l
    simp [Function.comp_def]
  have htotal : ∀ idEtudiant, Tally.total (b.passage.map fun p => (b.owner p, 1)) idEtudiant =
      (b.passagesOf idEtudiant).length := by
    intro idEtudiant
    rw [passagesOf_eq hb, Tally.total, List.filter_map]
    exact hlength _
  have howners : ∀ e ∈ b.passage.map fun p => (b.owner p, 1),
      e.1 ∈ b.participant.map Participant.partId := by
    intro e he
    obtain ⟨p, hp, rfl⟩ := List.mem_map.mp he
    obtain ⟨q, hq, hqp⟩ := (owner_spec hb hp).2
    exact List.mem_map.mpr ⟨q, hq, hqp⟩
  have hsum := Tally.sum_total (List.pairwise_map.mpr hb.participant_pk) howners
  rw [hlength, List.map_map] at hsum
  rw [← hsum]
  exact congrArg List.sum (List.map_congr_left fun q _ => (htotal q.partId).symm)

/-- **Every passage is half a lap, or left over**, and no participant has more than one that
is left over. -/
theorem accounts (hb : Keys b) :
    (b.participant.map fun q =>
        2 * b.nbTourCoureur q.partId + (b.passagesOf q.partId).length % 2).sum =
      b.passage.length := by
  rw [← sum_passagesOf hb]
  refine congrArg List.sum (List.map_congr_left fun q _ => ?_)
  rw [nbTourCoureur_eq hb, passageTimes, Multiset.coe_card, List.length_map]
  exact Nat.div_add_mod _ 2

end Bdd
end RondeDesFacs
