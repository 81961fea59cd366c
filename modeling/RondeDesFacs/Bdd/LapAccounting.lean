import RondeDesFacs.Bdd.Fonctions
import Mathlib.Data.List.Pairwise

/-!
# Lap and chrono accounting over a race

While the race is on, the machines insert cards and passages, in whatever order
their operators work.  A `KeyedBdd` is a database whose keys hold, and an
`Insertion` the server refuses leaves it as it was, so the state after any
interleaving is again a `KeyedBdd` and the two result functions are functions of
`passageTimes` in all of them.

Everything then follows from what one insertion does to `passageTimes`: a card
changes nobody's (`passageTimes_insertCarte` --- no passage can name a card that
was not there), a passage adds one time to its owner's and leaves the others'
alone (`passagesOf_insertPassage`).
-/

namespace RondeDesFacs

open Bdd

/-- What a machine does to the database: `saveCardID`'s and `saveLapDateTime`'s
`INSERT`. -/
inductive Insertion where
  | carte (idCarte : Text) (idEtudiant : ℤ)
  | passage (passId : ℤ) (idCarte : Text) (machine chrono : Option ℤ)

namespace KeyedBdd

/-- The database after an insertion, accepted or refused. -/
def insert (srv : Serveur) (d : KeyedBdd) : Insertion → KeyedBdd
  | .carte idCarte idEtudiant =>
    match h : d.bdd.insertCarte srv idCarte idEtudiant with
    | some b => ⟨b, keys_insertCarte d.keys h⟩
    | none => d
  | .passage passId idCarte machine chrono =>
    match h : d.bdd.insertPassage srv passId idCarte machine chrono with
    | some b => ⟨b, keys_insertPassage d.keys h⟩
    | none => d

/-- The database after a run of insertions. -/
def insertAll (srv : Serveur) (d : KeyedBdd) (run : List Insertion) : KeyedBdd :=
  run.foldl (insert srv) d

variable {srv : Serveur} {d : KeyedBdd}

/-! ## What one insertion does -/

/-- All an insertion of a card can do. -/
theorem insert_carte_cases (srv : Serveur) (d : KeyedBdd) (idCarte : Text) (idEtudiant : ℤ) :
    d.insert srv (.carte idCarte idEtudiant) = d ∨
      ∃ id, (∀ c ∈ d.bdd.carte, ¬ SameText c.carteIdCarte id) ∧
        (d.insert srv (.carte idCarte idEtudiant)).bdd =
          { d.bdd with carte := d.bdd.carte ++ [⟨id, idEtudiant⟩] } := by
  simp only [insert]
  split
  · rename_i b h
    obtain ⟨id, -, hnew, -, hb⟩ := insertCarte_eq_some h
    exact Or.inr ⟨id, hnew, hb⟩
  · exact Or.inl rfl

/-- All an insertion of a passage can do.  The card is looked up by what the
column keeps of its identifier. -/
theorem insert_passage_cases (srv : Serveur) (d : KeyedBdd) (passId : ℤ) (idCarte : Text)
    (machine chrono : Option ℤ) :
    d.insert srv (.passage passId idCarte machine chrono) = d ∨
      (d.insert srv (.passage passId idCarte machine chrono)).bdd =
        { d.bdd with
          passage := d.bdd.passage ++ [⟨passId, idCarte.take 25, machine, chrono⟩] } := by
  simp only [insert]
  split
  · rename_i b h
    refine Or.inr ?_
    unfold insertPassage at h
    split at h
    · exact absurd h (by simp)
    · rename_i id hid
      rw [Serveur.eq_take_of_varchar hid] at h
      split_ifs at h
      exact (Option.some_inj.mp h).symm
  · exact Or.inl rfl

/-- A card that was not there is named by no passage. -/
theorem passagesOf_insertCarte (d : KeyedBdd) {id : Text}
    (hnew : ∀ c ∈ d.bdd.carte, ¬ SameText c.carteIdCarte id) (owner idEtudiant : ℤ) :
    passagesOf { d.bdd with carte := d.bdd.carte ++ [⟨id, owner⟩] } idEtudiant =
      d.bdd.passagesOf idEtudiant := by
  refine List.filter_congr fun p hp => ?_
  obtain ⟨c, hc, hsame⟩ := d.keys.passage_fk p hp
  have hno : ownCard idEtudiant p ⟨id, owner⟩ = false := by
    simp only [ownCard, Bool.and_eq_false_iff, decide_eq_false_iff_not]
    exact Or.inl fun h => hnew c hc (hsame.symm.trans h)
  rw [List.any_append, List.any_cons, hno, List.any_nil, Bool.or_self, Bool.or_false]

/-- A passage counts for the owner of its card. -/
theorem passagesOf_insertPassage (b : Bdd) (p : Passage) (idEtudiant : ℤ) :
    passagesOf { b with passage := b.passage ++ [p] } idEtudiant =
      b.passagesOf idEtudiant ++ if b.carte.any (ownCard idEtudiant p) then [p] else [] := by
  show (b.passage ++ [p]).filter (fun q => b.carte.any (ownCard idEtudiant q)) = _
  rw [List.filter_append, List.filter_cons, List.filter_nil]
  rfl

/-- **The step lemma.**  An insertion adds at most one passage to a participant's,
at the end. -/
theorem passagesOf_insert (srv : Serveur) (d : KeyedBdd) (i : Insertion) (idEtudiant : ℤ) :
    ∃ new : List Passage, new.length ≤ 1 ∧
      (d.insert srv i).bdd.passagesOf idEtudiant = d.bdd.passagesOf idEtudiant ++ new := by
  cases i with
  | carte idCarte owner =>
    refine ⟨[], Nat.zero_le _, ?_⟩
    rw [List.append_nil]
    rcases insert_carte_cases srv d idCarte owner with h | ⟨id, hnew, h⟩
    · rw [h]
    · rw [h, passagesOf_insertCarte d hnew]
  | passage passId idCarte machine chrono =>
    rcases insert_passage_cases srv d passId idCarte machine chrono with h | h
    · exact ⟨[], Nat.zero_le _, by rw [h, List.append_nil]⟩
    · refine ⟨_, ?_, by rw [h, passagesOf_insertPassage]⟩
      split_ifs <;> simp

/-- **A passage leaves the others alone.**  A participant whose passages change
owns the card the passage names. -/
theorem owner_of_passagesOf_ne (srv : Serveur) (d : KeyedBdd) {passId : ℤ} {idCarte : Text}
    {machine chrono : Option ℤ} {idEtudiant : ℤ}
    (hne : (d.insert srv (.passage passId idCarte machine chrono)).bdd.passagesOf idEtudiant ≠
      d.bdd.passagesOf idEtudiant) :
    ∃ c ∈ d.bdd.carte, SameText (idCarte.take 25) c.carteIdCarte ∧
      c.carteIdEtudiant = idEtudiant := by
  rcases insert_passage_cases srv d passId idCarte machine chrono with h | h
  · exact absurd (by rw [h]) hne
  · rw [h, passagesOf_insertPassage] at hne
    by_contra hcon
    have hany : d.bdd.carte.any
        (ownCard idEtudiant ⟨passId, idCarte.take 25, machine, chrono⟩) = false := by
      rw [List.any_eq_false]
      intro c hc hown
      simp only [ownCard, Bool.and_eq_true, decide_eq_true_eq] at hown
      exact hcon ⟨c, hc, hown⟩
    rw [hany] at hne
    simp at hne

/-! ## The results -/

/-- The two results of a participant. -/
def resultOf (d : KeyedBdd) (idEtudiant : ℤ) : ℕ × WithBot ℤ :=
  (d.bdd.nbTourCoureur idEtudiant, belowNull (d.bdd.chronoRunner idEtudiant))

theorem resultOf_eq (d : KeyedBdd) (idEtudiant : ℤ) :
    d.resultOf idEtudiant =
      ((d.bdd.passagesOf idEtudiant).length / 2,
        belowNull (extent ((d.bdd.passagesOf idEtudiant).map fun p => p.passChrono))) := by
  rw [resultOf, nbTourCoureur_eq d.keys, chronoRunner_eq d.keys, passageTimes,
    Multiset.coe_card, List.length_map]

/-- The results depend on the multiset of passage times only. -/
theorem resultOf_eq_of_passageTimes {d d' : KeyedBdd} {idEtudiant idEtudiant' : ℤ}
    (h : d.bdd.passageTimes idEtudiant = d'.bdd.passageTimes idEtudiant') :
    d.resultOf idEtudiant = d'.resultOf idEtudiant' := by
  have hperm : ((d.bdd.passagesOf idEtudiant).map fun p => p.passChrono).Perm
      ((d'.bdd.passagesOf idEtudiant').map fun p => p.passChrono) := Quotient.exact h
  have hlen := hperm.length_eq
  rw [List.length_map, List.length_map] at hlen
  rw [resultOf_eq, resultOf_eq, hlen, extent_eq_of_perm hperm]

/-- An insertion lowers neither result and adds one lap at most. -/
theorem resultOf_le_insert (srv : Serveur) (d : KeyedBdd) (i : Insertion) (idEtudiant : ℤ) :
    d.resultOf idEtudiant ≤ (d.insert srv i).resultOf idEtudiant ∧
      ((d.insert srv i).resultOf idEtudiant).1 ≤ (d.resultOf idEtudiant).1 + 1 := by
  obtain ⟨new, hnew, h⟩ := passagesOf_insert srv d i idEtudiant
  rw [resultOf_eq, resultOf_eq, h, List.length_append, List.map_append]
  refine ⟨⟨?_, extent_le_append _ _⟩, ?_⟩
  · show (d.bdd.passagesOf idEtudiant).length / 2 ≤
      ((d.bdd.passagesOf idEtudiant).length + new.length) / 2
    omega
  · show ((d.bdd.passagesOf idEtudiant).length + new.length) / 2 ≤
      (d.bdd.passagesOf idEtudiant).length / 2 + 1
    omega

theorem insertAll_append (srv : Serveur) (d : KeyedBdd) (run rest : List Insertion) :
    d.insertAll srv (run ++ rest) = (d.insertAll srv run).insertAll srv rest :=
  List.foldl_append

/-- **The run lemma.**  No result ever decreases. -/
theorem resultOf_le_insertAll (srv : Serveur) (d : KeyedBdd) (run : List Insertion)
    (idEtudiant : ℤ) : d.resultOf idEtudiant ≤ (d.insertAll srv run).resultOf idEtudiant := by
  induction run generalizing d with
  | nil => exact le_refl _
  | cons i run ih => exact (resultOf_le_insert srv d i idEtudiant).1.trans (ih (d.insert srv i))

/-- The owner of the card a passage names is unique. -/
theorem owner_unique (d : KeyedBdd) {id : Text} {c c' : Carte} (hc : c ∈ d.bdd.carte)
    (hc' : c' ∈ d.bdd.carte) (h : SameText id c.carteIdCarte) (h' : SameText id c'.carteIdCarte) :
    c = c' := by
  by_contra hne
  have : Std.Symm fun c d : Carte => ¬ SameText c.carteIdCarte d.carteIdCarte :=
    ⟨fun _ _ hn hs => hn hs.symm⟩
  exact d.keys.carte_pk.forall hc hc' hne (h.symm.trans h')

/-- **Lap and chrono accounting.**  In the state after any run of card and
passage insertions: a participant's results are determined by the multiset of the
passage times of his cards, whatever the run, the cards and the machines that led
to it; a further passage changes the results of at most one participant, the
owner of the card; and along the rest of the run no result decreases, the laps
growing by at most one at each insertion. -/
theorem lap_accounting (srv : Serveur) (d : KeyedBdd) (run : List Insertion) :
    (∀ (d' : KeyedBdd) (run' : List Insertion) (p p' : ℤ),
      (d.insertAll srv run).bdd.passageTimes p = (d'.insertAll srv run').bdd.passageTimes p' →
      (d.insertAll srv run).resultOf p = (d'.insertAll srv run').resultOf p') ∧
    (∀ (passId : ℤ) (idCarte : Text) (machine chrono : Option ℤ) (p : ℤ),
      ((d.insertAll srv run).insert srv (.passage passId idCarte machine chrono)).resultOf p ≠
        (d.insertAll srv run).resultOf p →
      ∃ c ∈ (d.insertAll srv run).bdd.carte, SameText (idCarte.take 25) c.carteIdCarte ∧
        c.carteIdEtudiant = p ∧
        ∀ p', ((d.insertAll srv run).insert srv
            (.passage passId idCarte machine chrono)).resultOf p' ≠
          (d.insertAll srv run).resultOf p' → p' = p) ∧
    (∀ (rest : List Insertion) (p : ℤ),
      (d.insertAll srv run).resultOf p ≤ (d.insertAll srv (run ++ rest)).resultOf p) ∧
    (∀ (i : Insertion) (p : ℤ),
      (d.insertAll srv (run ++ [i])).bdd.nbTourCoureur p ≤
        (d.insertAll srv run).bdd.nbTourCoureur p + 1) := by
  set e := d.insertAll srv run with he
  refine ⟨fun d' run' p p' h => resultOf_eq_of_passageTimes h, ?_, ?_, ?_⟩
  · intro passId idCarte machine chrono p hne
    have howner : ∀ q, (e.insert srv (.passage passId idCarte machine chrono)).resultOf q ≠
        e.resultOf q → ∃ c ∈ e.bdd.carte, SameText (idCarte.take 25) c.carteIdCarte ∧
          c.carteIdEtudiant = q := fun q hq =>
      owner_of_passagesOf_ne srv e fun h => hq (by rw [resultOf_eq, resultOf_eq, h])
    obtain ⟨c, hc, hsame, hp⟩ := howner p hne
    refine ⟨c, hc, hsame, hp, fun q hq => ?_⟩
    obtain ⟨c', hc', hsame', hq'⟩ := howner q hq
    rw [← hq', ← hp, owner_unique e hc hc' hsame hsame']
  · intro rest p
    rw [insertAll_append, ← he]
    exact resultOf_le_insertAll srv e rest p
  · intro i p
    rw [insertAll_append, ← he]
    exact (resultOf_le_insert srv e i p).2

end KeyedBdd
end RondeDesFacs
