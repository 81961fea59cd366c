import RondeDesFacs.Base.Text

/-!
# The tables of `rdf.sql`

Three tables: the participants of the race, the cards handed out to them, and
the passages of cards at the machines of the course.

A table is the list of its rows.  `Keys` is what the server enforces of them: the
primary keys of `participant` and `carte`, and the two foreign keys.  Text keys
are compared by the collation of their column, so two cards whose identifiers
differ in case only are one card.
-/

namespace RondeDesFacs

/-- A row of `participant`.  `PART_CONFIRMATION` and `PART_DIPLOME` are left out:
nothing reads them. -/
structure Participant where
  partId : ℤ
  partIdEtudiant : Option Text
  partNom : Option Text
  partPrenom : Option Text
  partSexe : Option Text
  partDateNaissance : Option Text
  partStatut : Option ℤ
  partType : Option ℤ
  partCertificatMed : Option Bytes
  partEmail : Option Text
  partNationalite : Option Text
  partOrigine : Option Text
  partMotDePasse : Option Text
  partAvatar : Option Bytes
  deriving DecidableEq

/-- A participant of whom only the key is known. -/
def Participant.ofKey (partId : ℤ) : Participant where
  partId := partId
  partIdEtudiant := none
  partNom := none
  partPrenom := none
  partSexe := none
  partDateNaissance := none
  partStatut := none
  partType := none
  partCertificatMed := none
  partEmail := none
  partNationalite := none
  partOrigine := none
  partMotDePasse := none
  partAvatar := none

/-- A row of `carte`. -/
structure Carte where
  carteIdCarte : Text
  carteIdEtudiant : ℤ
  deriving DecidableEq

/-- A row of `passage`.  `AUTO_INCREMENT` hands out the key; the time is in
seconds. -/
structure Passage where
  passId : ℤ
  passIdCarte : Text
  passIdMachine : Option ℤ
  passChrono : Option ℤ
  deriving DecidableEq

/-- The database `rdf`. -/
structure Bdd where
  participant : List Participant
  carte : List Carte
  passage : List Passage

/-- The primary and foreign keys of `rdf.sql`. -/
structure Keys (b : Bdd) : Prop where
  /-- `PRIMARY KEY (PART_ID)`. -/
  participant_pk : b.participant.Pairwise fun p q => p.partId ≠ q.partId
  /-- `PRIMARY KEY (CARTE_IDCARTE)`. -/
  carte_pk : b.carte.Pairwise fun c d => ¬ SameText c.carteIdCarte d.carteIdCarte
  /-- `FKCARTE329128`. -/
  carte_fk : ∀ c ∈ b.carte, ∃ p ∈ b.participant, p.partId = c.carteIdEtudiant
  /-- `FKPASSAGE339701`. -/
  passage_fk : ∀ p ∈ b.passage, ∃ c ∈ b.carte, SameText p.passIdCarte c.carteIdCarte

/-- A database whose keys hold.  The engine never shows another. -/
structure KeyedBdd where
  /-- The tables. -/
  bdd : Bdd
  /-- Their keys hold. -/
  keys : Keys bdd

namespace Bdd

/-! ## Insertions -/

/-- `INSERT INTO carte VALUES(idCarte, idEtudiant)`, refused on a duplicate card
or an unknown participant. -/
def insertCarte (b : Bdd) (srv : Serveur) (idCarte : Text) (idEtudiant : ℤ) : Option Bdd :=
  match srv.varchar 25 idCarte with
  | none => none
  | some id =>
    if b.carte.any (fun c => SameText c.carteIdCarte id) then none
    else if b.participant.any (fun p => p.partId = idEtudiant) then
      some { b with carte := b.carte ++ [⟨id, idEtudiant⟩] }
    else none

/-- `INSERT INTO passage VALUES(DEFAULT, idCarte, machine, chrono)`, refused for
an unknown card.  The key `AUTO_INCREMENT` hands out is `passId`. -/
def insertPassage (b : Bdd) (srv : Serveur) (passId : ℤ) (idCarte : Text) (machine : Option ℤ)
    (chrono : Option ℤ) : Option Bdd :=
  match srv.varchar 25 idCarte with
  | none => none
  | some id =>
    if b.carte.any (fun c => SameText id c.carteIdCarte) then
      some { b with passage := b.passage ++ [⟨passId, id, machine, chrono⟩] }
    else none

variable {b b' : Bdd} {srv : Serveur}

/-- All an accepted card does. -/
theorem insertCarte_eq_some {idCarte : Text} {idEtudiant : ℤ}
    (h : b.insertCarte srv idCarte idEtudiant = some b') :
    ∃ id, srv.varchar 25 idCarte = some id ∧ (∀ c ∈ b.carte, ¬ SameText c.carteIdCarte id) ∧
      (∃ p ∈ b.participant, p.partId = idEtudiant) ∧
      b' = { b with carte := b.carte ++ [⟨id, idEtudiant⟩] } := by
  unfold insertCarte at h
  split at h
  · exact absurd h (by simp)
  · rename_i id hid
    split_ifs at h with hdup howner
    refine ⟨id, hid, fun c hc hsame => hdup ?_, ?_, (Option.some_inj.mp h).symm⟩
    · exact List.any_eq_true.mpr ⟨c, hc, decide_eq_true hsame⟩
    · obtain ⟨p, hp, hpid⟩ := List.any_eq_true.mp howner
      exact ⟨p, hp, of_decide_eq_true hpid⟩

/-- All an accepted passage does. -/
theorem insertPassage_eq_some {passId : ℤ} {idCarte : Text} {machine chrono : Option ℤ}
    (h : b.insertPassage srv passId idCarte machine chrono = some b') :
    ∃ id, (∃ c ∈ b.carte, SameText id c.carteIdCarte) ∧
      b' = { b with passage := b.passage ++ [⟨passId, id, machine, chrono⟩] } := by
  unfold insertPassage at h
  split at h
  · exact absurd h (by simp)
  · rename_i id _
    split_ifs at h with hcard
    refine ⟨id, ?_, (Option.some_inj.mp h).symm⟩
    obtain ⟨c, hc, hsame⟩ := List.any_eq_true.mp hcard
    exact ⟨c, hc, of_decide_eq_true hsame⟩

/-- A new card keeps the keys. -/
theorem keys_insertCarte (hb : Keys b) {idCarte : Text} {idEtudiant : ℤ}
    (h : b.insertCarte srv idCarte idEtudiant = some b') : Keys b' := by
  obtain ⟨id, -, hnew, howner, rfl⟩ := insertCarte_eq_some h
  refine ⟨hb.participant_pk, ?_, ?_, ?_⟩
  · refine List.pairwise_append.mpr ⟨hb.carte_pk, List.pairwise_singleton _ _, ?_⟩
    intro c hc d hd
    rw [List.mem_singleton.mp hd]
    exact hnew c hc
  · intro c hc
    rcases List.mem_append.mp hc with hc | hc
    · exact hb.carte_fk c hc
    · rw [List.mem_singleton.mp hc]
      exact howner
  · intro p hp
    obtain ⟨c, hc, hsame⟩ := hb.passage_fk p hp
    exact ⟨c, List.mem_append_left _ hc, hsame⟩

/-- A new passage keeps the keys. -/
theorem keys_insertPassage (hb : Keys b) {passId : ℤ} {idCarte : Text}
    {machine chrono : Option ℤ}
    (h : b.insertPassage srv passId idCarte machine chrono = some b') : Keys b' := by
  obtain ⟨id, hcard, rfl⟩ := insertPassage_eq_some h
  refine ⟨hb.participant_pk, hb.carte_pk, hb.carte_fk, ?_⟩
  intro p hp
  rcases List.mem_append.mp hp with hp | hp
  · exact hb.passage_fk p hp
  · rw [List.mem_singleton.mp hp]
    exact hcard

end Bdd
end RondeDesFacs
