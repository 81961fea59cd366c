import RondeDesFacs.Bdd.Extension
import RondeDesFacs.Card.Owner
import RondeDesFacs.Web.Traitement

/-!
# The whole race

While people register at the site, machines hand out cards and count laps.  They share the
tables and nothing else, and nobody locks anything: `saveCardID` asks for a participant and
inserts a card in two statements, between which everything may happen.  So a run of the
whole is an interleaving of registrations and of single statements.

A statement is sent with whatever its literal holds by then, and its values may say
anything.  It is regular if the server reads it as one of the three of the client or refuses
it (`Evenement.Regulier`).  A value that ends its string early may make another statement of
it, one that changes rows; such a run is left out.

Then no interleaving loses or changes a row, breaks a key, or takes away from a result, and
every passage is accounted for (`course_plus`).
-/

namespace RondeDesFacs

open Bdd

namespace Card

/-- **The three statements add rows**, or do nothing. -/
theorem extends_execute {m : Moteur} {b : Bdd} {texte : Bytes}
    (hautre : lue texte = none → Extends b ((m.autre b texte).apres b)) :
    Extends b ((m.execute b texte).apres b) := by
  rw [Moteur.execute]
  split
  · rw [apres_select]
    exact Extends.refl b
  · refine apres_ofInsertion (Extends.refl b) fun b' h => ?_
    obtain ⟨idCarte, -, h⟩ := Option.bind_eq_some_iff.mp h
    obtain ⟨idEtudiant, -, h⟩ := Option.bind_eq_some_iff.mp h
    obtain ⟨id, -, -, -, rfl⟩ := insertCarte_eq_some h
    exact ⟨List.prefix_refl _, List.prefix_append _ _, List.prefix_refl _⟩
  · refine apres_ofInsertion (Extends.refl b) fun b' h => ?_
    obtain ⟨idCarte, -, h⟩ := Option.bind_eq_some_iff.mp h
    obtain ⟨machine, -, h⟩ := Option.bind_eq_some_iff.mp h
    obtain ⟨id, -, rfl⟩ := insertPassage_eq_some h
    exact ⟨List.prefix_refl _, List.prefix_refl _, List.prefix_append _ _⟩
  · rename_i hlue
    exact hautre hlue

end Card

namespace Course

open Card Web

/-! ## Statements -/

/-- A statement of a machine, with what its literal holds. -/
structure Envoi where
  moteur : Moteur
  requete : Requete
  dest : Bytes
  /-- The statement does not reach the server. -/
  panne : Bool

def Envoi.texte (e : Envoi) : Bytes := e.requete.construit e.dest

def Envoi.apres (e : Envoi) (b : Bdd) : Bdd :=
  (e.moteur.avecPannes (fun _ => e.panne) 0 b e.texte).apres b

/-- **What a statement does** that is read or refused. -/
theorem Envoi.spec (e : Envoi) (he : e.moteur.Refuse e.texte) {b : Bdd} (hb : Keys b) :
    Keys (e.apres b) ∧ Extends b (e.apres b) := by
  rw [Envoi.apres, Moteur.avecPannes]
  split_ifs
  · exact ⟨hb, Extends.refl b⟩
  · refine ⟨keys_execute hb fun hlue => ?_, extends_execute fun hlue => ?_⟩
    · rw [he hlue]
      exact hb
    · rw [he hlue]
      exact Extends.refl b

/-! ## Calls -/

section Calls

variable (m : Moteur) (pannes : ℕ → Bool) (a : Appel) (memoire : Litteral → Bytes) (b : Bdd)

def envoi (r : Requete) (n : ℕ) : Envoi := ⟨m, r, memoire r.litteral, pannes n⟩

/-- **A call is a run of the statements it sends.** -/
theorem appelSaveCardID_envois (cardId etuId : Bytes) :
    ∃ es : List Envoi, (∀ e ∈ es, ∃ n, e = envoi m pannes memoire e.requete n) ∧
      es.map Envoi.requete =
        (appelSaveCardID (m.avecPannes pannes) a memoire b cardId etuId).requetes ∧
      es.foldl (fun b e => e.apres b) b =
        (appelSaveCardID (m.avecPannes pannes) a memoire b cardId etuId).bdd := by
  rw [appelSaveCardID]
  split_ifs with hconnecte
  · dsimp only
    split_ifs
    · exact ⟨[envoi m pannes memoire (.select etuId) 0],
        List.forall_mem_singleton.mpr ⟨0, rfl⟩, rfl, rfl⟩
    · split
      · exact ⟨[envoi m pannes memoire (.select etuId) 0],
          List.forall_mem_singleton.mpr ⟨0, rfl⟩, rfl, rfl⟩
      · rename_i id _
        exact ⟨[envoi m pannes memoire (.select etuId) 0,
          envoi m pannes memoire (.insertCarte cardId id) 1],
          List.forall_mem_cons.mpr ⟨⟨0, rfl⟩, List.forall_mem_singleton.mpr ⟨1, rfl⟩⟩, rfl, rfl⟩
  · exact ⟨[], fun _ he => absurd he List.not_mem_nil, rfl, rfl⟩

theorem appelSaveLapDateTime_envois (carteId machineName : Bytes) :
    ∃ es : List Envoi, (∀ e ∈ es, ∃ n, e = envoi m pannes memoire e.requete n) ∧
      es.map Envoi.requete =
        (appelSaveLapDateTime (m.avecPannes pannes) a memoire b carteId machineName).requetes ∧
      es.foldl (fun b e => e.apres b) b =
        (appelSaveLapDateTime (m.avecPannes pannes) a memoire b carteId machineName).bdd := by
  rw [appelSaveLapDateTime]
  split_ifs with hconnecte
  · exact ⟨[envoi m pannes memoire (.insertPassage carteId machineName) 0],
      List.forall_mem_singleton.mpr ⟨0, rfl⟩, rfl, rfl⟩
  · exact ⟨[], fun _ he => absurd he List.not_mem_nil, rfl, rfl⟩

end Calls

/-! ## Runs -/

/-- What happens: a registration, or a statement of a machine. -/
inductive Evenement where
  | inscription (e : Etape)
  | statement (e : Envoi)

/-- A statement is one of the three of the client, as the server reads it, or it is refused. -/
def Evenement.Regulier : Evenement → Prop
  | .inscription _ => True
  | .statement e => e.moteur.Refuse e.texte

section Runs

variable {srv : Serveur} {cs : Charset} {Loc : Type*} [DecidableEq Loc] (resolve : Bytes → Loc)

def suivant (s : Site srv cs Loc) : Evenement → Site srv cs Loc
  | .inscription e => Web.apres resolve s e
  | .statement e => { s with bdd := e.apres s.bdd }

def course (s : Site srv cs Loc) (run : List Evenement) : Site srv cs Loc :=
  run.foldl (suivant resolve) s

theorem spec_inscription {s : Site srv cs Loc} (hs : Keys s.bdd) (e : Etape) :
    Keys (Web.apres resolve s e).bdd ∧ Extends s.bdd (Web.apres resolve s e).bdd := by
  rcases apres_cases resolve s e with ⟨-, h⟩ | ⟨x, hx, h⟩
  · rw [h]
    exact ⟨hs, Extends.refl _⟩
  · obtain ⟨-, hrow, hnew⟩ := insere_eq_some hx
    rw [h]
    refine ⟨⟨?_, hs.carte_pk, ?_, hs.passage_fk⟩, List.prefix_append _ _, List.prefix_refl _,
      List.prefix_refl _⟩
    · refine List.pairwise_append.mpr ⟨hs.participant_pk, List.pairwise_singleton _ _, ?_⟩
      intro p hp q hq
      rw [List.mem_singleton.mp hq, (ligne_eq_some hrow).1]
      exact hnew p hp
    · intro c hc
      obtain ⟨p, hp, hpc⟩ := hs.carte_fk c hc
      exact ⟨p, List.mem_append_left _ hp, hpc⟩

/-- A regular event keeps the keys and all rows. -/
theorem spec_suivant {s : Site srv cs Loc} (hs : Keys s.bdd) {e : Evenement} (he : e.Regulier) :
    Keys (suivant resolve s e).bdd ∧ Extends s.bdd (suivant resolve s e).bdd := by
  cases e with
  | inscription e => exact spec_inscription resolve hs e
  | statement e => exact e.spec he hs

/-- So does every run of regular events. -/
theorem spec_course {s : Site srv cs Loc} (hs : Keys s.bdd) {run : List Evenement}
    (hrun : ∀ e ∈ run, e.Regulier) :
    Keys (course resolve s run).bdd ∧ Extends s.bdd (course resolve s run).bdd := by
  induction run generalizing s with
  | nil => exact ⟨hs, Extends.refl _⟩
  | cons e run ih =>
    obtain ⟨he, hrun⟩ := List.forall_mem_cons.mp hrun
    obtain ⟨hkeys, hextends⟩ := spec_suivant resolve hs he
    obtain ⟨hkeys', hextends'⟩ := ih hkeys hrun
    exact ⟨hkeys', hextends.trans hextends'⟩

/-- What is true of the tables at any later moment. -/
structure Plus (b b' : Bdd) : Prop where
  keys : Keys b'
  /-- No row is lost or changed. -/
  extends' : Extends b b'
  /-- Nobody has fewer laps, or less time from the first passage to the last. -/
  results : ∀ p, b.nbTourCoureur p ≤ b'.nbTourCoureur p ∧
    belowNull (b.chronoRunner p) ≤ belowNull (b'.chronoRunner p)
  /-- Each passage is half a lap of one participant, or the one he has left over. -/
  accounts : (b'.participant.map fun q =>
    2 * b'.nbTourCoureur q.partId + (b'.passagesOf q.partId).length % 2).sum = b'.passage.length

/-- **The whole race.**  However registrations and statements follow on each other, if the
server refuses what it does not read as one of the client's statements, rows are only added,
the keys hold, no result decreases, and every passage is accounted for. -/
theorem course_plus (s : Site srv cs Loc) (hs : Keys s.bdd) (run : List Evenement)
    (hrun : ∀ e ∈ run, e.Regulier) : Plus s.bdd (course resolve s run).bdd := by
  obtain ⟨hkeys, hextends⟩ := spec_course resolve hs hrun
  have hresult := resultOf_le_of_extends (d := ⟨s.bdd, hs⟩)
    (e := ⟨(course resolve s run).bdd, hkeys⟩) hextends
  exact ⟨hkeys, hextends, fun p => ⟨(hresult p).1, (hresult p).2⟩, accounts hkeys⟩

end Runs

/-! ## A short race -/

/-- There are no keys to break in an empty site. -/
theorem keys_siteVide : Keys siteVide.bdd :=
  ⟨List.Pairwise.nil, List.Pairwise.nil, fun _ hc => absurd hc List.not_mem_nil,
    fun _ hp => absurd hp List.not_mem_nil⟩

/-- A statement as the source has it, to a server that refuses all other texts. -/
def envoiDe (r : Requete) : Envoi where
  moteur := moteur
  requete := r
  dest := r.litteral.texte
  panne := false

/-- A student registers, gets a card, and passes twice. -/
def unTour : List Evenement :=
  [.inscription ⟨vierge, demandeDe "11223344" "a@site.fr" "secret1" "Ada" none, issueDe 1 true⟩,
    .statement (envoiDe (.insertCarte (ascii "A") (ascii "1"))),
    .statement (envoiDe (.insertPassage (ascii "A") (ascii "1"))),
    .statement (envoiDe (.insertPassage (ascii "A") (ascii "1")))]

theorem regulier_envoiDe (r : Requete) : (Evenement.statement (envoiDe r)).Regulier :=
  fun _ _ => rfl

theorem regulier_unTour : ∀ e ∈ unTour, e.Regulier := by
  intro e he
  simp only [unTour, List.mem_cons, List.not_mem_nil, or_false] at he
  rcases he with rfl | rfl | rfl | rfl
  · trivial
  all_goals exact regulier_envoiDe _

theorem course_plus_unTour : Plus siteVide.bdd (course id siteVide unTour).bdd :=
  course_plus id siteVide keys_siteVide unTour regulier_unTour

end Course
end RondeDesFacs
