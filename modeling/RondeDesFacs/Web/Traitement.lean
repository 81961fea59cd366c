import RondeDesFacs.Bdd.Tables
import RondeDesFacs.Library.Query
import RondeDesFacs.Web.Php
import Mathlib.Logic.Function.Basic

/-!
# The registration `traitement.php`

The page reads the fields of the form, stores the two pictures, inserts a row into
`participant`, and opens a session for the visitor.  In this order: the files are
written before the database is even connected to, under names made of the
`numEtudiant` and the extension alone, and the result of `move_uploaded_file` is not
looked at.

The session is not opened for the row inserted.  That row is looked up again by its
`PART_IDETUDIANT`, and the first row found is taken.

Beside the database and the files a `Site` keeps the registrations that succeeded
(`Inscription`), which the program itself does not: the theorems say who registered
what.  Where a path leads is a parameter, `resolve`, so that nothing
depends on the file system.
-/

namespace RondeDesFacs
namespace Web

open Query

/-! ## The request -/

/-- An entry of `$_FILES`.  The content is that of the temporary file. -/
structure Fichier where
  name : Bytes
  size : ℕ
  error : ℕ
  content : Bytes
  deriving DecidableEq

/-- A registration request.  A field that is missing reads as the empty string, and
so does a file. -/
structure Demande where
  numEtudiant : Valeur
  email : Valeur
  mdp1 : Valeur
  nom : Valeur
  prenom : Valeur
  sexe : Option Valeur
  birthdate : Valeur
  nationalite : Valeur
  origine : Valeur
  statut : Valeur
  type : Valeur
  avatar : Option Fichier
  certificat : Option Fichier

/-! ## The pictures -/

/-- The extensions allowed. -/
def extAut : List Bytes := [ascii "jpg", ascii "jpeg", ascii "png", ascii "gif"]

/-- The largest size allowed. -/
def maxSize : ℕ := 2000000

/-- `strtolower(substr(strrchr($avatar_name, '.'), 1))`. -/
def Fichier.ext (f : Fichier) : Bytes := strtolower (((strrchr 0x2E f.name).getD []).drop 1)

/-- The three checks of an upload. -/
def Fichier.valid (f : Fichier) : Bool :=
  if f.ext ∉ extAut then false
  else if f.size > maxSize then false
  else if f.error > 0 then false
  else true

/-- `$filename . '.' . $ext`. -/
def Fichier.nomImage (filename : Bytes) (f : Fichier) : Bytes := filename ++ ascii "." ++ f.ext

/-- The name that goes into the database: null unless the upload is valid. -/
def nomImage (filename : Bytes) (f : Option Fichier) : Option Bytes :=
  (f.filter Fichier.valid).map (Fichier.nomImage filename)

/-- The directory of the avatars. -/
def dirAvatar : Bytes := ascii "img/avatar/"

/-- The directory of the certificates. -/
def dirCertif : Bytes := ascii "img/certif/"

section Files

variable {Loc : Type*} [DecidableEq Loc] (resolve : Bytes → Loc)

/-- An upload.  A valid one is moved to its place in a directory, if the move
succeeds. -/
def deposer (dossier filename : Bytes) (f : Option Fichier) (deplace : Bool)
    (fichiers : Loc → Option Bytes) : Loc → Option Bytes :=
  match f.filter Fichier.valid with
  | none => fichiers
  | some f =>
    if deplace then
      Function.update fichiers (resolve (dossier ++ f.nomImage filename)) (some f.content)
    else fichiers

end Files

/-! ## The row -/

/-- `stripslashes($_POST['numEtudiant'])`, as the start of a file name. -/
def Demande.filename (d : Demande) : Bytes := d.numEtudiant.stripslashes.getD []

/-- A bound value in its column: null stays null, and a string is read by the
character set of the connection. -/
def colonne {α : Type*} (cs : Charset) (garde : Text → Option α) : Option Bytes →
    Option (Option α)
  | none => some none
  | some b => ((cs.decode b).bind garde).map some

/-- A picture's name in its `blob` column. -/
def colonneBlob (srv : Serveur) : Option Bytes → Option (Option Bytes)
  | none => some none
  | some b => (srv.blob b).map some

/-- The row of a request: what the columns keep of its values, or `none` if the
server refuses one of them. -/
def ligne (srv : Serveur) (cs : Charset) (partId : ℤ) (d : Demande) : Option Participant := do
  let partIdEtudiant ← colonne cs (srv.varchar 10) d.numEtudiant.stripslashes
  let partEmail ← colonne cs (srv.varchar 70) d.email.stripslashes
  let partMotDePasse ← colonne cs (srv.varchar 30) d.mdp1.stripslashes
  let partNom ← colonne cs (srv.varchar 25) d.nom.stripslashes
  let partPrenom ← colonne cs (srv.varchar 25) d.prenom.stripslashes
  let partSexe ← colonne cs (srv.char 1) ((d.sexe.map Valeur.stripslashes).getD (some []))
  let partDateNaissance ← colonne cs srv.toDate d.birthdate.stripslashes
  let partCertificatMed ← colonneBlob srv (nomImage d.filename d.certificat)
  let partStatut ← colonne cs srv.toTinyint d.statut.stripslashes
  let partType ← colonne cs srv.toTinyint d.type.stripslashes
  let partNationalite ← colonne cs (srv.varchar 30) d.nationalite.stripslashes
  let partOrigine ← colonne cs (srv.varchar 30) d.origine.stripslashes
  let partAvatar ← colonneBlob srv (nomImage d.filename d.avatar)
  return {
    partId, partIdEtudiant, partNom, partPrenom, partSexe, partDateNaissance, partStatut,
    partType, partCertificatMed, partEmail, partNationalite, partOrigine, partMotDePasse,
    partAvatar }

/-- A registration that succeeded: a request, and its row. -/
structure Inscription (srv : Serveur) (cs : Charset) where
  /-- The request. -/
  demande : Demande
  /-- The row inserted for it. -/
  row : Participant
  /-- The row is what the columns keep of the request. -/
  inscrit : ∃ partId, ligne srv cs partId demande = some row

/-! ## The session -/

/-- The session variables. -/
structure Session where
  user : Option Bytes
  nom : Option Bytes
  email : Option Bytes
  identifiant : Option Bytes
  avatar : Option Bytes
  certif : Option Bytes
  deriving DecidableEq

/-- No session variable is set. -/
def vierge : Session := ⟨none, none, none, none, none, none⟩

/-- The variables a page sets from a row it has fetched. -/
def sessionDe (cs : Charset) (row : Participant) : Session where
  user := row.partPrenom.map cs.encode
  nom := row.partNom.map cs.encode
  email := row.partEmail.map cs.encode
  identifiant := row.partIdEtudiant.map cs.encode
  avatar := some (dirAvatar ++ row.partAvatar.getD [])
  certif := some (dirCertif ++ row.partCertificatMed.getD [])

/-- What a page does to the session of its visitor. -/
structure Visite where
  /-- The row the session variables are set from, if they are set. -/
  ligne : Option Participant
  /-- The session after the page. -/
  session : Session

/-- A page that fetches a row opens a session for it; one that fetches none leaves
the session alone. -/
def visite (cs : Charset) (avant : Session) (ligne : Option Participant) : Visite where
  ligne := ligne
  session := (ligne.map (sessionDe cs)).getD avant

/-- `colonne = :param`: true of no row where either is null, or where the parameter
cannot be read. -/
def egal (cs : Charset) (colonne : Option Text) (param : Option Bytes) : Bool :=
  match colonne, param with
  | some t, some b => (cs.decode b).any fun u => SameText t u
  | _, _ => false

/-- **Whose session a page may open.**  Whatever order the rows come in: that of any
row found. -/
theorem forall_visite_iff (cs : Charset) (avant : Session) (rows : List Participant)
    (P : Participant → Session → Prop) :
    (∀ ordre : RowOrder Participant, ∀ row ∈ (visite cs avant (ordre.fetch rows)).ligne,
        P row (visite cs avant (ordre.fetch rows)).session) ↔
      ∀ row ∈ rows, P row (sessionDe cs row) := by
  constructor
  · intro h row hrow
    have hfirst := h (RowOrder.startWith row) row
    rw [RowOrder.fetch_startWith hrow] at hfirst
    exact hfirst rfl
  · intro h ordre row hrow
    have hfetch : ordre.fetch rows = some row := hrow
    rw [hfetch]
    exact h row (RowOrder.mem_of_fetch hfetch)

/-! ## The page -/

/-- What a registration meets: the moves, the connection, the execution of the
`INSERT`, the key handed out, and the order of the rows found. -/
structure Issue where
  avatarDeplace : Bool
  certifDeplace : Bool
  connecte : Bool
  execute : Bool
  partId : ℤ
  ordre : RowOrder Participant

/-- The database, the files, and the registrations that succeeded. -/
structure Site (srv : Serveur) (cs : Charset) (Loc : Type*) where
  bdd : Bdd
  fichiers : Loc → Option Bytes
  registre : List (Inscription srv cs)

/-- A site without participants. -/
def Site.neuf {srv : Serveur} {cs : Charset} {Loc : Type*} (fichiers : Loc → Option Bytes) :
    Site srv cs Loc where
  bdd := { participant := [], carte := [], passage := [] }
  fichiers := fichiers
  registre := []

section Page

variable {srv : Serveur} {cs : Charset} {Loc : Type*}

/-- The `INSERT`: the registration, if it succeeds. -/
def insere (s : Site srv cs Loc) (d : Demande) (o : Issue) : Option (Inscription srv cs) :=
  if o.connecte && o.execute && !s.bdd.participant.any (fun p => p.partId = o.partId) then
    match h : ligne srv cs o.partId d with
    | none => none
    | some row => some ⟨d, row, o.partId, h⟩
  else none

/-- All an accepted registration is. -/
theorem insere_eq_some {s : Site srv cs Loc} {d : Demande} {o : Issue} {x : Inscription srv cs}
    (h : insere s d o = some x) :
    x.demande = d ∧ ligne srv cs o.partId d = some x.row ∧
      ∀ p ∈ s.bdd.participant, p.partId ≠ o.partId := by
  unfold insere at h
  split_ifs at h with hcond
  split at h
  · exact absurd h (by simp)
  · rename_i row hrow
    rw [← Option.some_inj.mp h]
    refine ⟨rfl, hrow, fun p hp heq => ?_⟩
    simp only [Bool.and_eq_true, Bool.not_eq_true', List.any_eq_false] at hcond
    exact hcond.2 p hp (decide_eq_true heq)

variable [DecidableEq Loc] (resolve : Bytes → Loc)

/-- The files after the two uploads. -/
def deposes (s : Site srv cs Loc) (d : Demande) (o : Issue) : Loc → Option Bytes :=
  deposer resolve dirCertif d.filename d.certificat o.certifDeplace
    (deposer resolve dirAvatar d.filename d.avatar o.avatarDeplace s.fichiers)

/-- `traitement.php`, for a visitor with a session. -/
def traitement (s : Site srv cs Loc) (avant : Session) (d : Demande) (o : Issue) :
    Site srv cs Loc × Visite :=
  let fichiers := deposes resolve s d o
  match insere s d o with
  | none => ({ s with fichiers := fichiers }, visite cs avant none)
  | some x =>
    let participant := s.bdd.participant ++ [x.row]
    let trouves := participant.filter fun p => egal cs p.partIdEtudiant d.numEtudiant.stripslashes
    ({ bdd := { s.bdd with participant := participant }, fichiers := fichiers,
       registre := s.registre ++ [x] },
      visite cs avant (o.ordre.fetch trouves))

/-! ## Runs -/

/-- A request, its visitor's session, and what it meets. -/
structure Etape where
  avant : Session
  demande : Demande
  issue : Issue

/-- The site after a request. -/
def apres (s : Site srv cs Loc) (e : Etape) : Site srv cs Loc :=
  (traitement resolve s e.avant e.demande e.issue).1

/-- The site after a sequence of requests. -/
def apresTous (s : Site srv cs Loc) (etapes : List Etape) : Site srv cs Loc :=
  etapes.foldl (apres resolve) s

/-! ## What a registration does -/

theorem traitement_of_some {s : Site srv cs Loc} {d : Demande} {o : Issue}
    {x : Inscription srv cs} (h : insere s d o = some x) (avant : Session) :
    traitement resolve s avant d o =
      ({ bdd := { s.bdd with participant := s.bdd.participant ++ [x.row] },
         fichiers := deposes resolve s d o, registre := s.registre ++ [x] },
        visite cs avant (o.ordre.fetch ((s.bdd.participant ++ [x.row]).filter fun p =>
          egal cs p.partIdEtudiant d.numEtudiant.stripslashes))) := by
  rw [traitement, h]

theorem traitement_of_none {s : Site srv cs Loc} {d : Demande} {o : Issue}
    (h : insere s d o = none) (avant : Session) :
    traitement resolve s avant d o =
      ({ s with fichiers := deposes resolve s d o }, visite cs avant none) := by
  rw [traitement, h]

/-- **What a registration does to the site.**  The files are written in any case;
a row is added or not. -/
theorem apres_cases (s : Site srv cs Loc) (e : Etape) :
    (insere s e.demande e.issue = none ∧
      apres resolve s e = { s with fichiers := deposes resolve s e.demande e.issue }) ∨
    ∃ x, insere s e.demande e.issue = some x ∧
      apres resolve s e =
        { bdd := { s.bdd with participant := s.bdd.participant ++ [x.row] },
          fichiers := deposes resolve s e.demande e.issue, registre := s.registre ++ [x] } := by
  rcases h : insere s e.demande e.issue with _ | x
  · exact Or.inl ⟨rfl, by rw [apres, traitement_of_none resolve h]⟩
  · exact Or.inr ⟨x, rfl, by rw [apres, traitement_of_some resolve h]⟩

/-- No participant and no registration is ever lost. -/
theorem subset_apres (s : Site srv cs Loc) (e : Etape) :
    s.bdd.participant ⊆ (apres resolve s e).bdd.participant ∧
      s.registre ⊆ (apres resolve s e).registre := by
  rcases apres_cases resolve s e with ⟨-, h⟩ | ⟨x, -, h⟩
  · rw [h]
    exact ⟨List.Subset.refl _, List.Subset.refl _⟩
  · rw [h]
    exact ⟨List.subset_append_left _ _, List.subset_append_left _ _⟩

theorem subset_apresTous (s : Site srv cs Loc) (etapes : List Etape) :
    s.bdd.participant ⊆ (apresTous resolve s etapes).bdd.participant ∧
      s.registre ⊆ (apresTous resolve s etapes).registre := by
  induction etapes generalizing s with
  | nil => exact ⟨List.Subset.refl _, List.Subset.refl _⟩
  | cons e etapes ih =>
    obtain ⟨hrow, hreg⟩ := subset_apres resolve s e
    obtain ⟨hrow', hreg'⟩ := ih (apres resolve s e)
    exact ⟨List.Subset.trans hrow hrow', List.Subset.trans hreg hreg'⟩

/-- Every participant has registered. -/
def Site.Inscrits (s : Site srv cs Loc) : Prop :=
  s.bdd.participant = s.registre.map fun x => x.row

theorem inscrits_apres {s : Site srv cs Loc} (hs : s.Inscrits) (e : Etape) :
    (apres resolve s e).Inscrits := by
  rcases apres_cases resolve s e with ⟨-, h⟩ | ⟨x, -, h⟩
  · rw [h]
    exact hs
  · rw [h]
    show s.bdd.participant ++ [x.row] = (s.registre ++ [x]).map fun x => x.row
    rw [List.map_append, ← hs]
    rfl

theorem inscrits_apresTous {s : Site srv cs Loc} (hs : s.Inscrits) (etapes : List Etape) :
    (apresTous resolve s etapes).Inscrits := by
  induction etapes generalizing s with
  | nil => exact hs
  | cons e etapes ih => exact ih (inscrits_apres resolve hs e)

end Page

/-! ## The columns of a row -/

section Columns

variable {srv : Serveur} {cs : Charset} {partId : ℤ} {d : Demande} {row : Participant}

/-- The columns a proof asks for. -/
theorem ligne_eq_some (h : ligne srv cs partId d = some row) :
    row.partId = partId ∧
      colonne cs (srv.varchar 10) d.numEtudiant.stripslashes = some row.partIdEtudiant ∧
      colonne cs (srv.varchar 70) d.email.stripslashes = some row.partEmail ∧
      colonne cs (srv.varchar 30) d.mdp1.stripslashes = some row.partMotDePasse ∧
      colonneBlob srv (nomImage d.filename d.certificat) = some row.partCertificatMed ∧
      colonneBlob srv (nomImage d.filename d.avatar) = some row.partAvatar := by
  unfold ligne at h
  obtain ⟨_, hid, h⟩ := Option.bind_eq_some_iff.mp h
  obtain ⟨_, hemail, h⟩ := Option.bind_eq_some_iff.mp h
  obtain ⟨_, hmdp, h⟩ := Option.bind_eq_some_iff.mp h
  obtain ⟨_, -, h⟩ := Option.bind_eq_some_iff.mp h
  obtain ⟨_, -, h⟩ := Option.bind_eq_some_iff.mp h
  obtain ⟨_, -, h⟩ := Option.bind_eq_some_iff.mp h
  obtain ⟨_, -, h⟩ := Option.bind_eq_some_iff.mp h
  obtain ⟨_, hcertif, h⟩ := Option.bind_eq_some_iff.mp h
  obtain ⟨_, -, h⟩ := Option.bind_eq_some_iff.mp h
  obtain ⟨_, -, h⟩ := Option.bind_eq_some_iff.mp h
  obtain ⟨_, -, h⟩ := Option.bind_eq_some_iff.mp h
  obtain ⟨_, -, h⟩ := Option.bind_eq_some_iff.mp h
  obtain ⟨_, havatar, h⟩ := Option.bind_eq_some_iff.mp h
  cases h
  exact ⟨rfl, hid, hemail, hmdp, hcertif, havatar⟩

/-- A string in a `varchar` column is read by the character set, and cut. -/
theorem colonne_varchar_eq_some {w : ℕ} {b : Bytes} {t : Option Text}
    (h : colonne cs (srv.varchar w) (some b) = some t) :
    ∃ u, cs.decode b = some u ∧ t = some (u.take w) := by
  obtain ⟨v, hv, rfl⟩ := Option.map_eq_some_iff.mp h
  obtain ⟨u, hu, hw⟩ := Option.bind_eq_some_iff.mp hv
  exact ⟨u, hu, by rw [Serveur.eq_take_of_varchar hw]⟩

end Columns

/-! ## A site to try things on -/

/-- A server that is not strict, on values of the form. -/
def laxiste : Serveur where
  strict := false
  toTinyint _ := some 0
  toDate t := some t

/-- A field of the form. -/
def champ (s : String) : Valeur := .texte (ascii s)

/-- A request of a runner. -/
def demandeDe (numEtudiant email mdp1 prenom : String) (avatar : Option Fichier) : Demande where
  numEtudiant := champ numEtudiant
  email := champ email
  mdp1 := champ mdp1
  nom := champ "Nom"
  prenom := champ prenom
  sexe := some (champ "H")
  birthdate := champ "1994-10-12"
  nationalite := champ "Francaise"
  origine := champ "IUT"
  statut := champ "E"
  type := champ "C"
  avatar := avatar
  certificat := none

/-- The row of such a request. -/
def ligneDe (partId : ℤ) (numEtudiant email mdp1 prenom : String) (avatar : Option String) :
    Participant where
  partId := partId
  partIdEtudiant := some numEtudiant.toList
  partNom := some "Nom".toList
  partPrenom := some prenom.toList
  partSexe := some "H".toList
  partDateNaissance := some "1994-10-12".toList
  partStatut := some 0
  partType := some 0
  partCertificatMed := none
  partEmail := some email.toList
  partNationalite := some "Francaise".toList
  partOrigine := some "IUT".toList
  partMotDePasse := some mdp1.toList
  partAvatar := avatar.map ascii

/-- Everything succeeds, or all but the `INSERT`. -/
def issueDe (partId : ℤ) (execute : Bool) : Issue where
  avatarDeplace := true
  certifDeplace := true
  connecte := true
  execute := execute
  partId := partId
  ordre := RowOrder.table

/-- No participant and no file. -/
def siteVide : Site laxiste Charset.latin1 Bytes := Site.neuf fun _ => none

end Web
end RondeDesFacs
