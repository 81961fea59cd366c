import RondeDesFacs.Web.Traitement

/-!
# Whose pictures are stored

A participant's row names his avatar and his certificate, and the files of these
names should be what he uploaded.  Nothing in the page sees to that.  A file is named
by the `numEtudiant` and the extension, which another request may share; it is written
before the `INSERT`, which may fail; and it need not be written at all, since the
result of the move is not looked at.

A request is `Propre` in a state if none of this happens in it.  Then it keeps the
pictures of everyone (`sain_apres`), and so does any sequence of such requests.  The
invariant that carries the induction is `Sain`: beside the pictures it says that every
registration has its row in the table, which is what makes a new row, with a key of its
own, the row of its own request and of no other.
-/

namespace RondeDesFacs
namespace Web

/-- The two pictures of a participant. -/
inductive Image where
  | avatar
  | certif
  deriving DecidableEq

namespace Image

/-- The directory. -/
def dossier : Image → Bytes
  | avatar => dirAvatar
  | certif => dirCertif

/-- The column. -/
def colonne : Image → Participant → Option Bytes
  | avatar => fun p => p.partAvatar
  | certif => fun p => p.partCertificatMed

/-- The file of a request. -/
def fichier : Image → Demande → Option Fichier
  | avatar => fun d => d.avatar
  | certif => fun d => d.certificat

/-- Whether the file is moved. -/
def deplace : Image → Issue → Bool
  | avatar => fun o => o.avatarDeplace
  | certif => fun o => o.certifDeplace

/-- The file of a request that passes the checks. -/
def valide (i : Image) (d : Demande) : Option Fichier := (i.fichier d).filter Fichier.valid

end Image

section Pictures

variable {srv : Serveur} {cs : Charset} {Loc : Type*} (resolve : Bytes → Loc)

/-- Where the picture of a name is. -/
def lieu (i : Image) (nom : Bytes) : Loc := resolve (i.dossier ++ nom)

/-- Where a request puts a file. -/
def cible (i : Image) (d : Demande) (f : Fichier) : Loc := lieu resolve i (f.nomImage d.filename)

/-- **The stored pictures of every participant are his own.**  A row that names a
picture has been registered, and the file of that name is what its registration
uploaded, and has passed the checks. -/
def PicturesOwn (s : Site srv cs Loc) : Prop :=
  ∀ row ∈ s.bdd.participant, ∀ (i : Image) (nom : Bytes), i.colonne row = some nom →
    (∃ x ∈ s.registre, x.row = row) ∧
      ∀ x ∈ s.registre, x.row = row →
        ∃ f, i.fichier x.demande = some f ∧ f.valid = true ∧
          s.fichiers (lieu resolve i nom) = some f.content

/-- A request that touches nobody's pictures and stores its own. -/
structure Propre (s : Site srv cs Loc) (d : Demande) (o : Issue) : Prop where
  /-- What is moved does not take the place of a picture that a row names. -/
  libre : ∀ i : Image, ∀ f ∈ i.valide d, i.deplace o = true → ∀ row ∈ s.bdd.participant,
    ∀ (j : Image) (nom : Bytes), j.colonne row = some nom →
      cible resolve i d f ≠ lieu resolve j nom
  /-- With a row, every valid file is moved. -/
  deplace : insere s d o ≠ none → ∀ i : Image, ∀ f ∈ i.valide d, i.deplace o = true
  /-- With a row, the two pictures do not share a place. -/
  distinct : insere s d o ≠ none → ∀ f ∈ Image.valide .avatar d, ∀ g ∈ Image.valide .certif d,
    cible resolve .avatar d f ≠ cible resolve .certif d g
  /-- With a row, the names fit their columns. -/
  court : insere s d o ≠ none → ∀ i : Image, ∀ f ∈ i.valide d,
    (f.nomImage d.filename).length ≤ blobMax

variable [DecidableEq Loc]

/-! ## The files -/

theorem deposer_of_ne {dossier filename : Bytes} {f : Option Fichier} {deplace : Bool}
    {fichiers : Loc → Option Bytes} {l : Loc}
    (h : ∀ g ∈ f.filter Fichier.valid, deplace = true →
      resolve (dossier ++ g.nomImage filename) ≠ l) :
    deposer resolve dossier filename f deplace fichiers l = fichiers l := by
  rcases hf : f.filter Fichier.valid with _ | g
  · simp only [deposer, hf]
  · by_cases hdeplace : deplace = true
    · simp only [deposer, hf, hdeplace, if_true]
      exact Function.update_of_ne (Ne.symm (h g hf hdeplace)) _ _
    · simp [deposer, hf, hdeplace]

theorem deposer_self {dossier filename : Bytes} {f : Option Fichier} {g : Fichier}
    (hg : g ∈ f.filter Fichier.valid) (fichiers : Loc → Option Bytes) :
    deposer resolve dossier filename f true fichiers (resolve (dossier ++ g.nomImage filename)) =
      some g.content := by
  have hfilter : f.filter Fichier.valid = some g := hg
  simp only [deposer, hfilter, if_true, Function.update_self]

/-- **Where nothing is moved to, nothing changes.** -/
theorem deposes_of_ne {s : Site srv cs Loc} {d : Demande} {o : Issue} {l : Loc}
    (h : ∀ i : Image, ∀ f ∈ i.valide d, i.deplace o = true → cible resolve i d f ≠ l) :
    deposes resolve s d o l = s.fichiers l := by
  have hcertif := h .certif
  have havatar := h .avatar
  rw [deposes]
  exact (deposer_of_ne resolve hcertif).trans (deposer_of_ne resolve havatar)

/-- **What is moved is there.**  Unless the certificate takes the place of the
avatar. -/
theorem deposes_cible {s : Site srv cs Loc} {d : Demande} {o : Issue} {i : Image} {f : Fichier}
    (hf : f ∈ i.valide d) (hdeplace : i.deplace o = true)
    (hdistinct : ∀ f ∈ Image.valide .avatar d, ∀ g ∈ Image.valide .certif d,
      cible resolve .avatar d f ≠ cible resolve .certif d g) :
    deposes resolve s d o (cible resolve i d f) = some f.content := by
  cases i with
  | avatar =>
    have hother : deposes resolve s d o (cible resolve .avatar d f) =
        deposer resolve dirAvatar d.filename d.avatar o.avatarDeplace s.fichiers
          (cible resolve .avatar d f) :=
      deposer_of_ne resolve fun g hg _ => (hdistinct f hf g hg).symm
    rw [hother, show o.avatarDeplace = true from hdeplace]
    exact deposer_self resolve hf _
  | certif =>
    rw [deposes, show o.certifDeplace = true from hdeplace]
    exact deposer_self resolve hf _

/-! ## The invariant -/

/-- The pictures are everyone's own, and every registration has its row. -/
structure Sain (s : Site srv cs Loc) : Prop where
  lignes : ∀ x ∈ s.registre, x.row ∈ s.bdd.participant
  images : PicturesOwn resolve s

omit [DecidableEq Loc] in
/-- The picture a row names comes from a valid file of its request. -/
theorem exists_valide_of_ligne {partId : ℤ} {d : Demande} {row : Participant}
    (h : ligne srv cs partId d = some row) {i : Image} {nom : Bytes}
    (hnom : i.colonne row = some nom)
    (hcourt : ∀ f ∈ i.valide d, (f.nomImage d.filename).length ≤ blobMax) :
    ∃ f ∈ i.valide d, nom = f.nomImage d.filename := by
  obtain ⟨-, -, -, -, hcertif, havatar⟩ := ligne_eq_some h
  have hblob : colonneBlob srv ((i.valide d).map (Fichier.nomImage d.filename)) =
      some (some nom) := by
    rw [← hnom]
    cases i with
    | avatar => exact havatar
    | certif => exact hcertif
  rcases hf : i.valide d with _ | f
  · rw [hf] at hblob
    cases hblob
  · rw [hf] at hblob
    obtain ⟨b, hb, hbnom⟩ := Option.map_eq_some_iff.mp hblob
    refine ⟨f, rfl, ?_⟩
    rw [← Option.some_inj.mp hbnom]
    exact Serveur.eq_of_blob (hcourt f hf) hb

/-- A proper request does not touch the pictures of the earlier rows. -/
theorem Propre.deposes_eq {s : Site srv cs Loc} {d : Demande} {o : Issue} (h : Propre resolve s d o)
    {row : Participant} (hrow : row ∈ s.bdd.participant) {i : Image} {nom : Bytes}
    (hnom : i.colonne row = some nom) :
    deposes resolve s d o (lieu resolve i nom) = s.fichiers (lieu resolve i nom) :=
  deposes_of_ne resolve fun j f hf hdeplace => h.libre j f hf hdeplace row hrow i nom hnom

/-- A proper request that leaves a row stores the pictures the row names. -/
theorem Propre.exists_deposes_eq {s : Site srv cs Loc} {d : Demande} {o : Issue}
    (h : Propre resolve s d o) {x : Inscription srv cs} (hx : insere s d o = some x)
    {i : Image} {nom : Bytes} (hnom : i.colonne x.row = some nom) :
    ∃ f, i.fichier x.demande = some f ∧ f.valid = true ∧
      deposes resolve s d o (lieu resolve i nom) = some f.content := by
  obtain ⟨hdemande, hligne, -⟩ := insere_eq_some hx
  have hinsere : insere s d o ≠ none := by
    rw [hx]
    exact Option.some_ne_none x
  obtain ⟨f, hf, rfl⟩ := exists_valide_of_ligne hligne hnom (h.court hinsere i)
  obtain ⟨hfichier, hvalid⟩ := Option.filter_eq_some_iff.mp hf
  refine ⟨f, ?_, hvalid, ?_⟩
  · rw [hdemande]
    exact hfichier
  · exact deposes_cible resolve hf (h.deplace hinsere i f hf) (h.distinct hinsere)

/-- **A proper request keeps everyone's pictures.** -/
theorem sain_apres {s : Site srv cs Loc} (hs : Sain resolve s) {e : Etape}
    (he : Propre resolve s e.demande e.issue) : Sain resolve (apres resolve s e) := by
  rcases apres_cases resolve s e with ⟨-, h⟩ | ⟨x, hx, h⟩
  · rw [h]
    refine ⟨hs.lignes, fun row hrow i nom hnom => ?_⟩
    obtain ⟨hex, hall⟩ := hs.images row hrow i nom hnom
    refine ⟨hex, fun y hy hyrow => ?_⟩
    obtain ⟨f, hf, hvalid, hcontent⟩ := hall y hy hyrow
    exact ⟨f, hf, hvalid, (he.deposes_eq resolve hrow hnom).trans hcontent⟩
  · obtain ⟨-, hligne, hfresh⟩ := insere_eq_some hx
    -- the new row is no earlier row: its key is new
    have hnew : ∀ row ∈ s.bdd.participant, row ≠ x.row := by
      rintro row hrow rfl
      exact hfresh x.row hrow (ligne_eq_some hligne).1
    rw [h]
    constructor
    · intro y hy
      rcases List.mem_append.mp hy with hy | hy
      · exact List.mem_append_left _ (hs.lignes y hy)
      · rw [List.mem_singleton.mp hy]
        exact List.mem_append_right _ (List.mem_singleton_self _)
    · intro row hrow i nom hnom
      rcases List.mem_append.mp hrow with hrow | hrow
      · -- an earlier row
        obtain ⟨⟨y, hy, hyrow⟩, hall⟩ := hs.images row hrow i nom hnom
        refine ⟨⟨y, List.mem_append_left _ hy, hyrow⟩, fun z hz hzrow => ?_⟩
        rcases List.mem_append.mp hz with hz | hz
        · obtain ⟨f, hf, hvalid, hcontent⟩ := hall z hz hzrow
          exact ⟨f, hf, hvalid, (he.deposes_eq resolve hrow hnom).trans hcontent⟩
        · rw [List.mem_singleton.mp hz] at hzrow
          exact absurd hzrow.symm (hnew row hrow)
      · -- the new row
        rw [List.mem_singleton.mp hrow] at hnom ⊢
        refine ⟨⟨x, List.mem_append_right _ (List.mem_singleton_self _), rfl⟩, fun z hz hzrow => ?_⟩
        rcases List.mem_append.mp hz with hz | hz
        · exact absurd hzrow (hnew z.row (hs.lignes z hz))
        · rw [List.mem_singleton.mp hz]
          exact he.exists_deposes_eq resolve hx hnom

/-- Every request of a run is proper in the state it comes to. -/
def TousPropres : Site srv cs Loc → List Etape → Prop
  | _, [] => True
  | s, e :: etapes => Propre resolve s e.demande e.issue ∧ TousPropres (apres resolve s e) etapes

theorem sain_apresTous {s : Site srv cs Loc} (hs : Sain resolve s) {etapes : List Etape}
    (he : TousPropres resolve s etapes) : Sain resolve (apresTous resolve s etapes) := by
  induction etapes generalizing s with
  | nil => exact hs
  | cons e etapes ih => exact ih (sain_apres resolve hs he.1) he.2

theorem tousPropres_take {s : Site srv cs Loc} {etapes : List Etape}
    (h : TousPropres resolve s etapes) (k : ℕ) : TousPropres resolve s (etapes.take k) := by
  induction etapes generalizing s k with
  | nil => rw [List.take_nil]; exact h
  | cons e etapes ih =>
    cases k with
    | zero => trivial
    | succ k => exact ⟨h.1, ih h.2 k⟩

/-- A site before the first registration: no row names a picture. -/
structure SansImages (s : Site srv cs Loc) : Prop where
  registre : s.registre = []
  lignes : ∀ row ∈ s.bdd.participant, ∀ i : Image, i.colonne row = none

omit [DecidableEq Loc] in
theorem SansImages.sain {s : Site srv cs Loc} (h : SansImages s) : Sain resolve s where
  lignes x hx := by
    rw [h.registre] at hx
    exact absurd hx List.not_mem_nil
  images row hrow i nom hnom := by
    rw [h.lignes row hrow i] at hnom
    cases hnom

/-- **A participant's stored pictures stay his own**, in every state a run of proper
requests reaches. -/
theorem pictures_own (s : Site srv cs Loc) (hs : SansImages s) (etapes : List Etape)
    (h : TousPropres resolve s etapes) (k : ℕ) :
    PicturesOwn resolve (apresTous resolve s (etapes.take k)) :=
  (sain_apresTous resolve (hs.sain resolve) (tousPropres_take resolve h k)).images

end Pictures

/-! ## A picture replaced -/

/-- A photograph. -/
def photo (content : Bytes) : Fichier where
  name := ascii "photo.JPG"
  size := 1000
  error := 0
  content := content

/-- A registration with a photograph. -/
def etapePhoto : Etape where
  avant := vierge
  demande := demandeDe "11223344" "nom@site.fr" "secret1" "Prenom" (some (photo [1]))
  issue := issueDe 1 true

/-- Another with the same number and another photograph, which the database
refuses. -/
def etapeRefusee : Etape where
  avant := vierge
  demande := demandeDe "11223344" "autre@site.fr" "secret2" "Autre" (some (photo [2]))
  issue := issueDe 2 false

/-- The first registration. -/
def inscriptionPhoto : Inscription laxiste Charset.latin1 where
  demande := etapePhoto.demande
  row := ligneDe 1 "11223344" "nom@site.fr" "secret1" "Prenom" (some "11223344.jpg")
  inscrit := ⟨1, by decide⟩

theorem sansImages_siteVide : SansImages siteVide where
  registre := rfl
  lignes _ hrow := absurd hrow List.not_mem_nil

theorem propre_etapePhoto : Propre id siteVide etapePhoto.demande etapePhoto.issue where
  libre _ _ _ _ _ hrow := absurd hrow List.not_mem_nil
  deplace _ i _ _ := by cases i <;> rfl
  distinct _ _ _ g hg := by cases hg
  court _ i f hf := by
    cases i with
    | avatar =>
      cases hf
      decide
    | certif => cases hf

/-- The second request, though refused, has replaced the first student's picture. -/
theorem not_picturesOwn_etapeRefusee :
    ¬ PicturesOwn id (apresTous id siteVide [etapePhoto, etapeRefusee]) := by
  intro h
  have hregistre : (apresTous id siteVide [etapePhoto, etapeRefusee]).registre =
      [inscriptionPhoto] := rfl
  obtain ⟨-, hall⟩ := h inscriptionPhoto.row (by decide) .avatar (ascii "11223344.jpg") rfl
  obtain ⟨f, hf, -, hcontent⟩ := hall inscriptionPhoto (by rw [hregistre]; simp) rfl
  have hphoto : f = photo [1] := (Option.some_inj.mp hf).symm
  rw [hphoto] at hcontent
  revert hcontent
  decide

/-- A registration with a number and a photograph of its own. -/
def etapeAutre : Etape where
  avant := vierge
  demande := demandeDe "55667788" "autre@site.fr" "secret2" "Autre" (some (photo [2]))
  issue := issueDe 2 true

theorem participant_etapePhoto :
    (apres id siteVide etapePhoto).bdd.participant = [inscriptionPhoto.row] := rfl

theorem propre_etapeAutre :
    Propre id (apres id siteVide etapePhoto) etapeAutre.demande etapeAutre.issue where
  libre i f hf _ row hrow j nom hnom := by
    rw [participant_etapePhoto, List.mem_singleton] at hrow
    subst hrow
    cases i with
    | certif => cases hf
    | avatar =>
      cases hf
      cases j with
      | certif => cases hnom
      | avatar =>
        cases hnom
        decide
  deplace _ i _ _ := by cases i <;> rfl
  distinct _ _ _ g hg := by cases hg
  court _ i f hf := by
    cases i with
    | avatar =>
      cases hf
      decide
    | certif => cases hf

/-- The run of the two registrations. -/
theorem pictures_own_etapePhoto :
    PicturesOwn id (apresTous id siteVide ([etapePhoto, etapeAutre].take 2)) :=
  pictures_own id siteVide sansImages_siteVide [etapePhoto, etapeAutre]
    ⟨propre_etapePhoto, propre_etapeAutre, trivial⟩ 2

end Web
end RondeDesFacs
