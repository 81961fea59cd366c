import RondeDesFacs.Web.Pictures

/-!
# What a refused registration leaves

The row and the session depend on the `INSERT`: both are touched in the branch of
its success only.  The two files do not.  They are moved before the database is
connected to, and nothing takes them away again when it refuses.

So a refused registration leaves nothing behind exactly if what it moved was there
already, under the same name and with the same content (`failed_registration`).  Of
an avatar whose place the certificate takes nothing is asked.
-/

namespace RondeDesFacs
namespace Web

section Failure

variable {srv : Serveur} {cs : Charset} {Loc : Type*} [DecidableEq Loc] (resolve : Bytes → Loc)

/-- The files, the participants and the session are as before. -/
structure RienLaisse (s : Site srv cs Loc) (avant : Session) (d : Demande) (o : Issue) : Prop where
  fichiers : (traitement resolve s avant d o).1.fichiers = s.fichiers
  participant : (traitement resolve s avant d o).1.bdd.participant = s.bdd.participant
  session : (traitement resolve s avant d o).2.session = avant

/-- Every file that is moved, and stays, was there already. -/
structure DejaLa (s : Site srv cs Loc) (d : Demande) (o : Issue) : Prop where
  certif : ∀ g ∈ Image.valide .certif d, o.certifDeplace = true →
    s.fichiers (cible resolve .certif d g) = some g.content
  avatar : ∀ f ∈ Image.valide .avatar d, o.avatarDeplace = true →
    (∀ g ∈ Image.valide .certif d, o.certifDeplace = true →
      cible resolve .certif d g ≠ cible resolve .avatar d f) →
    s.fichiers (cible resolve .avatar d f) = some f.content

/-- **When the uploads leave the files as they are.** -/
theorem deposes_eq_iff (s : Site srv cs Loc) (d : Demande) (o : Issue) :
    deposes resolve s d o = s.fichiers ↔ DejaLa resolve s d o := by
  constructor
  · intro h
    refine ⟨fun g hg hdeplace => ?_, fun f hf hdeplace hdistinct => ?_⟩
    · rw [← h, deposes, hdeplace]
      exact deposer_self resolve hg _
    · -- the certificate goes elsewhere, so the avatar is what the first move has left
      have hother : deposes resolve s d o (cible resolve .avatar d f) =
          deposer resolve dirAvatar d.filename d.avatar o.avatarDeplace s.fichiers
            (cible resolve .avatar d f) := deposer_of_ne resolve hdistinct
      rw [← h, hother, hdeplace]
      exact deposer_self resolve hf _
  · intro h
    funext l
    by_cases hcertif : ∀ g ∈ Image.valide .certif d, o.certifDeplace = true →
        cible resolve .certif d g ≠ l
    · have hother : deposes resolve s d o l =
          deposer resolve dirAvatar d.filename d.avatar o.avatarDeplace s.fichiers l :=
        deposer_of_ne resolve hcertif
      rw [hother]
      by_cases havatar : ∀ f ∈ Image.valide .avatar d, o.avatarDeplace = true →
          cible resolve .avatar d f ≠ l
      · exact deposer_of_ne resolve havatar
      · push Not at havatar
        obtain ⟨f, hf, hdeplace, rfl⟩ := havatar
        rw [hdeplace, h.avatar f hf hdeplace hcertif]
        exact deposer_self resolve hf _
    · push Not at hcertif
      obtain ⟨g, hg, hdeplace, rfl⟩ := hcertif
      rw [deposes, hdeplace, h.certif g hg hdeplace]
      exact deposer_self resolve hg _

/-- **When a failed registration leaves nothing behind.** -/
theorem failed_registration (s : Site srv cs Loc) (avant : Session) (d : Demande) (o : Issue)
    (h : insere s d o = none) : RienLaisse resolve s avant d o ↔ DejaLa resolve s d o := by
  rw [← deposes_eq_iff]
  constructor
  · intro hrien
    have hfichiers := hrien.fichiers
    rwa [traitement_of_none resolve h] at hfichiers
  · intro hfichiers
    constructor
    · rwa [traitement_of_none resolve h]
    · rw [traitement_of_none resolve h]
    · rw [traitement_of_none resolve h]
      rfl

end Failure

/-- A refused registration leaves its photograph. -/
theorem not_rienLaisse_etapeRefusee :
    insere siteVide etapeRefusee.demande etapeRefusee.issue = none ∧
      ¬ RienLaisse id siteVide vierge etapeRefusee.demande etapeRefusee.issue := by
  refine ⟨rfl, fun h => ?_⟩
  have hfichier := congrFun h.fichiers (ascii "img/avatar/11223344.jpg")
  revert hfichier
  decide

/-- The condition for it. -/
theorem failed_registration_at_etapeRefusee :
    RienLaisse id siteVide vierge etapeRefusee.demande etapeRefusee.issue ↔
      DejaLa id siteVide etapeRefusee.demande etapeRefusee.issue :=
  failed_registration id siteVide vierge etapeRefusee.demande etapeRefusee.issue rfl

end Web
end RondeDesFacs
