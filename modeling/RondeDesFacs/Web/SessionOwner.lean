import RondeDesFacs.Web.Traitement

/-!
# Whose session a registration opens

The page inserts a row and looks it up again by `PART_IDETUDIANT`, a column that may
be null and need not be unique, and compares it with the collation.  The session is
the session of the first row found.

So the visitor gets the session of the row just inserted, whatever the order of the
rows, exactly when every earlier participant with that `PART_IDETUDIANT` would show
the same six values.
-/

namespace RondeDesFacs
namespace Web

open Query

section Owner

variable {srv : Serveur} {cs : Charset} {Loc : Type*} [DecidableEq Loc] (resolve : Bytes → Loc)

/-- The session a registration opens, if any, is that of the row inserted, in
whatever order the server hands out the rows. -/
def OpensOwn (s : Site srv cs Loc) (avant : Session) (d : Demande) (o : Issue)
    (x : Inscription srv cs) : Prop :=
  ∀ ordre : RowOrder Participant,
    (traitement resolve s avant d { o with ordre := ordre }).2.ligne ≠ none →
      (traitement resolve s avant d { o with ordre := ordre }).2.session = sessionDe cs x.row

/-- The rows found are the earlier ones with the `numEtudiant`, and the new one if it
can be found. -/
theorem opensOwn_iff_forall_found {s : Site srv cs Loc} {d : Demande} {o : Issue}
    {x : Inscription srv cs} (hx : insere s d o = some x) (avant : Session) :
    OpensOwn resolve s avant d o x ↔
      ∀ row ∈ (s.bdd.participant ++ [x.row]).filter
          (fun p => egal cs p.partIdEtudiant d.numEtudiant.stripslashes),
        sessionDe cs row = sessionDe cs x.row := by
  refine Iff.trans (forall_congr' fun ordre => ?_)
    (forall_visite_iff cs avant _ fun _ session => session = sessionDe cs x.row)
  have hx' : insere s d { o with ordre := ordre } = some x := hx
  rw [traitement_of_some resolve hx', Option.ne_none_iff_exists', forall_exists_index]
  rfl

/-- **Whose session a registration opens.**  That of the row it has inserted, exactly
when the earlier participants with its `PART_IDETUDIANT` show the same values. -/
theorem session_owner (s : Site srv cs Loc) (avant : Session) (d : Demande) (o : Issue)
    (x : Inscription srv cs) (hx : insere s d o = some x) :
    OpensOwn resolve s avant d o x ↔
      ∀ p ∈ s.bdd.participant, egal cs p.partIdEtudiant d.numEtudiant.stripslashes = true →
        sessionDe cs p = sessionDe cs x.row := by
  rw [opensOwn_iff_forall_found resolve hx]
  constructor
  · intro h p hp hid
    exact h p (List.mem_filter.mpr ⟨List.mem_append_left _ hp, hid⟩)
  · intro h p hp
    obtain ⟨hmem, hid⟩ := List.mem_filter.mp hp
    rcases List.mem_append.mp hmem with hmem | hmem
    · exact h p hmem hid
    · rw [List.mem_singleton.mp hmem]

end Owner

/-- A student has registered. -/
def siteAncien : Site laxiste Charset.latin1 Bytes :=
  { siteVide with
    bdd := { siteVide.bdd with
      participant := [ligneDe 1 "11223344" "ancien@site.fr" "secret1" "Ancien" none] } }

/-- Another registers with the same number. -/
def inscriptionNouvelle : Inscription laxiste Charset.latin1 where
  demande := demandeDe "11223344" "nouveau@site.fr" "secret2" "Nouveau" none
  row := ligneDe 2 "11223344" "nouveau@site.fr" "secret2" "Nouveau" none
  inscrit := ⟨2, by decide⟩

theorem insere_inscriptionNouvelle :
    insere siteAncien inscriptionNouvelle.demande (issueDe 2 true) = some inscriptionNouvelle := rfl

/-- The second student may get the session of the first. -/
theorem not_opensOwn_inscriptionNouvelle :
    insere siteAncien inscriptionNouvelle.demande (issueDe 2 true) = some inscriptionNouvelle ∧
      ¬ OpensOwn id siteAncien vierge inscriptionNouvelle.demande (issueDe 2 true)
        inscriptionNouvelle := by
  refine ⟨insere_inscriptionNouvelle, ?_⟩
  rw [opensOwn_iff_forall_found id insere_inscriptionNouvelle]
  decide

/-- The condition for that registration. -/
theorem session_owner_inscriptionNouvelle :
    OpensOwn id siteAncien vierge inscriptionNouvelle.demande (issueDe 2 true) inscriptionNouvelle ↔
      ∀ p ∈ siteAncien.bdd.participant,
        egal Charset.latin1 p.partIdEtudiant inscriptionNouvelle.demande.numEtudiant.stripslashes =
            true →
          sessionDe Charset.latin1 p = sessionDe Charset.latin1 inscriptionNouvelle.row :=
  session_owner id siteAncien vierge inscriptionNouvelle.demande (issueDe 2 true)
    inscriptionNouvelle rfl

end Web
end RondeDesFacs
