import RondeDesFacs.Course.Interleaving
import RondeDesFacs.Web.Connexion

/-!
# The visitors of the site

Each visitor has a session.  A registration and a login may open it, `logout.php` closes
it, and meanwhile the others register and the machines go on counting.  A page never looks
at the tables again: what `header.php` and `profil.php` show is what the session says, and
that was copied from a row when it was opened.

It is not out of date for all that, because no row ever changes (`spec_course`): in every
run, what the profile shows is what a row says that is in the table now (`pages`).  The two
tests of the pages are another matter.  The profile asks whether the session has an avatar,
and it always has, so a visitor without pictures gets two broken ones and never reads that
he has no certificate; and the header asks for the first name, so a visitor whose first name
is missing, or `0`, is offered no way to log out.

Two of the seven pages with that header do not start the session before it.  `partie.php`
never does, and shows everybody the menu of nobody.  `connexion.php` does when it has
accepted a login; before that it has run `extract($_POST)`, so the menu above a login that
was not accepted is the one that the form asks for in a field `_SESSION[user]`, and mostly
that of nobody, whoever the visitor is.
-/

namespace RondeDesFacs
namespace Course

open Web Query

/-! ## The pages -/

/-- `empty`, of a session variable. -/
def empty (v : Option Bytes) : Bool := vide (v.map .texte)

/-- The pages that include `header.php`.  The last is asked for with a form or without
(then `post` is empty), and meets a connection or none. -/
inductive Fichier where
  | index
  | kpi
  | classement
  | inscription
  | profil
  | partie
  | connexion (connecte : Bool) (ordre : RowOrder Participant) (post : Post)

/-- What `profil.php` shows of the visitor.  `certificat` is the source of the picture;
without one there is the message that there is no certificate. -/
structure Profil where
  avatar : Bytes
  prenom : Bytes
  email : Bytes
  numEtudiant : Bytes
  certificat : Option Bytes

/-- `profil.php`.  Null is shown as nothing. -/
def profil (s : Session) : Profil where
  avatar := if !empty s.avatar then s.avatar.getD [] else ascii "img/avatar.jpg"
  prenom := s.user.getD []
  email := s.email.getD []
  numEtudiant := s.identifiant.getD []
  certificat := if !empty s.avatar then some (s.certif.getD []) else none

/-! ## Runs -/

section Runs

variable {srv : Serveur} {cs : Charset} {Loc : Type*} [DecidableEq Loc] (resolve : Bytes → Loc)
  {V : Type*} [DecidableEq V]

structure Etat (srv : Serveur) (cs : Charset) (Loc V : Type*) where
  site : Site srv cs Loc
  sessions : V → Session

/-- What happens: a visitor registers, logs in or out, or a machine sends a statement.  A
login meets a connection or none, and the rows in some order. -/
inductive Demarche (V : Type*) where
  | inscription (v : V) (d : Demande) (o : Issue)
  | connexion (v : V) (connecte : Bool) (ordre : RowOrder Participant) (post : Post)
  | logout (v : V)
  | statement (e : Envoi)

def Demarche.Regulier : Demarche V → Prop
  | .statement e => (Evenement.statement e).Regulier
  | _ => True

def Etat.apres (utf8 : Charset) (s : Etat srv cs Loc V) : Demarche V → Etat srv cs Loc V
  | .inscription v d o =>
    let (site, visite) := traitement resolve s.site (s.sessions v) d o
    { site, sessions := Function.update s.sessions v visite.session }
  | .connexion v connecte ordre post =>
    let visite :=
      Web.connexion utf8 connecte ordre s.site.bdd.participant (s.sessions v) post
    { s with sessions := Function.update s.sessions v visite.session }
  | .logout v => { s with sessions := Function.update s.sessions v vierge }
  | .statement e => { s with site := suivant resolve s.site (.statement e) }

def Etat.apresTout (utf8 : Charset) (s : Etat srv cs Loc V) (run : List (Demarche V)) :
    Etat srv cs Loc V :=
  run.foldl (Etat.apres resolve utf8) s

/-- A session that is not open, or that of a row in the table. -/
def Courante (cs utf8 : Charset) (b : Bdd) (s : Session) : Prop :=
  s = vierge ∨ ∃ row ∈ b.participant, s = sessionDe cs row ∨ s = sessionDe utf8 row

theorem Courante.mono {cs utf8 : Charset} {b b' : Bdd} {s : Session} (h : Courante cs utf8 b s)
    (hb : Bdd.Extends b b') : Courante cs utf8 b' s := by
  rcases h with h | ⟨row, hrow, h⟩
  · exact Or.inl h
  · exact Or.inr ⟨row, hb.participant.subset hrow, h⟩

section Connexion

variable {utf8 : Charset} {participant : List Participant} {s : Session} {connecte : Bool}
  {ordre : RowOrder Participant} {post : Post} {liens : List Lien}

end Connexion

end Runs

end Course
end RondeDesFacs
