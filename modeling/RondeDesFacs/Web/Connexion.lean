import RondeDesFacs.Web.Traitement

/-!
# The login `connexion.php`

The page looks for a participant with the e-mail and the password submitted and opens
a session for the first one found, unless one of the two is `empty`.  Three things are
left to others: the comparison to the collation of the table, the choice among
several rows to the server, and the variables to `extract($_POST)`, which runs first
and may replace `$_POST` itself.

The connection is switched to `utf8`; in the registration it is not.  The two
character sets are two parameters.
-/

namespace RondeDesFacs
namespace Web

open Query

/-- `extract($_POST)`, as far as `$_POST['key']` is concerned.  A field named
`_POST` takes the place of the array; a string in its place answers every key with
its first character. -/
def lu (post : Post) (key : Bytes) : Option Valeur :=
  match post.get (ascii "_POST") with
  | none => post.get key
  | some (.tableau entrees) => Post.get entrees key
  | some (.texte b) => some (.texte (b.take 1))

/-- `WHERE PART_EMAIL=:email AND PART_MOTDEPASSE=:password`. -/
def correspond (cs : Charset) (email password : Option Valeur) (p : Participant) : Bool :=
  egal cs p.partEmail (parametre email) && egal cs p.partMotDePasse (parametre password)

/-- The participants a login finds. -/
def trouves (cs : Charset) (participant : List Participant) (email password : Option Valeur) :
    List Participant :=
  participant.filter (correspond cs email password)

/-- `connexion.php`, for a visitor with a session.  Without a connection to the
database the page ends in an uncaught exception. -/
def connexion (utf8 : Charset) (connecte : Bool) (ordre : RowOrder Participant)
    (participant : List Participant) (avant : Session) (post : Post) : Visite :=
  if post.isEmpty then visite utf8 avant none
  else if !connecte then visite utf8 avant none
  else
    let email := lu post (ascii "email")
    let password := lu post (ascii "mdp")
    let lignes := trouves utf8 participant email password
    let result := ordre.fetch lignes
    let valid := if !vide email && !vide password then lignes.length != 0 else false
    if valid then visite utf8 avant result else visite utf8 avant none

section Login

variable {utf8 : Charset} {participant : List Participant} {post : Post}

/-- Whether the page looks at what it has found. -/
def complete (post : Post) : Bool :=
  !vide (lu post (ascii "email")) && !vide (lu post (ascii "mdp"))

/-- A login that is complete opens a session for the first row found, if there is
one. -/
theorem connexion_of_complete (hpost : post ≠ []) (hcomplete : complete post = true)
    (ordre : RowOrder Participant) (avant : Session) :
    connexion utf8 true ordre participant avant post =
      visite utf8 avant (ordre.fetch
        (trouves utf8 participant (lu post (ascii "email")) (lu post (ascii "mdp")))) := by
  have hempty : post.isEmpty = false := by simpa using hpost
  unfold complete at hcomplete
  rcases hl : trouves utf8 participant (lu post (ascii "email")) (lu post (ascii "mdp"))
    with _ | ⟨p, l⟩
  · have hfetch : ordre.fetch ([] : List Participant) = none := by
      rw [RowOrder.fetch, (ordre.perm []).eq_nil]
      rfl
    simp [connexion, hempty, hcomplete, hl, hfetch]
  · simp [connexion, hempty, hcomplete, hl]

/-- Any other login leaves the session alone. -/
theorem connexion_of_not (connecte : Bool) (h : connecte = false ∨ complete post = false)
    (ordre : RowOrder Participant) (avant : Session) :
    connexion utf8 connecte ordre participant avant post = visite utf8 avant none := by
  rcases h with rfl | h
  · simp [connexion]
  · unfold complete at h
    simp [connexion, h]

end Login

end Web
end RondeDesFacs
