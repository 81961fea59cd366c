import RondeDesFacs.Card.Main
import Mathlib.Logic.Function.Basic

/-!
# The statements of the database client

`clientWebS.cpp` writes its statements with `strcat`, which appends to its first
argument and returns it.  The first argument of the innermost call is a string
literal of the source, so what a statement is built *in* is the storage of that
literal, which there is once: `Litteral` names the three of them, and the state is
what each holds.

A statement is described by what it is built from (`Requete`).  What is sent for it
depends on what the storage of its literal holds (`Requete.construit`); what the
source shows is the text built from the literal as it is written (`Requete.texte`).
-/

namespace RondeDesFacs
namespace Card

/-- The literals that statements start with. -/
inductive Litteral where
  | select
  | insertCarte
  | insertPassage
  deriving DecidableEq

/-- A literal as the source has it. -/
def Litteral.texte : Litteral → Bytes
  | .select => ascii "SELECT part_id FROM participant where part_idetudiant = '"
  | .insertCarte => ascii "INSERT INTO carte VALUES('"
  | .insertPassage => ascii "INSERT INTO passage VALUES(DEFAULT, '"

/-- `strcat`: what the destination holds afterwards. -/
def strcat (dest src : Bytes) : Bytes := dest ++ src

/-- A statement, by what it is built from.  `id` is the text of the column. -/
inductive Requete where
  | select (etuId : Bytes)
  | insertCarte (cardId id : Bytes)
  | insertPassage (carteId machineName : Bytes)
  deriving DecidableEq

/-- The literal a statement is built in. -/
def Requete.litteral : Requete → Litteral
  | .select _ => .select
  | .insertCarte _ _ => .insertCarte
  | .insertPassage _ _ => .insertPassage

/-- What is sent, from what the storage of the literal holds. -/
def Requete.construit (dest : Bytes) : Requete → Bytes
  | .select etuId => strcat (strcat dest etuId) (ascii "'")
  | .insertCarte cardId id =>
    strcat (strcat (strcat (strcat dest cardId) (ascii "', ")) id) (ascii ")")
  | .insertPassage carteId machineName =>
    strcat (strcat (strcat (strcat (strcat (strcat dest carteId) (ascii "', '")) machineName)
      (ascii "', ")) (ascii "CURRENT_TIMESTAMP")) (ascii ")")

/-- The text the source shows: the fixed start, the arguments, the fixed end. -/
def Requete.texte (r : Requete) : Bytes := r.construit r.litteral.texte

/-! ## What is sent -/

/-- What a call meets: whether there is a connection, whether the address that it is
given for the student number can be read, and what `id` points to when the second
statement of `saveCardID` is built.  There is none if the program ends before, in
`mysql_fetch_row` without a result. -/
structure Liaison where
  connecte : Bool
  lisible : Bool
  id : Option Bytes

/-- `saveCardID`: the statements, and whether it returns.  `main` hands over an address
that was typed (`Passe.etuId`); one that cannot be read ends the program in the first
`strcat`. -/
def saveCardID (cardId etuId : Bytes) (l : Liaison) : List Requete × Bool :=
  if l.connecte then
    if l.lisible then
      match l.id with
      | some id => ([.select etuId, .insertCarte cardId id], true)
      | none => ([.select etuId], false)
    else ([], false)
  else ([], true)

/-- `saveLapDateTime`: the statements, and whether it returns. -/
def saveLapDateTime (carteId machineName : Bytes) (l : Liaison) : List Requete × Bool :=
  if l.connecte then ([.insertPassage carteId machineName], true) else ([], true)

/-- The statements of an action, and whether the program goes on. -/
def Action.requetes (l : Liaison) : Action → List Requete × Bool
  | .saveCardID cardId etuId => Card.saveCardID cardId etuId l
  | .saveLapDateTime carteId machineName => Card.saveLapDateTime carteId machineName l
  | _ => ([], true)

/-- The statements of a run.  The `n`-th action meets `liaison n`. -/
def requetes (liaison : ℕ → Liaison) : List Action → List Requete
  | [] => []
  | a :: log =>
    let (rs, vivant) := a.requetes (liaison 0)
    rs ++ if vivant then requetes (fun n => liaison (n + 1)) log else []

/-- What is sent for a list of statements, by what the literals hold. -/
def envois (memoire : Litteral → Bytes) : List Requete → List (Requete × Bytes)
  | [] => []
  | r :: rs =>
    let texte := r.construit (memoire r.litteral)
    (r, texte) :: envois (Function.update memoire r.litteral texte) rs

/-! ## The texts -/

/-- What a statement appends to its literal. -/
def Requete.suite (r : Requete) : Bytes := r.construit []

theorem Requete.construit_eq (dest : Bytes) (r : Requete) :
    r.construit dest = dest ++ r.suite := by
  cases r <;> simp [Requete.suite, Requete.construit, strcat]

/-- Something is always appended: the closing quote or bracket. -/
theorem Requete.suite_ne_nil (r : Requete) : r.suite ≠ [] := by
  cases r <;> simp [Requete.suite, Requete.construit, strcat, ascii]

/-- The text sent is the one of the source exactly if the literal is as written. -/
theorem Requete.construit_eq_texte_iff {dest : Bytes} {r : Requete} :
    r.construit dest = r.texte ↔ dest = r.litteral.texte := by
  rw [Requete.texte, construit_eq, construit_eq, List.append_left_inj]

theorem Requete.texte_ne (r : Requete) : r.texte ≠ r.litteral.texte := fun h => by
  rw [Requete.texte, construit_eq] at h
  exact r.suite_ne_nil (by simpa using h)

end Card
end RondeDesFacs
