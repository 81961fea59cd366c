import RondeDesFacs.Card.ClientWebS
import RondeDesFacs.Bdd.Tables

/-!
# What becomes of a call

`saveCardID` and `saveLapDateTime` ask the server for up to three things: a
connection, an answer to a query, and an insertion.  Each can fail.  The connection
is asked about, and its failure is printed; the results of `mysql_query` are
dropped, and so is the null pointer that stands for a missing result set.  The value
returned is `0` whatever happened.

So the only loss that is reported is the one of the connection, and a call with a
connection is safe only if everything goes well (`nothing_lost`).

Two details of the source are kept.  `id` is not initialised, and when there is a
row it points into memory that the library gives up at the next fetch, before `id` is
read, so what is read there is up to the surroundings (`Appel.lecture`).  And `mysql_fetch_row` of
a null pointer ends the program with some versions of the library, and answers null
with others.
-/

namespace RondeDesFacs
namespace Card

/-! ## The server -/

/-- What the server answers to a statement. -/
inductive Resultat where
  | erreur
  /-- A result set, by the first column of the rows that are fetched. -/
  | lignes (rows : List (Option Bytes))
  /-- What the tables are after a statement without a result set. -/
  | fait (b : Bdd)

/-- The tables after an answer. -/
def Resultat.apres (b : Bdd) : Resultat → Bdd
  | .fait b' => b'
  | _ => b

/-- `mysql_use_result`: a null pointer unless there is a result set. -/
def Resultat.useResult : Resultat → Option (List (Option Bytes))
  | .lignes rows => some rows
  | _ => none

/-- A server, by what it answers to the `n`-th statement of a call. -/
abbrev Execution := ℕ → Bdd → Bytes → Resultat

/-- What a call meets besides the server. -/
structure Appel where
  /-- Whether `mysql_real_connect` succeeds. -/
  connecte : Bool
  /-- Whether `mysql_fetch_row` answers null for a null pointer. -/
  nulTolere : Bool
  /-- What is read through `id`, by the column it was set to, if it was set.  None
  if the address is invalid. -/
  lecture : Option (Option Bytes) → Option Bytes

/-! ## The calls -/

/-- What has happened when a call is over. -/
structure Fin where
  bdd : Bdd
  /-- What was printed. -/
  affiche : Bytes
  /-- Whether the call returned, and not the program ended. -/
  rendu : Bool
  /-- The value returned; none for a function without. -/
  valeur : Option ℤ
  /-- Whether a function was applied to a null result. -/
  nul : Bool
  /-- The statements sent. -/
  requetes : List Requete

/-- The message of both functions. -/
def erreurConnexion : Bytes := ascii "Une erreur s'est produite lors de la connexion à la BDD!"

/-- `while ((row = mysql_fetch_row(result))) { id = row[0]; }` -/
def dernierId (rows : List (Option Bytes)) : Option (Option Bytes) :=
  rows.foldl (fun _ row => some row) none

/-- `saveCardID`. -/
def appelSaveCardID (execute : Execution) (a : Appel) (memoire : Litteral → Bytes) (b : Bdd)
    (cardId etuId : Bytes) : Fin :=
  if a.connecte then
    let select := execute 0 b ((Requete.select etuId).construit (memoire .select))
    let b₁ := select.apres b
    let result := select.useResult
    if result.isNone ∧ a.nulTolere = false then
      { bdd := b₁, affiche := [], rendu := false, valeur := none, nul := true,
        requetes := [.select etuId] }
    else
      match a.lecture (dernierId (result.getD [])) with
      | none =>
        { bdd := b₁, affiche := [], rendu := false, valeur := none, nul := result.isNone,
          requetes := [.select etuId] }
      | some id =>
        let insert :=
          execute 1 b₁ ((Requete.insertCarte cardId id).construit (memoire .insertCarte))
        { bdd := insert.apres b₁, affiche := [], rendu := true, valeur := some 0,
          nul := result.isNone, requetes := [.select etuId, .insertCarte cardId id] }
  else
    { bdd := b, affiche := erreurConnexion, rendu := true, valeur := some 0, nul := false,
      requetes := [] }

/-- `saveLapDateTime`. -/
def appelSaveLapDateTime (execute : Execution) (a : Appel) (memoire : Litteral → Bytes) (b : Bdd)
    (carteId machineName : Bytes) : Fin :=
  if a.connecte then
    let insert :=
      execute 0 b ((Requete.insertPassage carteId machineName).construit (memoire .insertPassage))
    { bdd := insert.apres b, affiche := [], rendu := true, valeur := none, nul := false,
      requetes := [.insertPassage carteId machineName] }
  else
    { bdd := b, affiche := erreurConnexion, rendu := true, valeur := none, nul := false,
      requetes := [] }

/-- An error was reported, to the operator by a message or to the caller by a
value. -/
def Fin.Signale (fin : Fin) : Prop :=
  fin.affiche ≠ [] ∨ ∃ v, fin.valeur = some v ∧ v ≠ 0

/-- Nothing is lost in silence: a call that returns without a new row has reported an
error, and no null result was used.  `lignes` counts the rows of the table. -/
structure SansPerte (lignes : Bdd → ℕ) (b : Bdd) (fin : Fin) : Prop where
  signale : fin.rendu = true → lignes fin.bdd ≤ lignes b → fin.Signale
  nul : fin.nul = false

/-! ## What is sent -/

/-- What a call with a student number in a string of its own meets: what `id` points to
when the second statement is built, if it comes to that. -/
def liaisonDe (execute : Execution) (a : Appel) (memoire : Litteral → Bytes) (b : Bdd)
    (etuId : Bytes) : Liaison where
  connecte := a.connecte
  lisible := true
  id :=
    let result := (execute 0 b ((Requete.select etuId).construit (memoire .select))).useResult
    if result.isNone ∧ a.nulTolere = false then none else a.lecture (dernierId (result.getD []))

/-- A call sends the statements of `saveCardID`, and returns when that says so. -/
theorem requetes_appelSaveCardID (execute : Execution) (a : Appel) (memoire : Litteral → Bytes)
    (b : Bdd) (cardId etuId : Bytes) :
    let fin := appelSaveCardID execute a memoire b cardId etuId
    (fin.requetes, fin.rendu) = saveCardID cardId etuId (liaisonDe execute a memoire b etuId) := by
  rcases hconnecte : a.connecte with _ | _
  · simp [appelSaveCardID, saveCardID, liaisonDe, hconnecte]
  · simp only [appelSaveCardID, saveCardID, liaisonDe, hconnecte, if_true]
    split_ifs
    · rfl
    · split <;> rename_i hlecture <;> rw [hlecture]

theorem requetes_appelSaveLapDateTime (execute : Execution) (a : Appel)
    (memoire : Litteral → Bytes) (b : Bdd) (carteId machineName : Bytes) (lisible : Bool)
    (id : Option Bytes) :
    let fin := appelSaveLapDateTime execute a memoire b carteId machineName
    (fin.requetes, fin.rendu) = saveLapDateTime carteId machineName ⟨a.connecte, lisible, id⟩ := by
  rcases hconnecte : a.connecte with _ | _ <;>
    simp [appelSaveLapDateTime, saveLapDateTime, hconnecte]

/-! ## What is lost -/

theorem dernierId_eq (rows : List (Option Bytes)) : dernierId rows = rows.getLast? := by
  rcases List.eq_nil_or_concat rows with rfl | ⟨rows, row, rfl⟩
  · rfl
  · rw [List.concat_eq_append, dernierId, List.foldl_append, List.getLast?_concat]
    rfl

section Card

variable {execute : Execution} {a : Appel} {memoire : Litteral → Bytes} {b : Bdd}
  {cardId etuId : Bytes} {select : Resultat}

/-- Without a result set, a null pointer is used. -/
theorem nul_appelSaveCardID (hconnecte : a.connecte = true)
    (hselect : execute 0 b ((Requete.select etuId).construit (memoire .select)) = select) :
    (appelSaveCardID execute a memoire b cardId etuId).nul = select.useResult.isNone := by
  rw [appelSaveCardID, if_pos hconnecte, hselect]
  dsimp only
  split_ifs with hnul
  · exact hnul.1.symm
  · split <;> rfl

/-- A call that does not get past the null pointer, or past `id`, ends the program and
leaves the tables as the query left them. -/
theorem appelSaveCardID_of_ends (hconnecte : a.connecte = true)
    (hselect : execute 0 b ((Requete.select etuId).construit (memoire .select)) = select)
    (hends : select.useResult.isNone ∧ a.nulTolere = false ∨
      a.lecture (select.useResult.getD []).getLast? = none) :
    (appelSaveCardID execute a memoire b cardId etuId).bdd = select.apres b ∧
      (appelSaveCardID execute a memoire b cardId etuId).rendu = false := by
  rw [appelSaveCardID, if_pos hconnecte, hselect]
  simp only [dernierId_eq]
  split_ifs with hnul
  · exact ⟨rfl, rfl⟩
  · rw [hends.resolve_left hnul]
    exact ⟨rfl, rfl⟩

/-- A call that gets past `id` returns, and sends the insertion. -/
theorem appelSaveCardID_of_lecture (hconnecte : a.connecte = true)
    (hselect : execute 0 b ((Requete.select etuId).construit (memoire .select)) = select)
    (hnul : ¬ (select.useResult.isNone ∧ a.nulTolere = false)) {id : Bytes}
    (hlecture : a.lecture (select.useResult.getD []).getLast? = some id) :
    appelSaveCardID execute a memoire b cardId etuId =
      { bdd := (execute 1 (select.apres b) ((Requete.insertCarte cardId id).construit
          (memoire .insertCarte))).apres (select.apres b),
        affiche := [], rendu := true, valeur := some 0, nul := select.useResult.isNone,
        requetes := [.select etuId, .insertCarte cardId id] } := by
  rw [appelSaveCardID, if_pos hconnecte, hselect]
  simp only [dernierId_eq]
  rw [if_neg hnul, hlecture]

end Card

/-- The value and the prints of a call with a connection say nothing. -/
theorem not_signale {fin : Fin} (haffiche : fin.affiche = [])
    (hvaleur : ∀ v ∈ fin.valeur, v = 0) : ¬ fin.Signale := by
  rintro (hne | ⟨v, hv, hne⟩)
  · exact hne haffiche
  · exact hne (hvaleur v hv)

/-- A silent call that returns is safe exactly if it added a row. -/
theorem sansPerte_iff_of_silent {lignes : Bdd → ℕ} {b : Bdd} {fin : Fin}
    (haffiche : fin.affiche = []) (hvaleur : ∀ v ∈ fin.valeur, v = 0) (hrendu : fin.rendu = true)
    (hnul : fin.nul = false) : SansPerte lignes b fin ↔ lignes b < lignes fin.bdd := by
  constructor
  · intro h
    by_contra hle
    exact not_signale haffiche hvaleur (h.signale hrendu (not_lt.mp hle))
  · exact fun h => ⟨fun _ hle => absurd hle (not_le.mpr h), hnul⟩

/-- A call without a connection is safe. -/
theorem sansPerte_of_not_connecte {lignes : Bdd → ℕ} {b : Bdd} {fin : Fin}
    (haffiche : fin.affiche = erreurConnexion) (hnul : fin.nul = false) :
    SansPerte lignes b fin :=
  ⟨fun _ _ => Or.inl (by rw [haffiche]; decide), hnul⟩

/-- **When no card is lost.**  Without a connection, or if there is a result set and
the program ends at `id` or the insertion adds a row. -/
theorem sansPerte_saveCardID_iff (execute : Execution) (a : Appel) (memoire : Litteral → Bytes)
    (b : Bdd) (cardId etuId : Bytes) :
    SansPerte (fun b => b.carte.length) b (appelSaveCardID execute a memoire b cardId etuId) ↔
      a.connecte = false ∨
        ∃ rows, execute 0 b ((Requete.select etuId).construit (memoire .select)) = .lignes rows ∧
          ∀ id, a.lecture rows.getLast? = some id →
            b.carte.length < ((execute 1 b ((Requete.insertCarte cardId id).construit
              (memoire .insertCarte))).apres b).carte.length := by
  rcases hconnecte : a.connecte with _ | _
  · refine iff_of_true ?_ (Or.inl rfl)
    refine sansPerte_of_not_connecte ?_ ?_ <;> simp [appelSaveCardID, hconnecte]
  · rw [or_iff_right (by decide)]
    constructor
    · intro h
      rcases hselect : execute 0 b ((Requete.select etuId).construit (memoire .select))
        with _ | rows | b'
      · have hnul : true = false := (nul_appelSaveCardID hconnecte hselect).symm.trans h.nul
        cases hnul
      · refine ⟨rows, rfl, fun id hid => ?_⟩
        rw [appelSaveCardID_of_lecture hconnecte hselect (by simp [Resultat.useResult]) hid] at h
        exact (sansPerte_iff_of_silent rfl (by simp) rfl rfl).mp h
      · have hnul : true = false := (nul_appelSaveCardID hconnecte hselect).symm.trans h.nul
        cases hnul
    · rintro ⟨rows, hselect, h⟩
      rcases hlecture : a.lecture rows.getLast? with _ | id
      · have hrendu : (appelSaveCardID execute a memoire b cardId etuId).rendu = false :=
          (appelSaveCardID_of_ends hconnecte hselect (Or.inr hlecture)).2
        refine ⟨fun h => absurd (hrendu.symm.trans h) (by decide), ?_⟩
        exact nul_appelSaveCardID hconnecte hselect
      · rw [appelSaveCardID_of_lecture hconnecte hselect (by simp [Resultat.useResult]) hlecture]
        exact (sansPerte_iff_of_silent rfl (by simp) rfl rfl).mpr (h id hlecture)

/-- **When no lap is lost.**  Without a connection, or if the insertion adds a
row. -/
theorem sansPerte_saveLapDateTime_iff (execute : Execution) (a : Appel)
    (memoire : Litteral → Bytes) (b : Bdd) (carteId machineName : Bytes) :
    SansPerte (fun b => b.passage.length) b
        (appelSaveLapDateTime execute a memoire b carteId machineName) ↔
      a.connecte = false ∨
        b.passage.length < ((execute 0 b ((Requete.insertPassage carteId machineName).construit
          (memoire .insertPassage))).apres b).passage.length := by
  rcases hconnecte : a.connecte with _ | _
  · refine iff_of_true ?_ (Or.inl rfl)
    refine sansPerte_of_not_connecte ?_ ?_ <;> simp [appelSaveLapDateTime, hconnecte]
  · rw [or_iff_right (by decide)]
    unfold appelSaveLapDateTime
    rw [if_pos hconnecte, sansPerte_iff_of_silent rfl (by simp) rfl rfl]

/-- **When neither a card nor a lap is lost in silence.** -/
theorem nothing_lost (execute : Execution) (a : Appel) (memoire : Litteral → Bytes) (b : Bdd)
    (cardId etuId carteId machineName : Bytes) :
    (SansPerte (fun b => b.carte.length) b (appelSaveCardID execute a memoire b cardId etuId) ↔
      a.connecte = false ∨
        ∃ rows, execute 0 b ((Requete.select etuId).construit (memoire .select)) = .lignes rows ∧
          ∀ id, a.lecture rows.getLast? = some id →
            b.carte.length < ((execute 1 b ((Requete.insertCarte cardId id).construit
              (memoire .insertCarte))).apres b).carte.length) ∧
    (SansPerte (fun b => b.passage.length) b
        (appelSaveLapDateTime execute a memoire b carteId machineName) ↔
      a.connecte = false ∨
        b.passage.length < ((execute 0 b ((Requete.insertPassage carteId machineName).construit
          (memoire .insertPassage))).apres b).passage.length) :=
  ⟨sansPerte_saveCardID_iff execute a memoire b cardId etuId,
    sansPerte_saveLapDateTime_iff execute a memoire b carteId machineName⟩

/-- A server that refuses everything, as a foreign key refuses an unknown card. -/
def refus : Execution := fun _ _ _ => .erreur

/-- A call with a connection, by a library that ends the program at a null pointer. -/
def connecte : Appel where
  connecte := true
  nulTolere := false
  lecture id := id.join

/-- The lap of an unknown card is lost in silence. -/
theorem nothing_lost_refus :
    ¬ SansPerte (fun b => b.passage.length) ⟨[], [], []⟩ (appelSaveLapDateTime refus connecte
      Litteral.texte ⟨[], [], []⟩ (ascii "A") (ascii "1")) := by
  intro h
  rcases h.signale rfl (le_refl _) with haffiche | ⟨v, hv, -⟩
  · exact haffiche rfl
  · cases hv

end Card
end RondeDesFacs
