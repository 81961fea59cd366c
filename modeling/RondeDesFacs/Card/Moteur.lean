import RondeDesFacs.Card.Literals
import RondeDesFacs.Card.Outcomes
import RondeDesFacs.Library.Query

/-!
# The server behind the database client

A server sees bytes.  `Moteur` reads the words of a text, and where they are those
of one of the three statements of the client it does what that statement says: with
the participants of a student number, with a new card, with a new passage.  What any
other text does is a parameter, `autre`; such texts arise when a value breaks out of
its quotes, when a literal is used twice, or when `id` reads as anything but a number.

The server reads back what the client meant exactly if the values are plain
(`execute_select`, `execute_insertCarte`, `execute_insertPassage`), and none of the
three statements breaks a key (`keys_execute`).
-/

namespace RondeDesFacs

/-- A number in an `INT` column.  A number out of its range is cut off, or refused in
strict mode. -/
def Serveur.int (srv : Serveur) (n : ℤ) : Option ℤ :=
  if -2147483648 ≤ n ∧ n ≤ 2147483647 then some n
  else if srv.strict then none
  else some (max (-2147483648) (min n 2147483647))

namespace Card

open Query SqlLexer

/-! ## Reading a statement -/

/-- A statement, as the server reads it. -/
inductive Lue where
  | select (etuId : Bytes)
  | insertCarte (cardId : Bytes) (id : ℤ)
  | insertPassage (carteId machineName : Bytes)
  deriving DecidableEq

/-- The value of a word of digits. -/
def lireChiffres (w : Bytes) : Option ℕ :=
  if w ≠ [] ∧ w.all (fun c => 0x30 ≤ c && c ≤ 0x39) then
    some (w.foldl (fun n c => 10 * n + (c.toNat - 0x30)) 0)
  else none

/-- The value of a number and the bracket that closes the list of values. -/
def lireNombre : List Token → Option ℤ
  | [.word w, fin] => if fin = .symbol 0x29 then (lireChiffres w).map fun n => (n : ℤ) else none
  | [moins, .word w, fin] =>
    if moins = .symbol 0x2D ∧ fin = .symbol 0x29 then (lireChiffres w).map fun n => -(n : ℤ)
    else none
  | _ => none

/-- The words before the student number. -/
def debutSelect : List Token := (jetonsSelect []).take 7

/-- The words before the card. -/
def debutCarte : List Token := (jetonsCarte [] 0).take 5

/-- The words before the card of a lap. -/
def debutPassage : List Token := (jetonsPassage [] []).take 7

/-- The words of a statement, read. -/
def lire (toks : List Token) : Option Lue :=
  if toks.take 7 = debutSelect then
    match toks.drop 7 with
    | [.string etuId] => some (.select etuId)
    | _ => none
  else if toks.take 5 = debutCarte then
    match toks.drop 5 with
    | .string cardId :: virgule :: nombre =>
      if virgule = .symbol 0x2C then (lireNombre nombre).map (.insertCarte cardId) else none
    | _ => none
  else if toks.take 7 = debutPassage then
    match toks.drop 7 with
    | [.string carteId, virgule, .string machineName, virgule', maintenant, fin] =>
      if virgule = .symbol 0x2C ∧ virgule' = .symbol 0x2C ∧
          maintenant = .word (ascii "CURRENT_TIMESTAMP") ∧ fin = .symbol 0x29 then
        some (.insertPassage carteId machineName)
      else none
    | _ => none
  else none

/-- What the server reads of a text. -/
def lue (texte : Bytes) : Option Lue := (tokens texte).bind lire

/-! ## Executing it -/

/-- A server with the tables of `rdf.sql`. -/
structure Moteur where
  srv : Serveur
  /-- The character set of the connection. -/
  cs : Charset
  /-- The order in which the rows of a query come. -/
  ordre : RowOrder Participant
  /-- A text value in an `INT` column. -/
  toInt : Text → Option (Option ℤ)
  /-- The next key of `passage`. -/
  passId : Bdd → ℤ
  /-- `CURRENT_TIMESTAMP`. -/
  maintenant : ℤ
  /-- What any other text does. -/
  autre : Bdd → Bytes → Resultat

/-- An insertion, accepted or refused. -/
def Resultat.ofInsertion : Option Bdd → Resultat
  | some b => .fait b
  | none => .erreur

variable (m : Moteur)

/-- The participants with a student number. -/
def Moteur.correspondants (b : Bdd) (etuId : Bytes) : List Participant :=
  match m.cs.decode etuId with
  | none => []
  | some e => b.participant.filter fun p => p.partIdEtudiant.any fun t => SameText t e

/-- `SELECT part_id FROM participant where part_idetudiant = `. -/
def Moteur.select (b : Bdd) (etuId : Bytes) : Resultat :=
  if (m.cs.decode etuId).isSome then
    .lignes ((m.ordre.arrange (m.correspondants b etuId)).map fun p => some (decimal p.partId))
  else .erreur

/-- `INSERT INTO carte VALUES`. -/
def Moteur.insertCarte (b : Bdd) (cardId : Bytes) (id : ℤ) : Resultat :=
  .ofInsertion ((m.cs.decode cardId).bind fun idCarte =>
    (m.srv.int id).bind fun idEtudiant => b.insertCarte m.srv idCarte idEtudiant)

/-- `INSERT INTO passage VALUES`. -/
def Moteur.insertPassage (b : Bdd) (carteId machineName : Bytes) : Resultat :=
  .ofInsertion ((m.cs.decode carteId).bind fun idCarte =>
    ((m.cs.decode machineName).bind m.toInt).bind fun machine =>
      b.insertPassage m.srv (m.passId b) idCarte machine (some m.maintenant))

/-- What the server does with a text. -/
def Moteur.execute (b : Bdd) (texte : Bytes) : Resultat :=
  match (tokens texte).bind lire with
  | some (.select etuId) => m.select b etuId
  | some (.insertCarte cardId id) => m.insertCarte b cardId id
  | some (.insertPassage carteId machineName) => m.insertPassage b carteId machineName
  | none => m.autre b texte

/-- A text that is none of the three statements is refused, or at least changes nothing.  So
it is with what is no statement at all; but a value that ends its string may bring an
`ON DUPLICATE KEY UPDATE` with it. -/
def Moteur.Refuse (texte : Bytes) : Prop :=
  lue texte = none → ∀ b, (m.autre b texte).apres b = b

/-- The server, when some statements of a call do not reach it. -/
def Moteur.avecPannes (pannes : ℕ → Bool) : Execution := fun n b texte =>
  if pannes n then .erreur else m.execute b texte

/-! ## The server reads what the client means -/

theorem lireChiffres_nat (n : ℕ) : lireChiffres (ascii (toString n)) = some n := by
  have hdigits : ascii (toString n) = (Nat.toDigits 10 n).map fun c => UInt8.ofNat c.toNat := by
    rw [ascii, ← Nat.toList_repr]
    rfl
  have hbyte : ∀ c ∈ Nat.toDigits 10 n,
      (0x30 ≤ c.toNat ∧ c.toNat ≤ 0x39) ∧ (UInt8.ofNat c.toNat).toNat = c.toNat := by
    intro c hc
    have hdigit := Nat.isDigit_of_mem_toDigits (by decide) (by decide) hc
    have hrange : 0x30 ≤ c.toNat ∧ c.toNat ≤ 0x39 := Char.isDigit_iff_toNat.mp hdigit
    refine ⟨hrange, ?_⟩
    rw [UInt8.toNat_ofNat']
    omega
  rw [lireChiffres, if_pos]
  · rw [hdigits, List.foldl_map]
    conv_rhs => rw [← Nat.ofDigitChars_ten_toDigits (n := n), Nat.ofDigitChars_eq_foldl]
    refine congrArg some (List.foldl_ext _ _ _ fun k c hc => ?_)
    rw [(hbyte c hc).2]
    rfl
  · refine ⟨(word_nat n).1, ?_⟩
    rw [hdigits, List.all_map, List.all_eq_true]
    intro c hc
    obtain ⟨⟨hlow, hhigh⟩, heq⟩ := hbyte c hc
    simp [UInt8.le_iff_toNat_le, heq, hlow, hhigh]

theorem lireNombre_jetonsNombre (n : ℤ) :
    lireNombre (jetonsNombre n ++ [.symbol 0x29]) = some n := by
  cases n with
  | ofNat n =>
    rw [jetonsNombre, List.singleton_append, lireNombre, if_pos rfl, lireChiffres_nat]
    rfl
  | negSucc n =>
    rw [jetonsNombre, List.cons_append, List.singleton_append, lireNombre, if_pos ⟨rfl, rfl⟩,
      lireChiffres_nat]
    rfl

theorem lire_jetonsCarte (cardId : Bytes) (id : ℤ) :
    lire (jetonsCarte cardId id) = some (.insertCarte cardId id) := by
  have htake : (jetonsCarte cardId id).take 5 = debutCarte := rfl
  have hdrop : (jetonsCarte cardId id).drop 5 =
      .string cardId :: .symbol 0x2C :: (jetonsNombre id ++ [.symbol 0x29]) := rfl
  have hne : (jetonsCarte cardId id).take 7 ≠ debutSelect := by
    intro h
    have hhead : some (Token.word (ascii "INSERT")) = some (.word (ascii "SELECT")) :=
      congrArg List.head? h
    exact absurd hhead (by decide)
  rw [lire, if_neg hne, if_pos htake, hdrop]
  dsimp only
  rw [if_pos rfl, lireNombre_jetonsNombre]
  rfl

theorem lire_jetonsPassage (carteId machineName : Bytes) :
    lire (jetonsPassage carteId machineName) = some (.insertPassage carteId machineName) := rfl

section Execute

variable {m} {b : Bdd}

/-- **A plain card is inserted** with the number in the statement. -/
theorem execute_insertCarte {cardId : Bytes} (h : Plain quote cardId) (id : ℤ) :
    m.execute b (Requete.insertCarte cardId (decimal id)).texte = m.insertCarte b cardId id := by
  rw [Moteur.execute, (tokens_carte_iff cardId id).mpr h, Option.bind_some, lire_jetonsCarte]

/-- **A plain card passes at a plain machine.** -/
theorem execute_insertPassage {carteId machineName : Bytes} (hcarte : Plain quote carteId)
    (hmachine : Plain quote machineName) :
    m.execute b (Requete.insertPassage carteId machineName).texte =
      m.insertPassage b carteId machineName := by
  rw [Moteur.execute, (tokens_passage_iff carteId machineName).mpr ⟨hcarte, hmachine⟩,
    Option.bind_some, lire_jetonsPassage]

end Execute

/-! ## The keys -/

/-- What holds of the tables and of what an insertion makes of them, holds afterwards. -/
theorem apres_ofInsertion {P : Bdd → Prop} {b : Bdd} {o : Option Bdd} (hb : P b)
    (h : ∀ b' ∈ o, P b') : P ((Resultat.ofInsertion o).apres b) := by
  rcases o with _ | b'
  · exact hb
  · exact h b' rfl

variable {m}

/-- A look-up leaves the tables as they are. -/
theorem apres_select (b : Bdd) (etuId : Bytes) : (m.select b etuId).apres b = b := by
  unfold Moteur.select
  split_ifs <;> rfl

/-- **The three statements keep the keys**, and what is read as none of them must. -/
theorem keys_execute {b : Bdd} (hb : Keys b) {texte : Bytes}
    (hautre : lue texte = none → Keys ((m.autre b texte).apres b)) :
    Keys ((m.execute b texte).apres b) := by
  rw [Moteur.execute]
  split
  · rw [apres_select]
    exact hb
  · refine apres_ofInsertion hb fun b' h => ?_
    obtain ⟨idCarte, -, h⟩ := Option.bind_eq_some_iff.mp h
    obtain ⟨idEtudiant, -, h⟩ := Option.bind_eq_some_iff.mp h
    exact Bdd.keys_insertCarte hb h
  · refine apres_ofInsertion hb fun b' h => ?_
    obtain ⟨idCarte, -, h⟩ := Option.bind_eq_some_iff.mp h
    obtain ⟨machine, -, h⟩ := Option.bind_eq_some_iff.mp h
    exact Bdd.keys_insertPassage hb h
  · rename_i hlue
    exact hautre hlue

/-- The keys hold after every call, whatever it meets. -/
theorem keys_avecPannes {b : Bdd} (hb : Keys b) (hautre : ∀ t, Keys ((m.autre b t).apres b))
    (pannes : ℕ → Bool) (n : ℕ) (texte : Bytes) :
    Keys ((m.avecPannes pannes n b texte).apres b) := by
  rw [Moteur.avecPannes]
  split_ifs
  · exact hb
  · exact keys_execute hb fun _ => hautre texte

/-- **The keys survive a call**, whatever it meets and whatever its texts come to. -/
theorem keys_appelSaveCardID {b : Bdd} (hb : Keys b)
    (hautre : ∀ b, Keys b → ∀ t, Keys ((m.autre b t).apres b)) (pannes : ℕ → Bool) (a : Appel)
    (memoire : Litteral → Bytes) (cardId etuId : Bytes) :
    Keys (appelSaveCardID (m.avecPannes pannes) a memoire b cardId etuId).bdd := by
  rcases hconnecte : a.connecte with _ | _
  · rw [appelSaveCardID, hconnecte, if_neg (by decide)]
    exact hb
  · have hapres := keys_avecPannes hb (hautre b hb) pannes 0
      ((Requete.select etuId).construit (memoire .select))
    rcases hselect : m.avecPannes pannes 0 b ((Requete.select etuId).construit (memoire .select))
      with select
    rw [hselect] at hapres
    by_cases hnul : select.useResult.isNone ∧ a.nulTolere = false
    · rw [(appelSaveCardID_of_ends hconnecte hselect (Or.inl hnul)).1]
      exact hapres
    · rcases hlecture : a.lecture (select.useResult.getD []).getLast? with _ | id
      · rw [(appelSaveCardID_of_ends hconnecte hselect (Or.inr hlecture)).1]
        exact hapres
      · rw [appelSaveCardID_of_lecture hconnecte hselect hnul hlecture]
        exact keys_avecPannes hapres (hautre _ hapres) pannes 1 _

theorem keys_appelSaveLapDateTime {b : Bdd} (hb : Keys b)
    (hautre : ∀ b, Keys b → ∀ t, Keys ((m.autre b t).apres b)) (pannes : ℕ → Bool) (a : Appel)
    (memoire : Litteral → Bytes) (carteId machineName : Bytes) :
    Keys (appelSaveLapDateTime (m.avecPannes pannes) a memoire b carteId machineName).bdd := by
  unfold appelSaveLapDateTime
  split_ifs
  · exact keys_avecPannes hb (hautre b hb) pannes 0 _
  · exact hb

end Card
end RondeDesFacs
