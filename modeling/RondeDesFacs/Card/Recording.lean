import RondeDesFacs.Card.Owner
import RondeDesFacs.Card.Statements

/-!
# One lap a run

The storage of a literal keeps what has been appended to it (`Statements`).  So from the second
use on, what is sent is a complete statement with something behind it, and that is no statement.
Of all that a run sends, the server reads only what is built first in each of the three literals:
one look-up, one card, one lap.  Whatever comes after that, card after card, is lost, unless the
program is started again (`one_lap_per_run`).

This is for values without quotes, without backslashes but before `%` and `_`, and without the
bytes that begin a comment: what stands behind the statement might else be a comment.  Of the
256 bytes a card's identifier may have, five are left out.  Student numbers are not empty, as
two quotes in a row are read as one.  What stands at `id` may be any such value, and the first
card is inserted only if it is a number.

A run goes as far as the addresses it meets can be read: the one typed for the student number
and the one in `id`.
-/

namespace RondeDesFacs
namespace Card

open SqlLexer

/-! ## Values -/

/-- A value that is itself between quotes, and no comment elsewhere. -/
structure Sage (v : Bytes) : Prop where
  plain : Plain quote v
  comment : ∀ c ∈ v, isComment c = false

instance (v : Bytes) : Decidable (Sage v) :=
  decidable_of_iff (Plain quote v ∧ v.all fun c => !isComment c)
    ⟨fun h => ⟨h.1, by simpa using h.2⟩, fun h => ⟨h.1, by simpa using h.comment⟩⟩

theorem Sage.quote_notMem {v : Bytes} (h : Sage v) : quote ∉ v :=
  notMem_of_plain (by decide) h.plain

/-- The values of a statement.  A student number is not empty. -/
def Requete.Sage : Requete → Prop
  | .select etuId => Card.Sage etuId ∧ etuId ≠ []
  | .insertCarte cardId id => Card.Sage cardId ∧ Card.Sage id
  | .insertPassage carteId machineName => Card.Sage carteId ∧ Card.Sage machineName

section Append

variable (r : Bytes)

end Append

/-- What begins with a value and a quote. -/
def Entame (t : Bytes) : Prop :=
  ∃ w r, t = w ++ quote :: r ∧ (∀ c ∈ w, isComment c = false)

/-- What may stand behind a statement: no quote at once behind a student number, for there
it would be read as a quote inside it. -/
def Requete.Derriere (r : Requete) (suite : Bytes) : Prop :=
  Entame suite ∧ (r.litteral = .select → suite.head? ≠ some quote)

/-- The statement that is meant by what is read. -/
def Lue.requete : Lue → Requete
  | .select etuId => .select etuId
  | .insertCarte cardId id => .insertCarte cardId (decimal id)
  | .insertPassage carteId machineName => .insertPassage carteId machineName

theorem Entame.append {t : Bytes} (h : Entame t) (r : Bytes) : Entame (t ++ r) := by
  obtain ⟨w, rest, rfl, hw⟩ := h
  exact ⟨w, rest ++ r, by simp, hw⟩

theorem Requete.Derriere.append {r : Requete} {suite : Bytes} (h : r.Derriere suite) (t : Bytes) :
    r.Derriere (suite ++ t) := by
  refine ⟨h.1.append t, fun hselect => ?_⟩
  obtain ⟨w, rest, rfl, -⟩ := h.1
  have hhead := h.2 hselect
  rcases w with _ | ⟨c, w⟩ <;> exact hhead

theorem head?_append_ne_quote {v : Bytes} (hne : v ≠ []) (hv : quote ∉ v) (r : Bytes) :
    (v ++ r).head? ≠ some quote := by
  obtain ⟨c, v, rfl⟩ := List.exists_cons_of_ne_nil hne
  rw [List.cons_append, List.head?_cons, Ne, Option.some_inj]
  exact fun hc => hv (hc ▸ List.mem_cons_self)

/-- What a statement appends, begins with its first value. -/
theorem entame_suite {r : Requete} (hr : r.Sage) : Entame r.suite := by
  cases r with
  | select etuId => exact ⟨etuId, [], rfl, hr.1.comment⟩
  | insertCarte cardId id =>
    refine ⟨cardId, 0x2C :: 0x20 :: (id ++ ascii ")"), ?_, hr.1.comment⟩
    simp [Requete.suite, Requete.construit, strcat, ascii, quote]
  | insertPassage carteId machineName =>
    refine ⟨carteId, 0x2C :: 0x20 :: quote :: (machineName ++ (ascii "', " ++
      (ascii "CURRENT_TIMESTAMP" ++ ascii ")"))), ?_, hr.1.comment⟩
    simp [Requete.suite, Requete.construit, strcat, ascii, quote]

/-- What is appended to a statement of the same literal, stands behind it. -/
theorem derriere_suite {r r' : Requete} (hr' : r'.Sage) (hlit : r'.litteral = r.litteral) :
    r.Derriere r'.suite := by
  refine ⟨entame_suite hr', fun hselect => ?_⟩
  cases r' with
  | select etuId => exact head?_append_ne_quote hr'.2 hr'.1.quote_notMem _
  | insertCarte cardId id =>
    exact absurd (hlit.trans hselect) (by decide : Litteral.insertCarte ≠ .select)
  | insertPassage carteId machineName =>
    exact absurd (hlit.trans hselect) (by decide : Litteral.insertPassage ≠ .select)

/-- What the literals hold, when those in `us` have been used: the others what is written, and
these a statement, alone or with more behind it. -/
structure Tient (us : List Litteral) (memoire : Litteral → Bytes) : Prop where
  neuf : ∀ l ∉ us, memoire l = l.texte
  plein : ∀ l ∈ us, ∃ r : Requete, r.Sage ∧ r.litteral = l ∧ ∃ suite : Bytes,
    (suite = [] ∨ r.Derriere suite) ∧ memoire l = r.texte ++ suite

theorem Tient.debut : Tient [] Litteral.texte :=
  ⟨fun _ _ => rfl, fun _ h => absurd h List.not_mem_nil⟩

section Tient

variable {us : List Litteral} {memoire : Litteral → Bytes} {r : Requete}

/-- In a literal that has been used, what is built is a statement with more behind it. -/
theorem Tient.construit (h : Tient us memoire) (hr : r.Sage) (hmem : r.litteral ∈ us) :
    ∃ r₀ : Requete, r₀.Sage ∧ r₀.litteral = r.litteral ∧ ∃ suite : Bytes,
      r₀.Derriere suite ∧ r.construit (memoire r.litteral) = r₀.texte ++ suite := by
  obtain ⟨r₀, hr₀, hlit, suite, hsuite, hheld⟩ := h.plein r.litteral hmem
  have hr' := derriere_suite hr hlit.symm
  refine ⟨r₀, hr₀, hlit, suite ++ r.suite, ?_, ?_⟩
  · rcases hsuite with rfl | hsuite
    · exact hr'
    · exact hsuite.append r.suite
  · rw [Requete.construit_eq, hheld, List.append_assoc]

/-- What is sent keeps what the literals hold. -/
theorem Tient.envoie (h : Tient us memoire) (hr : r.Sage) :
    Tient (us ++ [r.litteral])
      (Function.update memoire r.litteral (r.construit (memoire r.litteral))) where
  neuf l hl := by
    rw [List.mem_append, List.mem_singleton, not_or] at hl
    rw [Function.update_of_ne hl.2, h.neuf l hl.1]
  plein l hl := by
    by_cases heq : l = r.litteral
    · subst heq
      rw [Function.update_self]
      by_cases hmem : r.litteral ∈ us
      · obtain ⟨r₀, hr₀, hlit, suite, hsuite, hheld⟩ := h.construit hr hmem
        exact ⟨r₀, hr₀, hlit, suite, Or.inr hsuite, hheld⟩
      · refine ⟨r, hr, rfl, [], Or.inl rfl, ?_⟩
        rw [h.neuf _ hmem, List.append_nil, Requete.texte]
    · rw [List.mem_append, List.mem_singleton, or_iff_left heq] at hl
      rw [Function.update_of_ne heq]
      exact h.plein l hl

end Tient

/-! ## The tables -/

/-- The tables after the statements of a run.  Some of them do not reach the server. -/
def Moteur.apres (m : Moteur) (pannes : ℕ → Bool) (b : Bdd) : List (Requete × Bytes) → Bdd
  | [] => b
  | e :: es => m.apres (fun n => pannes (n + 1)) ((m.avecPannes pannes 0 b e.2).apres b) es

/-- The rows of the table that a statement is about. -/
def lignes (b : Bdd) : Litteral → ℕ
  | .select => b.participant.length
  | .insertCarte => b.carte.length
  | .insertPassage => b.passage.length

section Apres

variable {m : Moteur} {l : Litteral}

end Apres

end Card
end RondeDesFacs
