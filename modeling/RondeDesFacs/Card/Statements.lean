import RondeDesFacs.Card.ClientWebS
import RondeDesFacs.Card.Handles
import Mathlib.Data.List.Nodup

/-!
# The second statement

The storage of a string literal persists, and nothing ever takes off what `strcat`
has appended to it.  So the first statement built in a literal is the one the source
shows, and the second one starts with the whole of the first.

A run therefore sends what the source shows exactly if no literal is used twice
(`envois_texte_iff`), which is to say that at most one `saveCardID` and at most one
`saveLapDateTime` reach the database (`statements`).
-/

namespace RondeDesFacs
namespace Card

/-- Every statement is sent as the source shows it. -/
def Independent (es : List (Requete × Bytes)) : Prop := ∀ e ∈ es, e.2 = e.1.texte

/-- The actions of a run that reach the database: those that find a connection, up
to the one that ends the program. -/
def effectues (liaison : ℕ → Liaison) : List Action → List Action
  | [] => []
  | a :: log =>
    let (rs, vivant) := a.requetes (liaison 0)
    (if rs = [] then [] else [a]) ++
      if vivant then effectues (fun n => liaison (n + 1)) log else []

/-- An action that saves a card. -/
def Action.isSaveCardID : Action → Bool
  | .saveCardID _ _ => true
  | _ => false

/-- An action that saves a lap. -/
def Action.isSaveLapDateTime : Action → Bool
  | .saveLapDateTime _ _ => true
  | _ => false

/-! ## Literals -/

/-- **What is sent is what the source shows** exactly if no literal is used twice and
those used hold what is written. -/
theorem envois_texte_iff (memoire : Litteral → Bytes) (rs : List Requete) :
    Independent (envois memoire rs) ↔
      (rs.map Requete.litteral).Nodup ∧ ∀ r ∈ rs, memoire r.litteral = r.litteral.texte := by
  induction rs generalizing memoire with
  | nil => simp [Independent, envois]
  | cons r rs ih =>
    have hcons : Independent (envois memoire (r :: rs)) ↔
        memoire r.litteral = r.litteral.texte ∧
          Independent (envois (Function.update memoire r.litteral
            (r.construit (memoire r.litteral))) rs) := by
      rw [envois, Independent, List.forall_mem_cons, Requete.construit_eq_texte_iff]
      rfl
    rw [hcons, ih, List.map_cons, List.nodup_cons, List.forall_mem_cons]
    constructor
    · rintro ⟨hr, hnodup, hrest⟩
      rw [Requete.construit_eq_texte_iff.mpr hr] at hrest
      have hne : ∀ r' ∈ rs, r'.litteral ≠ r.litteral := by
        intro r' hr' heq
        have hheld := hrest r' hr'
        rw [heq, Function.update_self] at hheld
        exact r.texte_ne hheld
      refine ⟨⟨?_, hnodup⟩, hr, fun r' hr' => ?_⟩
      · rw [List.mem_map]
        rintro ⟨r', hr', heq⟩
        exact hne r' hr' heq
      · rw [← hrest r' hr', Function.update_of_ne (hne r' hr')]
    · rintro ⟨⟨hnotMem, hnodup⟩, hr, hrest⟩
      refine ⟨hr, hnodup, fun r' hr' => ?_⟩
      have hne : r'.litteral ≠ r.litteral := fun heq =>
        hnotMem (List.mem_map.mpr ⟨r', hr', heq⟩)
      rw [Function.update_of_ne hne, hrest r' hr']

/-! ## Actions -/

/-- What an action sends: nothing, or the one statement of a lap, or one or both of
the statements of a card. -/
theorem requetes_cases (l : Liaison) (a : Action) :
    (a.requetes l).1 = [] ∨
      (a.isSaveCardID = false ∧ a.isSaveLapDateTime = true ∧
        (a.requetes l).1.map Requete.litteral = [.insertPassage]) ∨
      (a.isSaveCardID = true ∧ a.isSaveLapDateTime = false ∧
        ((a.requetes l).1.map Requete.litteral = [.select] ∨
          (a.requetes l).1.map Requete.litteral = [.select, .insertCarte])) := by
  rcases l with ⟨connecte, lisible, id⟩
  cases a with
  | saveCardID cardId etuId =>
    rcases connecte with _ | _
    · exact Or.inl rfl
    · rcases lisible with _ | _
      · exact Or.inl rfl
      · refine Or.inr (Or.inr ⟨rfl, rfl, ?_⟩)
        rcases id with _ | id
        · exact Or.inl rfl
        · exact Or.inr rfl
  | saveLapDateTime carteId machineName =>
    rcases connecte with _ | _
    · exact Or.inl rfl
    · exact Or.inr (Or.inl ⟨rfl, rfl, rfl⟩)
  | _ => exact Or.inl rfl

/-- How often each literal is used: the two that come first in a transaction once
for each action that was carried out, the other at most as often. -/
structure Comptes (rs : List Requete) (as : List Action) : Prop where
  select : (rs.map Requete.litteral).count .select = as.countP Action.isSaveCardID
  insertPassage :
    (rs.map Requete.litteral).count .insertPassage = as.countP Action.isSaveLapDateTime
  insertCarte : (rs.map Requete.litteral).count .insertCarte ≤ as.countP Action.isSaveCardID

theorem Comptes.nil : Comptes [] [] :=
  ⟨rfl, rfl, le_rfl⟩

theorem Comptes.append {rs rs' : List Requete} {as as' : List Action} (h : Comptes rs as)
    (h' : Comptes rs' as') : Comptes (rs ++ rs') (as ++ as') where
  select := by
    rw [List.map_append, List.count_append, List.countP_append, h.select, h'.select]
  insertPassage := by
    rw [List.map_append, List.count_append, List.countP_append, h.insertPassage,
      h'.insertPassage]
  insertCarte := by
    rw [List.map_append, List.count_append, List.countP_append]
    exact Nat.add_le_add h.insertCarte h'.insertCarte

/-- One action, carried out exactly if it sends a statement. -/
theorem comptes_requetes (l : Liaison) (a : Action) :
    Comptes (a.requetes l).1 (if (a.requetes l).1 = [] then [] else [a]) := by
  rcases requetes_cases l a with hnil | ⟨hcard, hlap, hone⟩ | ⟨hcard, hlap, hone⟩
  · rw [if_pos hnil, hnil]
    exact Comptes.nil
  · have hne : (a.requetes l).1 ≠ [] := by
      intro hnil
      rw [hnil] at hone
      exact List.cons_ne_nil _ _ hone.symm
    rw [if_neg hne]
    constructor <;> simp [hone, hcard, hlap]
  · have hne : (a.requetes l).1 ≠ [] := by
      intro hnil
      rw [hnil] at hone
      rcases hone with hone | hone <;> exact List.cons_ne_nil _ _ hone.symm
    rw [if_neg hne]
    rcases hone with hone | hone <;> constructor <;> simp [hone, hcard, hlap]

/-- A whole run, up to the action that ends it. -/
theorem comptes (liaison : ℕ → Liaison) (log : List Action) :
    Comptes (requetes liaison log) (effectues liaison log) := by
  induction log generalizing liaison with
  | nil => exact Comptes.nil
  | cons a log ih =>
    have hrest : ∀ vivant : Bool,
        Comptes (if vivant then requetes (fun n => liaison (n + 1)) log else [])
          (if vivant then effectues (fun n => liaison (n + 1)) log else []) := by
      intro vivant
      rcases vivant with _ | _
      · exact Comptes.nil
      · exact ih _
    exact (comptes_requetes (liaison 0) a).append (hrest _)

/-- Used at most once, a literal is used by none of two statements. -/
theorem nodup_litteraux_iff (liaison : ℕ → Liaison) (log : List Action) :
    ((requetes liaison log).map Requete.litteral).Nodup ↔
      (effectues liaison log).countP Action.isSaveCardID ≤ 1 ∧
        (effectues liaison log).countP Action.isSaveLapDateTime ≤ 1 := by
  obtain ⟨hselect, hpassage, hcarte⟩ := comptes liaison log
  rw [List.nodup_iff_count_le_one, ← hselect, ← hpassage]
  constructor
  · exact fun h => ⟨h .select, h .insertPassage⟩
  · rintro ⟨hs, hp⟩ (_ | _ | _)
    · exact hs
    · exact hcarte.trans (hselect ▸ hs)
    · exact hp

/-- **Each statement depends only on its own arguments** exactly in the runs in
which at most one `saveCardID` and at most one `saveLapDateTime` reach the
database. -/
theorem statements (machineName : Bytes) (d : Demarrage) (s : Etat) (ps : List Passe)
    (disconnected released : ℤ) (liaison : ℕ → Liaison) :
    let log := main machineName d s ps disconnected released
    Independent (envois Litteral.texte (requetes liaison log)) ↔
      (effectues liaison log).countP Action.isSaveCardID ≤ 1 ∧
        (effectues liaison log).countP Action.isSaveLapDateTime ≤ 1 := by
  intro log
  rw [envois_texte_iff, ← nodup_litteraux_iff]
  exact and_iff_left fun _ _ => rfl

/-- Two laps: the second statement starts with the first. -/
theorem statements_passeSuivie :
    ¬ Independent (envois Litteral.texte (requetes (fun _ => ⟨true, true, none⟩)
      (main (ascii "1") ⟨0, 0, 0⟩ ⟨[], 0, 0, .undefined⟩ [passeSuivie, passeSuivie] 0 0))) := by
  rw [envois_texte_iff, nodup_litteraux_iff]
  decide

end Card
end RondeDesFacs
