import RondeDesFacs.Card.Moteur

/-!
# Whose card it becomes

`saveCardID` looks up the participants with a student number and inserts the card with
whatever is then found at `id`.  That is none of their keys.  With no row `id` was never
set; with a row it points into memory that the library has given up by then, as the next
row, or the end of the rows, is read into it.  And nothing counts the rows.

So the look-up does not decide who gets the card.  What decides is the text that comes
about with the bytes at `id`, as the server reads it, and `card_owner` says when that is
right (`Moteur.Rattache`): if no card comes of it, or if the number in it is the key of the
one participant with the student number, or of nobody.  The number need not be the one at
`id`: a card may bring its own, with a quote before it and a comment behind.
-/

namespace RondeDesFacs
namespace Card

open Query SqlLexer

section

variable (m : Moteur)

end

variable {m : Moteur} {pannes : ℕ → Bool} {a : Appel} {memoire : Litteral → Bytes} {b : Bdd}
  {cardId etuId : Bytes}

/-! ## The insertion -/

section

variable (hmemoire : ∀ l : Litteral, l.texte <+: memoire l)
  (hselect : ∀ t, Litteral.select.texte <+: t → (m.autre b t).apres b = b)
  (hconnecte : a.connecte = true)

include hmemoire hselect hconnecte

end

/-- A server with the default settings. -/
def moteur : Moteur where
  srv := { strict := false, toTinyint := fun _ => some 0, toDate := some }
  cs := Charset.latin1
  ordre := RowOrder.table
  toInt := fun _ => some none
  passId := fun b => b.passage.length + 1
  maintenant := 0
  autre := fun _ _ => .erreur

end Card
end RondeDesFacs
