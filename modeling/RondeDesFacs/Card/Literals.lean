import RondeDesFacs.Card.ClientWebS
import RondeDesFacs.Library.SqlLexer
import Mathlib.Tactic.Tauto

/-!
# Values and statements

The statements of `clientWebS.cpp` put their arguments between quotes as they are.
The identifier of a card is whatever bytes the card answers, the others are what the
operator types and what the machine is started with.

`Requete.jetons` is the statement each text is meant to be: its words and symbols,
with the arguments as the values of its strings.  The server reads that statement
exactly if every argument is *plain*: without quotes, and with no backslash but
before `%` or `_` (`values_as_data`).

The hard half is the statement with two strings.  If the first one ran on past the
text it was built from, it would end at a quote of the second, and what remains
would be too short for a string as long as the machine's name.
-/

namespace RondeDesFacs
namespace Card

open SqlLexer

/-- A number, as the server writes it. -/
def decimal (n : ℤ) : Bytes := ascii (toString n)

/-- The tokens of a number. -/
def jetonsNombre : ℤ → List Token
  | .ofNat n => [.word (ascii (toString n))]
  | .negSucc n => [.symbol 0x2D, .word (ascii (toString (n + 1)))]

/-- `SELECT part_id FROM participant where part_idetudiant = ` and a string. -/
def jetonsSelect (etuId : Bytes) : List Token :=
  [.word (ascii "SELECT"), .word (ascii "part_id"), .word (ascii "FROM"),
    .word (ascii "participant"), .word (ascii "where"), .word (ascii "part_idetudiant"),
    .symbol 0x3D, .string etuId]

/-- `INSERT INTO carte VALUES`, with a string and a number. -/
def jetonsCarte (cardId : Bytes) (id : ℤ) : List Token :=
  [.word (ascii "INSERT"), .word (ascii "INTO"), .word (ascii "carte"),
    .word (ascii "VALUES"), .symbol 0x28, .string cardId, .symbol 0x2C] ++ jetonsNombre id ++
    [.symbol 0x29]

/-- `INSERT INTO passage VALUES`, with two strings between `DEFAULT` and
`CURRENT_TIMESTAMP`. -/
def jetonsPassage (carteId machineName : Bytes) : List Token :=
  [.word (ascii "INSERT"), .word (ascii "INTO"), .word (ascii "passage"),
    .word (ascii "VALUES"), .symbol 0x28, .word (ascii "DEFAULT"), .symbol 0x2C,
    .string carteId, .symbol 0x2C, .string machineName, .symbol 0x2C,
    .word (ascii "CURRENT_TIMESTAMP"), .symbol 0x29]

/-- The server reads the statements they are meant to be, with the arguments as the
values of the strings. -/
def AsData (cardId etuId machineName : Bytes) (id : ℤ) : Prop :=
  tokens (Requete.select etuId).texte = some (jetonsSelect etuId) ∧
    tokens (Requete.insertCarte cardId (decimal id)).texte = some (jetonsCarte cardId id) ∧
    tokens (Requete.insertPassage cardId machineName).texte =
      some (jetonsPassage cardId machineName)

/-! ## Numbers -/

theorem isWord_of_isDigit {c : Char} (h : c.isDigit) : isWord (UInt8.ofNat c.toNat) := by
  obtain ⟨hlow, hhigh⟩ : 0x30 ≤ c.toNat ∧ c.toNat ≤ 0x39 := Char.isDigit_iff_toNat.mp h
  have hbyte : (UInt8.ofNat c.toNat).toNat = c.toNat := by
    rw [UInt8.toNat_ofNat']
    omega
  simp [isWord, UInt8.le_iff_toNat_le, hbyte, hlow, hhigh]

/-- The digits of a natural number are one word. -/
theorem word_nat (n : ℕ) : ascii (toString n) ≠ [] ∧ (ascii (toString n)).all isWord := by
  have hdigits : ascii (toString n) = (Nat.toDigits 10 n).map fun c => UInt8.ofNat c.toNat := by
    rw [ascii, ← Nat.toList_repr]
    rfl
  rw [hdigits, List.all_map, List.all_eq_true]
  refine ⟨?_, fun c hc => ?_⟩
  · simp
  · exact isWord_of_isDigit (Nat.isDigit_of_mem_toDigits (by decide) (by decide) hc)

theorem decimal_negSucc (n : ℕ) :
    decimal (.negSucc n) = 0x2D :: ascii (toString (n + 1)) := by
  rw [decimal, show toString (Int.negSucc n) = "-" ++ toString (n + 1) from rfl, ascii,
    String.toList_append, List.map_append]
  rfl

/-- A number is its tokens, whatever stands behind it. -/
theorem tokens_decimal (n : ℤ) {r : Bytes} (hr : r.head?.all fun d => !isWord d) :
    tokens (decimal n ++ r) = (tokens r).map fun rest => jetonsNombre n ++ rest := by
  cases n with
  | ofNat n => exact tokens_word (word_nat n).1 (word_nat n).2 hr
  | negSucc n =>
    obtain ⟨hne, hall⟩ := word_nat (n + 1)
    have hhead : (ascii (toString (n + 1)) ++ r).head? ≠ some 0x2D := by
      obtain ⟨c, w, hw⟩ := List.exists_cons_of_ne_nil hne
      rw [hw, List.all_cons, Bool.and_eq_true] at hall
      rw [hw, List.cons_append, List.head?_cons]
      rintro ⟨⟩
      exact absurd hall.1 (by decide)
    rw [decimal_negSucc, List.cons_append, tokens_minus hhead, tokens_word hne hall hr,
      Option.map_map]
    rfl

theorem tokens_decimal_iff (n : ℤ) {r : Bytes} (hr : r.head?.all fun d => !isWord d)
    {toks : List Token} :
    tokens (decimal n ++ r) = some (jetonsNombre n ++ toks) ↔ tokens r = some toks := by
  rw [tokens_decimal n hr]
  exact map_append_eq_some_iff _

/-! ## The three statements -/

theorem tokens_select_iff (etuId : Bytes) :
    tokens (Requete.select etuId).texte = some (jetonsSelect etuId) ↔ Plain quote etuId := by
  have htext : (Requete.select etuId).texte =
      phrase [ascii "SELECT", ascii "part_id", ascii "FROM", ascii "participant", ascii "where",
        ascii "part_idetudiant"] ++ 0x3D :: 0x20 :: quote :: (etuId ++ quote :: []) := by
    rw [Requete.texte, Requete.construit, strcat, strcat, List.append_assoc]
    rfl
  have hliteral : tokens (quote :: (etuId ++ quote :: [])) = some [.string etuId] ↔
      Plain quote etuId ∧ tokens [] = some [] :=
    tokens_literal_iff (by simp) fun m r' h => absurd h (by simp)
  rw [htext]
  refine (tokens_phrase_iff rfl).trans ((tokens_symbol_iff rfl).trans ?_)
  rw [tokens_space rfl, hliteral]
  exact and_iff_left (by rw [tokens])

theorem quote_notMem_decimal (n : ℤ) : quote ∉ decimal n := by
  have hnat : ∀ k : ℕ, quote ∉ ascii (toString k) := fun k hk =>
    absurd (List.all_eq_true.mp (word_nat k).2 _ hk) (by decide)
  cases n with
  | ofNat n => exact hnat n
  | negSucc n =>
    rw [decimal_negSucc, List.mem_cons]
    exact not_or.mpr ⟨by decide, hnat _⟩

theorem tokens_carte_iff (cardId : Bytes) (id : ℤ) :
    tokens (Requete.insertCarte cardId (decimal id)).texte = some (jetonsCarte cardId id) ↔
      Plain quote cardId := by
  have htext : (Requete.insertCarte cardId (decimal id)).texte =
      phrase [ascii "INSERT", ascii "INTO", ascii "carte"] ++ (ascii "VALUES" ++
        0x28 :: quote :: (cardId ++ quote :: 0x2C :: 0x20 :: (decimal id ++ [0x29]))) := by
    simp only [Requete.texte, Requete.construit, strcat, List.append_assoc]
    rfl
  have hclose : tokens (0x2C :: 0x20 :: (decimal id ++ [0x29])) =
      some (.symbol 0x2C :: (jetonsNombre id ++ [.symbol 0x29])) := by
    rw [tokens_symbol_iff rfl, tokens_space rfl, tokens_decimal_iff id rfl, tokens_symbol_iff rfl,
      tokens]
  have hquote : quote ∉ 0x2C :: 0x20 :: (decimal id ++ [0x29]) := by
    have hid := quote_notMem_decimal id
    simp [quote, hid]
  rw [htext]
  refine (tokens_phrase_iff rfl).trans ((tokens_word_iff (by decide) rfl rfl).trans
    ((tokens_symbol_iff rfl).trans ((tokens_literal_iff (by simp [quote]) ?_).trans ?_)))
  · intro m r' h
    exact absurd (h ▸ List.mem_append_right m (List.mem_cons_self ..)) hquote
  · exact and_iff_left hclose

/-- What stands behind the two strings of a lap. -/
def finPassage : Bytes := 0x2C :: 0x20 :: (ascii "CURRENT_TIMESTAMP" ++ [0x29])

theorem tokens_finPassage :
    tokens finPassage = some [.symbol 0x2C, .word (ascii "CURRENT_TIMESTAMP"), .symbol 0x29] := by
  rw [finPassage, tokens_symbol_iff rfl, tokens_space rfl, tokens_word_iff (by decide) rfl rfl,
    tokens_symbol_iff rfl, tokens]

theorem tokens_machine_iff (machineName : Bytes) :
    tokens (0x2C :: 0x20 :: quote :: (machineName ++ quote :: finPassage)) =
        some [.symbol 0x2C, .string machineName, .symbol 0x2C, .word (ascii "CURRENT_TIMESTAMP"),
          .symbol 0x29] ↔
      Plain quote machineName := by
  rw [tokens_symbol_iff rfl, tokens_space rfl, tokens_literal_iff (by decide)]
  · exact and_iff_left tokens_finPassage
  · intro m r' h
    have hquote : quote ∉ finPassage := by decide
    exact absurd (h ▸ List.mem_append_right m (List.mem_cons_self ..)) hquote

/-- Behind a later quote there is no room for the machine's name and what follows
it. -/
theorem tokens_machine_ne (machineName : Bytes) {m r' : Bytes}
    (h : 0x2C :: 0x20 :: quote :: (machineName ++ quote :: finPassage) = m ++ quote :: r') :
    tokens r' ≠ some [.symbol 0x2C, .string machineName, .symbol 0x2C,
      .word (ascii "CURRENT_TIMESTAMP"), .symbol 0x29] := by
  intro htoks
  have hmin := sum_minLength_le htoks
  -- the quote is not one of the first two bytes
  have hm : 2 ≤ m.length := by
    rcases m with _ | ⟨c, _ | ⟨d, m⟩⟩
    · exact absurd h (by simp [quote])
    · exact absurd h (by simp [quote])
    · simp
  have hlen := congrArg List.length h
  have hfin : finPassage.length = 20 := rfl
  have htime : (ascii "CURRENT_TIMESTAMP").length = 17 := rfl
  simp only [List.length_cons, List.length_append, List.map_cons, List.map_nil, List.sum_cons,
    List.sum_nil, Token.minLength, hfin, htime] at hlen hmin
  omega

theorem tokens_passage_iff (carteId machineName : Bytes) :
    tokens (Requete.insertPassage carteId machineName).texte =
        some (jetonsPassage carteId machineName) ↔
      Plain quote carteId ∧ Plain quote machineName := by
  have htext : (Requete.insertPassage carteId machineName).texte =
      phrase [ascii "INSERT", ascii "INTO", ascii "passage"] ++ (ascii "VALUES" ++
        0x28 :: (ascii "DEFAULT" ++ 0x2C :: 0x20 :: quote :: (carteId ++
          quote :: 0x2C :: 0x20 :: quote :: (machineName ++ quote :: finPassage)))) := by
    simp only [Requete.texte, Requete.construit, strcat, List.append_assoc]
    rfl
  rw [htext]
  refine (tokens_phrase_iff rfl).trans ((tokens_word_iff (by decide) rfl rfl).trans
    ((tokens_symbol_iff rfl).trans ((tokens_word_iff (by decide) rfl rfl).trans
      ((tokens_symbol_iff rfl).trans ?_))))
  rw [tokens_space rfl, tokens_literal_iff (by simp [quote]) fun m r' h => tokens_machine_ne _ h,
    tokens_machine_iff]

/-- **Values reach the database as data** exactly if none of them has a quote, or a
backslash that is not before `%` or `_`. -/
theorem values_as_data (cardId etuId machineName : Bytes) (id : ℤ) :
    AsData cardId etuId machineName id ↔
      Plain quote cardId ∧ Plain quote etuId ∧ Plain quote machineName := by
  rw [AsData, tokens_select_iff, tokens_carte_iff, tokens_passage_iff]
  tauto

/-- A card whose identifier has the byte `27`. -/
theorem not_asData_quote :
    ¬ AsData [0x04, 0x27, 0x22, 0x33, 0x90] (ascii "e1") (ascii "1") 1 := by
  rintro ⟨-, hcarte, -⟩
  rw [tokens_carte_iff] at hcarte
  revert hcarte
  decide

end Card
end RondeDesFacs
