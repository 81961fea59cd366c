import RondeDesFacs.Card.Main

/-!
# The identity of a card

A card answers its identifier followed by the status word `90 00`, and the program
prints the identifier by its length.  What it *saves* is the buffer read as a C
string: the bytes before the first zero, wherever that stands, which is `cardId`.
The status word ends the string where the identifier has no zero, after the `90`;
what earlier answers left behind is never reached.

So two cards are one card to the database when a zero comes before the first
difference, or when one identifier looks like the other with its status word
(`Confusable`), and in no other case.
-/

namespace RondeDesFacs
namespace Card

open Terminated

/-- An identifier. -/
abbrev Uid := { u : Bytes // u.length ≤ 14 }

/-- The answer of a card: its identifier and the status `90 00`. -/
def reponse (u : Uid) : Reponse where
  val := u.1 ++ [0x90, 0x00]
  property := by
    have hu := u.2
    rw [List.length_append, rcvLenMax]
    simp only [List.length_cons, List.length_nil]
    omega

/-- The identifier an action records. -/
def Action.cardId? : Action → Option Bytes
  | .saveCardID cardId _ => some cardId
  | .saveLapDateTime carteId _ => some carteId
  | _ => none

/-- The identifiers recorded. -/
def cardIds (log : List Action) : List Bytes := log.filterMap Action.cardId?

/-- What is saved of an identifier. -/
def cardId (u : Bytes) : Bytes := upTo 0 (u ++ [0x90, 0x00])

/-! ## What is recorded -/

theorem cardIds_append (l m : List Action) : cardIds (l ++ m) = cardIds l ++ cardIds m :=
  List.filterMap_append

@[simp] theorem cardIds_read_cons (i : ℕ) (l : List Action) :
    cardIds (.read i :: l) = cardIds l := rfl

theorem cardIds_of_early {l : List Action} (h : ∀ a ∈ l, Action.Early a) : cardIds l = [] := by
  refine List.filterMap_eq_nil_iff.mpr fun a ha => ?_
  have hearly := h a ha
  cases a <;> first | rfl | exact absurd hearly id

theorem cardIds_map_read (l : List ℕ) : cardIds (l.map .read) = [] := by
  refine List.filterMap_eq_nil_iff.mpr fun a ha => ?_
  obtain ⟨i, -, rfl⟩ := List.mem_map.mp ha
  rfl

/-- An exchange records nothing. -/
theorem cardIds_exchange (s : Etat) (t : Transmit) : cardIds (exchange s t).1 = [] := by
  cases t with
  | failed code apdu len => rfl
  | received r =>
    rw [exchange, cardIds_append, printHexString, List.append_eq_nil_iff]
    exact ⟨cardIds_map_read _, rfl⟩

/-- An identifier is recorded if the card is fine and the option asks for it. -/
theorem cardIds_choix (machineName : Bytes) (s : Etat) (p : Passe) :
    cardIds (choix machineName s p) =
      if s.option = 1 ∨ s.option = 2 then [s.cString] else [] := by
  have hreads := cardIds_map_read (List.range (s.cString.length + 1))
  unfold choix
  by_cases h1 : s.option = 1
  · simp only [h1, true_or, if_true]
    exact congrArg _ hreads
  · by_cases h2 : s.option = 2
    · simp only [h2, or_true, if_true]
      rw [if_neg (by decide)]
      exact congrArg _ hreads
    · rw [if_neg h1, if_neg h2, if_neg (not_or.mpr ⟨h1, h2⟩)]
      rfl

/-- **What is recorded.**  The string in the buffer, where the status word is
`90 00` and the option asks for it. -/
theorem cardIds_verifie (machineName : Bytes) (s : Etat) (p : Passe) :
    cardIds (verifie machineName s p).1 =
      if s.at (s.lResponseApduLen - 2) = 0x90 ∧ s.at (s.lResponseApduLen - 1) = 0x00 ∧
          (p.option.getD s.option = 1 ∨ p.option.getD s.option = 2) then [s.cString]
      else [] := by
  unfold verifie
  by_cases h1 : s.at (s.lResponseApduLen - 2) = 0x90
  · by_cases h2 : s.at (s.lResponseApduLen - 1) = 0x00
    · simp only [h1, h2, if_true, true_and]
      rw [cardIds_append, cardIds_read_cons, cardIds_read_cons, printHexString,
        cardIds_map_read, cardIds_choix]
      rfl
    · simp only [h1, h2, if_true, if_false, false_and, and_false]
      rfl
  · simp only [h1, if_false, false_and]
    rfl

/-- The string in the buffer after an answer with status `90 00`.  It ends within
the answer. -/
theorem cString_exchange_reponse (s : Etat) (u : Uid) :
    (exchange s (.received (reponse u))).2.1.cString = cardId u.1 := by
  have hzero : (0 : UInt8) ∈ u.1 ++ [0x90, 0x00] := by simp
  exact upTo_append_of_mem hzero

/-- What an iteration records. -/
theorem cardIds_suite (machineName : Bytes) (s : Etat) (p : Passe) :
    cardIds (suite machineName s p).1 =
      cardIds (verifie machineName (exchange s p.transmit).2.1 p).1 := by
  rw [suite, cardIds_append, cardIds_exchange, List.nil_append]

/-- **What is recorded of a card.**  Its identifier as a string, whatever the
buffer held before. -/
theorem eq_cardId_of_mem_cardIds {machineName : Bytes} {s : Etat} {p : Passe} {u : Uid}
    (hp : p.transmit = .received (reponse u)) {c : Bytes}
    (hc : c ∈ cardIds (corps machineName s p).1) : c = cardId u.1 := by
  rcases corps_cases machineName s p with ⟨hearly, -⟩ | ⟨early, hearly, hcorps⟩
  · rw [cardIds_of_early hearly] at hc
    exact absurd hc List.not_mem_nil
  · rw [hcorps, cardIds_append, cardIds_of_early hearly, List.nil_append, cardIds_suite,
      cardIds_verifie, hp] at hc
    split_ifs at hc
    · rw [List.mem_singleton.mp hc, cString_exchange_reponse]
    · exact absurd hc List.not_mem_nil

/-- The pass of a card that is registered. -/
def enregistre (u : Uid) : Passe where
  connect := 0
  activeProtocol := .t1
  getAttrib := 0
  freeMemory := 0
  transmit := .received (reponse u)
  option := some 1
  etuId := []

/-- Every identifier comes to be recorded. -/
theorem cardId_mem_cardIds (machineName : Bytes) (s : Etat) (u : Uid) :
    cardId u.1 ∈ cardIds (corps machineName s (enregistre u)).1 := by
  have hcorps : cardIds (corps machineName s (enregistre u)).1 =
      cardIds (suite machineName { s with activeProtocol := .t1 } (enregistre u)).1 := rfl
  have hholds := holds_exchange { s with activeProtocol := .t1 } (reponse u)
  have hlen : (reponse u).1.length = u.1.length + 2 := by simp [reponse]
  have hsw1 := hholds.at_len_sub (k := 2) (by omega) (by omega)
  have hsw2 := hholds.at_len_sub (k := 1) (by omega) (by omega)
  have hbyte1 : (reponse u).1.getD ((reponse u).1.length - 2) 0 = 0x90 := by
    rw [hlen, Nat.add_sub_cancel, reponse, List.getD_append_right _ _ _ _ (by omega)]
    simp
  have hbyte2 : (reponse u).1.getD ((reponse u).1.length - 1) 0 = 0x00 := by
    rw [hlen, reponse, List.getD_append_right _ _ _ _ (by omega)]
    simp
  rw [hcorps, cardIds_suite, cardIds_verifie, if_pos]
  · rw [enregistre, cString_exchange_reponse]
    exact List.mem_singleton_self _
  · exact ⟨hsw1.trans hbyte1, hsw2.trans hbyte2, Or.inl rfl⟩

/-! ## Which identifiers are confused -/

/-- Two identifiers of which the same is saved: a zero comes before the first
difference, or one is the other with its status word and more. -/
inductive Confusable : Bytes → Bytes → Prop
  | zero (t s s' : Bytes) : 0 ∉ t → s ≠ s' → Confusable (t ++ 0 :: s) (t ++ 0 :: s')
  | status (u s : Bytes) : 0 ∉ u → Confusable u (u ++ 0x90 :: 0 :: s)
  | status' (u s : Bytes) : 0 ∉ u → Confusable (u ++ 0x90 :: 0 :: s) u

theorem cardId_of_notMem {u : Bytes} (h : 0 ∉ u) : cardId u = u ++ [0x90] := by
  rw [cardId, upTo_append_of_notMem h]
  rfl

theorem cardId_append_zero {t : Bytes} (h : 0 ∉ t) (s : Bytes) : cardId (t ++ 0 :: s) = t := by
  rw [cardId, List.append_assoc, upTo_append_of_notMem h, List.cons_append, upTo_cons_self,
    List.append_nil]

/-- An identifier without a zero, and one that has a zero. -/
theorem eq_append_of_cardId_eq {u t s : Bytes} (hu : 0 ∉ u) (ht : 0 ∉ t)
    (h : cardId u = cardId (t ++ 0 :: s)) : t ++ 0 :: s = u ++ 0x90 :: 0 :: s := by
  rw [cardId_of_notMem hu, cardId_append_zero ht] at h
  rw [← h, List.append_assoc, List.singleton_append]

/-- An identifier and its continuation by the status word. -/
theorem cardId_append_status {u : Bytes} (h : 0 ∉ u) (s : Bytes) :
    cardId (u ++ 0x90 :: 0 :: s) = cardId u := by
  have hzero : (0 : UInt8) ∉ u ++ [0x90] := by simp [h]
  have happ : u ++ 0x90 :: 0 :: s = (u ++ [0x90]) ++ 0 :: s := by simp
  rw [happ, cardId_append_zero hzero, cardId_of_notMem h]

theorem ne_append_status (u s : Bytes) : u ≠ u ++ 0x90 :: 0 :: s := by
  intro h
  have hlen := congrArg List.length h
  rw [List.length_append, List.length_cons] at hlen
  omega

/-- **Which identifiers are confused.** -/
theorem confusable_iff (u v : Bytes) : Confusable u v ↔ u ≠ v ∧ cardId u = cardId v := by
  constructor
  · intro h
    cases h with
    | zero t s s' ht hs =>
      refine ⟨fun h => hs ?_, by rw [cardId_append_zero ht, cardId_append_zero ht]⟩
      simpa using h
    | status u s hu => exact ⟨ne_append_status u s, (cardId_append_status hu s).symm⟩
    | status' u s hu => exact ⟨(ne_append_status v s).symm, cardId_append_status hu s⟩
  · rintro ⟨hne, h⟩
    by_cases hu : (0 : UInt8) ∈ u
    · obtain ⟨s, hs⟩ := exists_eq_upTo_append hu
      have ht : (0 : UInt8) ∉ upTo 0 u := notMem_upTo
      by_cases hv : (0 : UInt8) ∈ v
      · obtain ⟨s', hs'⟩ := exists_eq_upTo_append hv
        have ht' : (0 : UInt8) ∉ upTo 0 v := notMem_upTo
        have heq : upTo 0 u = upTo 0 v := by
          rw [hs, hs', cardId_append_zero ht, cardId_append_zero ht'] at h
          exact h
        rw [hs, hs', heq] at hne ⊢
        exact .zero _ _ _ ht' fun hss => hne (by rw [hss])
      · rw [hs] at h ⊢
        rw [eq_append_of_cardId_eq hv ht h.symm]
        exact .status' _ _ hv
    · by_cases hv : (0 : UInt8) ∈ v
      · obtain ⟨s', hs'⟩ := exists_eq_upTo_append hv
        rw [hs'] at h ⊢
        rw [eq_append_of_cardId_eq hu notMem_upTo h]
        exact .status _ _ hu
      · rw [cardId_of_notMem hu, cardId_of_notMem hv] at h
        exact absurd (List.append_cancel_right h) hne

/-- The identifiers recorded for two cards are equal exactly when the cards are
one, whatever was in the buffer. -/
def ToldApart (machineName : Bytes) (u v : Uid) : Prop :=
  ∀ (s t : Etat) (p q : Passe), p.transmit = .received (reponse u) →
    q.transmit = .received (reponse v) → ∀ c ∈ cardIds (corps machineName s p).1,
      ∀ d ∈ cardIds (corps machineName t q).1, (c = d ↔ u = v)

/-- Two cards are told apart when different strings are saved of them. -/
theorem toldApart_iff (machineName : Bytes) (u v : Uid) :
    ToldApart machineName u v ↔ (cardId u.1 = cardId v.1 → u = v) := by
  constructor
  · intro h heq
    have s : Etat := ⟨[], 0, 0, .undefined⟩
    exact (h s s _ _ rfl rfl _ (cardId_mem_cardIds machineName s u) _
      (cardId_mem_cardIds machineName s v)).mp heq
  · intro h s t p q hp hq c hc d hd
    rw [eq_cardId_of_mem_cardIds hp hc, eq_cardId_of_mem_cardIds hq hd]
    exact ⟨h, fun huv => by rw [huv]⟩

/-- **The identity of a card.**  Two cards are told apart exactly when they are
not confusable. -/
theorem card_identity (machineName : Bytes) (u v : Uid) :
    ToldApart machineName u v ↔ ¬ Confusable u.1 v.1 := by
  rw [toldApart_iff, confusable_iff]
  constructor
  · rintro h ⟨hne, heq⟩
    exact hne (congrArg Subtype.val (h heq))
  · intro h heq
    by_contra hne
    exact h ⟨fun huv => hne (Subtype.ext huv), heq⟩

/-- Two cards of four bytes that agree up to a zero. -/
theorem not_toldApart_zero :
    ¬ ToldApart (ascii "1") ⟨[0x04, 0x00, 0x11, 0x22], by decide⟩
      ⟨[0x04, 0x00, 0x33, 0x44], by decide⟩ := by
  rw [toldApart_iff]
  intro h
  exact absurd (h (by decide)) (by decide)

end Card
end RondeDesFacs
