import RondeDesFacs.Card.Identity
import Mathlib.Tactic.IntervalCases

/-!
# A card is recorded from its own answer

An iteration is in order if all it reads of `baResponseApdu`, and all it records,
are bytes of the answer it has itself received.  One missing assignment stands
against this: the result of `PCSC_Exchange` is dropped, so after a failed
transmission the program goes on, looks for the status word in what an earlier
card left behind, and may record that card once more.  An answer of fewer than
two bytes is not looked at either, and its status word is sought in front of the
buffer.

Nothing else goes wrong.  In an answer that ends with `90 00` the string ends
within the answer, so an iteration is in order exactly when its transmission, if
it comes to one, brings at least two bytes (`ownResponse_corps_iff`).
-/

namespace RondeDesFacs
namespace Card

open Terminated

/-- All an iteration reads and records are bytes of the answer it has received. -/
structure OwnResponse (log : List Action) : Prop where
  saved : ∀ c ∈ cardIds log, ∃ io r, .sCardTransmit io (.received r) ∈ log ∧ c <+: r.1
  read : ∀ i, .read i ∈ log → ∃ io r, .sCardTransmit io (.received r) ∈ log ∧ i < r.1.length

/-- The transmissions of an iteration succeed, with a status word. -/
def Answered (log : List Action) : Prop :=
  ∀ io t, .sCardTransmit io t ∈ log → ∃ r : Reponse, t = .received r ∧ 2 ≤ r.1.length

/-! ## The actions of the parts -/

theorem mem_printHexString_iff {dataLen : UInt32} {a : Action} :
    a ∈ printHexString dataLen ↔ ∃ i, i < dataLen.toNat ∧ a = .read i := by
  simp only [printHexString, List.mem_map, List.mem_range, eq_comm]

/-- The actions of an exchange that succeeds: the transmission, and reads. -/
theorem mem_exchange_received_iff {s : Etat} {r : Reponse} {a : Action} :
    a ∈ (exchange s (.received r)).1 ↔
      a = .sCardTransmit (ioRequest s.activeProtocol) (.received r) ∨
        (∃ i, i < (UInt32.ofNat r.1.length).toNat ∧ a = .read i) ∨
        a = .read (UInt32.ofNat r.1.length - 2).toNat ∨
        a = .read (UInt32.ofNat r.1.length - 1).toNat := by
  simp only [exchange, List.cons_append, List.mem_cons, List.mem_append, mem_printHexString_iff,
    List.not_mem_nil, or_false]

/-- The actions of the recording: a record, and the reads of its string. -/
theorem mem_choix {machineName : Bytes} {s : Etat} {p : Passe} {a : Action}
    (h : a ∈ choix machineName s p) :
    a = .saveCardID s.cString p.etuId ∨ a = .saveLapDateTime s.cString machineName ∨
      ∃ i, i ≤ s.cString.length ∧ a = .read i := by
  unfold choix at h
  split_ifs at h with h1 h2
  · simp only [List.mem_cons, List.mem_map, List.mem_range, Nat.lt_succ_iff] at h
    rcases h with h | ⟨i, hi, h⟩
    · exact Or.inl h
    · exact Or.inr (Or.inr ⟨i, hi, h.symm⟩)
  · simp only [List.mem_cons, List.mem_map, List.mem_range, Nat.lt_succ_iff] at h
    rcases h with h | ⟨i, hi, h⟩
    · exact Or.inr (Or.inl h)
    · exact Or.inr (Or.inr ⟨i, hi, h.symm⟩)
  · exact absurd h List.not_mem_nil

/-- The test of the status word begins with a read. -/
theorem read_mem_verifie (machineName : Bytes) (s : Etat) (p : Passe) :
    .read (s.lResponseApduLen - 2).toNat ∈ (verifie machineName s p).1 := by
  simp only [verifie]
  split_ifs <;> exact List.mem_cons_self ..

/-- The actions of the test: reads, and the recording after a status `90 00`. -/
theorem mem_verifie {machineName : Bytes} {s : Etat} {p : Passe} {a : Action}
    (h : a ∈ (verifie machineName s p).1) :
    (∃ i, (i = (s.lResponseApduLen - 2).toNat ∨ i = (s.lResponseApduLen - 1).toNat ∨
        i < (s.lResponseApduLen - 2).toNat) ∧ a = .read i) ∨
      (s.at (s.lResponseApduLen - 1) = 0x00 ∧
        a ∈ choix machineName { s with option := p.option.getD s.option } p) := by
  simp only [verifie] at h
  split_ifs at h with h1 h2
  · simp only [List.cons_append, List.mem_cons, List.mem_append, mem_printHexString_iff] at h
    rcases h with h | h | ⟨i, hi, h⟩ | h
    · exact Or.inl ⟨_, Or.inl rfl, h⟩
    · exact Or.inl ⟨_, Or.inr (Or.inl rfl), h⟩
    · exact Or.inl ⟨i, Or.inr (Or.inr hi), h⟩
    · exact Or.inr ⟨h2, h⟩
  · simp only [List.mem_cons, List.not_mem_nil, or_false] at h
    rcases h with h | h
    · exact Or.inl ⟨_, Or.inl rfl, h⟩
    · exact Or.inl ⟨_, Or.inr (Or.inl rfl), h⟩
  · exact Or.inl ⟨_, Or.inl rfl, List.mem_singleton.mp h⟩

/-! ## The transmission of an iteration -/

theorem transmit_notMem_verifie {machineName : Bytes} {s : Etat} {p : Passe} {io : IoRequest}
    {t : Transmit} : Action.sCardTransmit io t ∉ (verifie machineName s p).1 := by
  intro h
  rcases mem_verifie h with ⟨i, -, h⟩ | ⟨-, h⟩
  · cases h
  · rcases mem_choix h with h | h | ⟨i, -, h⟩ <;> cases h

theorem transmit_mem_suite_iff {machineName : Bytes} {s : Etat} {p : Passe} {io : IoRequest}
    {t : Transmit} : Action.sCardTransmit io t ∈ (suite machineName s p).1 ↔
      io = ioRequest s.activeProtocol ∧ t = p.transmit := by
  rw [suite, List.mem_append, or_iff_left transmit_notMem_verifie]
  cases hp : p.transmit with
  | failed code apdu len => simp [exchange]
  | received r => simp [mem_exchange_received_iff]

/-! ## An answer with a status word -/

/-- An answer shorter than a status word: the program reads past it. -/
theorem Etat.Holds.length_le_toNat {s : Etat} {r : Reponse} (h : s.Holds r)
    (hr : r.1.length < 2) : r.1.length ≤ (s.lResponseApduLen - 2).toNat := by
  rw [h.len]
  interval_cases r.1.length <;> decide

/-- After the status `90 00` the string ends within the answer. -/
theorem Etat.Holds.cString {s : Etat} {r : Reponse} (h : s.Holds r) (hr : 1 ≤ r.1.length)
    (hsw2 : s.at (s.lResponseApduLen - 1) = 0x00) :
    s.cString <+: r.1 ∧ s.cString.length < r.1.length := by
  obtain ⟨rest, hrest⟩ := h.buffer
  have hbyte := h.at_len_sub (k := 1) le_rfl hr
  have hzero : (0 : UInt8) ∈ r.1 := by
    rw [List.getD_eq_getElem _ _ (by omega)] at hbyte
    rw [← hsw2]
    exact hbyte ▸ List.getElem_mem _
  have hstring : s.cString = upTo 0 r.1 := by
    rw [Etat.cString, hrest, upTo_append_of_mem hzero]
  rw [hstring]
  exact ⟨isPrefix_upTo 0 r.1, length_upTo_lt hzero⟩

/-- The exchange reads its own answer. -/
theorem lt_of_read_mem_exchange {s : Etat} {r : Reponse} (hr : 2 ≤ r.1.length) {i : ℕ}
    (hi : .read i ∈ (exchange s (.received r)).1) : i < r.1.length := by
  have hholds := holds_exchange s r
  have hsw1 : (UInt32.ofNat r.1.length - 2).toNat = r.1.length - 2 :=
    hholds.toNat_len_sub (k := 2) hr
  have hsw2 : (UInt32.ofNat r.1.length - 1).toNat = r.1.length - 1 :=
    hholds.toNat_len_sub (k := 1) (by omega)
  have hmax : r.1.length ≤ 16 := r.2
  rw [mem_exchange_received_iff, hsw1, hsw2, UInt32.toNat_ofNat'] at hi
  rcases hi with h | ⟨j, hj, h⟩ | h | h <;> cases h <;> omega

/-- **The test of the status word in an answer that has one.**  Nothing is read
or recorded but bytes of the answer. -/
theorem Etat.Holds.within {s : Etat} {r : Reponse} (h : s.Holds r) (hr : 2 ≤ r.1.length)
    (machineName : Bytes) (p : Passe) :
    (∀ c ∈ cardIds (verifie machineName s p).1, c <+: r.1) ∧
      ∀ i, .read i ∈ (verifie machineName s p).1 → i < r.1.length := by
  have hsw1 : (s.lResponseApduLen - 2).toNat = r.1.length - 2 := h.toNat_len_sub (k := 2) hr
  have hsw2 : (s.lResponseApduLen - 1).toNat = r.1.length - 1 :=
    h.toNat_len_sub (k := 1) (by omega)
  constructor
  · intro c hc
    rw [cardIds_verifie] at hc
    split_ifs at hc with hstatus
    · rw [List.mem_singleton.mp hc]
      exact (h.cString (by omega) hstatus.2.1).1
    · exact absurd hc List.not_mem_nil
  · intro i hi
    rcases mem_verifie hi with ⟨j, hj, heq⟩ | ⟨hzero, hi⟩
    · cases heq
      omega
    · have hlen := (h.cString (by omega) hzero).2
      rcases mem_choix hi with heq | heq | ⟨j, hj, heq⟩ <;> cases heq
      exact lt_of_le_of_lt hj hlen

/-! ## Iterations in order -/

/-- The second half of an iteration is in order exactly when the transmission
brings a status word. -/
theorem ownResponse_suite_iff {machineName : Bytes} {s : Etat} {p : Passe} :
    OwnResponse (suite machineName s p).1 ↔ Answered (suite machineName s p).1 := by
  have hread : .read ((exchange s p.transmit).2.1.lResponseApduLen - 2).toNat ∈
      (suite machineName s p).1 :=
    List.mem_append_right _ (read_mem_verifie machineName _ p)
  constructor
  · intro h io t ht
    obtain ⟨-, rfl⟩ := transmit_mem_suite_iff.mp ht
    -- the status word was sought in an answer
    obtain ⟨io', r, hr, hlt⟩ := h.read _ hread
    obtain ⟨-, heq⟩ := transmit_mem_suite_iff.mp hr
    refine ⟨r, heq.symm, ?_⟩
    by_contra hshort
    have hle := (holds_exchange s r).length_le_toNat (by omega)
    rw [← heq] at hlt
    omega
  · intro h
    obtain ⟨r, hr, hlen⟩ := h _ _ (transmit_mem_suite_iff.mpr ⟨rfl, rfl⟩)
    have hmem : .sCardTransmit (ioRequest s.activeProtocol) (.received r) ∈
        (suite machineName s p).1 := transmit_mem_suite_iff.mpr ⟨rfl, hr.symm⟩
    obtain ⟨hsaved, hbytes⟩ := (holds_exchange s r).within hlen machineName p
    constructor
    · intro c hc
      rw [cardIds_suite, hr] at hc
      exact ⟨_, r, hmem, hsaved c hc⟩
    · intro i hi
      refine ⟨_, r, hmem, ?_⟩
      rw [suite, hr] at hi
      rcases List.mem_append.mp hi with hi | hi
      · exact lt_of_read_mem_exchange hlen hi
      · exact hbytes i hi

theorem mem_early_append_iff {early l : List Action} (h : ∀ a ∈ early, Action.Early a)
    {a : Action} (ha : ¬ a.Early) : a ∈ early ++ l ↔ a ∈ l := by
  rw [List.mem_append, or_iff_right fun hmem => ha (h a hmem)]

/-- The actions before the transmission do not count. -/
theorem ownResponse_early_append_iff {early l : List Action} (h : ∀ a ∈ early, Action.Early a) :
    OwnResponse (early ++ l) ↔ OwnResponse l := by
  have htransmit : ∀ io t, .sCardTransmit io t ∈ early ++ l ↔ .sCardTransmit io t ∈ l :=
    fun io t => mem_early_append_iff h id
  have hcards : cardIds (early ++ l) = cardIds l := by
    rw [cardIds_append, cardIds_of_early h, List.nil_append]
  constructor
  · rintro ⟨hsaved, hread⟩
    simp only [hcards, htransmit] at hsaved hread
    exact ⟨hsaved, fun i hi => hread i (List.mem_append_right _ hi)⟩
  · rintro ⟨hsaved, hread⟩
    refine ⟨?_, fun i hi => ?_⟩
    · simpa only [hcards, htransmit] using hsaved
    · simpa only [htransmit] using hread i ((mem_early_append_iff h id).mp hi)

theorem answered_early_append_iff {early l : List Action} (h : ∀ a ∈ early, Action.Early a) :
    Answered (early ++ l) ↔ Answered l :=
  forall₂_congr fun _ _ => imp_congr_left (mem_early_append_iff h id)

/-- **An iteration is in order exactly when its transmission, if it comes to one,
brings a status word.** -/
theorem ownResponse_corps_iff (machineName : Bytes) (s : Etat) (p : Passe) :
    OwnResponse (corps machineName s p).1 ↔ Answered (corps machineName s p).1 := by
  rcases corps_cases machineName s p with ⟨hearly, -⟩ | ⟨early, hearly, hcorps⟩
  · -- no transmission, and nothing read or recorded
    constructor
    · intro _ io t ht
      exact absurd (hearly _ ht) id
    · intro _
      refine ⟨fun c hc => ?_, fun i hi => absurd (hearly _ hi) id⟩
      rw [cardIds_of_early hearly] at hc
      exact absurd hc List.not_mem_nil
  · rw [hcorps, ownResponse_early_append_iff hearly, answered_early_append_iff hearly]
    exact ownResponse_suite_iff

/-- **A card is recorded from its own answer.**  In every run of the loop, every
iteration is in order exactly when every transmission of the run brings a status
word. -/
theorem own_response (machineName : Bytes) (s : Etat) (ps : List Passe) :
    (∀ log ∈ (boucle machineName s ps).1, OwnResponse log) ↔
      ∀ log ∈ (boucle machineName s ps).1, Answered log := by
  refine forall₂_congr fun log hlog => ?_
  obtain ⟨s', p, -, rfl⟩ := exists_corps_of_mem_boucle hlog
  exact ownResponse_corps_iff machineName s' p

/-! ## A lap for the runner before -/

/-- The pass of a card whose transmission fails, with the buffer as it was. -/
def passeEchouee (apdu : Bytes) (len : UInt32) : Passe where
  connect := 0
  activeProtocol := .t1
  getAttrib := 0
  freeMemory := 0
  transmit := .failed ⟨-2146434967, by decide⟩ apdu len
  option := some 2
  etuId := []

/-- The buffer after the card `04 11 22 33`. -/
def bufferAvant : Bytes := [0x04, 0x11, 0x22, 0x33, 0x90, 0x00]

/-- A card is registered, the transmission of the next one fails, and a lap is
recorded for the first. -/
theorem own_response_passeEchouee :
    ∃ log ∈ (boucle (ascii "1") ⟨bufferAvant, 0, 0, .undefined⟩
        [enregistre ⟨[0x04, 0x11, 0x22, 0x33], by decide⟩, passeEchouee bufferAvant 6]).1,
      .saveLapDateTime [0x04, 0x11, 0x22, 0x33, 0x90] (ascii "1") ∈ log ∧ ¬ OwnResponse log := by
  refine ⟨(corps (ascii "1") ⟨bufferAvant, 6, 1, .t1⟩ (passeEchouee bufferAvant 6)).1,
    by decide, by decide, ?_⟩
  rw [ownResponse_corps_iff]
  intro h
  obtain ⟨r, hr, -⟩ := h .t1 (passeEchouee bufferAvant 6).transmit (by decide)
  cases hr

end Card
end RondeDesFacs
