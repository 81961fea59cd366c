import RondeDesFacs.Base.Text
import RondeDesFacs.Library.Terminated
import Mathlib.Data.List.GetD

/-!
# The machine at the side of the course

`main` connects to a card reader and then, card after card, asks for the card's
identifier (its UID) and records it in the database.  A run of it is determined by
what the reader answers and what the operator types; each iteration of the loop
takes these from a `Passe`.  The waiting for a card is left out: an iteration
starts when there is one.

What a run does is a list of *actions*.  Besides the calls of the smart card
service and of the database client these are the reads of `baResponseApdu`, by
index, because the buffer is longer than any answer and what stands behind the
answer is what earlier answers left there.

Three details of the source decide what happens.

* `PCSC_Exchange` sets `lResponseApduLen` and the buffer through the transmission
  itself.  When it fails, both hold whatever it left in them.
* `main` drops the result of `PCSC_Exchange` and tests `lRetValue` once more, which
  is still the result of `PCSC_GetAtrString`.
* The length is unsigned, and so is `lResponseApduLen - 2`.
-/

namespace RondeDesFacs
namespace Card

open Terminated

/-! ## What the reader and the operator do -/

/-- `RcvLenMax`. -/
def rcvLenMax : ℕ := 16

/-- What a card answers. -/
abbrev Reponse := { r : Bytes // r.length ≤ rcvLenMax }

/-- A code other than `SCARD_S_SUCCESS`. -/
abbrev ErrorCode := { code : ℤ // code ≠ 0 }

/-- The outcome of `SCardTransmit`.  A failed one says nothing about the buffer and
the length. -/
inductive Transmit where
  | received (r : Reponse)
  | failed (code : ErrorCode) (apdu : Bytes) (len : UInt32)
  deriving DecidableEq

/-- `m_dwActiveProtocol`. -/
inductive Protocol where
  | t0
  | t1
  | undefined
  | other
  deriving DecidableEq

/-- The header of a transmission: `SCARD_PCI_T0`, `SCARD_PCI_T1` or
`SCARD_PCI_RAW`. -/
inductive IoRequest where
  | t0
  | t1
  | raw
  deriving DecidableEq

/-- What an iteration meets: the codes of the calls, the protocol and the answer of
the card, and what `scanf` reads. -/
structure Passe where
  connect : ℤ
  activeProtocol : Protocol
  getAttrib : ℤ
  freeMemory : ℤ
  transmit : Transmit
  /-- The number typed; none if what is typed is no number. -/
  option : Option ℤ
  /-- What stands at the address that is typed for the student number.  `scanf("%s", &etuId)`
  writes the word typed over the pointer itself, so what is handed on is not that word but
  the string of C at the address it makes.  Where nothing can be read at that address the
  program ends, in the call that reads it. -/
  etuId : Bytes

/-- The codes of `SCardEstablishContext`, `SCardListReaders` and `SCardFreeMemory`
at the start. -/
structure Demarrage where
  establishContext : ℤ
  listReaders : ℤ
  freeMemory : ℤ

/-! ## What the program does -/

/-- An action of the program. -/
inductive Action where
  | sCardEstablishContext (code : ℤ)
  | sCardListReaders (code : ℤ)
  | sCardFreeMemory (code : ℤ)
  | sCardConnect (code : ℤ)
  | sCardGetAttrib (code : ℤ)
  | sCardTransmit (ioRequest : IoRequest) (t : Transmit)
  /-- `baResponseApdu[i]` is read. -/
  | read (i : ℕ)
  | saveCardID (cardId etuId : Bytes)
  | saveLapDateTime (carteId machineName : Bytes)
  | sCardDisconnect (code : ℤ)
  | sCardReleaseContext (code : ℤ)
  deriving DecidableEq

/-- The variables that outlive an iteration.  `baResponseApdu` is the memory from
its first byte on. -/
structure Etat where
  baResponseApdu : Bytes
  lResponseApduLen : UInt32
  option : ℤ
  activeProtocol : Protocol

/-- The byte at an index. -/
def Etat.at (s : Etat) (i : UInt32) : UInt8 := s.baResponseApdu.getD i.toNat 0

/-- The buffer, read as a C string. -/
def Etat.cString (s : Etat) : Bytes := upTo 0 s.baResponseApdu

/-- `PCSC_Connect(NULL)`: the actions and the result. -/
def connect (d : Demarrage) : List Action × ℤ :=
  if d.establishContext ≠ 0 then ([.sCardEstablishContext d.establishContext], d.establishContext)
  else if d.listReaders ≠ 0 then
    ([.sCardEstablishContext 0, .sCardListReaders d.listReaders], d.listReaders)
  else
    ([.sCardEstablishContext 0, .sCardListReaders 0, .sCardFreeMemory d.freeMemory], d.freeMemory)

/-- `PCSC_ActivateCard`. -/
def activateCard (s : Etat) (p : Passe) : List Action × Etat × ℤ :=
  let s' := { s with activeProtocol := p.activeProtocol }
  if p.connect ≠ 0 then ([.sCardConnect p.connect], s', p.connect)
  else match p.activeProtocol with
    | .undefined => ([.sCardConnect 0], s', -1)
    | _ => ([.sCardConnect 0], s', 0)

/-- `PCSC_GetAtrString`. -/
def getAtrString (p : Passe) : List Action × ℤ :=
  if p.getAttrib ≠ 0 then ([.sCardGetAttrib p.getAttrib], p.getAttrib)
  else ([.sCardGetAttrib 0, .sCardFreeMemory p.freeMemory], p.freeMemory)

/-- `printHexString` of the start of the buffer. -/
def printHexString (dataLen : UInt32) : List Action := (List.range dataLen.toNat).map .read

/-- The `switch` of `PCSC_Exchange`. -/
def ioRequest : Protocol → IoRequest
  | .t0 => .t0
  | .t1 => .t1
  | _ => .raw

/-- `PCSC_Exchange`. -/
def exchange (s : Etat) (t : Transmit) : List Action × Etat × ℤ :=
  match t with
  | .failed code apdu len =>
    ([.sCardTransmit (ioRequest s.activeProtocol) t],
      { s with baResponseApdu := apdu, lResponseApduLen := len }, code)
  | .received r =>
    let len := UInt32.ofNat r.1.length
    (.sCardTransmit (ioRequest s.activeProtocol) t :: printHexString len ++
      [.read (len - 2).toNat, .read (len - 1).toNat],
      { s with baResponseApdu := r.1 ++ s.baResponseApdu.drop r.1.length,
               lResponseApduLen := len }, 0)

/-- What is done with a card, by the option chosen.  The database client reads the
identifier up to its terminator, and the student number at an address that `scanf` has
made of what was typed; if that is a bad one the run ends there, and what follows in the
list is not done (`Liaison.lisible`). -/
def choix (machineName : Bytes) (s : Etat) (p : Passe) : List Action :=
  let cardId := s.cString
  let reads := (List.range (cardId.length + 1)).map Action.read
  if s.option = 1 then .saveCardID cardId p.etuId :: reads
  else if s.option = 2 then .saveLapDateTime cardId machineName :: reads
  else []

/-- The test of the status word and what depends on it. -/
def verifie (machineName : Bytes) (s : Etat) (p : Passe) : List Action × Etat :=
  let sw1 := s.lResponseApduLen - 2
  let sw2 := s.lResponseApduLen - 1
  if s.at sw1 = 0x90 then
    if s.at sw2 = 0x00 then
      let s' := { s with option := p.option.getD s.option }
      (.read sw1.toNat :: .read sw2.toNat :: printHexString sw1 ++ choix machineName s' p, s')
    else ([.read sw1.toNat, .read sw2.toNat], s)
  else ([.read sw1.toNat], s)

/-- The body of the loop: the actions, and the variables unless `main` returns. -/
def corps (machineName : Bytes) (s : Etat) (p : Passe) : List Action × Option Etat :=
  let (activate, s₁, activated) := activateCard s p
  if activated ≠ 0 then (activate, none)
  else
    let (getAtr, lRetValue) := getAtrString p
    if lRetValue ≠ 0 then (activate ++ getAtr, none)
    else
      let (transmit, s₂, _) := exchange s₁ p.transmit
      -- the result of the exchange is not looked at
      if lRetValue ≠ 0 then (activate ++ getAtr ++ transmit, none)
      else
        let (record, s₃) := verifie machineName s₂ p
        (activate ++ getAtr ++ transmit ++ record, some s₃)

/-- How far a run has come. -/
inductive Issue where
  | enCours (s : Etat)
  | erreur
  | quitte

/-- The loop: the actions of each iteration. -/
def boucle (machineName : Bytes) : Etat → List Passe → List (List Action) × Issue
  | s, [] => ([], .enCours s)
  | s, p :: ps =>
    match corps machineName s p with
    | (log, none) => ([log], .erreur)
    | (log, some s') =>
      if s'.option = 3 then ([log], .quitte)
      else
        let (logs, issue) := boucle machineName s' ps
        (log :: logs, issue)

/-- `PCSC_Disconnect`. -/
def disconnect (disconnected released : ℤ) : List Action :=
  if disconnected ≠ 0 then [.sCardDisconnect disconnected]
  else [.sCardDisconnect 0, .sCardReleaseContext released]

/-- `main`, as far as the cards presented take it. -/
def main (machineName : Bytes) (d : Demarrage) (s : Etat) (ps : List Passe)
    (disconnected released : ℤ) : List Action :=
  let (start, connected) := connect d
  if connected ≠ 0 then start
  else
    let (logs, issue) := boucle machineName s ps
    start ++ logs.flatten ++
      match issue with
      | .quitte => disconnect disconnected released
      | _ => []

/-! ## The answer in the buffer -/

/-- The buffer starts with an answer, and the length is its length. -/
structure Etat.Holds (s : Etat) (r : Reponse) : Prop where
  buffer : ∃ rest, s.baResponseApdu = r.1 ++ rest
  len : s.lResponseApduLen = UInt32.ofNat r.1.length

/-- An exchange that succeeds puts the answer into the buffer. -/
theorem holds_exchange (s : Etat) (r : Reponse) : (exchange s (.received r)).2.1.Holds r :=
  ⟨⟨_, rfl⟩, rfl⟩

/-- The length of an answer is small enough to subtract from. -/
theorem Etat.Holds.toNat_len_sub {s : Etat} {r : Reponse} (h : s.Holds r) {k : ℕ}
    (hk : k ≤ r.1.length) : (s.lResponseApduLen - UInt32.ofNat k).toNat = r.1.length - k := by
  have hmax : r.1.length ≤ 16 := r.2
  have hle : UInt32.ofNat k ≤ UInt32.ofNat r.1.length := by
    rw [UInt32.le_iff_toNat_le, UInt32.toNat_ofNat', UInt32.toNat_ofNat']
    omega
  rw [h.len, UInt32.toNat_sub_of_le _ _ hle, UInt32.toNat_ofNat', UInt32.toNat_ofNat']
  omega

/-- The last bytes of the answer are where the program looks for them. -/
theorem Etat.Holds.at_len_sub {s : Etat} {r : Reponse} (h : s.Holds r) {k : ℕ} (hpos : 1 ≤ k)
    (hk : k ≤ r.1.length) :
    s.at (s.lResponseApduLen - UInt32.ofNat k) = r.1.getD (r.1.length - k) 0 := by
  obtain ⟨rest, hrest⟩ := h.buffer
  rw [Etat.at, h.toNat_len_sub hk, hrest, List.getD_append _ _ _ _ (by omega)]

/-! ## Iterations -/

/-- Every iteration of a run is the body of the loop at some state and some card
presented. -/
theorem exists_corps_of_mem_boucle {machineName : Bytes} {s : Etat} {ps : List Passe}
    {log : List Action} (h : log ∈ (boucle machineName s ps).1) :
    ∃ s' p, p ∈ ps ∧ log = (corps machineName s' p).1 := by
  induction ps generalizing s with
  | nil => exact absurd h List.not_mem_nil
  | cons p ps ih =>
    rcases hcorps : corps machineName s p with ⟨log', _ | s'⟩
    · rw [boucle, hcorps, List.mem_singleton] at h
      exact ⟨s, p, List.mem_cons_self .., by rw [hcorps, h]⟩
    · rw [boucle, hcorps] at h
      by_cases hquit : s'.option = 3
      · simp only [hquit, if_true, List.mem_singleton] at h
        exact ⟨s, p, List.mem_cons_self .., by rw [hcorps, h]⟩
      · simp only [hquit, if_false, List.mem_cons] at h
        rcases h with h | h
        · exact ⟨s, p, List.mem_cons_self .., by rw [hcorps, h]⟩
        · obtain ⟨s'', q, hq, hlog⟩ := ih h
          exact ⟨s'', q, List.mem_cons_of_mem _ hq, hlog⟩

/-- The actions that come before a transmission. -/
def Action.Early : Action → Prop
  | .sCardConnect _ | .sCardGetAttrib _ | .sCardFreeMemory _ => True
  | _ => False

theorem activateCard_fst (s : Etat) (p : Passe) :
    (activateCard s p).1 = [.sCardConnect p.connect] := by
  unfold activateCard
  split_ifs with h
  · rfl
  · rw [not_not.mp h]
    cases p.activeProtocol <;> rfl

theorem early_activateCard (s : Etat) (p : Passe) :
    ∀ a ∈ (activateCard s p).1, Action.Early a := by
  intro a ha
  rw [activateCard_fst, List.mem_singleton] at ha
  rw [ha]
  trivial

theorem activateCard_etat (s : Etat) (p : Passe) :
    (activateCard s p).2.1 = { s with activeProtocol := p.activeProtocol } := by
  unfold activateCard
  split_ifs
  · rfl
  · cases hp : p.activeProtocol <;> rfl

theorem early_getAtrString (p : Passe) : ∀ a ∈ (getAtrString p).1, Action.Early a := by
  intro a ha
  unfold getAtrString at ha
  split_ifs at ha
  · rw [List.mem_singleton.mp ha]
    trivial
  · simp only [List.mem_cons, List.not_mem_nil, or_false] at ha
    rcases ha with rfl | rfl <;> trivial

/-- What an iteration does once the card has been activated and its description
read: the exchange and the test of the status word, however the exchange ended. -/
def suite (machineName : Bytes) (s : Etat) (p : Passe) : List Action × Etat :=
  let (transmit, s', _) := exchange s p.transmit
  let (record, s'') := verifie machineName s' p
  (transmit ++ record, s'')

/-- The body of the loop, without its local names. -/
theorem corps_eq (machineName : Bytes) (s : Etat) (p : Passe) :
    corps machineName s p =
      if (activateCard s p).2.2 ≠ 0 then ((activateCard s p).1, none)
      else if (getAtrString p).2 ≠ 0 then ((activateCard s p).1 ++ (getAtrString p).1, none)
      else
        ((activateCard s p).1 ++ (getAtrString p).1 ++
            (suite machineName (activateCard s p).2.1 p).1,
          some (suite machineName (activateCard s p).2.1 p).2) := by
  rcases hact : activateCard s p with ⟨activate, s₁, activated⟩
  rcases hatr : getAtrString p with ⟨getAtr, lRetValue⟩
  by_cases h1 : activated = 0
  · by_cases h2 : lRetValue = 0 <;> simp [corps, hact, hatr, h1, h2, suite]
  · simp [corps, hact, h1]

/-- **What an iteration does.**  It stops before the transmission, and `main`
returns; or it goes on to the end. -/
theorem corps_cases (machineName : Bytes) (s : Etat) (p : Passe) :
    ((∀ a ∈ (corps machineName s p).1, a.Early) ∧ (corps machineName s p).2 = none) ∨
    ∃ early, (∀ a ∈ early, Action.Early a) ∧
      corps machineName s p =
        (early ++ (suite machineName { s with activeProtocol := p.activeProtocol } p).1,
          some (suite machineName { s with activeProtocol := p.activeProtocol } p).2) := by
  have hactivate := early_activateCard s p
  have hboth : ∀ a ∈ (activateCard s p).1 ++ (getAtrString p).1, Action.Early a := by
    intro a ha
    rcases List.mem_append.mp ha with ha | ha
    · exact hactivate a ha
    · exact early_getAtrString p a ha
  rw [corps_eq, activateCard_etat]
  split_ifs
  · exact Or.inl ⟨hactivate, rfl⟩
  · exact Or.inl ⟨hboth, rfl⟩
  · exact Or.inr ⟨_, hboth, rfl⟩

end Card
end RondeDesFacs
