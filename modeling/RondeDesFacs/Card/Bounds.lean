import RondeDesFacs.Card.OwnResponse

/-!
# The buffer and its bounds

`baResponseApdu` has 300 bytes, and no index into it is checked.  An index is computed from
`lResponseApduLen`, which is unsigned and which a transmission sets: to at most sixteen if it
succeeds, and to anything if it fails.

So the reads of a whole run stay within the buffer exactly when its transmissions are of
three kinds: an answer with a status word, a failed one that leaves a length from 2 to 300,
or one that leaves the length 301 and no `90` in the last byte, for then the test stops
before it reads behind the end (`reads_within`).  The string that is recorded never makes a
difference: the second byte of the status word is its terminator at the latest.
-/

namespace RondeDesFacs
namespace Card

open Terminated

/-- `baResponseApdu` has this many entries. -/
def apduMax : ℕ := 300

/-- What is read of the buffer is in it. -/
def Within (log : List Action) : Prop := ∀ i, .read i ∈ log → i < apduMax

/-- What a transmission has to leave. -/
def Transmit.Legible : Transmit → Prop
  | .received r => 2 ≤ r.1.length
  | .failed _ apdu len =>
    2 ≤ len.toNat ∧ len.toNat ≤ apduMax ∨ len.toNat = apduMax + 1 ∧ apdu.getD 299 0 ≠ 0x90

/-- All the transmissions leave it. -/
def Legible (log : List Action) : Prop := ∀ io t, .sCardTransmit io t ∈ log → t.Legible

/-! ## The test of the status word -/

theorem toNat_sub_two (len : UInt32) : (len - 2).toNat < apduMax ↔
    2 ≤ len.toNat ∧ len.toNat ≤ apduMax + 1 := by
  have hlt := len.toNat_lt
  have hsub : (len - 2).toNat = (4294967296 - 2 + len.toNat) % 4294967296 := UInt32.toNat_sub len 2
  rw [hsub, apduMax]
  omega

theorem toNat_sub_one (len : UInt32) : (len - 1).toNat < apduMax ↔
    1 ≤ len.toNat ∧ len.toNat ≤ apduMax := by
  have hlt := len.toNat_lt
  have hsub : (len - 1).toNat = (4294967296 - 1 + len.toNat) % 4294967296 := UInt32.toNat_sub len 1
  rw [hsub, apduMax]
  omega

/-- **The test of the status word stays in the buffer** exactly when its first byte is in
it, and the second one too if the first is `90`. -/
theorem within_verifie_iff (machineName : Bytes) (s : Etat) (p : Passe) :
    Within (verifie machineName s p).1 ↔
      (s.lResponseApduLen - 2).toNat < apduMax ∧
        (s.at (s.lResponseApduLen - 2) = 0x90 → (s.lResponseApduLen - 1).toNat < apduMax) := by
  constructor
  · intro h
    refine ⟨h _ (read_mem_verifie machineName s p), fun hsw1 => h _ ?_⟩
    simp only [verifie, if_pos hsw1]
    split_ifs <;> exact List.mem_cons_of_mem _ (List.mem_cons_self ..)
  · rintro ⟨hfirst, hsecond⟩ i hi
    by_cases hsw1 : s.at (s.lResponseApduLen - 2) = 0x90
    · rcases mem_verifie hi with ⟨j, rfl | rfl | hj, heq⟩ | ⟨hzero, hi⟩
      · cases heq
        exact hfirst
      · cases heq
        exact hsecond hsw1
      · cases heq
        exact hj.trans hfirst
      · -- the string ends at the second byte of the status word
        have hlen := length_upTo_le_of_getD (z := 0) hzero
        rcases mem_choix hi with heq | heq | ⟨j, hj, heq⟩ <;> cases heq
        exact (hj.trans hlen).trans_lt (hsecond hsw1)
    · simp only [verifie, if_neg hsw1, List.mem_singleton] at hi
      cases hi
      exact hfirst

/-! ## An iteration -/

theorem within_append_iff {l m : List Action} : Within (l ++ m) ↔ Within l ∧ Within m := by
  simp only [Within, List.mem_append, or_imp, forall_and]

theorem legible_append_iff {l m : List Action} : Legible (l ++ m) ↔ Legible l ∧ Legible m := by
  simp only [Legible, List.mem_append, or_imp, forall_and]

/-- A part of a run without reads and without transmissions. -/
theorem within_of_forall {l : List Action}
    (h : ∀ a ∈ l, (∀ i, a ≠ .read i) ∧ ∀ io t, a ≠ .sCardTransmit io t) : Within l ∧ Legible l :=
  ⟨fun i hi => absurd rfl ((h _ hi).1 i), fun io t ht => absurd rfl ((h _ ht).2 io t)⟩

theorem within_nil : Within [] ∧ Legible [] :=
  within_of_forall fun _ ha => absurd ha List.not_mem_nil

theorem within_early {l : List Action} (h : ∀ a ∈ l, Action.Early a) : Within l ∧ Legible l :=
  ⟨fun _ hi => absurd (h _ hi) id, fun _ _ ht => absurd (h _ ht) id⟩

/-- What is done with a card once it is activated. -/
theorem within_suite_iff (machineName : Bytes) (s : Etat) (p : Passe) :
    Within (suite machineName s p).1 ↔ Legible (suite machineName s p).1 := by
  have hlegible : Legible (suite machineName s p).1 ↔ p.transmit.Legible := by
    simp only [Legible, transmit_mem_suite_iff]
    exact ⟨fun h => h _ _ ⟨rfl, rfl⟩, fun h io t ht => ht.2 ▸ h⟩
  rw [hlegible, suite, within_append_iff]
  cases hp : p.transmit with
  | received r =>
    have hholds := holds_exchange s r
    have hmax : r.1.length ≤ 16 := r.2
    constructor
    · rintro ⟨-, hverifie⟩
      by_contra hshort
      have hread := hverifie _ (read_mem_verifie machineName _ p)
      rw [toNat_sub_two, hholds.len, UInt32.toNat_ofNat'] at hread
      have hlen : ¬ 2 ≤ r.1.length := hshort
      omega
    · intro hlen
      refine ⟨fun i hi => ?_, fun i hi => ?_⟩
      · have hlt := lt_of_read_mem_exchange hlen hi
        rw [apduMax]
        omega
      · have hlt := (hholds.within hlen machineName p).2 i hi
        rw [apduMax]
        omega
  | failed code apdu len =>
    have hexchange : Within (exchange s (.failed code apdu len)).1 := fun i hi => by
      cases List.mem_singleton.mp hi
    rw [and_iff_right hexchange, within_verifie_iff]
    change (len - 2).toNat < apduMax ∧
      (apdu.getD (len - 2).toNat 0 = 0x90 → (len - 1).toNat < apduMax) ↔ _
    rw [toNat_sub_two, toNat_sub_one, Transmit.Legible]
    by_cases hlen : len.toNat = apduMax + 1
    · have hlast : (len - 2).toNat = 299 := by
        have hsub : (len - 2).toNat = (4294967296 - 2 + len.toNat) % 4294967296 :=
          UInt32.toNat_sub len 2
        rw [hsub, hlen]
        rfl
      rw [hlast, hlen]
      simp [apduMax]
    · constructor
      · rintro ⟨⟨htwo, hmax⟩, -⟩
        exact Or.inl ⟨htwo, by omega⟩
      · rintro (⟨htwo, hmax⟩ | ⟨h, -⟩)
        · exact ⟨⟨htwo, by omega⟩, fun _ => ⟨by omega, hmax⟩⟩
        · exact absurd h hlen

theorem within_corps_iff (machineName : Bytes) (s : Etat) (p : Passe) :
    Within (corps machineName s p).1 ↔ Legible (corps machineName s p).1 := by
  rcases corps_cases machineName s p with ⟨hearly, -⟩ | ⟨early, hearly, hcorps⟩
  · exact iff_of_true (within_early hearly).1 (within_early hearly).2
  · rw [hcorps, within_append_iff, legible_append_iff, and_iff_right (within_early hearly).1,
      and_iff_right (within_early hearly).2]
    exact within_suite_iff _ _ _

/-! ## A run -/

theorem within_flatten_iff {logs : List (List Action)}
    (h : ∀ log ∈ logs, Within log ↔ Legible log) : Within logs.flatten ↔ Legible logs.flatten := by
  induction logs with
  | nil => exact iff_of_true within_nil.1 within_nil.2
  | cons log logs ih =>
    rw [List.forall_mem_cons] at h
    rw [List.flatten_cons, within_append_iff, legible_append_iff, h.1, ih h.2]

theorem within_connect (d : Demarrage) : Within (connect d).1 ∧ Legible (connect d).1 := by
  refine within_of_forall fun a ha => ?_
  unfold connect at ha
  split_ifs at ha <;> simp only [List.mem_cons, List.not_mem_nil, or_false] at ha
  · rw [ha]
    exact ⟨fun _ => Action.noConfusion, fun _ _ => Action.noConfusion⟩
  · rcases ha with rfl | rfl <;>
      exact ⟨fun _ => Action.noConfusion, fun _ _ => Action.noConfusion⟩
  · rcases ha with rfl | rfl | rfl <;>
      exact ⟨fun _ => Action.noConfusion, fun _ _ => Action.noConfusion⟩

theorem within_disconnect (disconnected released : ℤ) :
    Within (disconnect disconnected released) ∧ Legible (disconnect disconnected released) := by
  refine within_of_forall fun a ha => ?_
  unfold disconnect at ha
  split_ifs at ha <;> simp only [List.mem_cons, List.not_mem_nil, or_false] at ha
  · rw [ha]
    exact ⟨fun _ => Action.noConfusion, fun _ _ => Action.noConfusion⟩
  · rcases ha with rfl | rfl <;>
      exact ⟨fun _ => Action.noConfusion, fun _ _ => Action.noConfusion⟩

/-- **The reads of a run stay within the buffer** exactly when each of its transmissions
leaves something legible. -/
theorem reads_within (machineName : Bytes) (d : Demarrage) (s : Etat) (ps : List Passe)
    (disconnected released : ℤ) :
    (∀ i, .read i ∈ main machineName d s ps disconnected released → i < apduMax) ↔
      ∀ io t, .sCardTransmit io t ∈ main machineName d s ps disconnected released →
        t.Legible := by
  change Within _ ↔ Legible _
  obtain ⟨hstart, hstart'⟩ := within_connect d
  have hlogs : ∀ log ∈ (boucle machineName s ps).1, Within log ↔ Legible log := fun log hlog => by
    obtain ⟨s', p, -, rfl⟩ := exists_corps_of_mem_boucle hlog
    exact within_corps_iff machineName s' p
  have hboucle := within_flatten_iff hlogs
  simp only [main]
  by_cases hconnected : (connect d).2 = 0
  · rw [if_neg (not_not.mpr hconnected), within_append_iff, legible_append_iff, within_append_iff,
      legible_append_iff, and_iff_right hstart, and_iff_right hstart', hboucle]
    cases (boucle machineName s ps).2 with
    | quitte =>
      rw [and_iff_left (within_disconnect _ _).1, and_iff_left (within_disconnect _ _).2]
    | _ => exact and_congr_right fun _ => iff_of_true within_nil.1 within_nil.2
  · rw [if_pos hconnected]
    exact iff_of_true hstart hstart'

end Card
end RondeDesFacs
