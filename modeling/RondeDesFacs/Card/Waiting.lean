import RondeDesFacs.Card.Handles
import Mathlib.Data.List.Chain
import Mathlib.Data.Nat.Bitwise

/-!
# The wait for a card

An iteration of `main` begins with a wait, and that is three loops in two functions.
`PCSC_WaitForCardPresent` asks the service once, and if the card is not there it asks again
until it is; `main` calls it until it reports no error.  Each of the three tests something
else: one whether the bit is the whole of what is left, one whether nothing is left, one
the code.

`mainAttente` is the program with its waits: a run meets one `Instant` after the other, the
answers of `SCardGetStatusChange`, and each comes with what an iteration would meet that
begins there.  The three loops are one, which goes to the first answer that is no error and
shows a card (`untilPresent_cons`).  So the program without its waits, `main`, is what is
left of this one when the waits are struck out, at the instants that show a card; and a card
is connected right after such an answer, and after every one of them (`attente`).  In
particular a card that is left on the reader is taken again and again.
-/

namespace RondeDesFacs
namespace Card

/-! ## The loops -/

/-- `SCARD_STATE_PRESENT`. -/
def scardStatePresent : UInt32 := 0x20

/-- An answer of `SCardGetStatusChange`, and what an iteration that begins there meets. -/
structure Instant where
  code : ℤ
  dwEventState : UInt32
  passe : Passe

/-- The answers that were taken, and the end of the wait if there was one: the code, the last
answer, and the answers to come. -/
abbrev Attente := List Instant × Option (ℤ × Instant × List Instant)

/-- The `do` loop of `PCSC_WaitForCardPresent`. -/
def waitForCard : List Instant → Attente
  | [] => ([], none)
  | i :: is =>
    if i.code ≠ 0 then ([i], some (i.code, i, is))
    else if i.dwEventState &&& scardStatePresent = 0 then
      let (log, fin) := waitForCard is
      (i :: log, fin)
    else ([i], some (0, i, is))

/-- `PCSC_WaitForCardPresent`. -/
def waitForCardPresent : List Instant → Attente
  | [] => ([], none)
  | i :: is =>
    if i.code ≠ 0 then ([i], some (i.code, i, is))
    else if i.dwEventState &&& scardStatePresent = scardStatePresent then ([i], some (0, i, is))
    else
      let (log, fin) := waitForCard is
      (i :: log, fin)

theorem length_waitForCard {is rest : List Instant} {log : List Instant} {code : ℤ} {i : Instant}
    (h : waitForCard is = (log, some (code, i, rest))) : rest.length < is.length := by
  induction is generalizing log with
  | nil => cases h
  | cons j is ih =>
    rw [waitForCard] at h
    split_ifs at h
    · cases h
      exact Nat.lt_succ_self _
    · obtain ⟨-, hfin⟩ := Prod.mk.inj h
      exact Nat.lt_succ_of_lt (ih (Prod.ext rfl hfin))
    · cases h
      exact Nat.lt_succ_self _

/-- One bit is all of it that is left, or nothing is. -/
theorem and_scardStatePresent (x : UInt32) :
    x &&& scardStatePresent = scardStatePresent ↔ x &&& scardStatePresent ≠ 0 := by
  have hbit : (x &&& scardStatePresent).toNat = (x.toNat.testBit 5).toNat * 2 ^ 5 := by
    rw [UInt32.toNat_and]
    exact Nat.and_two_pow x.toNat 5
  rw [ne_eq, ← UInt32.toNat_inj, ← UInt32.toNat_inj, hbit]
  cases x.toNat.testBit 5 <;> decide

/-- The first test says what the test of the loop says. -/
theorem waitForCardPresent_eq (is : List Instant) : waitForCardPresent is = waitForCard is := by
  cases is with
  | nil => rfl
  | cons i is =>
    have hbit := and_scardStatePresent i.dwEventState
    rw [waitForCardPresent, waitForCard]
    by_cases hcode : i.code ≠ 0
    · rw [if_pos hcode, if_pos hcode]
    · by_cases h : i.dwEventState &&& scardStatePresent = 0
      · rw [if_neg hcode, if_neg hcode, if_neg (fun hp => hbit.mp hp h), if_pos h]
      · rw [if_neg hcode, if_neg hcode, if_pos (hbit.mpr h), if_neg h]

/-- The wait in `main`. -/
def untilPresent (is : List Instant) : List Instant × Option (Instant × List Instant) :=
  match _h : waitForCardPresent is with
  | (log, none) => (log, none)
  | (log, some (code, i, rest)) =>
    if code ≠ 0 then
      let (log', fin) := untilPresent rest
      (log ++ log', fin)
    else (log, some (i, rest))
termination_by is.length
decreasing_by exact length_waitForCard (waitForCardPresent_eq is ▸ _h)

/-- No error, and a card. -/
def Instant.present (i : Instant) : Bool :=
  i.code = 0 && i.dwEventState &&& scardStatePresent ≠ 0

/-- The wait in `main`, at what one call gives. -/
theorem untilPresent_eq (is : List Instant) :
    untilPresent is =
      match waitForCard is with
      | (log, none) => (log, none)
      | (log, some (code, i, rest)) =>
        if code ≠ 0 then (log ++ (untilPresent rest).1, (untilPresent rest).2)
        else (log, some (i, rest)) := by
  rw [untilPresent]
  split <;> rename_i h <;> rw [← waitForCardPresent_eq, h]

/-- **The three loops are one.** -/
theorem untilPresent_cons (i : Instant) (is : List Instant) :
    untilPresent (i :: is) =
      if i.present then ([i], some (i, is))
      else (i :: (untilPresent is).1, (untilPresent is).2) := by
  rw [untilPresent_eq, waitForCard, Instant.present]
  by_cases hcode : i.code = 0
  · by_cases hbit : i.dwEventState &&& scardStatePresent = 0
    · rw [untilPresent_eq is]
      rcases waitForCard is with ⟨log, _ | ⟨code, j, rest⟩⟩
      · simp [hcode, hbit]
      · by_cases h : code = 0 <;> simp [hcode, hbit, h]
    · simp [hcode, hbit]
  · simp [hcode]

theorem untilPresent_nil : untilPresent [] = ([], none) := by
  rw [untilPresent_eq]
  rfl

theorem length_untilPresent {is rest : List Instant} {log : List Instant} {i : Instant}
    (h : untilPresent is = (log, some (i, rest))) : rest.length < is.length := by
  induction is generalizing log with
  | nil =>
    rw [untilPresent_nil] at h
    cases h
  | cons j is ih =>
    rw [untilPresent_cons] at h
    split_ifs at h
    · cases h
      exact Nat.lt_succ_self _
    · obtain ⟨-, hfin⟩ := Prod.mk.inj h
      exact Nat.lt_succ_of_lt (ih (Prod.ext rfl hfin))

/-! ## The program with its waits -/

/-- What the program does: an answer is taken, or something is done with a card. -/
inductive Evenement where
  | sCardGetStatusChange (i : Instant)
  | action (a : Action)

/-- The loop of `main`. -/
def boucleAttente (machineName : Bytes) (s : Etat) (is : List Instant) :
    List Evenement × Issue :=
  match _h : untilPresent is with
  | (log, none) => (log.map .sCardGetStatusChange, .enCours s)
  | (log, some (i, rest)) =>
    let start := log.map .sCardGetStatusChange ++ (corps machineName s i.passe).1.map .action
    match (corps machineName s i.passe).2 with
    | none => (start, .erreur)
    | some s' =>
      if s'.option = 3 then (start, .quitte)
      else
        let (log', issue) := boucleAttente machineName s' rest
        (start ++ log', issue)
termination_by is.length
decreasing_by exact length_untilPresent _h

/-- What `main` does behind its loop. -/
def ferme (disconnected released : ℤ) : Issue → List Action
  | .quitte => disconnect disconnected released
  | _ => []

/-- `main`. -/
def mainAttente (machineName : Bytes) (d : Demarrage) (s : Etat) (is : List Instant)
    (disconnected released : ℤ) : List Evenement :=
  let (start, connected) := connect d
  if connected ≠ 0 then start.map .action
  else
    let (log, issue) := boucleAttente machineName s is
    start.map .action ++ log ++ (ferme disconnected released issue).map .action

/-- What an instant does to the loop: an answer that shows no card is taken and nothing
else happens, and one that shows a card begins an iteration. -/
theorem boucleAttente_cons (machineName : Bytes) (s : Etat) (i : Instant) (is : List Instant) :
    boucleAttente machineName s (i :: is) =
      if i.present then
        let start := .sCardGetStatusChange i :: (corps machineName s i.passe).1.map .action
        match (corps machineName s i.passe).2 with
        | none => (start, .erreur)
        | some s' =>
          if s'.option = 3 then (start, .quitte)
          else (start ++ (boucleAttente machineName s' is).1, (boucleAttente machineName s' is).2)
      else
        (.sCardGetStatusChange i :: (boucleAttente machineName s is).1,
          (boucleAttente machineName s is).2) := by
  have hwait := untilPresent_cons i is
  by_cases hpresent : i.present = true
  · rw [if_pos hpresent] at hwait ⊢
    rw [boucleAttente]
    split <;> rename_i h <;> rw [hwait] at h
    · cases h
    · cases h
      rfl
  · rw [if_neg hpresent] at hwait ⊢
    rw [boucleAttente, boucleAttente]
    rcases huntil : untilPresent is with ⟨log, _ | ⟨j, rest⟩⟩
    · rw [huntil] at hwait
      split <;> rename_i h <;> rw [hwait] at h <;> cases h
      rfl
    · rw [huntil] at hwait
      split <;> rename_i h <;> rw [hwait] at h <;> cases h
      rcases (corps machineName s j.passe).2 with _ | s'
      · rfl
      · by_cases hquit : s'.option = 3 <;> simp [hquit]

theorem boucleAttente_nil (machineName : Bytes) (s : Etat) :
    boucleAttente machineName s [] = ([], .enCours s) := by
  rw [boucleAttente]
  split <;> rename_i h <;> rw [untilPresent_nil] at h <;> cases h
  rfl

/-! ## The waits struck out -/

/-- What is left when the waits are struck out. -/
def Evenement.action? : Evenement → Option Action
  | .sCardGetStatusChange _ => none
  | .action a => some a

theorem filterMap_action (l : List Action) :
    (l.map Evenement.action).filterMap Evenement.action? = l := by
  rw [List.filterMap_map]
  exact List.filterMap_some

theorem filterMap_answer (i : Instant) (l : List Evenement) :
    (.sCardGetStatusChange i :: l).filterMap Evenement.action? =
      l.filterMap Evenement.action? :=
  List.filterMap_cons_none rfl

/-- What the iterations meet. -/
def passes (is : List Instant) : List Passe := (is.filter Instant.present).map Instant.passe

/-- **The loop without its waits** is the loop at the instants that show a card. -/
theorem boucle_passes (machineName : Bytes) (s : Etat) (is : List Instant) :
    ((boucleAttente machineName s is).1.filterMap Evenement.action?,
        (boucleAttente machineName s is).2) =
      ((boucle machineName s (passes is)).1.flatten, (boucle machineName s (passes is)).2) := by
  induction is generalizing s with
  | nil =>
    rw [boucleAttente_nil]
    rfl
  | cons i is ih =>
    rw [boucleAttente_cons]
    by_cases hpresent : i.present = true
    · have hpasses : passes (i :: is) = i.passe :: passes is := by
        rw [passes, List.filter_cons_of_pos hpresent, List.map_cons, passes]
      rw [if_pos hpresent, hpasses, boucle]
      rcases hcorps : corps machineName s i.passe with ⟨log, _ | s'⟩
      · simp only [filterMap_answer, filterMap_action, List.flatten_singleton]
      · by_cases hquit : s'.option = 3
        · simp only [hquit, if_true, filterMap_answer, filterMap_action, List.flatten_singleton]
        · obtain ⟨hlog, hissue⟩ := Prod.mk.inj (ih s')
          simp only [hquit, if_false, List.cons_append, filterMap_answer, List.filterMap_append,
            filterMap_action, List.flatten_cons, hlog, hissue]
    · have hpasses : passes (i :: is) = passes is := by
        rw [passes, List.filter_cons_of_neg hpresent, passes]
      rw [if_neg hpresent, hpasses, ← ih s]
      rfl

theorem main_eq (machineName : Bytes) (d : Demarrage) (s : Etat) (ps : List Passe)
    (disconnected released : ℤ) :
    main machineName d s ps disconnected released =
      if (connect d).2 ≠ 0 then (connect d).1
      else
        (connect d).1 ++ (boucle machineName s ps).1.flatten ++
          ferme disconnected released (boucle machineName s ps).2 := by
  rcases hboucle : boucle machineName s ps with ⟨logs, issue⟩
  simp only [main, hboucle]
  cases issue <;> rfl

/-! ## When a card is connected -/

/-- An answer that shows a card. -/
def Evenement.Shows : Evenement → Prop
  | .sCardGetStatusChange i => i.present
  | .action _ => False

/-- A card is connected. -/
def Evenement.Connects : Evenement → Prop
  | .action (.sCardConnect _) => True
  | _ => False

/-- A card is connected right after an answer that shows one, and after every such
answer. -/
structure EnOrdre (log : List Evenement) : Prop where
  chain : log.IsChain fun e e' => e.Shows ↔ e'.Connects
  head : ∀ e ∈ log.head?, ¬ e.Connects
  last : ∀ e ∈ log.getLast?, ¬ e.Shows

theorem enOrdre_nil : EnOrdre [] where
  chain := List.isChain_nil
  head := fun _ h => by cases h
  last := fun _ h => by cases h

theorem EnOrdre.append {l m : List Evenement} (hl : EnOrdre l) (hm : EnOrdre m) :
    EnOrdre (l ++ m) where
  chain := List.isChain_append.mpr ⟨hl.chain, hm.chain, fun e he e' he' =>
    iff_of_false (hl.last e he) (hm.head e' he')⟩
  head := by
    cases l with
    | nil => exact hm.head
    | cons e l => exact hl.head
  last := by
    rw [List.getLast?_append]
    intro e he
    cases hlast : m.getLast? with
    | none =>
      rw [hlast] at he
      exact hl.last e he
    | some e' =>
      rw [hlast] at he
      exact hm.last e (hlast ▸ he)

/-- Nothing is connected here, and no card shown. -/
theorem enOrdre_of_forall {l : List Evenement} (h : ∀ e ∈ l, ¬ e.Shows ∧ ¬ e.Connects) :
    EnOrdre l where
  chain := by
    induction l with
    | nil => exact List.isChain_nil
    | cons e l ih =>
      obtain ⟨he, hl⟩ := List.forall_mem_cons.mp h
      exact List.isChain_cons.mpr ⟨fun e' he' =>
        iff_of_false he.1 (hl e' (List.mem_of_mem_head? he')).2, ih hl⟩
  head := fun e he => (h e (List.mem_of_mem_head? he)).2
  last := fun e he => (h e (List.mem_of_getLast? he)).1

/-- Actions among which no card is connected. -/
theorem enOrdre_map_action {l : List Action} (h : ∀ a ∈ l, ∀ code, a ≠ .sCardConnect code) :
    EnOrdre (l.map .action) := by
  refine enOrdre_of_forall fun e he => ?_
  obtain ⟨a, ha, rfl⟩ := List.mem_map.mp he
  refine ⟨id, fun hconnects => ?_⟩
  cases a with
  | sCardConnect code => exact h _ ha code rfl
  | _ => exact hconnects

/-- An iteration with the answer it begins with. -/
theorem enOrdre_iteration {i : Instant} (h : i.present = true) (machineName : Bytes) (s : Etat) :
    EnOrdre (.sCardGetStatusChange i :: (corps machineName s i.passe).1.map .action) := by
  obtain ⟨log, hlog, hneutral⟩ := corps_fst machineName s i.passe
  have hrest : EnOrdre (log.map .action) := enOrdre_map_action fun a ha code hcode => by
    rw [hcode] at ha
    exact hneutral _ ha
  rw [hlog, List.map_cons]
  refine ⟨List.isChain_cons_cons.mpr ⟨iff_of_true h trivial, ?_⟩, fun e he => ?_, fun e he => ?_⟩
  · exact List.isChain_cons.mpr ⟨fun e he => iff_of_false id (hrest.head e he), hrest.chain⟩
  · cases he
    exact id
  · rw [List.getLast?_cons_cons, List.getLast?_cons] at he
    cases hlast : (log.map Evenement.action).getLast? with
    | none =>
      rw [hlast] at he
      cases he
      exact id
    | some e' =>
      rw [hlast] at he
      cases he
      exact hrest.last _ hlast

theorem enOrdre_boucleAttente (machineName : Bytes) (s : Etat) (is : List Instant) :
    EnOrdre (boucleAttente machineName s is).1 := by
  induction is generalizing s with
  | nil =>
    rw [boucleAttente_nil]
    exact enOrdre_nil
  | cons i is ih =>
    rw [boucleAttente_cons]
    by_cases hpresent : i.present = true
    · have hiteration := enOrdre_iteration hpresent machineName s
      rw [if_pos hpresent]
      rcases (corps machineName s i.passe).2 with _ | s'
      · exact hiteration
      · by_cases hquit : s'.option = 3
        · simpa only [hquit, if_true] using hiteration
        · simpa only [hquit, if_false] using hiteration.append (ih s')
    · rw [if_neg hpresent]
      have hanswer : EnOrdre [.sCardGetStatusChange i] := enOrdre_of_forall fun e he => by
        rw [List.mem_singleton.mp he]
        exact ⟨hpresent, id⟩
      exact hanswer.append (ih s)

/-- **The program with its waits.**  Without them it is `main` at the instants that show a
card; and a card is connected after each answer that shows one, and never else. -/
theorem attente (machineName : Bytes) (d : Demarrage) (s : Etat) (is : List Instant)
    (disconnected released : ℤ) :
    (mainAttente machineName d s is disconnected released).filterMap Evenement.action? =
        main machineName d s (passes is) disconnected released ∧
      EnOrdre (mainAttente machineName d s is disconnected released) := by
  have hstart : EnOrdre ((connect d).1.map .action) := enOrdre_map_action fun a ha code => by
    unfold connect at ha
    split_ifs at ha <;> simp only [List.mem_cons, List.not_mem_nil, or_false] at ha
    · rw [ha]
      exact Action.noConfusion
    · rcases ha with rfl | rfl <;> exact Action.noConfusion
    · rcases ha with rfl | rfl | rfl <;> exact Action.noConfusion
  by_cases hconnected : (connect d).2 = 0
  · obtain ⟨hlog, hissue⟩ := Prod.mk.inj (boucle_passes machineName s is)
    constructor
    · simp only [mainAttente, main_eq, hconnected, ne_eq, not_true_eq_false, if_false,
        List.filterMap_append, filterMap_action, hlog, hissue]
    · have hend : EnOrdre ((ferme disconnected released (boucleAttente machineName s is).2).map
          .action) := enOrdre_map_action fun a ha code => by
        unfold ferme at ha
        split at ha
        · unfold disconnect at ha
          split_ifs at ha <;> simp only [List.mem_cons, List.not_mem_nil, or_false] at ha
          · rw [ha]
            exact Action.noConfusion
          · rcases ha with rfl | rfl <;> exact Action.noConfusion
        · exact absurd ha List.not_mem_nil
      simp only [mainAttente, hconnected, ne_eq, not_true_eq_false, if_false]
      exact (hstart.append (enOrdre_boucleAttente machineName s is)).append hend
  · constructor
    · simp only [mainAttente, main_eq, hconnected, ne_eq, not_false_eq_true, if_true,
        filterMap_action]
    · simpa [mainAttente, hconnected] using hstart

end Card
end RondeDesFacs
