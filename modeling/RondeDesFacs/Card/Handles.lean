import RondeDesFacs.Card.Main

/-!
# Handles of the smart card service

`SCardConnect` hands out a card handle, `SCardEstablishContext` a context.  A card is
taken exclusively, so a handle that is not given back blocks every later card, and
so does a context nobody releases.

The program gives both back at one place, behind the loop, and it gets there only by
the option `3`.  Every other way out of the loop is a `return` inside a macro, and
the way back to its start passes no `SCardDisconnect`.  So a run keeps the discipline
only if it has nothing to give back yet, or presents a single card, meets no error
with it, and leaves by the option `3` (`handle_discipline`).
-/

namespace RondeDesFacs
namespace Card

/-! ## What is held -/

/-- What the program holds of the service. -/
structure Ressources where
  /-- A card handle that has not been passed to `SCardDisconnect`. -/
  carte : Bool
  /-- A context that has not been released. -/
  contexte : Bool
  deriving DecidableEq

/-- Nothing. -/
def Ressources.aucune : Ressources := ⟨false, false⟩

/-- What is held after an action.  A call that fails hands out nothing; a handle
passed to `SCardDisconnect` is given back in any case. -/
def Ressources.apres (r : Ressources) : Action → Ressources
  | .sCardEstablishContext code => if code = 0 then { r with contexte := true } else r
  | .sCardConnect code => if code = 0 then { r with carte := true } else r
  | .sCardDisconnect _ => { r with carte := false }
  | .sCardReleaseContext code => if code = 0 then { r with contexte := false } else r
  | _ => r

/-- What is held after a list of actions. -/
def Ressources.apresTout (r : Ressources) (log : List Action) : Ressources :=
  log.foldl Ressources.apres r

/-- No card is connected while a handle is held. -/
def Exclusive : Ressources → List Action → Prop
  | _, [] => True
  | r, a :: log =>
    (∀ code, a = .sCardConnect code → r.carte = false) ∧ Exclusive (r.apres a) log

/-- Whether `main` has returned. -/
def returned (machineName : Bytes) (d : Demarrage) (s : Etat) (ps : List Passe) : Bool :=
  if (connect d).2 ≠ 0 then true
  else match (boucle machineName s ps).2 with
    | .enCours _ => false
    | _ => true

/-- No card is connected while a handle is held, and nothing is held when `main` has
returned. -/
def Discipline (machineName : Bytes) (d : Demarrage) (s : Etat) (ps : List Passe)
    (disconnected released : ℤ) : Prop :=
  let log := main machineName d s ps disconnected released
  Exclusive .aucune log ∧
    (returned machineName d s ps = true → Ressources.aucune.apresTout log = .aucune)

/-! ## When it is kept -/

/-- The card is activated and its description read. -/
def Passe.Ouvre (p : Passe) : Prop :=
  p.connect = 0 ∧ p.activeProtocol ≠ .undefined ∧ p.getAttrib = 0 ∧ p.freeMemory = 0

instance (p : Passe) : Decidable p.Ouvre :=
  inferInstanceAs (Decidable (_ ∧ _ ∧ _ ∧ _))

/-- The status word in the buffer is `90 00`. -/
def Etat.accepte (s : Etat) : Bool :=
  decide (s.at (s.lResponseApduLen - 2) = 0x90) && decide (s.at (s.lResponseApduLen - 1) = 0x00)

/-- The option when the loop is tested: what is typed, if anything is asked. -/
def optionApres (s : Etat) (p : Passe) : ℤ :=
  if (exchange s p.transmit).2.1.accepte then p.option.getD s.option else s.option

/-- No card has been presented yet; or the first one is opened without error, and is
the last one so far, or the option is `3` and both handles are given back without
error. -/
def CardsKept (s : Etat) (disconnected released : ℤ) : List Passe → Prop
  | [] => True
  | p :: rest =>
    p.Ouvre ∧ if optionApres s p = 3 then disconnected = 0 ∧ released = 0 else rest = []

instance (s : Etat) (disconnected released : ℤ) (ps : List Passe) :
    Decidable (CardsKept s disconnected released ps) :=
  match ps with
  | [] => isTrue trivial
  | p :: rest =>
    have : Decidable (rest = []) := decidable_of_iff _ List.isEmpty_iff
    inferInstanceAs (Decidable (p.Ouvre ∧
      if optionApres s p = 3 then disconnected = 0 ∧ released = 0 else rest = []))

/-- There is no context, or a reader was found and `CardsKept`. -/
def HandlesKept (d : Demarrage) (s : Etat) (ps : List Passe) (disconnected released : ℤ) : Prop :=
  d.establishContext ≠ 0 ∨
    d.listReaders = 0 ∧ d.freeMemory = 0 ∧ CardsKept s disconnected released ps

instance (d : Demarrage) (s : Etat) (ps : List Passe) (disconnected released : ℤ) :
    Decidable (HandlesKept d s ps disconnected released) :=
  inferInstanceAs (Decidable (_ ∨ _))

/-! ## Lists of actions -/

theorem Ressources.apresTout_append (r : Ressources) (l m : List Action) :
    r.apresTout (l ++ m) = (r.apresTout l).apresTout m :=
  List.foldl_append

theorem exclusive_append (r : Ressources) (l m : List Action) :
    Exclusive r (l ++ m) ↔ Exclusive r l ∧ Exclusive (r.apresTout l) m := by
  induction l generalizing r with
  | nil => exact ⟨fun h => ⟨trivial, h⟩, fun h => h.2⟩
  | cons a l ih =>
    rw [List.cons_append, Exclusive, Exclusive, ih, and_assoc]
    rfl

/-- An action that neither takes nor gives back anything. -/
def Action.Neutral : Action → Prop
  | .sCardEstablishContext _ | .sCardConnect _ | .sCardDisconnect _ | .sCardReleaseContext _ =>
    False
  | _ => True

theorem apres_of_neutral {a : Action} (ha : a.Neutral) (r : Ressources) : r.apres a = r := by
  cases a <;> first | rfl | exact absurd ha id

theorem apresTout_of_neutral {l : List Action} (hl : ∀ a ∈ l, Action.Neutral a)
    (r : Ressources) : r.apresTout l = r := by
  induction l with
  | nil => rfl
  | cons a l ih =>
    have htail := ih fun b hb => hl b (List.mem_cons_of_mem _ hb)
    rw [Ressources.apresTout, List.foldl_cons, apres_of_neutral (hl a (List.mem_cons_self ..))]
    exact htail

theorem exclusive_of_neutral {l : List Action} (hl : ∀ a ∈ l, Action.Neutral a)
    (r : Ressources) : Exclusive r l := by
  induction l with
  | nil => trivial
  | cons a l ih =>
    have ha := hl a (List.mem_cons_self ..)
    refine ⟨fun code hcode => ?_, ?_⟩
    · rw [hcode] at ha
      exact absurd ha id
    · rw [apres_of_neutral ha]
      exact ih fun b hb => hl b (List.mem_cons_of_mem _ hb)

/-! ## The actions of an iteration -/

theorem neutral_map_read (l : List ℕ) : ∀ a ∈ l.map Action.read, Action.Neutral a := by
  intro a ha
  obtain ⟨i, -, rfl⟩ := List.mem_map.mp ha
  trivial

theorem neutral_getAtrString (p : Passe) : ∀ a ∈ (getAtrString p).1, Action.Neutral a := by
  intro a ha
  unfold getAtrString at ha
  split_ifs at ha
  · rw [List.mem_singleton.mp ha]
    trivial
  · simp only [List.mem_cons, List.not_mem_nil, or_false] at ha
    rcases ha with rfl | rfl <;> trivial

theorem neutral_exchange (s : Etat) (t : Transmit) :
    ∀ a ∈ (exchange s t).1, Action.Neutral a := by
  intro a ha
  cases t with
  | failed code apdu len =>
    rw [List.mem_singleton.mp ha]
    trivial
  | received r =>
    simp only [exchange, List.mem_append, List.mem_cons, List.not_mem_nil, or_false] at ha
    rcases ha with (rfl | ha) | rfl | rfl
    · trivial
    · exact neutral_map_read _ a ha
    · trivial
    · trivial

theorem neutral_choix (machineName : Bytes) (s : Etat) (p : Passe) :
    ∀ a ∈ choix machineName s p, Action.Neutral a := by
  have hsaved : ∀ {a : Action}, a.Neutral → ∀ l : List ℕ,
      ∀ b ∈ a :: l.map Action.read, Action.Neutral b :=
    fun ha l => List.forall_mem_cons.mpr ⟨ha, neutral_map_read l⟩
  rw [choix]
  split_ifs
  · exact hsaved (by trivial) _
  · exact hsaved (by trivial) _
  · exact fun a ha => absurd ha List.not_mem_nil

theorem neutral_verifie (machineName : Bytes) (s : Etat) (p : Passe) :
    ∀ a ∈ (verifie machineName s p).1, Action.Neutral a := by
  intro a ha
  by_cases h1 : s.at (s.lResponseApduLen - 2) = 0x90
  · by_cases h2 : s.at (s.lResponseApduLen - 1) = 0x00
    · simp only [verifie, h1, h2, if_true, List.mem_append, List.mem_cons] at ha
      rcases ha with (rfl | rfl | ha) | ha
      · trivial
      · trivial
      · exact neutral_map_read _ a ha
      · exact neutral_choix _ _ _ a ha
    · simp only [verifie, h1, h2, if_true, if_false, List.mem_cons, List.not_mem_nil,
        or_false] at ha
      rcases ha with rfl | rfl <;> trivial
  · simp only [verifie, h1, if_false, List.mem_singleton] at ha
    rw [ha]
    trivial

theorem option_exchange (s : Etat) (t : Transmit) : (exchange s t).2.1.option = s.option := by
  cases t <;> rfl

theorem option_verifie (machineName : Bytes) (s : Etat) (p : Passe) :
    (verifie machineName s p).2.option =
      if s.accepte then p.option.getD s.option else s.option := by
  unfold verifie Etat.accepte
  by_cases h1 : s.at (s.lResponseApduLen - 2) = 0x90
  · by_cases h2 : s.at (s.lResponseApduLen - 1) = 0x00 <;> simp [h1, h2]
  · simp [h1]

theorem activateCard_code_eq_zero_iff (s : Etat) (p : Passe) :
    (activateCard s p).2.2 = 0 ↔ p.connect = 0 ∧ p.activeProtocol ≠ .undefined := by
  unfold activateCard
  split_ifs with h
  · exact ⟨fun h0 => absurd h0 h, fun h0 => absurd h0.1 h⟩
  · rw [not_not.mp h]
    cases p.activeProtocol <;> simp

theorem getAtrString_code_eq_zero_iff (p : Passe) :
    (getAtrString p).2 = 0 ↔ p.getAttrib = 0 ∧ p.freeMemory = 0 := by
  unfold getAtrString
  split_ifs with h
  · exact ⟨fun h0 => absurd h0 h, fun h0 => absurd h0.1 h⟩
  · exact ⟨fun h0 => ⟨not_not.mp h, h0⟩, fun h0 => h0.2⟩

theorem neutral_suite (machineName : Bytes) (s : Etat) (p : Passe) :
    ∀ a ∈ (suite machineName s p).1, Action.Neutral a := by
  intro a ha
  rcases List.mem_append.mp ha with ha | ha
  · exact neutral_exchange _ _ a ha
  · exact neutral_verifie _ _ _ a ha

theorem option_suite (machineName : Bytes) (s : Etat) (p : Passe) :
    (suite machineName s p).2.option = optionApres s p := by
  rw [suite, option_verifie, option_exchange, optionApres]

/-- **What an iteration takes.**  It connects a card, gives nothing back, and takes
nothing else. -/
theorem corps_fst (machineName : Bytes) (s : Etat) (p : Passe) :
    ∃ log, (corps machineName s p).1 = .sCardConnect p.connect :: log ∧
      ∀ a ∈ log, Action.Neutral a := by
  have hgetAtr := neutral_getAtrString p
  rw [corps_eq, activateCard_fst]
  split_ifs
  · exact ⟨[], rfl, fun a ha => absurd ha List.not_mem_nil⟩
  · exact ⟨_, rfl, hgetAtr⟩
  · refine ⟨_, rfl, fun a ha => ?_⟩
    rcases List.mem_append.mp ha with ha | ha
    · exact hgetAtr a ha
    · exact neutral_suite _ _ _ a ha

/-- **How an iteration ends.** -/
theorem corps_snd_of_ouvre {p : Passe} (h : p.Ouvre) (machineName : Bytes) (s : Etat) :
    ∃ s', (corps machineName s p).2 = some s' ∧ s'.option = optionApres s p := by
  have h1 : (activateCard s p).2.2 = 0 :=
    (activateCard_code_eq_zero_iff s p).mpr ⟨h.1, h.2.1⟩
  have h2 : (getAtrString p).2 = 0 := (getAtrString_code_eq_zero_iff p).mpr h.2.2
  rw [corps_eq, if_neg (not_not.mpr h1), if_neg (not_not.mpr h2)]
  refine ⟨_, rfl, ?_⟩
  rw [option_suite, activateCard_etat]
  cases hp : p.transmit <;> rw [optionApres, optionApres, hp] <;> rfl

theorem corps_snd_of_not_ouvre {p : Passe} (h : ¬ p.Ouvre) (machineName : Bytes) (s : Etat) :
    (corps machineName s p).2 = none := by
  rw [corps_eq]
  by_cases h1 : (activateCard s p).2.2 = 0
  · have h2 : (getAtrString p).2 ≠ 0 := fun h2 =>
      have hconnect := (activateCard_code_eq_zero_iff s p).mp h1
      h ⟨hconnect.1, hconnect.2, (getAtrString_code_eq_zero_iff p).mp h2⟩
    rw [if_neg (not_not.mpr h1), if_pos h2]
  · rw [if_pos h1]

/-! ## Runs -/

/-- What is held after an iteration that started with a context. -/
theorem apresTout_corps (machineName : Bytes) (s : Etat) (p : Passe) :
    (⟨false, true⟩ : Ressources).apresTout (corps machineName s p).1 =
      ⟨decide (p.connect = 0), true⟩ := by
  obtain ⟨log, hlog, hneutral⟩ := corps_fst machineName s p
  rw [hlog, Ressources.apresTout, List.foldl_cons]
  by_cases h : p.connect = 0
  · simp only [Ressources.apres, h, if_true, decide_true]
    exact apresTout_of_neutral hneutral _
  · simp only [Ressources.apres, h, if_false, decide_false]
    exact apresTout_of_neutral hneutral _

/-- An iteration may be entered when no card is held. -/
theorem exclusive_corps (machineName : Bytes) (s : Etat) (p : Passe) :
    Exclusive ⟨false, true⟩ (corps machineName s p).1 := by
  obtain ⟨log, hlog, hneutral⟩ := corps_fst machineName s p
  rw [hlog]
  exact ⟨fun _ _ => rfl, exclusive_of_neutral hneutral _⟩

/-- The first iteration of a run. -/
theorem boucle_cons (machineName : Bytes) (s : Etat) (p : Passe) (ps : List Passe) :
    ∃ logs, (boucle machineName s (p :: ps)).1 = (corps machineName s p).1 :: logs := by
  rcases hcorps : corps machineName s p with ⟨log, _ | s'⟩
  · exact ⟨[], by rw [boucle, hcorps]⟩
  · rw [boucle, hcorps]
    by_cases hquit : s'.option = 3
    · exact ⟨[], by simp only [hquit, if_true]⟩
    · exact ⟨(boucle machineName s' ps).1, by simp only [hquit, if_false]⟩

/-- No second card may be connected while the first is held. -/
theorem not_exclusive_boucle_cons (machineName : Bytes) (s : Etat) (p : Passe)
    (ps : List Passe) :
    ¬ Exclusive ⟨true, true⟩ (boucle machineName s (p :: ps)).1.flatten := by
  obtain ⟨logs, hlogs⟩ := boucle_cons machineName s p ps
  obtain ⟨log, hlog, -⟩ := corps_fst machineName s p
  rw [hlogs, List.flatten_cons, hlog, List.cons_append, Exclusive]
  intro h
  exact absurd (h.1 p.connect rfl) (by simp)

/-- What is held when the connection to the service has been made. -/
theorem connect_ok {d : Demarrage} (h0 : d.establishContext = 0) (h1 : d.listReaders = 0)
    (h2 : d.freeMemory = 0) :
    (connect d).2 = 0 ∧ Ressources.aucune.apresTout (connect d).1 = ⟨false, true⟩ ∧
      Exclusive .aucune (connect d).1 := by
  have hconnect : connect d =
      ([.sCardEstablishContext 0, .sCardListReaders 0, .sCardFreeMemory 0], 0) := by
    simp [connect, h0, h1, h2]
  rw [hconnect]
  refine ⟨rfl, rfl, ?_⟩
  simp [Exclusive]

/-- A card that is not opened ends the program. -/
theorem boucle_of_not_ouvre {p : Passe} (h : ¬ p.Ouvre) (machineName : Bytes) (s : Etat)
    (ps : List Passe) :
    boucle machineName s (p :: ps) = ([(corps machineName s p).1], .erreur) := by
  have hnone := corps_snd_of_not_ouvre h machineName s
  rcases hcorps : corps machineName s p with ⟨log, _ | s'⟩
  · rw [boucle, hcorps]
  · rw [hcorps] at hnone
    cases hnone

/-- A card that is opened ends the loop if the option is `3`. -/
theorem boucle_of_ouvre {p : Passe} (h : p.Ouvre) (machineName : Bytes) (s : Etat)
    (ps : List Passe) :
    if optionApres s p = 3 then
      boucle machineName s (p :: ps) = ([(corps machineName s p).1], .quitte)
    else ∃ s', boucle machineName s (p :: ps) =
      ((corps machineName s p).1 :: (boucle machineName s' ps).1,
        (boucle machineName s' ps).2) := by
  obtain ⟨s', hs', hoption⟩ := corps_snd_of_ouvre h machineName s
  rcases hcorps : corps machineName s p with ⟨log, _ | s''⟩
  · rw [hcorps] at hs'
    cases hs'
  · rw [hcorps] at hs'
    cases hs'
    rw [boucle, hcorps, ← hoption]
    by_cases hquit : s'.option = 3
    · simp only [hquit, if_true]
    · simp only [hquit, if_false]
      exact ⟨s', rfl⟩

/-- What is held behind the loop. -/
theorem apresTout_disconnect (disconnected released : ℤ) :
    (⟨true, true⟩ : Ressources).apresTout (disconnect disconnected released) = .aucune ↔
      disconnected = 0 ∧ released = 0 := by
  unfold disconnect
  by_cases h : disconnected = 0
  · by_cases h' : released = 0 <;>
      simp [h, h', Ressources.apresTout, Ressources.apres, Ressources.aucune]
  · simp [h, Ressources.apresTout, Ressources.apres, Ressources.aucune]

theorem exclusive_disconnect (r : Ressources) (disconnected released : ℤ) :
    Exclusive r (disconnect disconnected released) := by
  unfold disconnect
  split_ifs <;> simp [Exclusive]

/-- The discipline from the loop on, which is entered with a context and no card. -/
def LoopDiscipline (disconnected released : ℤ) : List (List Action) × Issue → Prop
  | (logs, .enCours _) => Exclusive ⟨false, true⟩ logs.flatten
  | (logs, .erreur) => Exclusive ⟨false, true⟩ logs.flatten ∧
      (⟨false, true⟩ : Ressources).apresTout logs.flatten = .aucune
  | (logs, .quitte) =>
    Exclusive ⟨false, true⟩ (logs.flatten ++ disconnect disconnected released) ∧
      (⟨false, true⟩ : Ressources).apresTout
        (logs.flatten ++ disconnect disconnected released) = .aucune

theorem discipline_iff_of_connect {d : Demarrage} (h0 : d.establishContext = 0)
    (h1 : d.listReaders = 0) (h2 : d.freeMemory = 0) (machineName : Bytes) (s : Etat)
    (ps : List Passe) (disconnected released : ℤ) :
    Discipline machineName d s ps disconnected released ↔
      LoopDiscipline disconnected released (boucle machineName s ps) := by
  obtain ⟨hcode, hheld, hexcl⟩ := connect_ok h0 h1 h2
  rcases hconnect : connect d with ⟨start, connected⟩
  rw [hconnect] at hcode hheld hexcl
  have hconnected : connected = 0 := hcode
  rw [Discipline, main, returned, hconnect]
  rcases hboucle : boucle machineName s ps with ⟨logs, _ | _ | _⟩ <;>
    simp [LoopDiscipline, hconnected, exclusive_append, hexcl, Ressources.apresTout_append, hheld]

/-- Without a context there is nothing to keep. -/
theorem discipline_of_establishContext {d : Demarrage} (h0 : d.establishContext ≠ 0)
    (machineName : Bytes) (s : Etat) (ps : List Passe) (disconnected released : ℤ) :
    Discipline machineName d s ps disconnected released := by
  have hconnect : connect d =
      ([.sCardEstablishContext d.establishContext], d.establishContext) := by
    simp [connect, h0]
  simp [Discipline, main, hconnect, h0, Exclusive, Ressources.apresTout, Ressources.apres]

/-- A context without a reader is never released. -/
theorem not_discipline_of_connect {d : Demarrage} (h0 : d.establishContext = 0)
    (h : ¬ (d.listReaders = 0 ∧ d.freeMemory = 0)) (machineName : Bytes) (s : Etat)
    (ps : List Passe) (disconnected released : ℤ) :
    ¬ Discipline machineName d s ps disconnected released := by
  by_cases h1 : d.listReaders = 0
  · have h2 : d.freeMemory ≠ 0 := fun h2 => h ⟨h1, h2⟩
    simp [Discipline, main, returned, connect, h0, h1, h2, Ressources.apresTout, Ressources.apres,
      Ressources.aucune]
  · simp [Discipline, main, returned, connect, h0, h1, Ressources.apresTout, Ressources.apres,
      Ressources.aucune]

/-- **The discipline of the loop**, at the first card presented. -/
theorem loopDiscipline_cons_iff (machineName : Bytes) (s : Etat) (p : Passe) (rest : List Passe)
    (disconnected released : ℤ) :
    LoopDiscipline disconnected released (boucle machineName s (p :: rest)) ↔
      CardsKept s disconnected released (p :: rest) := by
  have hcorps := apresTout_corps machineName s p
  have hexcl := exclusive_corps machineName s p
  rw [CardsKept]
  by_cases hp : p.Ouvre
  · have hboucle := boucle_of_ouvre hp machineName s rest
    rw [decide_eq_true hp.1] at hcorps
    split_ifs at hboucle ⊢ with hquit
    · -- the program leaves the loop with the card still held
      rw [hboucle, LoopDiscipline, List.flatten_singleton, exclusive_append,
        Ressources.apresTout_append, hcorps, apresTout_disconnect]
      exact ⟨fun h => ⟨hp, h.2⟩, fun h => ⟨⟨hexcl, exclusive_disconnect _ _ _⟩, h.2⟩⟩
    · obtain ⟨s', hs'⟩ := hboucle
      rw [hs']
      rcases rest with _ | ⟨q, rest⟩
      · rw [boucle, LoopDiscipline, List.flatten_singleton]
        exact ⟨fun _ => ⟨hp, rfl⟩, fun _ => hexcl⟩
      · -- the next card is connected while this one is held
        have hnext := not_exclusive_boucle_cons machineName s' q rest
        refine ⟨fun h => absurd ?_ hnext, fun h => absurd h.2 (List.cons_ne_nil _ _)⟩
        rcases hrest : boucle machineName s' (q :: rest) with ⟨logs, _ | _ | _⟩ <;>
          rw [hrest, LoopDiscipline, List.flatten_cons] at h
        · rw [exclusive_append, hcorps] at h
          exact h.2
        · rw [exclusive_append, hcorps] at h
          exact h.1.2
        · rw [List.append_assoc, exclusive_append, hcorps, exclusive_append] at h
          exact h.1.2.1
  · -- the context is not released
    rw [boucle_of_not_ouvre hp machineName s rest, LoopDiscipline, List.flatten_singleton, hcorps]
    refine ⟨fun h => absurd h.2 ?_, fun h => absurd h.1 hp⟩
    simp [Ressources.aucune]

/-- **Handle discipline.**  The program keeps it exactly if it gets no context, or
has at most one card presented to it, without any error, and then leaves by the
option `3` if at all. -/
theorem handle_discipline (machineName : Bytes) (d : Demarrage) (s : Etat) (ps : List Passe)
    (disconnected released : ℤ) :
    Discipline machineName d s ps disconnected released ↔
      HandlesKept d s ps disconnected released := by
  rw [HandlesKept]
  by_cases h0 : d.establishContext = 0
  · by_cases h12 : d.listReaders = 0 ∧ d.freeMemory = 0
    · rw [discipline_iff_of_connect h0 h12.1 h12.2]
      rcases ps with _ | ⟨p, rest⟩
      · exact ⟨fun _ => Or.inr ⟨h12.1, h12.2, trivial⟩, fun _ => trivial⟩
      · rw [loopDiscipline_cons_iff]
        exact ⟨fun h => Or.inr ⟨h12.1, h12.2, h⟩, fun h => (h.resolve_left (not_not.mpr h0)).2.2⟩
    · refine ⟨fun h => absurd h (not_discipline_of_connect h0 h12 _ _ _ _ _), fun h => ?_⟩
      have hstart := h.resolve_left (not_not.mpr h0)
      exact absurd ⟨hstart.1, hstart.2.1⟩ h12
  · exact ⟨fun _ => Or.inl h0, fun _ => discipline_of_establishContext h0 _ _ _ _ _⟩

/-- A card that is read, after which the operator wants another one. -/
def passeSuivie : Passe where
  connect := 0
  activeProtocol := .t1
  getAttrib := 0
  freeMemory := 0
  transmit := .received ⟨[0x04, 0x11, 0x22, 0x33, 0x90, 0x00], by decide⟩
  option := some 2
  etuId := []

/-- Two cards, one after the other: the first is still held when the second is
connected. -/
theorem not_discipline_passeSuivie :
    ¬ Discipline (ascii "1") ⟨0, 0, 0⟩ ⟨[], 0, 0, .undefined⟩ [passeSuivie, passeSuivie] 0 0 := by
  rw [discipline_iff_of_connect rfl rfl rfl, loopDiscipline_cons_iff]
  decide

end Card
end RondeDesFacs
