import RondeDesFacs.Page.SquareZone
import Mathlib.Data.List.FinRange
import Mathlib.Logic.Function.Basic

/-!
# Several leader boards on one page

`generateKPI` makes a `SquareZone` for every wrapper of the type `square`, in the
order of the page.  Each keeps its own variables, but what the zones do to the page
they do to all of it, because they address it by class.

* `_bindEvents` takes the handlers of the arrows off `body` and puts its own in
  their place.  The zone made last answers every arrow.
* `_fillSquareKPI` clones every `.p0` there is and appends the clones to every
  `.kpiContent`.  An append to several targets moves its elements to the last of
  them and leaves hidden copies in the others, so that it is the last zone in which
  `toggle` shows them.

The handlers ask for an `.adminHomeWrapper` around the arrows, which is taken to be there.

The zones of a page are indexed by `Fin n`.  An answer names its request by its
place among all that were sent, so that answers come in any order or not at all.
-/

namespace RondeDesFacs
namespace Page

open Servlet SquareZone

variable {n : ℕ}

/-- A `.kpiWrapper` of the type `square`: its attributes and those of its arrows. -/
structure Wrapper where
  id : Js
  request : Js
  arrowRequest : Fleche → Js
  begin : ℤ
  max : ℤ
  top : ℤ

/-- A request sent: the zone whose `_fillSquareKPI` is called with the answer, and the
page start that `_UpdateWithNextsCommunity` was called for. -/
structure Envoi (n : ℕ) where
  zone : Fin n
  requete : Requete
  debut : ℤ
  deriving DecidableEq

/-- The zones of a page, the zone whose handlers `body` has, the requests sent and
which of them have been answered. -/
structure Zones (n : ℕ) where
  zones : Fin n → SquareZone
  lie : Option (Fin n)
  envois : List (Envoi n)
  repondus : List ℕ

/-- What happens to a page: an arrow of a zone is clicked, or the answer to the
`k`-th request arrives. -/
inductive Evenement (n : ℕ) where
  | clic (z : Fin n) (f : Fleche)
  | reponse (k : ℕ) (data : List (PiePoint × ℕ))

/-- The last zone of a page that has one. -/
def derniere (z : Fin n) : Fin n := ⟨n - 1, Nat.sub_one_lt_of_lt z.2⟩

/-! ## What the zones do -/

/-- `new SquareZone`, with what `_generateKPI` sets. -/
def Wrapper.squareZone (w : Wrapper) : SquareZone where
  begin := w.begin
  top := w.top
  max := w.max
  content := []

/-- `initArrow`: binds the arrows and asks for the first page. -/
def Zones.initArrow (ws : Fin n → Wrapper) (p : Zones n) (z : Fin n) : Zones n :=
  { p with lie := some z,
           envois := p.envois ++ [⟨z, SquareZone.initArrow (ws z).request, 1⟩] }

/-- `_generateKPI`, as far as the zones go. -/
def Zones.generateKPI (ws : Fin n → Wrapper) : Zones n :=
  (List.finRange n).foldl (Zones.initArrow ws) ⟨fun z => (ws z).squareZone, none, [], []⟩

/-- A click on an arrow of the wrapper `w`, handled by a zone. -/
def Wrapper.fleche (w : Wrapper) (f : Fleche) (s : SquareZone) : Option (Requete × SquareZone) :=
  match f with
  | .previous => previous (w.arrowRequest .previous) w.id s
  | .next => next (w.arrowRequest .next) w.id s

/-- The page start a click asks for. -/
def debutDemande (f : Fleche) (s : SquareZone) : ℤ :=
  match f with
  | .previous =>
    if s.begin + 2 * s.top - 1 ≥ s.max ∧ s.begin + s.top < s.max then s.max - s.top
    else s.begin + s.top
  | .next => if s.begin - s.top < 1 ∧ s.begin > 1 then 1 else s.begin - s.top

/-- A click on an arrow of the zone `z`, handled by the zone `h`. -/
def Zones.handle (ws : Fin n → Wrapper) (p : Zones n) (h z : Fin n) (f : Fleche) : Zones n :=
  match (ws z).fleche f (p.zones h) with
  | none => p
  | some (requete, s) =>
    { p with zones := Function.update p.zones h s,
             envois := p.envois ++ [⟨h, requete, debutDemande f (p.zones h)⟩] }

/-- A pass of the `$.each` of `_fillSquareKPI` of the zone `z`.  There are as many
clones as there are zones. -/
def ajoute (z : Fin n) (i : ℕ) (zones : Fin n → SquareZone) (r : PiePoint × ℕ) :
    Fin n → SquareZone :=
  let pn := List.replicate n (bloc (zones z).begin i r.1, r.2)
  let last := zones (derniere z)
  let shown := Function.update zones (derniere z) { last with content := last.content ++ pn }
  Function.update shown z { shown z with max := (shown z).max + 1 }

/-- The `$.each` of `_fillSquareKPI`. -/
def remplit (z : Fin n) : ℕ → (Fin n → SquareZone) → List (PiePoint × ℕ) → Fin n → SquareZone
  | _, zones, [] => zones
  | i, zones, r :: data => remplit z (i + 1) (ajoute z i zones r) data

/-- `_fillSquareKPI` of the zone `z`. -/
def fillSquareKPI (z : Fin n) (zones : Fin n → SquareZone) (data : List (PiePoint × ℕ)) :
    Fin n → SquareZone :=
  remplit z 1 (Function.update zones z { zones z with max := (zones z).begin }) data

/-- The request that a `k`-th answer answers, if it is still open. -/
def Zones.ouvert (p : Zones n) (k : ℕ) : Option (Envoi n) :=
  if k ∈ p.repondus then none else p.envois[k]?

/-- What happens to the page. -/
def Zones.step (ws : Fin n → Wrapper) (p : Zones n) : Evenement n → Zones n
  | .clic z f =>
    match p.lie with
    | none => p
    | some h => p.handle ws h z f
  | .reponse k data =>
    match p.ouvert k with
    | none => p
    | some e =>
      { p with zones := fillSquareKPI e.zone p.zones data, repondus := k :: p.repondus }

/-- A run: each event with the page that it happens to. -/
def etapes (ws : Fin n → Wrapper) : Zones n → List (Evenement n) → List (Zones n × Evenement n)
  | _, [] => []
  | p, ev :: evs => (p, ev) :: etapes ws (p.step ws ev) evs

/-! ## Runs -/

/-- **An invariant of runs.**  What holds of the page as it is made, and is kept by
every event, holds before every event. -/
theorem forall_etapes {ws : Fin n → Wrapper} {I : Zones n → Prop}
    (hstep : ∀ p ev, I p → I (p.step ws ev)) {p : Zones n} (hp : I p) (evs : List (Evenement n)) :
    ∀ t ∈ etapes ws p evs, I t.1 := by
  induction evs generalizing p with
  | nil => exact fun t ht => absurd ht List.not_mem_nil
  | cons ev evs ih =>
    rw [etapes, List.forall_mem_cons]
    exact ⟨hp, ih (hstep p ev hp)⟩

theorem handle_of_none {ws : Fin n → Wrapper} {p : Zones n} {h z : Fin n} {f : Fleche}
    (hclick : (ws z).fleche f (p.zones h) = none) : p.handle ws h z f = p := by
  rw [Zones.handle, hclick]

theorem handle_of_some {ws : Fin n → Wrapper} {p : Zones n} {h z : Fin n} {f : Fleche}
    {requete : Requete} {s : SquareZone}
    (hclick : (ws z).fleche f (p.zones h) = some (requete, s)) :
    p.handle ws h z f =
      { p with zones := Function.update p.zones h s,
               envois := p.envois ++ [⟨h, requete, debutDemande f (p.zones h)⟩] } := by
  rw [Zones.handle, hclick]

theorem step_reponse_of_some (ws : Fin n → Wrapper) {p : Zones n} {k : ℕ} {e : Envoi n}
    (hopen : p.ouvert k = some e) (data : List (PiePoint × ℕ)) :
    p.step ws (.reponse k data) =
      { p with zones := fillSquareKPI e.zone p.zones data, repondus := k :: p.repondus } := by
  rw [Zones.step, hopen]

theorem step_reponse_of_none (ws : Fin n → Wrapper) {p : Zones n} {k : ℕ}
    (hopen : p.ouvert k = none) (data : List (PiePoint × ℕ)) :
    p.step ws (.reponse k data) = p := by
  rw [Zones.step, hopen]

theorem handle_lie (ws : Fin n → Wrapper) (p : Zones n) (h z : Fin n) (f : Fleche) :
    (p.handle ws h z f).lie = p.lie := by
  unfold Zones.handle
  split <;> rfl

/-- No event binds the arrows again. -/
theorem step_lie (ws : Fin n → Wrapper) (p : Zones n) (ev : Evenement n) :
    (p.step ws ev).lie = p.lie := by
  cases ev with
  | clic z f =>
    rw [Zones.step]
    split
    · rfl
    · exact handle_lie ws p _ z f
  | reponse k data =>
    rw [Zones.step]
    split <;> rfl

theorem foldl_initArrow (ws : Fin n → Wrapper) (l : List (Fin n)) (p : Zones n) :
    l.foldl (Zones.initArrow ws) p =
      { p with lie := l.getLast?.or p.lie,
               envois := p.envois ++ l.map fun z =>
                 ⟨z, SquareZone.initArrow (ws z).request, 1⟩ } := by
  induction l generalizing p with
  | nil => simp
  | cons z l ih =>
    rw [List.foldl_cons, ih, Zones.initArrow]
    rcases l.eq_nil_or_concat with rfl | ⟨l, z', rfl⟩
    · simp
    · simp [List.getLast?_cons]

/-- **The zone made last has the arrows.** -/
theorem generateKPI_lie (ws : Fin n → Wrapper) (z : Fin n) :
    (Zones.generateKPI ws).lie = some (derniere z) := by
  have hlast : n - 1 < n := Nat.sub_one_lt_of_lt z.2
  rw [Zones.generateKPI, foldl_initArrow, Option.or_none, List.getLast?_eq_getElem?,
    List.length_finRange, List.getElem?_eq_getElem (by simpa using hlast)]
  simp [derniere]

/-! ## What an event changes -/

theorem previous_isSome_iff (request pageDesc : Js) (s : SquareZone) :
    (previous request pageDesc s).isSome ↔ s.begin + s.top < s.max := by
  unfold previous
  split_ifs <;> simp_all

theorem next_isSome_iff (request pageDesc : Js) (s : SquareZone) :
    (next request pageDesc s).isSome ↔ s.begin ≠ 1 := by
  unfold next
  split_ifs <;> simp_all
  omega

/-- Whether an arrow moves a zone. -/
def Bouge (s : SquareZone) : Fleche → Prop
  | .previous => s.begin + s.top < s.max
  | .next => s.begin ≠ 1

theorem fleche_isSome_iff (w : Wrapper) (f : Fleche) (s : SquareZone) :
    (w.fleche f s).isSome ↔ Bouge s f := by
  cases f with
  | previous => exact previous_isSome_iff ..
  | next => exact next_isSome_iff ..

/-- A click sends a request exactly if it moves the zone that handles it. -/
theorem handle_envois (ws : Fin n → Wrapper) (p : Zones n) (h z : Fin n) (f : Fleche) :
    (Bouge (p.zones h) f ∧ ∃ requete, (p.handle ws h z f).envois =
        p.envois ++ [⟨h, requete, debutDemande f (p.zones h)⟩]) ∨
      (¬ Bouge (p.zones h) f ∧ p.handle ws h z f = p) := by
  rw [← fleche_isSome_iff (ws z)]
  rcases hclick : (ws z).fleche f (p.zones h) with _ | ⟨requete, s⟩
  · exact Or.inr ⟨by simp, handle_of_none hclick⟩
  · exact Or.inl ⟨rfl, requete, by rw [handle_of_some hclick]⟩

theorem begin_update {zones : Fin n → SquareZone} {z : Fin n} {s : SquareZone}
    (hs : s.begin = (zones z).begin) (z' : Fin n) :
    (Function.update zones z s z').begin = (zones z').begin := by
  by_cases hz : z' = z
  · rw [hz, Function.update_self, hs]
  · rw [Function.update_of_ne hz]

section Remplit

variable (z : Fin n)

/-- A zone keeps everything unless it is the one that is answered or the last. -/
theorem remplit_of_ne {z' : Fin n} (hz : z' ≠ z) (hlast : z' ≠ derniere z) (i : ℕ)
    (zones : Fin n → SquareZone) (data : List (PiePoint × ℕ)) :
    remplit z i zones data z' = zones z' := by
  induction data generalizing i zones with
  | nil => rfl
  | cons r data ih =>
    rw [remplit, ih, ajoute, Function.update_of_ne hz, Function.update_of_ne hlast]

theorem begin_ajoute (i : ℕ) (zones : Fin n → SquareZone) (r : PiePoint × ℕ) (z' : Fin n) :
    (ajoute z i zones r z').begin = (zones z').begin := by
  unfold ajoute
  refine (begin_update ?_ z').trans (begin_update ?_ z')
  · rfl
  · rfl

theorem length_content_ajoute (i : ℕ) (zones : Fin n → SquareZone) (r : PiePoint × ℕ) :
    (ajoute z i zones r (derniere z)).content.length =
      (zones (derniere z)).content.length + n := by
  by_cases hlast : derniere z = z
  · simp [ajoute, hlast]
  · rw [ajoute, Function.update_of_ne hlast, Function.update_self, List.length_append,
      List.length_replicate]

theorem begin_remplit (i : ℕ) (zones : Fin n → SquareZone) (data : List (PiePoint × ℕ))
    (z' : Fin n) : (remplit z i zones data z').begin = (zones z').begin := by
  induction data generalizing i zones with
  | nil => rfl
  | cons r data ih => rw [remplit, ih, begin_ajoute]

/-- No answer moves a zone. -/
theorem begin_fillSquareKPI (zones : Fin n → SquareZone) (data : List (PiePoint × ℕ))
    (z' : Fin n) : (fillSquareKPI z zones data z').begin = (zones z').begin := by
  rw [fillSquareKPI, begin_remplit]
  refine begin_update ?_ z'
  rfl

/-- The last zone shows a block more for every row and every zone of the page. -/
theorem length_content_remplit (i : ℕ) (zones : Fin n → SquareZone)
    (data : List (PiePoint × ℕ)) :
    (remplit z i zones data (derniere z)).content.length =
      (zones (derniere z)).content.length + n * data.length := by
  induction data generalizing i zones with
  | nil => rfl
  | cons r data ih =>
    rw [remplit, ih, length_content_ajoute, List.length_cons, Nat.mul_succ, Nat.add_assoc,
      Nat.add_comm n]

end Remplit

/-! ## A single zone -/

theorem remplit_seule (i : ℕ) (zones : Fin 1 → SquareZone) (data : List (PiePoint × ℕ)) :
    remplit 0 i zones data 0 = remplir i (zones 0) data := by
  induction data generalizing i zones with
  | nil => rfl
  | cons r data ih =>
    rw [remplit, ih, remplir]
    rfl

/-- **On a page with one zone** an answer does what it does to the zone alone. -/
theorem fillSquareKPI_seule (zones : Fin 1 → SquareZone) (data : List (PiePoint × ℕ)) :
    fillSquareKPI 0 zones data 0 = SquareZone.fillSquareKPI (zones 0) data := by
  rw [fillSquareKPI, remplit_seule, Function.update_self, SquareZone.fillSquareKPI]

/-- The wrapper of the leader board, as `index.html` has it. -/
def classementWrapper : Wrapper where
  id := .undefined
  request := .string "topRunner".toList
  arrowRequest _ := .string "topRunner".toList
  begin := 1
  max := 1000
  top := 10

theorem classementWrapper_fleche (f : Fleche) (s : SquareZone) :
    classementWrapper.fleche f s = click f s := by
  cases f <;> rfl

end Page
end RondeDesFacs
