import RondeDesFacs.Page.Arrows

/-!
# The two copies of the arrows

`HoozinAdminHome.js` has a `SquareZone` of its own.  Its handlers decide as those of
`highchartsUtils.js` do, but leave `_begin` as it is: an answer comes later, with a script
that sets the variables.  Its `_UpdateWithNextsCommunity` has the four parameters it is
called with, so the page that is asked for is the one that was meant (`pages_demandes`).

One `else` is missing.  On a page that begins at rank 2 or later and at rank `_top` at the
latest, the backward arrow has two pages loaded (`Double`): the first, and one that begins
before rank 1.  Otherwise the calls of the two copies are the same (`copies_agree`).  As in
`Arrows`, ranks are exact integers, as those of the page are up to `2 ^ 53`.
-/

namespace RondeDesFacs
namespace Page

open SquareZone

/-- The page starts of a click are ranks. -/
theorem SquareZone.one_le_begin_of_mem_appels {f : Fleche} {request pageDesc : Js} {s : SquareZone}
    (hbegin : 1 ≤ s.begin) (htop : 1 ≤ s.top) {a : Appel} (ha : a ∈ appels f request pageDesc s) :
    1 ≤ a.begin := by
  by_cases h : Bloquee f s
  · rw [appels_of_bloquee h] at ha
    exact absurd ha List.not_mem_nil
  · rw [appels_of_not_bloquee h] at ha
    rw [List.mem_singleton.mp ha]
    show 1 ≤ cible f s
    cases f with
    | previous =>
      have hmoves : s.begin + s.top < s.max := not_le.mp h
      rw [cible]
      omega
    | next =>
      have hne : s.begin ≠ 1 := h
      rw [cible, if_pos (by omega)]
      omega

namespace Hoozin

/-! ## The other copy -/

/-- What `hoozin.UI.refresh` is given: the settings, their parameters, and the object that
is loaded again. -/
structure Demande where
  requestedData : Js
  page : ℤ
  topRank : ℤ
  parameterBegin : ℤ
  parameterTop : ℤ
  parameterRequestedData : Js
  objectToLoad : Js
  deriving DecidableEq

/-- `_UpdateWithNextsCommunity`. -/
def updateWithNextsCommunity (s : SquareZone) (a : Appel) : Demande where
  requestedData := a.request
  page := a.begin
  topRank := a.stop
  parameterBegin := a.begin
  parameterTop := s.top
  parameterRequestedData := a.request
  objectToLoad := a.pageDesc

/-- The calls in the handler of `.previous`. -/
def appelsPrevious (request pageDesc : Js) (s : SquareZone) : List Appel :=
  if s.begin + 2 * s.top - 1 ≥ s.max ∧ s.begin + s.top < s.max then
    [⟨request, pageDesc, s.max - s.top, s.top - 1⟩]
  else if s.begin + s.top < s.max then [⟨request, pageDesc, s.begin + s.top, s.top - 1⟩]
  else []

/-- The calls in the handler of `.next`, where the second condition stands by itself. -/
def appelsNext (request pageDesc : Js) (s : SquareZone) : List Appel :=
  (if s.begin - s.top < 1 ∧ s.begin > 1 then [⟨request, pageDesc, 1, s.top - 1⟩] else []) ++
    if s.begin ≠ 1 then [⟨request, pageDesc, s.begin - s.top, s.top - 1⟩] else []

/-- The calls of a click. -/
def appels (f : Fleche) (request pageDesc : Js) (s : SquareZone) : List Appel :=
  match f with
  | .previous => appelsPrevious request pageDesc s
  | .next => appelsNext request pageDesc s

/-- What a click has loaded. -/
def demandes (f : Fleche) (request pageDesc : Js) (s : SquareZone) : List Demande :=
  (appels f request pageDesc s).map (updateWithNextsCommunity s)

/-- Both conditions of the backward arrow hold. -/
def Double (f : Fleche) (s : SquareZone) : Prop := f = .next ∧ 1 < s.begin ∧ s.begin ≤ s.top

section Appels

variable {f : Fleche} (request pageDesc : Js) {s : SquareZone}

/-- **Where the missing `else` makes no difference.** -/
theorem appels_of_not_double (h : ¬ Double f s) :
    appels f request pageDesc s = SquareZone.appels f request pageDesc s := by
  cases f with
  | previous => rfl
  | next =>
    have hfirst : ¬ (s.begin - s.top < 1 ∧ s.begin > 1) := fun h' => h ⟨rfl, h'.2, by omega⟩
    rw [appels, appelsNext, if_neg hfirst, List.nil_append, SquareZone.appels,
      SquareZone.appelsNext, if_neg hfirst]

/-- **Where it does**: the first page is loaded, and one before it. -/
theorem appels_of_double (h : Double f s) :
    appels f request pageDesc s = SquareZone.appels f request pageDesc s ++
      [⟨request, pageDesc, s.begin - s.top, s.top - 1⟩] := by
  obtain ⟨rfl, hbegin, hle⟩ := h
  have hfirst : s.begin - s.top < 1 ∧ s.begin > 1 := ⟨by omega, hbegin⟩
  rw [appels, appelsNext, if_pos hfirst, if_pos hbegin.ne', SquareZone.appels,
    SquareZone.appelsNext, if_pos hfirst]

/-- **The pages that are loaded**: the next one in the direction of the arrow, if there is
one, and nothing else unless both conditions hold. -/
theorem pages_demandes (h : ¬ Double f s) :
    (demandes f request pageDesc s).map (fun d => d.page) =
      (SquareZone.appels f request pageDesc s).map fun a => a.begin := by
  rw [demandes, appels_of_not_double _ _ h, List.map_map]
  rfl

end Appels

/-! ## The copies -/

/-- The two copies behave alike: they call with the same arguments, and ask for no page
that begins before rank 1. -/
structure Pareils (f : Fleche) (request pageDesc : Js) (s : SquareZone) : Prop where
  appels : SquareZone.appels f request pageDesc s = Hoozin.appels f request pageDesc s
  debuts : ∀ a ∈ SquareZone.appels f request pageDesc s ++ Hoozin.appels f request pageDesc s,
    1 ≤ a.begin

/-- **When the two copies agree.**  Exactly if the backward arrow does not have two pages
loaded.  (For ranks up to `2 ^ 53`.) -/
theorem copies_agree (f : Fleche) (request pageDesc : Js) (s : SquareZone) (hbegin : 1 ≤ s.begin)
    (htop : 1 ≤ s.top) :
    Pareils f request pageDesc s ↔ (f = .next → s.begin = 1 ∨ s.top < s.begin) := by
  have hiff : (f = .next → s.begin = 1 ∨ s.top < s.begin) ↔ ¬ Double f s := by
    constructor
    · rintro h ⟨rfl, hlt, hle⟩
      rcases h rfl with h | h <;> omega
    · rintro h rfl
      by_contra hno
      exact h ⟨rfl, by omega, by omega⟩
  rw [hiff]
  constructor
  · rintro ⟨hsame, -⟩ hdouble
    rw [appels_of_double _ _ hdouble, List.self_eq_append_right] at hsame
    cases hsame
  · intro h
    have hsame := appels_of_not_double request pageDesc h
    refine ⟨hsame.symm, fun a ha => ?_⟩
    rw [hsame, List.mem_append, or_self] at ha
    exact one_le_begin_of_mem_appels hbegin htop ha

/-- A page from rank 5 on. -/
def cinquieme : SquareZone := ⟨5, 10, 1000, []⟩

/-- The way back from there has two pages loaded, the second from rank -5 on. -/
theorem copies_agree_cinquieme :
    ¬ Pareils .next (.string "topRunner".toList) (.string "square".toList) cinquieme := by
  intro h
  have hsame := h.appels
  revert hsame
  decide

/-- The condition there. -/
theorem copies_agree_at_cinquieme :
    Pareils .next (.string "topRunner".toList) (.string "square".toList) cinquieme ↔
      ((Fleche.next = .next) → cinquieme.begin = 1 ∨ cinquieme.top < cinquieme.begin) :=
  copies_agree .next (.string "topRunner".toList) (.string "square".toList) cinquieme (by decide)
    (by decide)

end Hoozin
end Page
end RondeDesFacs
