import RondeDesFacs.Page.SquareZone
import Mathlib.Algebra.Order.Group.Int

/-!
# The arrows of the leader board

A click on an arrow computes the start of the next page twice, once for the request and
once for `_begin`.  The two are the same number (`clic_of_not_bloquee`): the forward arrow
goes `_top` ranks on, or as far as the last page; the backward one goes `_top` ranks back,
or to rank 1.

The arithmetic is sound.  As long as no answer changes `_max`, the pages overlap or touch,
they cover the ranking, and both ends are reached (`arrow_arithmetic`).

The request is not.  The handlers pass `(request, pageDesc, begin, stop)` to a function of
the parameters `(request, begin, stop)`, so the page that is asked for is the `id` of the
wrapper (`requests_follow`), and the wrapper of the page has none.

`_begin`, `_top` and `_max` are integers here; the numbers of the page are exact up to
`2 ^ 53`.
-/

namespace RondeDesFacs
namespace Page

open Servlet

namespace SquareZone

/-! ## What a click does -/

/-- The text a parameter is sent as. -/
def envoi : Js → Text
  | .undefined => []
  | .number n => decimal n
  | .string t => t

theorem decimal_ne_nil (n : ℤ) : decimal n ≠ [] := by
  rw [decimal, Ne, String.toList_eq_nil_iff]
  cases n with
  | ofNat n => exact Nat.repr_ne_empty
  | negSucc n =>
    intro h
    have hlist := congrArg String.toList h
    simp [toString, Int.repr] at hlist

/-- `$(this).closest('.kpiWrapper').attr('id')`. -/
def attrId (id : Option Text) : Js := (id.map Js.string).getD .undefined

/-- A click on an arrow with its `data-request`, in a wrapper with or without `id`. -/
def clic (f : Fleche) (request : Js) (id : Option Text) (s : SquareZone) :
    Option (Requete × SquareZone) :=
  match f with
  | .previous => previous request (attrId id) s
  | .next => next request (attrId id) s

/-- The arguments of a call of `_UpdateWithNextsCommunity`. -/
structure Appel where
  request : Js
  pageDesc : Js
  begin : ℤ
  stop : ℤ
  deriving DecidableEq

/-- The arguments, in their order. -/
def Appel.args (a : Appel) : List Js := [a.request, a.pageDesc, .number a.begin, .number a.stop]

/-- The calls in the handler of `.previous`. -/
def appelsPrevious (request pageDesc : Js) (s : SquareZone) : List Appel :=
  if s.begin + 2 * s.top - 1 ≥ s.max ∧ s.begin + s.top < s.max then
    [⟨request, pageDesc, s.max - s.top, s.top - 1⟩]
  else if s.begin + s.top < s.max then [⟨request, pageDesc, s.begin + s.top, s.top - 1⟩]
  else []

/-- The calls in the handler of `.next`. -/
def appelsNext (request pageDesc : Js) (s : SquareZone) : List Appel :=
  if s.begin - s.top < 1 ∧ s.begin > 1 then [⟨request, pageDesc, 1, s.top - 1⟩]
  else if s.begin ≠ 1 then [⟨request, pageDesc, s.begin - s.top, s.top - 1⟩]
  else []

/-- The calls of a click. -/
def appels (f : Fleche) (request pageDesc : Js) (s : SquareZone) : List Appel :=
  match f with
  | .previous => appelsPrevious request pageDesc s
  | .next => appelsNext request pageDesc s

/-- There is no page in this direction. -/
def Bloquee (f : Fleche) (s : SquareZone) : Prop :=
  match f with
  | .previous => s.max ≤ s.begin + s.top
  | .next => s.begin = 1

/-- The start of the next page in this direction. -/
def cible (f : Fleche) (s : SquareZone) : ℤ :=
  match f with
  | .previous => s.begin + min s.top (s.max - s.top - s.begin)
  | .next => s.begin - if 1 < s.begin then min s.top (s.begin - 1) else s.top

section Clic

variable {f : Fleche} {request pageDesc : Js} {id : Option Text} {s : SquareZone}

/-- A click sends its calls, and takes their page starts for `_begin`. -/
theorem clic_eq (f : Fleche) (request : Js) (id : Option Text) (s : SquareZone) :
    clic f request id s = (appels f request (attrId id) s).head?.map fun a =>
      (updateWithNextsCommunity a.args, { s with begin := a.begin }) := by
  cases f with
  | previous =>
    rw [clic, previous, appels, appelsPrevious]
    split_ifs <;> rfl
  | next =>
    rw [clic, next, appels, appelsNext]
    split_ifs <;> rfl

theorem appels_of_bloquee (h : Bloquee f s) : appels f request pageDesc s = [] := by
  cases f with
  | previous =>
    have hmoves : ¬ s.begin + s.top < s.max := not_lt.mpr h
    rw [appels, appelsPrevious, if_neg fun h => hmoves h.2, if_neg hmoves]
  | next =>
    have hbegin : s.begin = 1 := h
    rw [appels, appelsNext, if_neg fun h => (hbegin ▸ h.2).false, if_neg (not_not.mpr hbegin)]

/-- **The call of a click**, if there is a page: for the start of that page. -/
theorem appels_of_not_bloquee (h : ¬ Bloquee f s) :
    appels f request pageDesc s = [⟨request, pageDesc, cible f s, s.top - 1⟩] := by
  cases f with
  | previous =>
    have hmoves : s.begin + s.top < s.max := not_le.mp h
    by_cases hlast : s.begin + 2 * s.top - 1 ≥ s.max
    · -- the last page, which may overlap with this one
      have hcible : cible .previous s = s.max - s.top := by
        rw [cible, min_eq_right (by omega)]
        omega
      rw [appels, appelsPrevious, if_pos ⟨hlast, hmoves⟩, hcible]
    · have hcible : cible .previous s = s.begin + s.top := by
        rw [cible, min_eq_left (by omega)]
      rw [appels, appelsPrevious, if_neg fun h => hlast h.1, if_pos hmoves, hcible]
  | next =>
    have hne : s.begin ≠ 1 := h
    by_cases hfirst : s.begin - s.top < 1 ∧ s.begin > 1
    · have hcible : cible .next s = 1 := by
        rw [cible, if_pos hfirst.2, min_eq_right (by omega)]
        omega
      rw [appels, appelsNext, if_pos hfirst, hcible]
    · have hcible : cible .next s = s.begin - s.top := by
        rw [cible]
        split_ifs with hbegin
        · rw [min_eq_left (by omega)]
        · rfl
      rw [appels, appelsNext, if_neg hfirst, if_pos hne, hcible]

theorem clic_of_bloquee (h : Bloquee f s) : clic f request id s = none := by
  rw [clic_eq, appels_of_bloquee h]
  rfl

/-- **A click that moves** asks for nothing but moves to the next page. -/
theorem clic_of_not_bloquee (h : ¬ Bloquee f s) :
    clic f request id s =
      some (updateWithNextsCommunity
        [request, attrId id, .number (cible f s), .number (s.top - 1)],
        { s with begin := cible f s }) := by
  rw [clic_eq, appels_of_not_bloquee h]
  rfl

theorem cible_ne (htop : 1 ≤ s.top) (h : ¬ Bloquee f s) : cible f s ≠ s.begin := by
  cases f with
  | previous =>
    have hmoves : s.begin + s.top < s.max := not_le.mp h
    rw [cible]
    omega
  | next =>
    have hne : s.begin ≠ 1 := h
    rw [cible]
    split_ifs <;> omega

end Clic

/-! ## The requests -/

/-- The requests follow the page, after a click with this outcome: there is one exactly if
`_begin` changes, and it asks for the new `_begin`. -/
structure Suit (s : SquareZone) (issue : Option (Requete × SquareZone)) : Prop where
  envoie : issue.isSome ↔ ((issue.map Prod.snd).getD s).begin ≠ s.begin
  page : ∀ q s', issue = some (q, s') → envoi q.param2 = decimal s'.begin

/-- **When the requests follow the page.**  Exactly when there is no page in this
direction, or the wrapper happens to have its number for an `id`.  (For ranks up to
`2 ^ 53`.) -/
theorem requests_follow (f : Fleche) (request : Js) (id : Option Text) (s : SquareZone)
    (htop : 1 ≤ s.top) :
    Suit s (clic f request id s) ↔ Bloquee f s ∨ id = some (decimal (cible f s)) := by
  by_cases h : Bloquee f s
  · rw [clic_of_bloquee h]
    refine iff_of_true ⟨?_, fun q s' h => by cases h⟩ (Or.inl h)
    simp
  · have hne := cible_ne htop h
    rw [clic_of_not_bloquee h, or_iff_right h]
    constructor
    · intro hsuit
      have hpage : envoi (attrId id) = decimal (cible f s) := hsuit.page _ _ rfl
      rcases id with _ | t
      · exact absurd hpage.symm (decimal_ne_nil _)
      · exact congrArg some hpage
    · rintro rfl
      refine ⟨iff_of_true rfl hne, fun q s' heq => ?_⟩
      obtain ⟨rfl, rfl⟩ := Prod.mk.inj (Option.some_inj.mp heq)
      rfl

/-- The second page of the leader board, whose wrapper has no `id`. -/
def deuxieme : SquareZone := ⟨11, 10, 1000, []⟩

/-- The way back from there asks for an empty page number. -/
theorem requests_follow_deuxieme :
    ¬ Suit deuxieme (clic .next (.string "topRunner".toList) none deuxieme) := by
  intro h
  have hpage : envoi .undefined = decimal 1 := h.page _ _ rfl
  revert hpage
  decide

/-- The condition there. -/
theorem requests_follow_at_deuxieme :
    Suit deuxieme (clic .next (.string "topRunner".toList) none deuxieme) ↔
      Bloquee .next deuxieme ∨ none = some (decimal (cible .next deuxieme)) :=
  requests_follow .next (.string "topRunner".toList) none deuxieme (by decide)

/-! ## The pages -/

/-- A click, before any answer. -/
def apres (f : Fleche) (s : SquareZone) : SquareZone := ((click f s).map Prod.snd).getD s

/-- Clicks, one after the other. -/
def apresClics (s : SquareZone) (fs : List Fleche) : SquareZone :=
  fs.foldl (fun s f => apres f s) s

/-- A rank is on the page, `[_begin, _begin + _top)`. -/
def Contient (s : SquareZone) (r : ℤ) : Prop := s.begin ≤ r ∧ r < s.begin + s.top

/-- What the arrows promise after some clicks from a zone.  A run is the clicks so far and
then some forward ones. -/
structure Sillonne (s₀ : SquareZone) (fs : List Fleche) : Prop where
  bas : 1 ≤ (apresClics s₀ fs).begin
  haut : (apres .previous (apresClics s₀ fs)).begin ≠ (apresClics s₀ fs).begin →
    (apres .previous (apresClics s₀ fs)).begin + s₀.top ≤ s₀.max
  touche : ∀ f, (apres f (apresClics s₀ fs)).begin ≤ (apresClics s₀ fs).begin + s₀.top ∧
    (apresClics s₀ fs).begin ≤ (apres f (apresClics s₀ fs)).begin + s₀.top
  fin : ∃ k, s₀.max ≤ (apresClics s₀ (fs ++ List.replicate k .previous)).begin + s₀.top ∧
    (∀ j, apresClics s₀ (fs ++ List.replicate (k + j) .previous) =
      apresClics s₀ (fs ++ List.replicate k .previous)) ∧
    ∀ r, 1 ≤ r → r < s₀.max →
      ∃ gs, gs <+: fs ++ List.replicate k .previous ∧ Contient (apresClics s₀ gs) r
  debut : ∃ k, (apresClics s₀ (fs ++ List.replicate k .next)).begin = 1

section Pages

variable {f : Fleche} {s : SquareZone}

theorem click_eq_clic (f : Fleche) (s : SquareZone) :
    click f s = clic f (.string "topRunner".toList) none s := by
  cases f <;> rfl

theorem apres_of_bloquee (h : Bloquee f s) : apres f s = s := by
  rw [apres, click_eq_clic, clic_of_bloquee h]
  rfl

theorem apres_of_not_bloquee (h : ¬ Bloquee f s) :
    apres f s = { s with begin := cible f s } := by
  rw [apres, click_eq_clic, clic_of_not_bloquee h]
  rfl

/-- **What a click does to the page.**  It stays in place, or moves by at most its size. -/
theorem apres_cases (htop : 1 ≤ s.top) (f : Fleche) :
    Bloquee f s ∧ apres f s = s ∨
      ¬ Bloquee f s ∧ ∃ b, apres f s = { s with begin := b } ∧ b ≠ s.begin ∧
        b ≤ s.begin + s.top ∧ s.begin ≤ b + s.top ∧
        (f = .previous → s.begin < b ∧ b + s.top ≤ s.max) ∧
        (f = .next → 1 ≤ s.begin → 1 ≤ b ∧ b < s.begin) := by
  by_cases h : Bloquee f s
  · exact Or.inl ⟨h, apres_of_bloquee h⟩
  · refine Or.inr ⟨h, cible f s, apres_of_not_bloquee h, cible_ne htop h, ?_⟩
    cases f with
    | previous =>
      have hmoves : s.begin + s.top < s.max := not_le.mp h
      have hcible : cible .previous s = s.begin + min s.top (s.max - s.top - s.begin) := rfl
      refine ⟨by omega, by omega, fun _ => by omega, nofun⟩
    | next =>
      have hne : s.begin ≠ 1 := h
      have hcible : cible .next s =
        s.begin - if 1 < s.begin then min s.top (s.begin - 1) else s.top := rfl
      split_ifs at hcible
      · refine ⟨by omega, by omega, nofun, fun _ _ => by omega⟩
      · refine ⟨by omega, by omega, nofun, fun _ _ => by omega⟩

/-- The size of the page and the end of the ranking stay. -/
theorem top_max_apresClics (htop : 1 ≤ s.top) (fs : List Fleche) :
    (apresClics s fs).top = s.top ∧ (apresClics s fs).max = s.max := by
  induction fs generalizing s with
  | nil => exact ⟨rfl, rfl⟩
  | cons f fs ih =>
    have hsame : (apres f s).top = s.top ∧ (apres f s).max = s.max := by
      rcases apres_cases htop f with ⟨-, heq⟩ | ⟨-, b, heq, -⟩ <;> rw [heq] <;> exact ⟨rfl, rfl⟩
    have hrest := ih (s := apres f s) (hsame.1 ▸ htop)
    exact ⟨hrest.1.trans hsame.1, hrest.2.trans hsame.2⟩

/-- **The page starts at rank 1 or later**, if it did before the clicks. -/
theorem one_le_apresClics (htop : 1 ≤ s.top) (hbegin : 1 ≤ s.begin) (fs : List Fleche) :
    1 ≤ (apresClics s fs).begin := by
  induction fs generalizing s with
  | nil => exact hbegin
  | cons f fs ih =>
    rcases apres_cases htop f with ⟨-, heq⟩ | ⟨-, b, heq, -, -, -, hprevious, hnext⟩
    · exact ih (s := apres f s) (by rw [heq]; exact htop) (by rw [heq]; exact hbegin)
    · refine ih (s := apres f s) (by rw [heq]; exact htop) ?_
      rw [heq]
      cases f with
      | previous => exact le_trans hbegin (hprevious rfl).1.le
      | next => exact (hnext rfl hbegin).1

/-- **The pages of a run cover** all ranks from the first page to the last. -/
theorem exists_contient (htop : 1 ≤ s.top) (fs : List Fleche) {r : ℤ} (hlow : s.begin ≤ r)
    (hhigh : r < (apresClics s fs).begin + s.top) :
    ∃ gs, gs <+: fs ∧ Contient (apresClics s gs) r := by
  induction fs generalizing s with
  | nil => exact ⟨[], List.prefix_refl [], hlow, hhigh⟩
  | cons f fs ih =>
    by_cases hr : r < s.begin + s.top
    · exact ⟨[], List.nil_prefix, hlow, hr⟩
    · have hstep : (apres f s).top = s.top ∧ (apres f s).begin ≤ s.begin + s.top := by
        rcases apres_cases htop f with ⟨-, heq⟩ | ⟨-, b, heq, -, hle, -⟩
        · rw [heq]
          exact ⟨rfl, by omega⟩
        · rw [heq]
          exact ⟨rfl, hle⟩
      obtain ⟨gs, hgs, hcontient⟩ := ih (s := apres f s) (hstep.1.symm ▸ htop)
        (by omega) (by rw [hstep.1]; exact hhigh)
      exact ⟨f :: gs, List.cons_prefix_cons.mpr ⟨rfl, hgs⟩, hcontient⟩

/-- How far an arrow can move the page. -/
def reste (f : Fleche) (s : SquareZone) : ℕ :=
  match f with
  | .previous => (s.max - s.top - s.begin).toNat
  | .next => (s.begin - 1).toNat

theorem reste_apres (htop : 1 ≤ s.top) (hbegin : 1 ≤ s.begin) (h : ¬ Bloquee f s) :
    reste f (apres f s) < reste f s := by
  rcases apres_cases htop f with ⟨hbloquee, -⟩ | ⟨-, b, heq, -, -, -, hprevious, hnext⟩
  · exact absurd hbloquee h
  · rw [heq]
    cases f with
    | previous =>
      have hmove := hprevious rfl
      show (s.max - s.top - b).toNat < (s.max - s.top - s.begin).toNat
      omega
    | next =>
      have hmove := hnext rfl hbegin
      show (b - 1).toNat < (s.begin - 1).toNat
      omega

/-- **An arrow comes to an end.** -/
theorem exists_bloquee (f : Fleche) (htop : 1 ≤ s.top) (hbegin : 1 ≤ s.begin) :
    ∃ k, Bloquee f (apresClics s (List.replicate k f)) := by
  induction hn : reste f s using Nat.strong_induction_on generalizing s with
  | h n ih =>
    by_cases h : Bloquee f s
    · exact ⟨0, h⟩
    · have htop' : (apres f s).top = s.top := (top_max_apresClics htop [f]).1
      obtain ⟨k, hk⟩ := ih _ (hn ▸ reste_apres htop hbegin h) (htop'.symm ▸ htop)
        (one_le_apresClics htop hbegin [f]) rfl
      exact ⟨k + 1, hk⟩

theorem apresClics_replicate_of_bloquee (h : Bloquee f s) (j : ℕ) :
    apresClics s (List.replicate j f) = s := by
  induction j with
  | zero => rfl
  | succ j ih =>
    rw [List.replicate_succ, apresClics, List.foldl_cons, apres_of_bloquee h]
    exact ih

end Pages

theorem apresClics_append (s : SquareZone) (fs gs : List Fleche) :
    apresClics s (fs ++ gs) = apresClics (apresClics s fs) gs :=
  List.foldl_append

/-- **The arithmetic of the arrows.**  From rank 1, as long as no answer comes, any mix of
clicks keeps to the ranking without a gap, and both ends can be reached.  (For ranks up to
`2 ^ 53`.) -/
theorem arrow_arithmetic (s₀ : SquareZone) (hbegin : s₀.begin = 1) (htop : 1 ≤ s₀.top)
    (fs : List Fleche) : Sillonne s₀ fs := by
  set s := apresClics s₀ fs with hs
  obtain ⟨htop', hmax'⟩ := top_max_apresClics htop fs
  have hone : 1 ≤ s.begin := one_le_apresClics htop hbegin.ge fs
  have htops : 1 ≤ s.top := htop'.symm ▸ htop
  refine ⟨hone, fun hmoves => ?_, fun f => ?_, ?_, ?_⟩
  · rcases apres_cases htops .previous with ⟨-, heq⟩ | ⟨-, b, heq, -, -, -, hprevious, -⟩
    · exact absurd (congrArg SquareZone.begin heq) hmoves
    · rw [← hs, heq, ← htop', ← hmax']
      exact (hprevious rfl).2
  · rw [← hs, ← htop']
    rcases apres_cases htops f with ⟨-, heq⟩ | ⟨-, b, heq, -, hle, hge, -⟩
    · rw [heq]
      omega
    · rw [heq]
      exact ⟨hle, hge⟩
  · obtain ⟨k, hk⟩ := exists_bloquee .previous htops hone
    have htopk := (top_max_apresClics htop (fs ++ List.replicate k .previous))
    have hend : s₀.max ≤ (apresClics s₀ (fs ++ List.replicate k .previous)).begin + s₀.top := by
      rw [← htopk.1, ← htopk.2, apresClics_append]
      exact hk
    refine ⟨k, hend, fun j => ?_, fun r hr hr' => ?_⟩
    · rw [List.replicate_add, ← List.append_assoc, apresClics_append s₀ (fs ++ _)]
      refine apresClics_replicate_of_bloquee ?_ j
      rw [apresClics_append]
      exact hk
    · exact exists_contient htop _ (hbegin.symm ▸ hr) (lt_of_lt_of_le hr' hend)
  · obtain ⟨k, hk⟩ := exists_bloquee .next htops hone
    refine ⟨k, ?_⟩
    rw [apresClics_append]
    exact hk

/-- The leader board of the page, after a click back and forth. -/
theorem arrow_arithmetic_at_wrapper : Sillonne wrapper [.previous, .next] :=
  arrow_arithmetic wrapper rfl (by decide) [.previous, .next]

end SquareZone
end Page
end RondeDesFacs
