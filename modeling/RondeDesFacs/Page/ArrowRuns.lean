import RondeDesFacs.Page.ArrowCopies
import Mathlib.Algebra.Order.Group.Int
import Mathlib.Algebra.Ring.Divisibility.Basic

/-!
# The other copy in a run

In `HoozinAdminHome.js` a click loads a page, and the page brings a script that sets `_begin`,
`_top` and `_max` and calls `initArrow`, which lights the arrows.  Until it arrives the
variables stay as they are, so a second click asks for what the first has asked for.  Answers
come in any order, again or not at all.

The last page ends with the last rank, so the way back from there meets page starts of its own:
those that are as far from the end as the others are from the beginning.  If the two kinds are the
same, or if there is one page only, no run asks for a page before rank 1, and the arrows that are
lit are those that do something.  Otherwise the way back comes to a start from 2 to `_top`, and
the missing `else` of `ArrowCopies` has a page loaded that begins before rank 1, where the arrow
back is dark and goes on (`arrows_lit`).
-/

namespace RondeDesFacs
namespace Page
namespace Hoozin

open SquareZone

/-! ## Runs -/

/-- The board: its variables, and what has been asked for. -/
structure Tableau where
  zone : SquareZone
  demandes : List Demande

/-- What happens: a click on an arrow, or the answer to something that was asked for. -/
inductive Fait where
  | clic (f : Fleche) (request pageDesc : Js)
  | repond (k : ℕ)

def Tableau.ouvre (top maxRow : ℤ) : Tableau where
  zone := ⟨1, top, maxRow, []⟩
  demandes := []

/-- The board afterwards.  The script of an answer has `begin` and `top` from the parameters
of the request, and `MaxRow` from the rows. -/
def Tableau.apres (maxRow : ℤ) (t : Tableau) : Fait → Tableau
  | .clic f request pageDesc =>
    { t with demandes := t.demandes ++ Hoozin.demandes f request pageDesc t.zone }
  | .repond k =>
    match t.demandes[k]? with
    | none => t
    | some d => { t with zone := ⟨d.parameterBegin, d.parameterTop, maxRow, []⟩ }

def Tableau.apresTout (maxRow : ℤ) (t : Tableau) (run : List Fait) : Tableau :=
  run.foldl (Tableau.apres maxRow) t

/-- The arrows that `initArrow` lights. -/
def active (s : SquareZone) : Fleche → Bool
  | .previous => s.top + s.begin < s.max
  | .next => 1 < s.begin

/-- There is one page, or the starts from the end are the starts from the beginning. -/
def Entiere (top maxRow : ℤ) : Prop := 1 + top < maxRow → top ∣ maxRow - 1

/-! ## Where the pages fit -/

section Entiere

variable {top maxRow : ℤ} {s : SquareZone} {f : Fleche} {t : Tableau}

def Debut (top maxRow b : ℤ) : Prop := 1 ≤ b ∧ top ∣ b - 1 ∧ (1 + top < maxRow ∨ b = 1)

theorem Debut.un (top maxRow : ℤ) : Debut top maxRow 1 := ⟨le_rfl, by simp, Or.inr rfl⟩

/-- Between the first start and the next there is none. -/
theorem Debut.eq_or_lt {b : ℤ} (h : Debut top maxRow b) : b = 1 ∨ top < b := by
  obtain ⟨hone, hdvd, -⟩ := h
  rcases hone.eq_or_lt with heq | hlt
  · exact Or.inl heq.symm
  · have hle := Int.le_of_dvd (by omega) hdvd
    exact Or.inr (by omega)

structure Chargee (top maxRow : ℤ) (s : SquareZone) : Prop where
  debut : Debut top maxRow s.begin
  haut : s.top = top
  max : s.max = maxRow

theorem Chargee.not_double (h : Chargee top maxRow s) : ¬ Double f s := by
  rintro ⟨-, hlt, hle⟩
  rcases h.debut.eq_or_lt with heq | hlt'
  · omega
  · rw [h.haut] at hle
    omega

/-- A click leads from start to start. -/
theorem Chargee.debut_cible (h : Chargee top maxRow s) (htop : 1 ≤ top)
    (hentiere : Entiere top maxRow) (hmoves : ¬ Bloquee f s) : Debut top maxRow (cible f s) := by
  obtain ⟨⟨hone, hdvd, hpages⟩, rfl, rfl⟩ := h
  cases f with
  | previous =>
    have hlt : s.begin + s.top < s.max := not_le.mp hmoves
    have hseveral : 1 + s.top < s.max := by omega
    have hlast := hentiere hseveral
    rw [cible]
    rcases min_cases s.top (s.max - s.top - s.begin) with ⟨hmin, -⟩ | ⟨hmin, -⟩
    · rw [hmin]
      refine ⟨by omega, ?_, Or.inl hseveral⟩
      have hnext : s.begin + s.top - 1 = s.begin - 1 + s.top := by omega
      exact hnext ▸ dvd_add hdvd dvd_rfl
    · rw [hmin]
      refine ⟨by omega, ?_, Or.inl hseveral⟩
      have hend : s.begin + (s.max - s.top - s.begin) - 1 = s.max - 1 - s.top := by omega
      exact hend ▸ dvd_sub hlast dvd_rfl
  | next =>
    have hne : s.begin ≠ 1 := hmoves
    have hle := Int.le_of_dvd (by omega) hdvd
    rw [cible, if_pos (by omega), min_eq_left hle]
    refine ⟨by omega, ?_, Or.inl (hpages.resolve_right hne)⟩
    have hback : s.begin - s.top - 1 = s.begin - 1 - s.top := by omega
    exact hback ▸ dvd_sub hdvd dvd_rfl

/-- The board is at a start, and has asked for starts. -/
structure Tableau.Bon (top maxRow : ℤ) (t : Tableau) : Prop where
  zone : Chargee top maxRow t.zone
  demandes : ∀ d ∈ t.demandes, Debut top maxRow d.page ∧ d.parameterBegin = d.page ∧
    d.parameterTop = top

theorem Tableau.Bon.ouvre (top maxRow : ℤ) : (Tableau.ouvre top maxRow).Bon top maxRow :=
  ⟨⟨Debut.un top maxRow, rfl, rfl⟩, fun _ h => absurd h List.not_mem_nil⟩

theorem Chargee.demandes (h : Chargee top maxRow s) (htop : 1 ≤ top)
    (hentiere : Entiere top maxRow) {request pageDesc : Js} {d : Demande}
    (hd : d ∈ Hoozin.demandes f request pageDesc s) :
    Debut top maxRow d.page ∧ d.parameterBegin = d.page ∧ d.parameterTop = top := by
  rw [Hoozin.demandes, appels_of_not_double _ _ h.not_double] at hd
  by_cases hbloquee : Bloquee f s
  · rw [appels_of_bloquee hbloquee] at hd
    exact absurd hd List.not_mem_nil
  · rw [appels_of_not_bloquee hbloquee, List.map_singleton, List.mem_singleton] at hd
    rw [hd]
    exact ⟨h.debut_cible htop hentiere hbloquee, rfl, h.haut⟩

/-- Where the pages fit, whatever happens leaves the board at a start, and only starts are
asked for. -/
theorem Tableau.Bon.apres (h : t.Bon top maxRow) (htop : 1 ≤ top) (hentiere : Entiere top maxRow)
    (x : Fait) : (t.apres maxRow x).Bon top maxRow := by
  cases x with
  | clic f request pageDesc =>
    refine ⟨h.zone, fun d hd => ?_⟩
    rcases List.mem_append.mp hd with hd | hd
    · exact h.demandes d hd
    · exact h.zone.demandes htop hentiere hd
  | repond k =>
    rw [Tableau.apres]
    rcases hk : t.demandes[k]? with _ | d
    · exact h
    · obtain ⟨hdebut, hbegin, hhaut⟩ := h.demandes d (List.mem_of_getElem? hk)
      refine ⟨⟨?_, hhaut, rfl⟩, h.demandes⟩
      show Debut top maxRow d.parameterBegin
      rwa [hbegin]

theorem Tableau.Bon.apresTout (h : t.Bon top maxRow) (htop : 1 ≤ top)
    (hentiere : Entiere top maxRow) (run : List Fait) :
    (t.apresTout maxRow run).Bon top maxRow := by
  induction run generalizing t with
  | nil => exact h
  | cons x run ih => exact ih (h.apres htop hentiere x)

end Entiere

/-! ## The arrows that are lit -/

/-- A click does nothing exactly if there is no page in its direction. -/
theorem demandes_eq_nil_iff (f : Fleche) (request pageDesc : Js) (s : SquareZone) :
    demandes f request pageDesc s = [] ↔ Bloquee f s := by
  rw [demandes, List.map_eq_nil_iff]
  cases f with
  | previous =>
    rw [appels, appelsPrevious, Bloquee]
    split_ifs <;> simp <;> omega
  | next =>
    rw [appels, appelsNext, Bloquee]
    split_ifs <;> simp_all

/-- From rank 1 on, the arrows that are lit are those that do something. -/
theorem active_iff (f : Fleche) (request pageDesc : Js) {s : SquareZone} (h : 1 ≤ s.begin) :
    active s f = true ↔ demandes f request pageDesc s ≠ [] := by
  rw [Ne, demandes_eq_nil_iff]
  cases f <;> simp only [active, Bloquee, decide_eq_true_eq] <;> omega

/-! ## Where they do not -/

section Reachable

variable {top maxRow b : ℤ}

def Atteint (top maxRow b : ℤ) : Prop :=
  ∃ run, ((Tableau.ouvre top maxRow).apresTout maxRow run).zone = ⟨b, top, maxRow, []⟩

/-- What is asked for may be answered. -/
theorem Atteint.demande {f : Fleche} {request pageDesc : Js} {a : Appel}
    (h : Atteint top maxRow b) (ha : a ∈ appels f request pageDesc ⟨b, top, maxRow, []⟩) :
    ∃ run k d, ((Tableau.ouvre top maxRow).apresTout maxRow run).demandes[k]? = some d ∧
      d.page = a.begin ∧
      ((Tableau.ouvre top maxRow).apresTout maxRow (run ++ [.repond k])).zone =
        ⟨a.begin, top, maxRow, []⟩ := by
  obtain ⟨run, hzone⟩ := h
  have hasked : ((Tableau.ouvre top maxRow).apresTout maxRow
      (run ++ [.clic f request pageDesc])).demandes =
        ((Tableau.ouvre top maxRow).apresTout maxRow run).demandes ++
          demandes f request pageDesc ⟨b, top, maxRow, []⟩ := by
    rw [Tableau.apresTout, List.foldl_append, ← hzone]
    rfl
  have hmem : updateWithNextsCommunity ⟨b, top, maxRow, []⟩ a ∈
      ((Tableau.ouvre top maxRow).apresTout maxRow
        (run ++ [.clic f request pageDesc])).demandes := by
    rw [hasked]
    exact List.mem_append_right _ (List.mem_map_of_mem ha)
  obtain ⟨k, hk⟩ := List.mem_iff_getElem?.mp hmem
  refine ⟨run ++ [.clic f request pageDesc], k, _, hk, rfl, ?_⟩
  rw [Tableau.apresTout, List.foldl_append, List.foldl_cons, List.foldl_nil, Tableau.apres]
  rw [Tableau.apresTout] at hk
  rw [hk]
  rfl

theorem Atteint.suivant {f : Fleche} {request pageDesc : Js} {a : Appel}
    (h : Atteint top maxRow b) (ha : a ∈ appels f request pageDesc ⟨b, top, maxRow, []⟩) :
    Atteint top maxRow a.begin := by
  obtain ⟨run, k, -, -, -, hzone⟩ := h.demande ha
  exact ⟨run ++ [.repond k], hzone⟩

/-- The way forward ends on the last page. -/
theorem Atteint.derniere (h : Atteint top maxRow b) (htop : 1 ≤ top)
    (hmoves : b + top < maxRow) : Atteint top maxRow (maxRow - top) := by
  obtain ⟨n, hn⟩ : ∃ n : ℕ, maxRow - b ≤ n := ⟨(maxRow - b).toNat, Int.self_le_toNat _⟩
  induction n generalizing b with
  | zero => omega
  | succ n ih =>
    by_cases hlast : b + 2 * top - 1 ≥ maxRow
    · have ha : (⟨.undefined, .undefined, maxRow - top, top - 1⟩ : Appel) ∈
          appels .previous .undefined .undefined ⟨b, top, maxRow, []⟩ := by
        rw [appels, appelsPrevious, if_pos ⟨hlast, hmoves⟩]
        exact List.mem_singleton_self _
      exact h.suivant ha
    · have ha : (⟨.undefined, .undefined, b + top, top - 1⟩ : Appel) ∈
          appels .previous .undefined .undefined ⟨b, top, maxRow, []⟩ := by
        rw [appels, appelsPrevious, if_neg fun h => hlast h.1, if_pos hmoves]
        exact List.mem_singleton_self _
      have hnext : Atteint top maxRow (b + top) := h.suivant ha
      have hle : b + top + top ≤ maxRow := by omega
      rcases hle.lt_or_eq with hlt | heq
      · exact ih hnext hlt (by push_cast at hn; omega)
      · rwa [show maxRow - top = b + top by omega]

/-- The way back from a page that is not at a start comes between the first two. -/
theorem Atteint.retour (h : Atteint top maxRow b) (htop : 1 ≤ top) (hone : 1 ≤ b)
    (hdvd : ¬ top ∣ b - 1) : ∃ b', Atteint top maxRow b' ∧ 1 < b' ∧ b' ≤ top := by
  have hne : b ≠ 1 := fun heq => hdvd (by simp [heq])
  obtain ⟨n, hn⟩ : ∃ n : ℕ, b ≤ n := ⟨b.toNat, Int.self_le_toNat _⟩
  induction n generalizing b with
  | zero => omega
  | succ n ih =>
    by_cases hle : b ≤ top
    · exact ⟨b, h, by omega, hle⟩
    · have ha : (⟨.undefined, .undefined, b - top, top - 1⟩ : Appel) ∈
          appels .next .undefined .undefined ⟨b, top, maxRow, []⟩ := by
        rw [appels, appelsNext, if_pos hne]
        exact List.mem_append_right _ (List.mem_singleton_self _)
      have hnext : Atteint top maxRow (b - top) := h.suivant ha
      have hback : ¬ top ∣ b - top - 1 := fun hdiv => hdvd <| by
        have hsum := dvd_add hdiv (dvd_refl top)
        rwa [show b - top - 1 + top = b - 1 by omega] at hsum
      have hne' : b - top ≠ 1 := fun heq => hback (by simp [heq])
      exact ih hnext (by omega) hback hne' (by push_cast at hn; omega)

/-- **Where the pages do not fit**, a run comes between the first two, where a click back asks
for a page before rank 1, which may be answered. -/
theorem exists_before_un (htop : 1 ≤ top) (h : ¬ Entiere top maxRow) :
    ∃ run k d, ((Tableau.ouvre top maxRow).apresTout maxRow run).demandes[k]? = some d ∧
      d.page < 1 ∧
      ((Tableau.ouvre top maxRow).apresTout maxRow (run ++ [.repond k])).zone =
        ⟨d.page, top, maxRow, []⟩ := by
  obtain ⟨hseveral, hdvd⟩ := Classical.not_imp.mp h
  have hfirst : Atteint top maxRow 1 := ⟨[], rfl⟩
  have hend : ¬ top ∣ maxRow - top - 1 := fun hdiv => hdvd <| by
    have hsum := dvd_add hdiv (dvd_refl top)
    rwa [show maxRow - top - 1 + top = maxRow - 1 by omega] at hsum
  obtain ⟨b, hb, hlt, hle⟩ := (hfirst.derniere htop hseveral).retour htop (by omega) hend
  have ha : (⟨.undefined, .undefined, b - top, top - 1⟩ : Appel) ∈
      appels .next .undefined .undefined ⟨b, top, maxRow, []⟩ := by
    rw [appels, appelsNext, if_pos hlt.ne']
    exact List.mem_append_right _ (List.mem_singleton_self _)
  obtain ⟨run, k, d, hk, hpage, hzone⟩ := hb.demande ha
  have hbefore : b - top < 1 := by omega
  exact ⟨run, k, d, hk, hpage ▸ hbefore, hpage ▸ hzone⟩

/-- A run asks for a page before rank 1, and when it has come, the arrow back is dark and asks
for another. -/
def Deborde (top maxRow : ℤ) : Prop :=
  ∃ run k d, ((Tableau.ouvre top maxRow).apresTout maxRow run).demandes[k]? = some d ∧
    d.page < 1 ∧ ∀ request pageDesc,
      active ((Tableau.ouvre top maxRow).apresTout maxRow (run ++ [.repond k])).zone .next = false ∧
        demandes .next request pageDesc
          ((Tableau.ouvre top maxRow).apresTout maxRow (run ++ [.repond k])).zone ≠ []

theorem deborde_of_not_entiere (htop : 1 ≤ top) (h : ¬ Entiere top maxRow) :
    Deborde top maxRow := by
  obtain ⟨run, k, d, hk, hlt, hzone⟩ := exists_before_un htop h
  refine ⟨run, k, d, hk, hlt, fun request pageDesc => ?_⟩
  rw [hzone, Ne, demandes_eq_nil_iff, Bloquee]
  exact ⟨decide_eq_false (by simp only; omega), hlt.ne⟩

end Reachable

/-- **When the board stays in the ranking.**  No run asks for a page before rank 1 exactly if
there is one page or the pages fit, and exactly then the arrows that are lit are, in every run,
those that do something.  Otherwise some run asks for such a page, and when it has come the
arrow back is dark and asks for another. -/
theorem arrows_lit (top maxRow : ℤ) (htop : 1 ≤ top) :
    ((∀ run, ∀ d ∈ ((Tableau.ouvre top maxRow).apresTout maxRow run).demandes, 1 ≤ d.page) ↔
        Entiere top maxRow) ∧
      ((∀ run f request pageDesc,
          active ((Tableau.ouvre top maxRow).apresTout maxRow run).zone f = true ↔
            demandes f request pageDesc
              ((Tableau.ouvre top maxRow).apresTout maxRow run).zone ≠ []) ↔
        Entiere top maxRow) ∧
      (¬ Entiere top maxRow → Deborde top maxRow) := by
  refine ⟨⟨fun hpages => ?_, fun hentiere run d hd => ?_⟩,
    ⟨fun hlit => ?_, fun hentiere run f request pageDesc => ?_⟩, deborde_of_not_entiere htop⟩
  · by_contra hnot
    obtain ⟨run, k, d, hk, hlt, -⟩ := deborde_of_not_entiere htop hnot
    exact absurd (hpages run d (List.mem_of_getElem? hk)) (not_le.mpr hlt)
  · exact (((Tableau.Bon.ouvre top maxRow).apresTout htop hentiere run).demandes d hd).1.1
  · by_contra hnot
    obtain ⟨run, k, d, -, -, harrow⟩ := deborde_of_not_entiere htop hnot
    obtain ⟨hoff, hasks⟩ := harrow .undefined .undefined
    rw [← hlit, hoff] at hasks
    exact Bool.false_ne_true hasks
  · exact active_iff f request pageDesc
      ((Tableau.Bon.ouvre top maxRow).apresTout htop hentiere run).zone.debut.1

/-- Pages of ten, and fifteen ranks before the end. -/
theorem arrows_lit_quinze :
    (¬ ∀ run, ∀ d ∈ ((Tableau.ouvre 10 15).apresTout 15 run).demandes, 1 ≤ d.page) ∧
      Deborde 10 15 := by
  have hnot : ¬ Entiere 10 15 := fun h => absurd (h (by decide)) (by decide)
  obtain ⟨hpages, -, hdark⟩ := arrows_lit 10 15 (by decide)
  exact ⟨fun h => hnot (hpages.mp h), hdark hnot⟩

end Hoozin
end Page
end RondeDesFacs
