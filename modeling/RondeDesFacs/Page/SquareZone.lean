import RondeDesFacs.Servlet.StoredProcedure

/-!
# The leader board

`SquareZone` shows the ranking ten runners at a time.  It keeps the rank the page
starts with (`_begin`), the size of a page (`_top`) and the first rank past the
end (`_max`), and two arrows move it; the forward one has the class `previous`.

Three parts of the repository have a word in this, and they disagree.  The page
is made for ten rows (`data-top="10"`), the procedure sends nine (`indexmax`), and
`_fillSquareKPI` sets `_max` from the rows it has just received, so that the end
of the page passes for the end of the ranking.  After any answer
`_max ≤ _begin + 9` (`Loaded`), and the arrow moves only if
`_begin + _top < _max`: it never does.

The handlers of the arrows are bound to arrows inside an `.adminHomeWrapper`, and the
arrows here are taken to be in one.  `index.html` has no such element, so its own arrows do
nothing.

Which rows are on the page is told by rank.  A row travels here together with its
rank in the ranking, which the page does not see.
-/

namespace RondeDesFacs
namespace Page

open Servlet Bdd Query

/-- A value of a request parameter. -/
inductive Js where
  | undefined
  | number (n : ℤ)
  | string (t : Text)
  deriving DecidableEq

/-- The body of a request to the servlet. -/
structure Requete where
  param1 : Js
  param2 : Js
  param3 : Js
  deriving DecidableEq

/-- A block of the page, one for each runner. -/
structure Bloc where
  classe : Text
  userName : Text
  title : Text
  src : Text
  position : Text
  deriving DecidableEq

/-- The variables of a `SquareZone` and the blocks of its `.kpiContent`, each with
the rank of its runner. -/
structure SquareZone where
  begin : ℤ
  top : ℤ
  max : ℤ
  content : List (Bloc × ℕ)

/-- The two arrows. -/
inductive Fleche where
  | previous
  | next
  deriving DecidableEq

namespace SquareZone

/-- A number, written in a text. -/
def decimal (n : ℤ) : Text := (toString n).toList

/-- The block of a row, the `i`-th of its page. -/
def bloc (begin : ℤ) (i : ℕ) (p : PiePoint) : Bloc where
  classe := "p".toList ++ decimal i
  userName := p.name
  title := p.name ++ " (".toList ++ decimal begin ++ ")".toList
  src := "192.168.0.1/".toList ++ p.id.getD "undefined".toList ++ ".jpg".toList
  position := decimal p.y

/-- The `$.each` of `_fillSquareKPI`. -/
def remplir (i : ℕ) (s : SquareZone) : List (PiePoint × ℕ) → SquareZone
  | [] => s
  | p :: data =>
    remplir (i + 1)
      { s with content := s.content ++ [(bloc s.begin i p.1, p.2)], max := s.max + 1 } data

/-- `_fillSquareKPI`.  `content.remove(selector)` takes away the `.kpiContent`
itself if it matches, which it does not, so the old blocks stay. -/
def fillSquareKPI (s : SquareZone) (data : List (PiePoint × ℕ)) : SquareZone :=
  remplir 1 { s with max := s.begin } data

/-- `_UpdateWithNextsCommunity`, of three parameters, whatever it is called
with. -/
def updateWithNextsCommunity (args : List Js) : Requete where
  param1 := args.getD 0 .undefined
  param2 := args.getD 1 .undefined
  param3 := .string []

/-- A click on `.previous`: the request sent, if any, and the new variables. -/
def previous (request pageDesc : Js) (s : SquareZone) : Option (Requete × SquareZone) :=
  if s.begin + 2 * s.top - 1 ≥ s.max ∧ s.begin + s.top < s.max then
    some (updateWithNextsCommunity
      [request, pageDesc, .number (s.max - s.top), .number (s.top - 1)],
      { s with begin := s.max - s.top })
  else if s.begin + s.top < s.max then
    some (updateWithNextsCommunity
      [request, pageDesc, .number (s.begin + s.top), .number (s.top - 1)],
      { s with begin := s.begin + s.top })
  else none

/-- A click on `.next`. -/
def next (request pageDesc : Js) (s : SquareZone) : Option (Requete × SquareZone) :=
  if s.begin - s.top < 1 ∧ s.begin > 1 then
    some (updateWithNextsCommunity [request, pageDesc, .number 1, .number (s.top - 1)],
      { s with begin := 1 })
  else if s.begin ≠ 1 then
    some (updateWithNextsCommunity
      [request, pageDesc, .number (s.begin - s.top), .number (s.top - 1)],
      { s with begin := s.begin - s.top })
  else none

/-- The request of `initArrow`. -/
def initArrow (request : Js) : Requete :=
  updateWithNextsCommunity [request, .number 1, .number 10]

/-- The wrapper of `index.html` has no `id`. -/
def click (f : Fleche) (s : SquareZone) : Option (Requete × SquareZone) :=
  let request : Js := .string "topRunner".toList
  match f with
  | .previous => previous request .undefined s
  | .next => next request .undefined s

/-! ## The page and the ranking -/

/-- The rows `topRunner` sends for a page, with their ranks. -/
def page (b : Bdd) (begin : ℤ) : List (PiePoint × ℕ) :=
  topWindow begin ((b.classement.map piePoint).zipIdx 1)

/-- The variables before `initArrow`, from the attributes of the wrapper. -/
def wrapper : SquareZone where
  begin := 1
  top := 10
  max := 1000
  content := []

/-- After `initArrow`, once its answer has been handled. -/
def loaded (b : Bdd) : SquareZone := fillSquareKPI wrapper (page b 1)

/-- A click, and the answer to it if it sends a request: the page that starts
with the new `_begin`. -/
def press (b : Bdd) (s : SquareZone) (f : Fleche) : SquareZone :=
  match click f s with
  | none => s
  | some (_, s') => fillSquareKPI s' (page b s'.begin)

/-- The ranks on the page. -/
def ranks (s : SquareZone) : List ℕ := s.content.map Prod.snd

/-- Every rank comes on the page after some number of presses of the forward
arrow. -/
def ShowsAll (b : Bdd) : Prop :=
  ∀ r, 1 ≤ r → r ≤ b.classement.length →
    ∃ k, r ∈ ranks ((List.replicate k .previous).foldl (press b) (loaded b))

/-- A page is what the procedure sends, up to the ranks. -/
theorem topRunner_eq_page (b : Bdd) {begin : ℤ} (hbegin : begin ≠ 0) (idEtudiant : Text) :
    (b.topRunner begin idEtudiant).map (fun rows => rows.map piePoint) =
      [(page b begin).map Prod.fst] := by
  rw [topRunner, if_pos hbegin, List.map_singleton, page, topWindow, topWindow, limit, limit,
    List.map_take, List.map_drop, List.map_take, List.map_drop, List.zipIdx_map_fst]

/-! ## What an answer does -/

theorem remplir_eq (i : ℕ) (s : SquareZone) (data : List (PiePoint × ℕ)) :
    (remplir i s data).begin = s.begin ∧ (remplir i s data).top = s.top ∧
      (remplir i s data).max = s.max + data.length ∧
      ranks (remplir i s data) = ranks s ++ data.map Prod.snd := by
  induction data generalizing i s with
  | nil => simp [remplir]
  | cons p data ih =>
    obtain ⟨hbegin, htop, hmax, hranks⟩ := ih (i + 1)
      { s with content := s.content ++ [(bloc s.begin i p.1, p.2)], max := s.max + 1 }
    refine ⟨hbegin, htop, ?_, ?_⟩
    · rw [remplir, hmax, List.length_cons]
      push_cast
      omega
    · rw [remplir, hranks]
      simp [ranks]

/-- No page holds more than nine rows. -/
theorem length_page_le (b : Bdd) (begin : ℤ) : (page b begin).length ≤ 9 :=
  List.length_take_le _ _

/-- The variables after an answer. -/
structure Loaded (s : SquareZone) : Prop where
  top : s.top = 10
  max_le : s.max ≤ s.begin + 9

/-- **What an answer does.**  The page may be at most nine ranks from the end. -/
theorem loaded_fillSquareKPI (b : Bdd) {s : SquareZone} (htop : s.top = 10) (begin : ℤ) :
    Loaded (fillSquareKPI s (page b begin)) := by
  obtain ⟨hbegin, htop', hmax, -⟩ := remplir_eq 1 { s with max := s.begin } (page b begin)
  have hlen := length_page_le b begin
  refine ⟨htop'.trans htop, ?_⟩
  rw [fillSquareKPI, hmax, hbegin]
  show s.begin + _ ≤ s.begin + 9
  omega

/-- **The forward arrow never moves.** -/
theorem press_previous (b : Bdd) {s : SquareZone} (hs : Loaded s) : press b s .previous = s := by
  have htop := hs.top
  have hmax := hs.max_le
  have hmoves : ¬ s.begin + s.top < s.max := by omega
  have hclick : click .previous s = none := by
    rw [click, previous, if_neg fun h => hmoves h.2, if_neg hmoves]
  rw [press, hclick]

theorem foldl_press_previous (b : Bdd) {s : SquareZone} (hs : Loaded s) (k : ℕ) :
    (List.replicate k .previous).foldl (press b) s = s := by
  induction k with
  | zero => rfl
  | succ k ih => rw [List.replicate_succ, List.foldl_cons, press_previous b hs, ih]

/-- The first page shows the first nine ranks, as far as there are. -/
theorem mem_ranks_loaded_iff (b : Bdd) {r : ℕ} :
    r ∈ ranks (loaded b) ↔ 1 ≤ r ∧ r ≤ b.classement.length ∧ r ≤ 9 := by
  obtain ⟨-, -, -, hranks⟩ := remplir_eq 1 { wrapper with max := wrapper.begin } (page b 1)
  have hrows : ((b.classement.map piePoint).zipIdx 1).map Prod.snd =
      List.range' 1 b.classement.length := by
    rw [List.zipIdx_map_snd, List.length_map]
  have hpage : (page b 1).map Prod.snd = (List.range' 1 b.classement.length).take 9 := by
    rw [page, topWindow, limit, List.map_take, List.map_drop, hrows]
    rfl
  have hloaded : ranks (loaded b) = (List.range' 1 b.classement.length).take 9 := by
    rw [loaded, fillSquareKPI, hranks, hpage]
    rfl
  rw [hloaded]
  by_cases hlen : b.classement.length ≤ 9
  · rw [List.take_range'_of_length_le hlen, List.mem_range'_1]
    omega
  · rw [List.take_range'_of_length_ge (by omega), List.mem_range'_1]
    omega

/-- Presses show nothing that the first page does not. -/
theorem ranks_presses (b : Bdd) (k : ℕ) :
    ranks ((List.replicate k .previous).foldl (press b) (loaded b)) = ranks (loaded b) := by
  have hloaded : Loaded (loaded b) := loaded_fillSquareKPI b rfl 1
  rw [foldl_press_previous b hloaded k]

/-- **What the leader board shows.**  Every runner comes on the page exactly when
there are at most nine. -/
theorem showsAll_iff (b : Bdd) : ShowsAll b ↔ b.classement.length ≤ 9 := by
  constructor
  · intro h
    by_contra hlen
    obtain ⟨k, hk⟩ := h 10 (by omega) (by omega)
    rw [ranks_presses, mem_ranks_loaded_iff] at hk
    omega
  · intro hlen r hr hr'
    refine ⟨0, ?_⟩
    rw [ranks_presses, mem_ranks_loaded_iff]
    omega

/-- Ten cards, so ten rows of the ranking. -/
def dixCartes : Bdd where
  participant := [Participant.ofKey 1]
  carte := "ABCDEFGHIJ".toList.map fun c => ⟨[c], 1⟩
  passage := []

/-- The tenth never comes on the page. -/
theorem not_showsAll_dixCartes : dixCartes.classement.length = 10 ∧ ¬ ShowsAll dixCartes := by
  have hlen : dixCartes.classement.length = 10 := by decide
  refine ⟨hlen, fun h => ?_⟩
  obtain ⟨k, hk⟩ := h 10 (by omega) (by omega)
  rw [ranks_presses, mem_ranks_loaded_iff] at hk
  omega

end SquareZone
end Page
end RondeDesFacs
