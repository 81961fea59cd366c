import RondeDesFacs.Page.SquareZone
import Mathlib.Data.List.Induction

/-!
# The blocks of the leader board

`_fillSquareKPI` shows an answer by copying a hidden template, `.p0`, once for each row.
Before that it means to clear the blocks of the answer before, with
`content.remove('.column:not(.p0)')`.  But the selector of `remove` filters the set it is
called on, here the `.kpiContent` alone, and does not look below; to clear the blocks it
would have to be `find`.

So blocks are added and never taken away (`blocs_fillSquareKPI`), and an answer replaces
the one before exactly if there was nothing to replace (`page_replaced`).  The template
comes to no harm.
-/

namespace RondeDesFacs
namespace Page

open Servlet

/-- A child of `.kpiContent`: its classes, whether it is hidden, and what it shows. -/
structure Vignette where
  classes : List Text
  cachee : Bool
  userName : Text
  title : Text
  src : Text
  position : Text
  deriving DecidableEq

/-- A `.kpiContent`: its own classes, whether it is in the page, and its children. -/
structure Contenu where
  classes : List Text
  present : Bool
  enfants : List Vignette
  deriving DecidableEq

/-- The class of the template. -/
def p0 : Text := "p0".toList

/-! ## jQuery -/

/-- `removeClass`. -/
def removeClass (classes : List Text) (c : Text) : List Text := classes.filter fun c' => c' ≠ c

/-- `addClass`. -/
def addClass (classes : List Text) (c : Text) : List Text :=
  if c ∈ classes then classes else classes ++ [c]

/-- The selector `.column:not(.p0)`. -/
def columnNotP0 (classes : List Text) : Bool :=
  decide ("column".toList ∈ classes) && !decide (p0 ∈ classes)

namespace Contenu

/-- `content.remove(selector)`: takes `content` itself out of the page if it matches. -/
def remove (selector : List Text → Bool) (content : Contenu) : Contenu :=
  { content with present := content.present && !selector content.classes }

/-- `content.find('.p0')`. -/
def findP0 (content : Contenu) : List Vignette := content.enfants.filter fun v => p0 ∈ v.classes

/-- `content.append(pns)`. -/
def append (content : Contenu) (pns : List Vignette) : Contenu :=
  { content with enfants := content.enfants ++ pns }

/-- The blocks that can be seen. -/
def visibles (content : Contenu) : List Vignette :=
  if content.present then content.enfants.filter fun v => !v.cachee else []

end Contenu

/-- A copy of the template, filled in for a row, the `i`-th, and toggled. -/
def pn (begin : ℤ) (i : ℕ) (p : PiePoint) (modele : Vignette) : Vignette where
  classes := addClass (removeClass modele.classes p0) (SquareZone.bloc begin i p).classe
  cachee := !modele.cachee
  userName := (SquareZone.bloc begin i p).userName
  title := (SquareZone.bloc begin i p).title
  src := (SquareZone.bloc begin i p).src
  position := (SquareZone.bloc begin i p).position

/-- The `$.each` of `_fillSquareKPI`, for the page. -/
def eachRow (begin : ℤ) (modeles : List Vignette) (i : ℕ) (content : Contenu) :
    List PiePoint → Contenu
  | [] => content
  | p :: data => eachRow begin modeles (i + 1) (content.append (modeles.map (pn begin i p))) data

/-- `_fillSquareKPI`, for the page. -/
def fillKpiContent (begin : ℤ) (content : Contenu) (data : List PiePoint) : Contenu :=
  eachRow begin content.findP0 1 (content.remove columnNotP0) data

/-- The template of `index.html`, up to the blanks in it. -/
def modele (nom position : Text) : Vignette where
  classes := [p0, "column".toList, "showMiniProfile".toList]
  cachee := true
  userName := nom
  title := []
  src := "{$avatar-url}".toList
  position := position

/-- The `.kpiContent` of `index.html`. -/
def kpiContent (nom position : Text) : Contenu where
  classes := ["kpiContent".toList]
  present := true
  enfants := [modele nom position]

/-- Answers that are handled one after the other, each with the `_begin` at its time. -/
def reponses (content : Contenu) (rs : List (ℤ × List PiePoint)) : Contenu :=
  rs.foldl (fun content r => fillKpiContent r.1 content r.2) content

/-- The page shows the rows and no others, and keeps its template. -/
structure Remplace (modele : Vignette) (content : Contenu) (data : List PiePoint) : Prop where
  coureurs : (content.visibles.map fun v => (v.userName, v.position)) =
    data.map fun p => (p.name, SquareZone.decimal p.y)
  garde : content.present = true ∧ content.findP0 = [modele] ∧ modele.cachee = true

/-! ## What an answer does -/

/-- The block of a visible child. -/
def Vignette.bloc (v : Vignette) : Bloc where
  classe := v.classes.getLastD []
  userName := v.userName
  title := v.title
  src := v.src
  position := v.position

/-- The numbers of the blocks start with 1. -/
theorem decimal_succ_ne_zero (i : ℕ) : SquareZone.decimal ((i + 1 : ℕ) : ℤ) ≠ "0".toList := by
  intro h
  have hdigits : Nat.toDigits 10 (i + 1) = Nat.toDigits 10 0 := by
    rw [← Nat.toList_repr, ← Nat.toList_repr]
    exact h
  have hnumber := congrArg (fun l => Nat.ofDigitChars 10 l 0) hdigits
  simp only [Nat.ofDigitChars_ten_toDigits] at hnumber
  exact absurd hnumber (Nat.succ_ne_zero i)

section Blocks

variable {nom position : Text}

/-- The classes of a copy. -/
theorem classes_pn (begin : ℤ) (i : ℕ) (p : PiePoint) :
    (pn begin (i + 1) p (modele nom position)).classes =
      ["column".toList, "showMiniProfile".toList, 'p' :: SquareZone.decimal ((i + 1 : ℕ) : ℤ)] := by
  have hkeep : removeClass (modele nom position).classes p0 =
      ["column".toList, "showMiniProfile".toList] := by
    simp [removeClass, modele, p0]
  have hclasse : (SquareZone.bloc begin (i + 1) p).classe =
      'p' :: SquareZone.decimal ((i + 1 : ℕ) : ℤ) := rfl
  rw [pn, hkeep, hclasse, addClass, if_neg (by simp)]
  rfl

/-- A copy is no template. -/
theorem p0_notMem_pn (begin : ℤ) (i : ℕ) (p : PiePoint) :
    p0 ∉ (pn begin (i + 1) p (modele nom position)).classes := by
  have hne := decimal_succ_ne_zero i
  rw [classes_pn, p0]
  simp only [List.mem_cons, List.not_mem_nil, or_false, not_or]
  refine ⟨by decide, by decide, fun h => hne ?_⟩
  exact (List.cons.inj h).2.symm

theorem bloc_pn (begin : ℤ) (i : ℕ) (p : PiePoint) :
    (pn begin (i + 1) p (modele nom position)).bloc = SquareZone.bloc begin (i + 1) p := by
  rw [Vignette.bloc, classes_pn]
  rfl

/-- The copies for the rows of an answer. -/
def copies (nom position : Text) (begin : ℤ) (i : ℕ) (data : List PiePoint) : List Vignette :=
  (data.zipIdx i).map fun e => pn begin e.2 e.1 (modele nom position)

theorem eachRow_eq (begin : ℤ) (i : ℕ) (content : Contenu) (data : List PiePoint) :
    eachRow begin [modele nom position] i content data =
      content.append (copies nom position begin i data) := by
  induction data generalizing i content with
  | nil =>
    rw [copies, List.zipIdx_nil, List.map_nil, Contenu.append, List.append_nil]
    rfl
  | cons p data ih =>
    rw [eachRow, ih, copies, copies, List.zipIdx_cons, List.map_cons, List.map_cons, List.map_nil]
    simp [Contenu.append]

/-- The page with the template and some blocks. -/
structure Charge (nom position : Text) (content : Contenu) (vs : List Vignette) : Prop where
  classes : content.classes = ["kpiContent".toList]
  present : content.present = true
  enfants : content.enfants = modele nom position :: vs
  copies : ∀ v ∈ vs, v.cachee = false ∧ p0 ∉ v.classes

variable {content : Contenu} {vs : List Vignette}

theorem charge_kpiContent (nom position : Text) :
    Charge nom position (kpiContent nom position) [] :=
  ⟨rfl, rfl, rfl, fun _ hv => absurd hv List.not_mem_nil⟩

/-- The template is found, and nothing else. -/
theorem Charge.findP0 (h : Charge nom position content vs) :
    content.findP0 = [modele nom position] := by
  have hmodele : p0 ∈ (modele nom position).classes := List.mem_cons_self ..
  have hvs : (vs.filter fun v => decide (p0 ∈ v.classes)) = [] := by
    rw [List.filter_eq_nil_iff]
    exact fun v hv hmem => (h.copies v hv).2 (of_decide_eq_true hmem)
  rw [Contenu.findP0, h.enfants, List.filter_cons, if_pos (decide_eq_true hmodele), hvs]

theorem Charge.visibles (h : Charge nom position content vs) : content.visibles = vs := by
  have hvs : (vs.filter fun v => !v.cachee) = vs := by
    rw [List.filter_eq_self]
    intro v hv
    rw [(h.copies v hv).1]
    rfl
  rw [Contenu.visibles, if_pos h.present, h.enfants, List.filter_cons_of_neg (by simp [modele]),
    hvs]

/-- **An answer adds its blocks** and takes none away. -/
theorem Charge.fillKpiContent (h : Charge nom position content vs) (begin : ℤ)
    (data : List PiePoint) :
    Charge nom position (fillKpiContent begin content data)
      (vs ++ Page.copies nom position begin 1 data) := by
  have hremove : content.remove columnNotP0 = content := by
    have hselector : columnNotP0 content.classes = false := by
      rw [h.classes]
      decide
    rw [Contenu.remove, hselector, Bool.not_false, Bool.and_true]
  rw [Page.fillKpiContent, h.findP0, hremove, eachRow_eq]
  refine ⟨h.classes, h.present, ?_, fun v hv => ?_⟩
  · rw [Contenu.append, h.enfants, List.cons_append]
  · rcases List.mem_append.mp hv with hv | hv
    · exact h.copies v hv
    · obtain ⟨⟨p, i⟩, he, rfl⟩ := List.mem_map.mp hv
      obtain ⟨i, rfl⟩ : ∃ j, i = j + 1 :=
        Nat.exists_eq_add_of_le' (List.le_snd_of_mem_zipIdx he)
      exact ⟨rfl, p0_notMem_pn begin i p⟩

/-- **The blocks of a run of answers.** -/
theorem charge_reponses (nom position : Text) (rs : List (ℤ × List PiePoint)) :
    Charge nom position (reponses (kpiContent nom position) rs)
      (rs.flatMap fun r => copies nom position r.1 1 r.2) := by
  induction rs using List.reverseRecOn with
  | nil => exact charge_kpiContent nom position
  | append_singleton rs r ih =>
    have hstep := ih.fillKpiContent r.1 r.2
    rw [List.flatMap_append, List.flatMap_singleton, reponses, List.foldl_append]
    exact hstep

/-- What the copies show. -/
theorem map_copies (begin : ℤ) (i : ℕ) (data : List PiePoint) :
    ((copies nom position begin i data).map fun v => (v.userName, v.position)) =
      data.map fun p => (p.name, SquareZone.decimal p.y) := by
  conv_rhs => rw [← List.zipIdx_map_fst i data, List.map_map]
  rw [copies, List.map_map]
  rfl

/-- The page of the leader board has the blocks of its model. -/
theorem blocs_fillSquareKPI (h : Charge nom position content vs) {s : SquareZone}
    (hs : vs.map Vignette.bloc = s.content.map Prod.fst) (data : List (PiePoint × ℕ)) :
    (fillKpiContent s.begin content (data.map Prod.fst)).visibles.map Vignette.bloc =
      (s.fillSquareKPI data).content.map Prod.fst := by
  have hcopies : ∀ (i : ℕ) (s : SquareZone),
      (SquareZone.remplir (i + 1) s data).content.map Prod.fst = s.content.map Prod.fst ++
        (copies nom position s.begin (i + 1) (data.map Prod.fst)).map Vignette.bloc := by
    intro i s
    induction data generalizing i s with
    | nil => exact (List.append_nil _).symm
    | cons p data ih =>
      rw [SquareZone.remplir, ih, List.map_cons, copies, copies, List.zipIdx_cons, List.map_cons,
        List.map_cons, bloc_pn]
      simp
  rw [(h.fillKpiContent s.begin (data.map Prod.fst)).visibles, List.map_append, hs,
    SquareZone.fillSquareKPI, hcopies 0]

end Blocks

/-- **When an answer replaces the page.**  Exactly when all answers before it were
empty. -/
theorem page_replaced (nom position : Text) (rs : List (ℤ × List PiePoint))
    (r : ℤ × List PiePoint) :
    Remplace (modele nom position) (reponses (kpiContent nom position) (rs ++ [r])) r.2 ↔
      ∀ q ∈ rs, q.2 = [] := by
  have hcharge := charge_reponses nom position (rs ++ [r])
  have hshown : ((reponses (kpiContent nom position) (rs ++ [r])).visibles.map fun v =>
      (v.userName, v.position)) =
        (rs.flatMap fun q => q.2.map fun p => (p.name, SquareZone.decimal p.y)) ++
          r.2.map fun p => (p.name, SquareZone.decimal p.y) := by
    rw [hcharge.visibles, List.flatMap_append, List.flatMap_singleton, List.map_append,
      List.map_flatMap, map_copies]
    simp only [map_copies]
  have hcoureurs : ((reponses (kpiContent nom position) (rs ++ [r])).visibles.map fun v =>
      (v.userName, v.position)) = (r.2.map fun p => (p.name, SquareZone.decimal p.y)) ↔
        ∀ q ∈ rs, q.2 = [] := by
    rw [hshown, List.append_left_eq_self, List.flatMap_eq_nil_iff]
    simp only [List.map_eq_nil_iff]
  rw [← hcoureurs]
  exact ⟨fun h => h.coureurs, fun h => ⟨h, hcharge.present, hcharge.findP0, rfl⟩⟩

/-- A row of an answer. -/
def coureur (name : String) : PiePoint := ⟨none, 1, name.toList, none⟩

/-- After two answers of one row the page shows both. -/
theorem page_replaced_deux :
    ¬ Remplace (modele [] [])
      (reponses (kpiContent [] []) ([(1, [coureur "A"])] ++ [(1, [coureur "B"])]))
      [coureur "B"] := by
  intro h
  have hshown := h.coureurs
  revert hshown
  decide

end Page
end RondeDesFacs
