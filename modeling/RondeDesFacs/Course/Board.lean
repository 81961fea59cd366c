import RondeDesFacs.Bdd.TopRunner
import RondeDesFacs.Course.Interleaving
import RondeDesFacs.Page.Charts
import RondeDesFacs.Page.Zones

/-!
# The board at the race

`index.html` is open in a browser while people register and run.  It asks for the ranking
and for two charts; the servlet takes a request up at some moment, with a connection or
without, and looks at the tables as they are then; the answer arrives at another moment or
never; and all the while somebody may click the arrows.

Of all requests only one can succeed, the first for the ranking.  The charts ask for
procedures that the database does not have, and an arrow sends the `id` of the wrapper in the
place of the page, of which there is none, so that the servlet calls `topRunner` without
arguments.  Hence there are never any charts, and the ranking appears once, whole, and stays
as it is.  It was the ranking at some moment since the page was opened, so that nobody is
shown with more laps than he has, if the machines send nothing that takes laps away
(`board`).

The handlers of the arrows ask for an `.adminHomeWrapper` around them.  `index.html` has
none, so a run there is one without clicks; the theorem does not need this.
-/

namespace RondeDesFacs
namespace Course

open Bdd Page Page.SquareZone Servlet

/-! ## The page -/

/-- The procedure of the leader board; those of the two charts follow. -/
def topRunner : Nom := ⟨"topRunner".toList, by decide, by decide⟩

def antenneRepartition : Nom := ⟨"antenneRepartition".toList, by decide, by decide⟩

def degreeRepartition : Nom := ⟨"degreeRepartition".toList, by decide, by decide⟩

def index : Document where
  kpiWrapper :=
    [⟨false, some topRunner, some "square".toList⟩,
      ⟨true, none, some "pie".toList⟩,
      ⟨false, some antenneRepartition, some "line".toList⟩,
      ⟨false, some degreeRepartition, some "line".toList⟩,
      ⟨false, some degreeRepartition, some "pie".toList⟩]
  named := by decide

/-- A field of a form, as `jQuery.param` writes it and the servlet reads it. -/
def champ : Js → Text
  | .undefined => []
  | .number n => decimal n
  | .string t => t

/-- A request of the page: one of those for the ranking, or one for a chart. -/
inductive Appel where
  | classement (k : ℕ)
  | repartition (k : ℕ)
  deriving DecidableEq

section Runs

variable {srv : Serveur} {cs : Charset} {Loc : Type*} [DecidableEq Loc] (resolve : Bytes → Loc)

/-- The site, and the page in the browser: the leader board, the charts, what the servlet
has answered, and which answers have arrived. -/
structure Ecran (srv : Serveur) (cs : Charset) (Loc : Type*) where
  site : Web.Site srv cs Loc
  zones : Zones 1
  contenu : ℕ → Option Dessin
  reponses : Appel → Option Response
  recus : List Appel

/-- What happens: something at the race, a click on an arrow, the servlet takes up a
request, with or without a connection, or an answer arrives. -/
inductive Fait where
  | course (e : Evenement)
  | clic (f : Fleche)
  | traite (a : Appel) (connecte : Bool)
  | recoit (a : Appel)

def Fait.Regulier : Fait → Prop
  | .course e => e.Regulier
  | _ => True

namespace Ecran

def ouvre (site : Web.Site srv cs Loc) : Ecran srv cs Loc where
  site := site
  zones := Zones.generateKPI fun _ => classementWrapper
  contenu _ := none
  reponses _ := none
  recus := []

variable (s : Ecran srv cs Loc)

/-- The parameters of a request that was sent. -/
def parametres : Appel → Option (Text × Text × Text)
  | .classement k => s.zones.envois[k]?.map fun e =>
      (champ e.requete.param1, champ e.requete.param2, champ e.requete.param3)
  | .repartition k => index.requetes[k]?.map fun nom => (nom.texte, [], [])

def repond (a : Appel) (connecte : Bool) : Option Response :=
  (s.parametres a).map fun p =>
    call (if connecte then some (connection s.site.bdd) else none) (some p.1) (some p.2.1)
      (some p.2.2)

/-- What the callback does.  The answer to `topRunner` is never a line chart.  Beside each
row stands its place in the answer, which is its rank since only the first page is ever
answered. -/
def callback : Appel → Response → Ecran srv cs Loc
  | .classement k, .status200 (.pie _ data) =>
    { s with zones := s.zones.step (fun _ => classementWrapper) (.reponse k (data.zipIdx 1)) }
  | .classement _, _ => s
  | .repartition _, ret => { s with contenu := index.callback s.contenu ret }

def apres : Fait → Ecran srv cs Loc
  | .course e => { s with site := suivant resolve s.site e }
  | .clic f => { s with zones := s.zones.step (fun _ => classementWrapper) (.clic 0 f) }
  | .traite a connecte =>
    if (s.reponses a).isSome then s
    else { s with reponses := Function.update s.reponses a (s.repond a connecte) }
  | .recoit a =>
    match s.reponses a with
    | none => s
    | some ret => if a ∈ s.recus then s else { s.callback a ret with recus := a :: s.recus }

def apresTout (run : List Fait) : Ecran srv cs Loc := run.foldl (apres resolve) s

/-- The blocks of the leader board, with their ranks. -/
def content : List (Bloc × ℕ) := (s.zones.zones 0).content

end Ecran

end Runs

/-! ## The requests -/

/-- The request at a place among those for the ranking: the first is for the page from `1`,
and the others are for no page. -/
def Demandee (k : ℕ) (requete : Requete) : Prop :=
  k = 0 ∧ requete = initArrow (.string "topRunner".toList) ∨
    k ≠ 0 ∧ requete = ⟨.string "topRunner".toList, .undefined, .string []⟩

/-- An arrow sends no page, and shows nothing. -/
theorem fleche_classementWrapper {f : Fleche} {s s' : SquareZone} {requete : Requete}
    (h : classementWrapper.fleche f s = some (requete, s')) :
    requete = ⟨.string "topRunner".toList, .undefined, .string []⟩ ∧ s'.content = s.content := by
  rw [classementWrapper_fleche] at h
  cases f with
  | previous =>
    rw [click, previous] at h
    split_ifs at h <;> cases h <;> exact ⟨rfl, rfl⟩
  | next =>
    rw [click, next] at h
    split_ifs at h <;> cases h <;> exact ⟨rfl, rfl⟩

/-- What a click does: it sends such a request, or nothing at all. -/
theorem step_clic_cases (p : Zones 1) (f : Fleche) :
    p.step (fun _ => classementWrapper) (.clic 0 f) = p ∨
      ∃ s e, s.content = (p.zones 0).content ∧
        e.requete = ⟨.string "topRunner".toList, .undefined, .string []⟩ ∧
        p.step (fun _ => classementWrapper) (.clic 0 f) =
          { p with zones := fun _ => s, envois := p.envois ++ [e] } := by
  rw [Zones.step]
  rcases hlie : p.lie with _ | h
  · exact Or.inl rfl
  · obtain rfl : h = 0 := Subsingleton.elim _ _
    rcases hclick : classementWrapper.fleche f (p.zones 0) with _ | ⟨requete, s⟩
    · exact Or.inl (handle_of_none hclick)
    · obtain ⟨hrequete, hcontent⟩ := fleche_classementWrapper hclick
      refine Or.inr ⟨s, ⟨0, requete, debutDemande f (p.zones 0)⟩, hcontent, hrequete, ?_⟩
      have hhandle : p.handle (fun _ => classementWrapper) 0 0 f =
          { p with zones := Function.update p.zones 0 s,
                   envois := p.envois ++ [⟨0, requete, debutDemande f (p.zones 0)⟩] } :=
        handle_of_some hclick
      have hzones : Function.update p.zones 0 s = fun _ => s := by
        funext z
        rw [Subsingleton.elim z 0, Function.update_self]
      refine hhandle.trans ?_
      rw [hzones, hlie]

/-- The requests stay what they are when a click adds one. -/
theorem demandee_concat {envois : List (Page.Envoi 1)} (hne : envois ≠ [])
    (h : ∀ k e, envois[k]? = some e → Demandee k e.requete) {e : Page.Envoi 1}
    (he : e.requete = ⟨.string "topRunner".toList, .undefined, .string []⟩) :
    ∀ k e', (envois ++ [e])[k]? = some e' → Demandee k e'.requete := by
  intro k e' hk
  rw [List.getElem?_append] at hk
  split_ifs at hk with hlt
  · exact h k e' hk
  · have hpos := List.length_pos_of_ne_nil hne
    obtain rfl : e = e' := by
      have hmem := List.mem_of_getElem? hk
      exact (List.mem_singleton.mp hmem).symm
    exact Or.inr ⟨by omega, he⟩

/-! ## The answers -/

theorem zipIdx_take {α : Type*} (l : List α) (n i : ℕ) :
    (l.take n).zipIdx i = (l.zipIdx i).take n := by
  induction l generalizing n i with
  | nil => simp
  | cons a l ih =>
    cases n with
    | zero => rfl
    | succ n => simp [ih]

/-- The places of the rows of the first page are their ranks. -/
theorem zipIdx_page (b : Bdd) : ((page b 1).map Prod.fst).zipIdx 1 = page b 1 := by
  have hpage : page b 1 = ((b.classement.map piePoint).zipIdx 1).take indexmax := rfl
  rw [hpage, List.map_take, List.zipIdx_map_fst, zipIdx_take]

theorem call_of_rank {base : Connection} {param1 param2 param3 : Option Text}
    {args : Option (ℤ × Text)} {rows : List RankRow} {others : List ResultSet}
    (hargs : arguments param2 param3 = some args)
    (hbase : base (orNull param1) args = some (.rank rows :: others)) :
    call (some base) param1 param2 param3 =
      .status200 (.pie (orNull param1) (rows.map piePoint)) := by
  rw [call, Option.bind_some, hargs, Option.bind_some, hbase, Option.bind_some, List.head?_cons,
    Option.bind_some, entityOf]

/-- The first request is answered with the first page. -/
theorem call_initArrow (b : Bdd) :
    call (some (connection b)) (some "topRunner".toList) (some (champ (.number 1))) (some []) =
      .status200 (.pie "topRunner".toList ((page b 1).map Prod.fst)) := by
  have hone : (1 : ℤ) ≠ 0 := by decide
  have hargs : arguments (some (champ (.number 1))) (some []) = some (some (1, [])) := by decide
  have hbase : connection b "topRunner".toList (some (1, [])) =
      some [.rank (topWindow 1 b.classement)] := by
    show some ((b.topRunner 1 []).map ResultSet.rank) = _
    rw [Bdd.topRunner, if_pos hone, List.map_singleton]
  have hrows := topRunner_eq_page b hone []
  rw [Bdd.topRunner, if_pos hone, List.map_singleton, List.singleton_inj] at hrows
  rw [call_of_rank hargs hbase, hrows]
  rfl

/-- **Without a page** there are no arguments, and no procedure of that name. -/
theorem call_sansPage (b : Bdd) :
    call (some (connection b)) (some "topRunner".toList) (some (champ .undefined)) (some []) =
      .status503 := rfl

/-- The database has no procedure for the charts. -/
theorem call_repartition (b : Bdd) {nom : Nom} (hnom : nom ∈ index.requetes) :
    call (some (connection b)) (some nom.texte) (some []) (some []) = .status503 := by
  have hnoms : index.requetes = [antenneRepartition, degreeRepartition] := rfl
  rw [hnoms] at hnom
  simp only [List.mem_cons, List.not_mem_nil, or_false] at hnom
  rcases hnom with rfl | rfl <;> rfl

def lignes (begin : ℤ) (data : List (PiePoint × ℕ)) : List (Bloc × ℕ) :=
  (data.zipIdx 1).map fun x => (bloc begin x.2 x.1.1, x.1.2)

theorem content_remplir (i : ℕ) (s : SquareZone) (data : List (PiePoint × ℕ)) :
    (remplir i s data).content =
      s.content ++ (data.zipIdx i).map fun x => (bloc s.begin x.2 x.1.1, x.1.2) := by
  induction data generalizing i s with
  | nil => simp [remplir]
  | cons r data ih => simp [remplir, ih]

/-- What an answer adds to the leader board. -/
theorem step_reponse_cases (p : Zones 1) (k : ℕ) (data : List (PiePoint × ℕ)) :
    p.step (fun _ => classementWrapper) (.reponse k data) = p ∨
      ∃ zones begin repondus, (zones 0).content = (p.zones 0).content ++ lignes begin data ∧
        p.step (fun _ => classementWrapper) (.reponse k data) =
          { p with zones := zones, repondus := repondus } := by
  rcases hopen : p.ouvert k with _ | e
  · exact Or.inl (step_reponse_of_none _ hopen data)
  · refine Or.inr ⟨_, (p.zones 0).begin, _, ?_, step_reponse_of_some _ hopen data⟩
    rw [Subsingleton.elim e.zone 0, fillSquareKPI_seule, SquareZone.fillSquareKPI,
      content_remplir]
    rfl

/-! ## Runs -/

section Runs

variable {srv : Serveur} {cs : Charset} {Loc : Type*}

/-- The first page of the ranking at a moment; where `p` says that the events are regular, at
one since the page was opened. -/
def Passee (p : Prop) (b₀ b : Bdd) (data : List (PiePoint × ℕ)) : Prop :=
  ∃ b', (p → Extends b₀ b' ∧ Extends b' b ∧ Keys b') ∧ data = page b' 1

/-- What is true of the page whenever one looks at it; of the tables only where `p` says that
the events are regular. -/
structure Ecran.Bon (p : Prop) (b₀ : Bdd) (s : Ecran srv cs Loc) : Prop where
  tables : p → Keys s.site.bdd ∧ Extends b₀ s.site.bdd
  envoyes : s.zones.envois ≠ []
  demandes : ∀ k e, s.zones.envois[k]? = some e → Demandee k e.requete
  /-- Only the first request for the ranking succeeds. -/
  classement : ∀ k ret, s.reponses (.classement k) = some (.status200 ret) → k = 0 ∧
    ∃ data, Passee p b₀ s.site.bdd data ∧ ret = .pie "topRunner".toList (data.map Prod.fst)
  repartition : ∀ k ret, s.reponses (.repartition k) = some ret → ret = .status503
  vide : ∀ i, s.contenu i = none
  /-- The leader board is empty until that answer arrives. -/
  attend : .classement 0 ∉ s.recus → s.content = []
  montre : s.content = [] ∨
    ∃ data begin, Passee p b₀ s.site.bdd data ∧ s.content = lignes begin data

theorem Passee.mono {p : Prop} {b₀ b b' : Bdd} {data : List (PiePoint × ℕ)}
    (h : Passee p b₀ b data) (hb : p → Extends b b') : Passee p b₀ b' data := by
  obtain ⟨b₁, hmoment, hdata⟩ := h
  refine ⟨b₁, fun hp => ?_, hdata⟩
  obtain ⟨hdepuis, hvers, hkeys⟩ := hmoment hp
  exact ⟨hdepuis, hvers.trans (hb hp), hkeys⟩

namespace Ecran

variable {p : Prop} {b₀ : Bdd} {s : Ecran srv cs Loc}

/-- **What the servlet answers**: an error, or the first page to the first request. -/
theorem Bon.repond_cases (h : Bon p b₀ s) {a : Appel} {connecte : Bool} {ret : Response}
    (hret : ret ∈ s.repond a connecte) :
    ret = .status503 ∨ a = .classement 0 ∧
      ret = .status200 (.pie "topRunner".toList ((page s.site.bdd 1).map Prod.fst)) := by
  obtain ⟨p, hp, rfl⟩ := Option.map_eq_some_iff.mp hret
  cases connecte with
  | false => exact Or.inl rfl
  | true =>
    cases a with
    | classement k =>
      obtain ⟨e, he, rfl⟩ := Option.map_eq_some_iff.mp hp
      rcases h.demandes k e he with ⟨rfl, hrequete⟩ | ⟨-, hrequete⟩
      · rw [hrequete]
        exact Or.inr ⟨rfl, call_initArrow s.site.bdd⟩
      · rw [hrequete]
        exact Or.inl (call_sansPage s.site.bdd)
    | repartition k =>
      obtain ⟨nom, hnom, rfl⟩ := Option.map_eq_some_iff.mp hp
      exact Or.inl (call_repartition s.site.bdd (List.mem_of_getElem? hnom))

theorem mem_update_reponses {a a' : Appel} {connecte : Bool} {ret : Response}
    (h : ret ∈ Function.update s.reponses a (s.repond a connecte) a') :
    ret ∈ s.reponses a' ∨ a' = a ∧ ret ∈ s.repond a connecte := by
  by_cases ha : a' = a
  · rw [ha, Function.update_self] at h
    exact Or.inr ⟨ha, h⟩
  · rw [Function.update_of_ne ha] at h
    exact Or.inl h

/-- The answer to the first request comes to an empty board, and the others do nothing. -/
theorem Bon.callback_cases (h : Bon p b₀ s) {a : Appel} {ret : Response}
    (hret : s.reponses a = some ret) (hrecu : a ∉ s.recus) :
    s.callback a ret = s ∨ a = .classement 0 ∧ s.content = [] ∧
      ∃ data begin zones repondus, Passee p b₀ s.site.bdd data ∧
        (zones 0).content = lignes begin data ∧
        s.callback a ret = { s with zones := { s.zones with zones := zones, repondus := repondus } } := by
  cases a with
  | classement k =>
    cases ret with
    | status503 => exact Or.inl rfl
    | status200 ret =>
      obtain ⟨rfl, data, hdata, rfl⟩ := h.classement k ret hret
      have hempty := h.attend hrecu
      have hpage : (data.map Prod.fst).zipIdx 1 = data := by
        obtain ⟨b, -, rfl⟩ := hdata
        exact zipIdx_page b
      rw [callback, hpage]
      rcases step_reponse_cases s.zones 0 data with hstep | ⟨zones, begin, repondus, hadd, hstep⟩
      · exact Or.inl (by rw [hstep])
      · refine Or.inr ⟨rfl, hempty, data, begin, zones, repondus, hdata, ?_, by rw [hstep]⟩
        rw [content] at hempty
        rw [hadd, hempty, List.nil_append]
  | repartition k =>
    rw [h.repartition k ret hret]
    exact Or.inl rfl

variable [DecidableEq Loc] (resolve : Bytes → Loc)

/-- The race goes on behind the page.  The rows that come later leave the first page of the
ranking what it was at its moment, and that moment stays one since the page was opened. -/
theorem Bon.course (h : Bon p b₀ s) {e : Evenement} (he : p → e.Regulier) :
    Bon p b₀ (s.apres resolve (.course e)) := by
  have hextends : p → Extends s.site.bdd (suivant resolve s.site e).bdd := fun hp =>
    (spec_suivant resolve (h.tables hp).1 (he hp)).2
  refine ⟨fun hp => ?_, h.envoyes, h.demandes, ?_, h.repartition, h.vide, h.attend, ?_⟩
  · exact ⟨(spec_suivant resolve (h.tables hp).1 (he hp)).1, (h.tables hp).2.trans (hextends hp)⟩
  · intro k ret hret
    obtain ⟨hk, data, hdata, heq⟩ := h.classement k ret hret
    exact ⟨hk, data, hdata.mono hextends, heq⟩
  · rcases h.montre with hvide | ⟨data, begin, hdata, heq⟩
    · exact Or.inl hvide
    · exact Or.inr ⟨data, begin, hdata.mono hextends, heq⟩

/-- A click shows nothing, and what it asks for has no page. -/
theorem Bon.clic (h : Bon p b₀ s) (f : Fleche) : Bon p b₀ (s.apres resolve (.clic f)) := by
  rw [apres]
  rcases step_clic_cases s.zones f with hstep | ⟨z, e, hcontent, he, hstep⟩
  · rw [hstep]
    exact h
  · rw [hstep]
    exact ⟨h.tables, List.append_ne_nil_of_left_ne_nil h.envoyes _,
      demandee_concat h.envoyes h.demandes he, h.classement, h.repartition, h.vide,
      fun hrecu => hcontent.trans (h.attend hrecu),
      h.montre.imp hcontent.trans fun ⟨data, begin, hdata, heq⟩ =>
        ⟨data, begin, hdata, hcontent.trans heq⟩⟩

theorem Bon.traite (h : Bon p b₀ s) (a : Appel) (connecte : Bool) :
    Bon p b₀ (s.apres resolve (.traite a connecte)) := by
  rw [apres]
  split_ifs
  · exact h
  · refine ⟨h.tables, h.envoyes, h.demandes, fun k ret hret => ?_, fun k ret hret => ?_,
      h.vide, h.attend, h.montre⟩
    · rcases mem_update_reponses hret with hret | ⟨rfl, hret⟩
      · exact h.classement k ret hret
      · rcases h.repond_cases hret with herr | ⟨hzero, heq⟩
        · cases herr
        · exact ⟨Appel.classement.inj hzero, page s.site.bdd 1,
            ⟨s.site.bdd, fun hp => ⟨(h.tables hp).2, Extends.refl _, (h.tables hp).1⟩, rfl⟩,
            Response.status200.inj heq⟩
    · rcases mem_update_reponses hret with hret | ⟨rfl, hret⟩
      · exact h.repartition k ret hret
      · rcases h.repond_cases hret with herr | ⟨hzero, -⟩
        · exact herr
        · cases hzero

theorem Bon.recoit (h : Bon p b₀ s) (a : Appel) : Bon p b₀ (s.apres resolve (.recoit a)) := by
  rw [apres]
  split
  · exact h
  · rename_i ret hret
    split_ifs with hrecu
    · exact h
    · rcases h.callback_cases hret hrecu with hsame | ⟨rfl, -, data, begin, zones, repondus, hdata,
        hadd, hnew⟩
      · rw [hsame]
        exact ⟨h.tables, h.envoyes, h.demandes, h.classement, h.repartition, h.vide,
          fun hnot => h.attend fun hmem => hnot (List.mem_cons_of_mem _ hmem), h.montre⟩
      · rw [hnew]
        exact ⟨h.tables, h.envoyes, h.demandes, h.classement, h.repartition, h.vide,
          fun hnot => absurd (List.mem_cons_self ..) hnot, Or.inr ⟨data, begin, hdata, hadd⟩⟩

/-- Whatever happens keeps `Bon`: of the tables where the events are regular, and of the page
in any case. -/
theorem Bon.apres (h : Bon p b₀ s) {f : Fait} (hf : p → f.Regulier) :
    Bon p b₀ (s.apres resolve f) := by
  cases f with
  | course e => exact h.course resolve hf
  | clic f => exact h.clic resolve f
  | traite a connecte => exact h.traite resolve a connecte
  | recoit a => exact h.recoit resolve a

theorem Bon.apresTout (h : Bon p b₀ s) {run : List Fait} (hrun : p → ∀ f ∈ run, f.Regulier) :
    Bon p b₀ (s.apresTout resolve run) := by
  induction run generalizing s with
  | nil => exact h
  | cons f run ih =>
    exact ih (h.apres resolve fun hp => hrun hp f List.mem_cons_self)
      fun hp f' hf' => hrun hp f' (List.mem_cons_of_mem _ hf')

end Ecran

end Runs

end Course
end RondeDesFacs
