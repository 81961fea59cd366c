import RondeDesFacs.Page.GenerateKPI
import RondeDesFacs.Library.Writes
import Mathlib.Logic.Function.Basic

/-!
# The charts of a page

`_generateKPI` asks the servlet once for each `.kpiWrapper` of the type `line` that is no
`.linkedChart`.  The answers come in any order, each computed on the tables as they are by
then, and the callback does not know which wrapper it was asked for: it looks the place up
by the name of the procedure, which the servlet sends back, and by the type.  Of several
places `highcharts` takes the first.

So a wrapper shows only what an answer to its own `data-request` brought, and only the
first of its name and type shows anything.  Two wrappers with one name ask twice and draw
at one place, and this is where the order shows (`charts`).
-/

namespace RondeDesFacs
namespace Page

open Servlet

/-! ## The page -/

/-- A `data-request`, the name of a procedure.  It stands in a selector without an escape,
and `data` gives it as it is, which of `null` it does not. -/
structure Nom where
  texte : Text
  lettres : (texte.all fun c => c.isAlphanum || c == '_') = true
  ne_null : texte ≠ "null".toList
  deriving DecidableEq

theorem Nom.texte_injective : Function.Injective Nom.texte := by
  rintro ⟨t, _, _⟩ ⟨u, _, _⟩ rfl
  rfl

/-- A `.kpiWrapper`: whether it has the class `linkedChart`, and its `data-request` and
`data-type`.  It has one `.kpiContent`. -/
structure KpiWrapper where
  linkedChart : Bool
  request : Option Nom
  type : Option Text

/-- Whether `_generateKPI` asks for the charts of a wrapper. -/
def KpiWrapper.demande (w : KpiWrapper) : Bool :=
  !w.linkedChart && decide (w.type = some "line".toList)

/-- The wrappers of a page.  Those that ask for their charts have a name to ask for. -/
structure Document where
  kpiWrapper : List KpiWrapper
  named : ∀ w ∈ kpiWrapper, w.demande = true → w.request.isSome

/-- What is drawn in a `.kpiContent`: the line chart of an answer, or slices. -/
inductive Dessin where
  | line (ret : Entity)
  | pie (slices : List (Option Text × ℤ))

namespace Document

variable (d : Document)

/-- The requests, each with its wrapper's `data-request`. -/
def requetes : List Nom := (d.kpiWrapper.filter KpiWrapper.demande).filterMap KpiWrapper.request

/-- The first wrapper that `.kpiWrapper[data-request="…"][data-type="…"]` selects. -/
def cible (request type : Text) : Option ℕ :=
  d.kpiWrapper.findIdx? fun w =>
    decide (w.request.map Nom.texte = some request) && decide (w.type = some type)

/-- `highcharts`, which draws in the first of the places selected. -/
def highcharts (request type : Text) (dessin : Dessin) (contenu : ℕ → Option Dessin) :
    ℕ → Option Dessin :=
  match d.cible request type with
  | none => contenu
  | some i => Function.update contenu i (some dessin)

end Document

/-- `ret.procName`. -/
def procName : Entity → Text
  | .pie name _ => name
  | .line name _ _ => name

namespace Document

variable (d : Document)

/-- The callback, which is not called on an error.  Slices that cannot be computed end it
when the line chart is drawn already. -/
def callback (contenu : ℕ → Option Dessin) : Response → ℕ → Option Dessin
  | .status503 => contenu
  | .status200 ret =>
    let drawn := d.highcharts (procName ret) "line".toList (.line ret) contenu
    match onSuccess (.status200 ret) with
    | none => drawn
    | some slices => d.highcharts (procName ret) "pie".toList (.pie slices) drawn

/-- An answer to one of the requests, and the connection the servlet had for it. -/
structure Reponse where
  request : Nom
  asked : request ∈ d.requetes
  connect : Option Connection

variable {d}

/-- The answer. -/
def Reponse.ret (r : d.Reponse) : Response :=
  call r.connect (some r.request.texte) (some []) (some [])

variable (d)

/-- What the wrappers show after some answers. -/
def contenu (rs : List d.Reponse) : ℕ → Option Dessin :=
  rs.foldl (fun T r => d.callback T r.ret) fun _ => none

/-! ## One answer -/

/-- What an answer draws, and where. -/
def dessine (ret : Response) : ℕ → Option Dessin := d.callback (fun _ => none) ret

variable {d}

/-- The wrapper at a place selected. -/
theorem exists_of_cible {request type : Text} {i : ℕ} (h : d.cible request type = some i) :
    ∃ w ∈ d.kpiWrapper[i]?, w.request.map Nom.texte = some request ∧ w.type = some type := by
  obtain ⟨hlen, hw, -⟩ := List.findIdx?_eq_some_iff_getElem.mp h
  refine ⟨_, List.getElem?_eq_getElem hlen, ?_⟩
  simpa only [Bool.and_eq_true, decide_eq_true_eq] using hw

/-- A place is one of a name and a type. -/
theorem cible_inj {request request' type type' : Text} {i : ℕ}
    (h : d.cible request type = some i) (h' : d.cible request' type' = some i) :
    request = request' ∧ type = type' := by
  obtain ⟨w, hw, hrequest, htype⟩ := exists_of_cible h
  obtain ⟨w', hw', hrequest', htype'⟩ := exists_of_cible h'
  obtain rfl : w = w' := Option.some_inj.mp (hw.symm.trans hw')
  exact ⟨Option.some_inj.mp (hrequest.symm.trans hrequest'),
    Option.some_inj.mp (htype.symm.trans htype')⟩

theorem highcharts_apply (request type : Text) (dessin : Dessin) (T : ℕ → Option Dessin) (i : ℕ) :
    d.highcharts request type dessin T i =
      if d.cible request type = some i then some dessin else T i := by
  rw [highcharts]
  rcases d.cible request type with _ | j
  · rfl
  · by_cases hij : j = i
    · rw [if_pos (congrArg some hij), hij]
      exact Function.update_self ..
    · rw [if_neg fun h => hij (Option.some_inj.mp h)]
      exact Function.update_of_ne (Ne.symm hij) ..

/-- What an answer draws at a place does not depend on what is there. -/
theorem callback_apply (T : ℕ → Option Dessin) (ret : Response) (i : ℕ) :
    d.callback T ret i = (d.dessine ret i).or (T i) := by
  rcases ret with ret | _
  · rw [dessine, callback, callback]
    rcases onSuccess (.status200 ret) with _ | slices
    · simp only [highcharts_apply]
      split_ifs <;> rfl
    · simp only [highcharts_apply]
      split_ifs <;> rfl
  · rfl

theorem contenu_eq_run (rs : List d.Reponse) :
    d.contenu rs = Writes.run (fun r => d.dessine r.ret) (fun _ => none) rs := by
  have hstep : (fun (T : ℕ → Option Dessin) (r : d.Reponse) => d.callback T r.ret) =
      Writes.write fun r => d.dessine r.ret := by
    funext T r i
    exact callback_apply T r.ret i
  rw [contenu, Writes.run, hstep]

/-- **What an answer draws**: its line chart at the first place for it, and its slices, if
there are any, at the first place for them. -/
theorem mem_dessine_iff {ret : Entity} {i : ℕ} {dessin : Dessin} :
    dessin ∈ d.dessine (.status200 ret) i ↔
      (d.cible (procName ret) "line".toList = some i ∧ dessin = .line ret) ∨
        (d.cible (procName ret) "pie".toList = some i ∧
          ∃ slices ∈ onSuccess (.status200 ret), dessin = .pie slices) := by
  have hne : d.cible (procName ret) "line".toList = some i →
      d.cible (procName ret) "pie".toList ≠ some i :=
    fun hline hpie => absurd (cible_inj hline hpie).2 (by decide)
  rw [Option.mem_def, dessine, callback]
  rcases onSuccess (.status200 ret) with _ | slices
  · dsimp only
    rw [highcharts_apply]
    generalize d.cible (procName ret) "line".toList = line at hne ⊢
    by_cases hline : line = some i <;> simp [hline, eq_comm]
  · dsimp only
    rw [highcharts_apply, highcharts_apply]
    generalize d.cible (procName ret) "line".toList = line at hne ⊢
    generalize d.cible (procName ret) "pie".toList = pie at hne ⊢
    by_cases hline : line = some i
    · simp [hline, hne hline, eq_comm]
    · by_cases hpie : pie = some i <;> simp [hline, hpie, eq_comm]

/-- The servlet sends the name of the procedure back. -/
theorem procName_of_call {connect : Option Connection} {param1 : Text} {param2 param3 : Option Text}
    {ret : Entity} (h : call connect (some param1) param2 param3 = .status200 ret) :
    procName ret = param1 := by
  rw [call] at h
  split at h
  · rename_i entity hanswer
    obtain rfl : entity = ret := by simpa using h
    obtain ⟨base, -, hanswer⟩ := Option.bind_eq_some_iff.mp hanswer
    obtain ⟨args, -, hanswer⟩ := Option.bind_eq_some_iff.mp hanswer
    obtain ⟨sets, -, hanswer⟩ := Option.bind_eq_some_iff.mp hanswer
    obtain ⟨rs, -, hanswer⟩ := Option.bind_eq_some_iff.mp hanswer
    cases rs with
    | line rows =>
      obtain ⟨s, -, rfl⟩ := Option.map_eq_some_iff.mp hanswer
      rfl
    | rank rows =>
      obtain rfl := Option.some_inj.mp hanswer
      rfl
  · cases h

/-- A request has a place for its line chart. -/
theorem exists_cible_line {nom : Nom} (h : nom ∈ d.requetes) :
    ∃ i, d.cible nom.texte "line".toList = some i := by
  obtain ⟨w, hw, hnom⟩ := List.mem_filterMap.mp h
  obtain ⟨hw, hdemande⟩ := List.mem_filter.mp hw
  rw [KpiWrapper.demande, Bool.and_eq_true, decide_eq_true_eq] at hdemande
  rw [← Option.isSome_iff_exists, cible, List.findIdx?_isSome, List.any_eq_true]
  exact ⟨w, hw, by simp [hnom, hdemande.2]⟩

theorem cible_of_mem_dessine {ret : Entity} {i : ℕ} {dessin : Dessin}
    (h : dessin ∈ d.dessine (.status200 ret) i) : ∃ type, d.cible (procName ret) type = some i := by
  rcases mem_dessine_iff.mp h with ⟨h, -⟩ | ⟨h, -⟩
  · exact ⟨_, h⟩
  · exact ⟨_, h⟩

/-! ## Runs -/

/-- Two answers to one request that are no errors say the same. -/
def Accord (rs : List d.Reponse) : Prop :=
  ∀ r ∈ rs, ∀ r' ∈ rs, r.request = r'.request → ∀ ret ret',
    r.ret = .status200 ret → r'.ret = .status200 ret' → ret = ret'

theorem exists_of_mem_dessine {r : d.Reponse} {i : ℕ} {dessin : Dessin}
    (h : dessin ∈ d.dessine r.ret i) :
    ∃ ret, r.ret = .status200 ret ∧ procName ret = r.request.texte := by
  rcases hret : r.ret with ret | _
  · exact ⟨ret, rfl, procName_of_call hret⟩
  · rw [hret] at h
    exact absurd h (by simp [dessine, callback])

/-- Answers draw alike wherever they draw exactly if they say the same. -/
theorem coherent_iff (rs : List d.Reponse) :
    Writes.Coherent (fun r : d.Reponse => d.dessine r.ret) rs ↔ Accord rs := by
  constructor
  · intro h r hr r' hr' hnom ret ret' hret hret'
    obtain ⟨i, hi⟩ := exists_cible_line r.asked
    have hline : ∀ {s : d.Reponse} {e : Entity}, s.ret = .status200 e →
        s.request = r.request → Dessin.line e ∈ d.dessine s.ret i := by
      intro s e hs hsr
      rw [hs, mem_dessine_iff, procName_of_call hs, hsr]
      exact Or.inl ⟨hi, rfl⟩
    have hsame := h r hr r' hr' i _ (hline hret rfl) _ (hline hret' hnom.symm)
    exact Dessin.line.inj hsame
  · intro h r hr r' hr' i dessin hd dessin' hd'
    replace hd : dessin ∈ d.dessine r.ret i := hd
    replace hd' : dessin' ∈ d.dessine r'.ret i := hd'
    obtain ⟨ret, hret, hname⟩ := exists_of_mem_dessine hd
    obtain ⟨ret', hret', hname'⟩ := exists_of_mem_dessine hd'
    -- both draw at the place, so both have the name of its wrapper
    have hnom : r.request = r'.request := by
      rw [hret] at hd
      rw [hret'] at hd'
      obtain ⟨_, hi⟩ := cible_of_mem_dessine hd
      obtain ⟨_, hi'⟩ := cible_of_mem_dessine hd'
      have htexte := (cible_inj hi hi').1
      rw [hname, hname'] at htexte
      exact Nom.texte_injective htexte
    have hsame := h r hr r' hr' hnom ret ret' hret hret'
    rw [hret, hsame, ← hret'] at hd
    exact Option.some_inj.mp (hd.symm.trans hd')

/-- **The charts of a page**, after any answers in any order.  A wrapper shows the chart of
an answer to its own `data-request`, if it is the first of its name and type, and else
nothing; the order of the answers does not matter exactly if those to one request say the
same, and then every answer is shown. -/
theorem charts (d : Document) (rs : List d.Reponse) :
    (∀ i, ∀ dessin ∈ d.contenu rs i, ∃ r ∈ rs, ∃ ret, r.ret = .status200 ret ∧
      ((d.cible r.request.texte "line".toList = some i ∧ dessin = .line ret) ∨
        (d.cible r.request.texte "pie".toList = some i ∧
          ∃ slices ∈ onSuccess r.ret, dessin = .pie slices))) ∧
    ((∀ rs' : List d.Reponse, rs'.Perm rs → d.contenu rs' = d.contenu rs) ↔ Accord rs) ∧
    (Accord rs → ∀ r ∈ rs, ∀ ret, r.ret = .status200 ret →
      ∃ i, d.cible r.request.texte "line".toList = some i ∧ d.contenu rs i = some (.line ret)) := by
  refine ⟨fun i dessin hd => ?_, ?_, fun h r hr ret hret => ?_⟩
  · rw [contenu_eq_run] at hd
    rcases Writes.run_eq_some hd with hnone | ⟨r, hr, hmem⟩
    · cases hnone
    · obtain ⟨ret, hret, hname⟩ := exists_of_mem_dessine hmem
      rw [hret, mem_dessine_iff, hname, ← hret] at hmem
      exact ⟨r, hr, ret, hret, hmem⟩
  · simp only [contenu_eq_run]
    exact Writes.forall_perm_run_eq_iff.trans (coherent_iff rs)
  · obtain ⟨i, hi⟩ := exists_cible_line r.asked
    refine ⟨i, hi, ?_⟩
    rw [contenu_eq_run]
    refine ((coherent_iff rs).mpr h).run_eq hr ?_
    rw [hret, mem_dessine_iff, procName_of_call hret]
    exact Or.inl ⟨hi, rfl⟩

end Document
end Page
end RondeDesFacs
