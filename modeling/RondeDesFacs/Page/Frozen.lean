import RondeDesFacs.Page.DataPage
import Mathlib.Data.Fintype.EquivFin

/-!
# A page that shows nothing new

An answer is kept before the map is coloured, and the map is coloured with all that is kept.  So
a dataset that cannot be counted, once it is kept, makes every later answer throw before anything
is displayed.  Clicks on the tags still work; but until that dataset itself is answered again the
page shows only what it has shown before, or less (`Figee`).

And nothing else stops the page: where all that is kept can be counted, it may always show a
dataset more (`frozen_iff`).
-/

namespace RondeDesFacs
namespace Page
namespace Events

open Association Script

variable {N : Type} [Nombre N] (defaultData : List (Chaine × Valeur N))

/-- A page shows what another has shown, or less, and its map or the default. -/
structure Figee (p q : Ecran N) : Prop where
  tags : q.tags.Sublist p.tags
  charts : q.charts.Sublist p.charts
  map : q.map = p.map ∨ q.map = some defaultData

/-- The dataset of an answer. -/
def Ecran.repondu (p : Ecran N) : Evenement N → Option Chaine
  | .answer k _ => p.awaited[k]?.map Item.dataset
  | _ => none

/-- A dataset is not answered in a run. -/
def Sans (d : Chaine) : Ecran N → List (Evenement N) → Prop
  | _, [] => True
  | p, ev :: evs => p.repondu ev ≠ some d ∧ Sans d (p.step defaultData ev) evs

/-- A dataset is kept, and cannot be counted. -/
def Ecran.Bloque (p : Ecran N) (d : Chaine) : Prop :=
  d ∈ keys p.dataJsons ∧ getFormattedData p.dataJsons d = none

variable {defaultData} {p q : Ecran N} {d : Chaine}

omit [Nombre N] in
theorem figee_refl (p : Ecran N) : Figee defaultData p p :=
  ⟨List.Sublist.refl _, List.Sublist.refl _, Or.inl rfl⟩

omit [Nombre N] in
theorem Figee.congr {q' : Ecran N} (h : Figee defaultData p q) (htags : q'.tags = q.tags)
    (hcharts : q'.charts = q.charts) (hmap : q'.map = q.map) : Figee defaultData p q' where
  tags := by rw [htags]; exact h.tags
  charts := by rw [hcharts]; exact h.charts
  map := by rw [hmap]; exact h.map

/-- What is kept of a dataset when another one is answered. -/
theorem getFormattedData_addDataJson (dataJsons : DataJsons N) {name : Chaine} (h : d ≠ name)
    (geojson : Records N) (keyJoinner codeFormatterName valueKey : Option Chaine) :
    getFormattedData (addDataJson dataJsons name geojson keyJoinner codeFormatterName valueKey) d =
      getFormattedData dataJsons d :=
  getFormattedData_congr (get_put_of_ne h dataJsons _)

/-- An answer to another dataset changes nothing that is displayed. -/
theorem Ecran.Bloque.answer (h : p.Bloque d) {item : Item} (hd : d ≠ item.dataset)
    (geojson : Records N) :
    (p.answer item geojson).Bloque d ∧ (p.answer item geojson).tags = p.tags ∧
      (p.answer item geojson).charts = p.charts ∧ (p.answer item geojson).map = p.map := by
  have hkeys : d ∈ keys (addDataJson p.dataJsons item.dataset geojson item.joinner
      item.codeFormatterName item.valueKey) := mem_keys_put.mpr (Or.inr h.1)
  have hthrows : getFormattedData (addDataJson p.dataJsons item.dataset geojson item.joinner
      item.codeFormatterName item.valueKey) d = none := by
    rw [getFormattedData_addDataJson _ hd]
    exact h.2
  have hnone : getFormattedAllData (addDataJson p.dataJsons item.dataset geojson item.joinner
      item.codeFormatterName item.valueKey) = none := by
    refine Option.not_isSome_iff_eq_none.mp fun hsome => ?_
    have hcounted := isSome_getFormattedAllData_iff.mp hsome d hkeys
    rw [hthrows] at hcounted
    cases hcounted
  rw [Ecran.answer, hnone]
  exact ⟨⟨hkeys, hthrows⟩, rfl, rfl, rfl⟩

/-- **A step** that does not answer the dataset. -/
theorem Ecran.Bloque.step (h : q.Bloque d) (hfigee : Figee defaultData p q) {ev : Evenement N}
    (hev : q.repondu ev ≠ some d) :
    (q.step defaultData ev).Bloque d ∧ Figee defaultData p (q.step defaultData ev) := by
  cases ev with
  | listItem item => exact ⟨h, hfigee.tags, hfigee.charts, hfigee.map⟩
  | answer k geojson =>
    rw [Ecran.repondu] at hev
    rw [Ecran.step]
    rcases hk : q.awaited[k]? with _ | item
    · exact ⟨h, hfigee⟩
    · rw [hk, Option.map_some] at hev
      have hd : d ≠ item.dataset := fun heq => hev (congrArg some heq.symm)
      have hrest : Ecran.Bloque { q with awaited := q.awaited.eraseIdx k } d := h
      obtain ⟨hbloque, htags, hcharts, hmap⟩ := hrest.answer hd geojson
      exact ⟨hbloque, hfigee.congr htags hcharts hmap⟩
  | tag k =>
    rw [Ecran.step]
    rcases q.tags[k]? with _ | t
    · exact ⟨h, hfigee⟩
    · exact ⟨h, (List.eraseIdx_sublist _ _).trans hfigee.tags,
        List.filter_sublist.trans hfigee.charts, Or.inr rfl⟩

theorem Ecran.Bloque.run (h : q.Bloque d) (hfigee : Figee defaultData p q)
    {evs : List (Evenement N)} (hevs : Sans defaultData d q evs) :
    Figee defaultData p (q.run defaultData evs) := by
  induction evs generalizing q with
  | nil => exact hfigee
  | cons ev evs ih =>
    obtain ⟨hbloque, hfigee⟩ := h.step hfigee hevs.1
    exact ih hbloque hfigee hevs.2

/-- An item of a dataset without records. -/
def itemVide (d : Chaine) (hd : d ≠ proto) : Item where
  dataset := d
  joinner := none
  codeFormatterName := none
  valueKey := none
  groupBy := some []
  chartType := some []
  serieName := some []
  text := []
  ordinaire := hd
  formatter _ h := by cases h

/-- A dataset without records that has no charts gets a tag. -/
theorem tags_answer_itemVide (h : ∀ d ∈ keys p.dataJsons, (getFormattedData p.dataJsons d).isSome)
    {name : Chaine} (hproto : name ≠ proto) (hname : name ∉ p.charts.map Chart.classe) :
    (p.answer (itemVide name hproto) (some [])).tags = p.tags ++ [⟨name, []⟩] := by
  have hjson : getDataJson (addDataJson p.dataJsons name (some []) none none none) name =
      some ⟨some [], none, codeFormatter none, none⟩ := get_put_self _ _ _
  have hall : ∀ d ∈ keys (addDataJson p.dataJsons name (some []) none none none),
      (getFormattedData (addDataJson p.dataJsons name (some []) none none none) d).isSome := by
    intro d hd
    by_cases heq : d = name
    · rw [heq, getFormattedData_of_data hjson rfl]
      rfl
    · rw [getFormattedData_addDataJson _ heq]
      exact h d ((mem_keys_put.mp hd).resolve_left heq)
  obtain ⟨data, hdata⟩ := Option.isSome_iff_exists.mp (isSome_getFormattedAllData_iff.mpr hall)
  have hanswer : p.answer (itemVide name hproto) (some []) =
      Ecran.display { p with
        dataJsons := addDataJson p.dataJsons name (some []) none none none,
        map := some data } (itemVide name hproto) := by
    rw [Ecran.answer]
    simp only [itemVide, hdata]
  rw [hanswer]
  have hlisible : Lisible (some [] : Records N) := ⟨[], rfl, by simp⟩
  rcases @display_cases _ _ { p with
      dataJsons := addDataJson p.dataJsons name (some []) none none none,
      map := some data } (itemVide name hproto) _ hjson hlisible with
    ⟨-, hcharts⟩ | ⟨-, -, charts, -, hnew⟩
  · refine absurd (List.filter_eq_nil_iff.mpr fun c hc hclasse => ?_) (hcharts ⟨rfl, rfl, rfl⟩)
    exact hname (List.mem_map.mpr ⟨c, hc, of_decide_eq_true hclasse⟩)
  · rw [hnew]
    rfl

/-- **A dataset more.**  Where all that is kept can be counted, a new dataset is displayed. -/
theorem exists_not_figee (h : ∀ d ∈ keys p.dataJsons, (getFormattedData p.dataJsons d).isSome)
    (d : Chaine) :
    ∃ evs, Sans defaultData d p evs ∧ ¬ Figee defaultData p (p.run defaultData evs) := by
  obtain ⟨name, hname⟩ := Infinite.exists_notMem_finset
    (proto :: d :: p.charts.map Chart.classe).toFinset
  rw [List.mem_toFinset, List.mem_cons, List.mem_cons, not_or, not_or] at hname
  obtain ⟨hproto, hd, hcharts⟩ := hname
  have hawaited : (p.awaited ++ [itemVide name hproto])[p.awaited.length]? =
      some (itemVide name hproto) := by
    simp
  refine ⟨[.listItem (itemVide name hproto), .answer p.awaited.length (some [])],
    ⟨?_, ?_, trivial⟩, ?_⟩
  · exact Ne.symm (Option.some_ne_none d)
  · rw [Ecran.step, Ecran.repondu, hawaited]
    exact fun heq => hd (Option.some_inj.mp heq)
  · intro hfigee
    have htags := hfigee.tags
    rw [Ecran.run, List.foldl_cons, List.foldl_cons, List.foldl_nil, Ecran.step, Ecran.step] at htags
    dsimp only at htags
    rw [hawaited] at htags
    have hnew := tags_answer_itemVide
      (p := { p with
        awaited := (p.awaited ++ [itemVide name hproto]).eraseIdx p.awaited.length })
      h hproto hcharts
    have hlength := (hnew ▸ htags).length_le
    rw [List.length_append, List.length_singleton] at hlength
    exact absurd hlength (Nat.not_succ_le_self _)

/-- **When the page shows nothing new**, whatever happens, as long as one dataset is not
answered again: exactly if it keeps a dataset that cannot be counted. -/
theorem frozen_iff (defaultData : List (Chaine × Valeur N)) (evs : List (Evenement N)) :
    (∃ d, (Ecran.initial.run defaultData evs).Bloque d) ↔
      ∃ d, ∀ evs', Sans defaultData d (Ecran.initial.run defaultData evs) evs' →
        Figee defaultData (Ecran.initial.run defaultData evs)
          ((Ecran.initial.run defaultData evs).run defaultData evs') := by
  constructor
  · rintro ⟨d, hd⟩
    exact ⟨d, fun evs' hevs' => hd.run (figee_refl _) hevs'⟩
  · rintro ⟨d, hd⟩
    by_contra hnone
    have hall : ∀ d' ∈ keys (Ecran.initial.run defaultData evs).dataJsons,
        (getFormattedData (Ecran.initial.run defaultData evs).dataJsons d').isSome := fun d' hd' =>
      Option.isSome_iff_ne_none.mpr fun hthrows => hnone ⟨d', hd', hthrows⟩
    obtain ⟨evs', hsans, hnot⟩ := exists_not_figee hall d
    exact hnot (hd evs' hsans)

end Events
end Page
end RondeDesFacs
