import RondeDesFacs.Page.Events

/-!
# Tags and charts

The page tells by the charts whether a dataset is displayed, and by the tag which
charts to remove.  The two stay in step because both appear in one handler and
disappear in one handler, and because nothing in between throws: the charts look at
the records that the map has just been coloured with (`createCharts_eq`).

`Accord` is the invariant of the page.  It is kept by every event, however many
answers are awaited and of whatever items.
-/

namespace RondeDesFacs
namespace Page
namespace Events

open Association Script

variable {N : Type}

/-- The group-by fields of an item. -/
def Item.groups (item : Item) : List Chaine := split (chaine ";") (item.groupBy.getD [])

/-- An item that has the attributes its charts need. -/
def Item.Complete (item : Item) : Prop :=
  item.groupBy.isSome ∧ item.chartType.isSome ∧ item.serieName.isSome

instance (item : Item) : Decidable item.Complete := inferInstanceAs (Decidable (_ ∧ _ ∧ _))

/-- The charts of a dataset. -/
def Ecran.chartsOf (p : Ecran N) (d : Chaine) : List (Chart N) :=
  p.charts.filter fun c => c.classe = d

/-- Tags and charts are in step: a dataset has at most one tag; it has one exactly if it
has charts; and then its charts are those of one item, one for each of the item's
group-by fields, in containers of different names. -/
structure InStep (p : Ecran N) : Prop where
  atMostOne : ∀ d, (p.tags.filter fun t => t.dataset = d).length ≤ 1
  iff : ∀ d, (∃ t ∈ p.tags, t.dataset = d) ↔ p.chartsOf d ≠ []
  charts : ∀ t ∈ p.tags, ∃ item : Item, (∀ c ∈ p.chartsOf t.dataset, c.item = item) ∧
    (p.chartsOf t.dataset).length = item.groups.length ∧
    ((p.chartsOf t.dataset).map Chart.container).Nodup

/-- The charts are those of an item, in the order of its group-by fields. -/
def ChartsOf (item : Item) (charts : List (Chart N)) : Prop :=
  charts.map (fun c => (c.item, c.index)) = (List.range item.groups.length).map fun i => (item, i)

/-- The tags of a page are of different datasets, and a dataset has the charts of one of
its items if it has a tag, and none otherwise. -/
structure Accord (p : Ecran N) : Prop where
  nodup : (p.tags.map Tag.dataset).Nodup
  tagged : ∀ d ∈ p.tags.map Tag.dataset, ∃ item : Item, item.dataset = d ∧
    ChartsOf item (p.chartsOf d)
  untagged : ∀ d ∉ p.tags.map Tag.dataset, p.chartsOf d = []

/-! ## The charts of an item -/

theorem groups_ne_nil (item : Item) : item.groups ≠ [] := split_ne_nil _ _

theorem ChartsOf.length_eq {item : Item} {charts : List (Chart N)} (h : ChartsOf item charts) :
    charts.length = item.groups.length := by
  have hlen := congrArg List.length h
  rwa [List.length_map, List.length_map, List.length_range] at hlen

theorem ChartsOf.ne_nil {item : Item} {charts : List (Chart N)} (h : ChartsOf item charts) :
    charts ≠ [] := by
  rintro rfl
  exact groups_ne_nil item (List.length_eq_zero_iff.mp h.length_eq.symm)

theorem ChartsOf.item_eq {item : Item} {charts : List (Chart N)} (h : ChartsOf item charts)
    {c : Chart N} (hc : c ∈ charts) : c.item = item := by
  have hmem : (c.item, c.index) ∈ (List.range item.groups.length).map fun i => (item, i) :=
    h ▸ List.mem_map_of_mem hc
  obtain ⟨i, -, hi⟩ := List.mem_map.mp hmem
  exact (congrArg Prod.fst hi).symm

/-- **Charts made for one item** have containers of different names. -/
theorem ChartsOf.nodup_container {item : Item} {charts : List (Chart N)}
    (h : ChartsOf item charts) : (charts.map Chart.container).Nodup := by
  have hcontainer : charts.map Chart.container =
      (charts.map fun c => (c.item, c.index)).map fun e => e.1.dataset ++ decimal e.2 := by
    rw [List.map_map]
    rfl
  rw [hcontainer, h, List.map_map]
  refine (List.nodup_map_iff ?_).mpr List.nodup_range
  intro i j hij
  exact decimal_injective (List.append_cancel_left hij)

theorem Accord.mem_tags_iff {p : Ecran N} (h : Accord p) (d : Chaine) :
    d ∈ p.tags.map Tag.dataset ↔ p.chartsOf d ≠ [] := by
  constructor
  · intro hd
    obtain ⟨item, -, hitem⟩ := h.tagged d hd
    exact hitem.ne_nil
  · intro hne
    by_contra hd
    exact hne (h.untagged d hd)

/-- **An accord is in step.** -/
theorem Accord.inStep {p : Ecran N} (h : Accord p) : InStep p where
  atMostOne d := by
    have hmap : (p.tags.filter fun t => t.dataset = d).map Tag.dataset =
        (p.tags.map Tag.dataset).filter fun d' => d' = d := by
      rw [List.filter_map]
      rfl
    rw [← List.length_map Tag.dataset, hmap, List.filter_eq, List.length_replicate]
    exact List.nodup_iff_count_le_one.mp h.nodup d
  iff d := by
    rw [← h.mem_tags_iff d, List.mem_map]
  charts t ht := by
    obtain ⟨item, -, hitem⟩ := h.tagged t.dataset (List.mem_map_of_mem ht)
    exact ⟨item, fun c hc => hitem.item_eq hc, hitem.length_eq, hitem.nodup_container⟩

/-- Whether tags and charts are in accord depends on nothing else. -/
theorem Accord.congr {p q : Ecran N} (h : Accord p) (htags : q.tags = p.tags)
    (hcharts : q.charts = p.charts) : Accord q := by
  have hof : ∀ d, q.chartsOf d = p.chartsOf d := fun d => by
    rw [Ecran.chartsOf, hcharts, Ecran.chartsOf]
  refine ⟨htags ▸ h.nodup, fun d hd => ?_, fun d hd => ?_⟩
  · rw [hof]
    exact h.tagged d (htags ▸ hd)
  · rw [hof]
    exact h.untagged d (htags ▸ hd)

/-! ## Events -/

theorem accord_initial : Accord (Ecran.initial : Ecran N) :=
  ⟨List.nodup_nil, fun _ hd => absurd hd List.not_mem_nil, fun _ _ => rfl⟩

/-- The charts of a dataset, when charts of the dataset `d'` have been added. -/
theorem filter_charts_append (p : Ecran N) {charts : List (Chart N)} {d' : Chaine}
    (hclasse : ∀ c ∈ charts, c.classe = d') (d : Chaine) :
    (p.charts ++ charts).filter (fun c => c.classe = d) =
      if d = d' then p.chartsOf d ++ charts else p.chartsOf d := by
  rw [List.filter_append, Ecran.chartsOf]
  split_ifs with hd
  · have hall : charts.filter (fun c => c.classe = d) = charts :=
      List.filter_eq_self.mpr fun c hc => decide_eq_true ((hclasse c hc).trans hd.symm)
    rw [hall]
  · have hnil : charts.filter (fun c => c.classe = d) = [] := by
      rw [List.filter_eq_nil_iff]
      intro c hc
      simpa [hclasse c hc] using Ne.symm hd
    rw [hnil, List.append_nil]

/-- The charts of a dataset, when those of the dataset `d'` have been removed. -/
theorem filter_charts_filter (p : Ecran N) (d' d : Chaine) :
    (p.charts.filter fun c => c.classe ≠ d').filter (fun c => c.classe = d) =
      if d = d' then [] else p.chartsOf d := by
  rw [List.filter_filter]
  split_ifs with hd
  · rw [List.filter_eq_nil_iff]
    simp [hd]
  · refine List.filter_congr fun c _ => ?_
    by_cases hc : c.classe = d <;> simp [hc, hd]

/-- Charts and a tag for a dataset that has none. -/
theorem accord_concat {p : Ecran N} (hp : Accord p) {item : Item} {charts : List (Chart N)}
    (hnone : p.chartsOf item.dataset = []) (hcharts : ChartsOf item charts) (tagText : Chaine) :
    Accord { p with charts := p.charts ++ charts,
                    tags := p.tags ++ [Tag.mk item.dataset tagText] } := by
  have hclasse : ∀ c ∈ charts, c.classe = item.dataset := fun c hc => by
    rw [Chart.classe, hcharts.item_eq hc]
  have hof := filter_charts_append p hclasse
  have hnew : item.dataset ∉ p.tags.map Tag.dataset := fun hd =>
    (hp.mem_tags_iff _).mp hd hnone
  have htags : (p.tags ++ [Tag.mk item.dataset tagText]).map Tag.dataset =
      p.tags.map Tag.dataset ++ [item.dataset] := by
    rw [List.map_append, List.map_singleton]
  refine ⟨?_, fun d hd => ?_, fun d hd => ?_⟩
  · show ((p.tags ++ [Tag.mk item.dataset tagText]).map Tag.dataset).Nodup
    rw [htags]
    exact hp.nodup.append (List.nodup_singleton _) (List.disjoint_singleton.mpr hnew)
  · have hmem : d ∈ p.tags.map Tag.dataset ++ [item.dataset] := htags ▸ hd
    rw [Ecran.chartsOf, hof]
    split_ifs with heq
    · rw [heq, hnone]
      exact ⟨item, rfl, hcharts⟩
    · exact hp.tagged d (by simpa [heq] using hmem)
  · have hmem : d ∉ p.tags.map Tag.dataset ++ [item.dataset] := htags ▸ hd
    rw [List.mem_append, List.mem_singleton, not_or] at hmem
    rw [Ecran.chartsOf, hof, if_neg hmem.2]
    exact hp.untagged d hmem.1

/-- A tag and the charts of its dataset are removed together. -/
theorem accord_remove (defaultData : List (Chaine × Valeur N)) {p : Ecran N} (hp : Accord p)
    {k : ℕ} {t : Tag} (hk : p.tags[k]? = some t) : Accord (p.remove defaultData k t) := by
  obtain ⟨hlt, rfl⟩ := List.getElem?_eq_some_iff.mp hk
  have hmem : ∀ d, d ∈ (p.tags.eraseIdx k).map Tag.dataset ↔
      d ≠ p.tags[k].dataset ∧ d ∈ p.tags.map Tag.dataset := by
    intro d
    have hlt' : k < (p.tags.map Tag.dataset).length := by rwa [List.length_map]
    have herase := hp.nodup.erase_getElem k hlt'
    rw [List.getElem_map] at herase
    rw [← List.eraseIdx_map, ← herase, hp.nodup.mem_erase_iff]
  have hof : ∀ d, (p.remove defaultData k p.tags[k]).chartsOf d =
      if d = p.tags[k].dataset then [] else p.chartsOf d :=
    filter_charts_filter p p.tags[k].dataset
  refine ⟨?_, fun d hd => ?_, fun d hd => ?_⟩
  · exact hp.nodup.sublist ((List.eraseIdx_sublist _ _).map _)
  · obtain ⟨hne, hold⟩ := (hmem d).mp hd
    rw [hof, if_neg hne]
    exact hp.tagged d hold
  · rw [hof]
    split_ifs with hne
    · rfl
    · exact hp.untagged d fun hold => hd ((hmem d).mpr ⟨hne, hold⟩)

section

variable [Nombre N]

/-- Where the records can be looked at, all the charts are made. -/
theorem createCharts_eq {dataJsons : DataJsons N} {item : Item} {json : DataJson N}
    (hjson : getDataJson dataJsons item.dataset = some json) (h : Lisible json.data)
    (chartTypeArray serieNameArray : List Chaine) (index : ℕ) (elements : List Chaine) :
    (createCharts dataJsons item chartTypeArray serieNameArray index elements).2 = true ∧
      (createCharts dataJsons item chartTypeArray serieNameArray index elements).1.map
          (fun c => (c.item, c.index)) =
        (List.range' index elements.length).map fun i => (item, i) := by
  induction elements generalizing index with
  | nil => exact ⟨rfl, rfl⟩
  | cons element elements ih =>
    have hdata : (chartData dataJsons item.dataset element chartTypeArray[index]?).isNone =
        false := by
      have hcolumn := isSome_getColumnChartFormattedData hjson h element
      have hmono := isSome_getChartFormattedData hjson h element
      unfold chartData
      split_ifs <;> simp [hcolumn, hmono]
    obtain ⟨hreturned, hmap⟩ := ih (index + 1)
    rw [createCharts, if_neg (by simp [hdata])]
    refine ⟨hreturned, ?_⟩
    rw [List.map_cons, hmap, List.length_cons, List.range'_succ, List.map_cons]

/-- **What an answer displays**, where the records can be looked at: nothing, if the
item is not complete or its dataset has charts; else all the charts of the item and a
tag. -/
theorem display_cases {p : Ecran N} {item : Item} {json : DataJson N}
    (hjson : getDataJson p.dataJsons item.dataset = some json) (h : Lisible json.data) :
    (p.display item = p ∧ (item.Complete → p.chartsOf item.dataset ≠ [])) ∨
      (item.Complete ∧ p.chartsOf item.dataset = [] ∧ ∃ charts, ChartsOf item charts ∧
        p.display item = { p with charts := p.charts ++ charts,
                                  tags := p.tags ++ [Tag.mk item.dataset item.text] }) := by
  unfold Ecran.display
  split
  · next groupBy chartType serieName hgroup htype hserie =>
    have hcomplete : item.Complete := by simp [Item.Complete, hgroup, htype, hserie]
    split_ifs with hany
    · refine Or.inl ⟨rfl, fun _ hnil => ?_⟩
      rw [Ecran.chartsOf, List.filter_eq_nil_iff] at hnil
      obtain ⟨c, hc, hclasse⟩ := List.any_eq_true.mp hany
      exact hnil c hc hclasse
    · have hnone : p.chartsOf item.dataset = [] := by
        rw [Ecran.chartsOf, List.filter_eq_nil_iff]
        simpa using hany
      obtain ⟨hreturned, hmap⟩ := createCharts_eq hjson h (split (chaine ";") chartType)
        (split (chaine ";") serieName) 0 (split (chaine ";") groupBy)
      rcases hcreate : createCharts p.dataJsons item (split (chaine ";") chartType)
        (split (chaine ";") serieName) 0 (split (chaine ";") groupBy) with ⟨charts, returned⟩
      rw [hcreate] at hreturned hmap
      obtain rfl : returned = true := hreturned
      refine Or.inr ⟨hcomplete, hnone, charts, ?_, rfl⟩
      rw [ChartsOf, hmap, Item.groups, hgroup, List.range_eq_range']
      rfl
  · next hattributes =>
    refine Or.inl ⟨rfl, fun hcomplete => ?_⟩
    obtain ⟨hgroup, htype, hserie⟩ := hcomplete
    obtain ⟨groupBy, hgroup⟩ := Option.isSome_iff_exists.mp hgroup
    obtain ⟨chartType, htype⟩ := Option.isSome_iff_exists.mp htype
    obtain ⟨serieName, hserie⟩ := Option.isSome_iff_exists.mp hserie
    exact absurd hserie (hattributes groupBy chartType serieName hgroup htype)

theorem accord_display {p : Ecran N} (hp : Accord p) {item : Item} {json : DataJson N}
    (hjson : getDataJson p.dataJsons item.dataset = some json) (h : Lisible json.data) :
    Accord (p.display item) := by
  rcases display_cases hjson h with ⟨hsame, -⟩ | ⟨-, hnone, charts, hcharts, hnew⟩
  · rw [hsame]
    exact hp
  · rw [hnew]
    exact accord_concat hp hnone hcharts item.text

theorem accord_answer {p : Ecran N} (hp : Accord p) (item : Item) (geojson : Records N) :
    Accord (p.answer item geojson) := by
  rw [Ecran.answer]
  split
  · exact hp.congr rfl rfl
  · next data hdata =>
    obtain ⟨res, hres⟩ := exists_getFormattedData hdata (mem_keys_put.mpr (Or.inl rfl))
    obtain ⟨json, hjson, hlisible⟩ := lisible_of_getFormattedData hres
    have hmap : Accord { p with
        dataJsons := addDataJson p.dataJsons item.dataset geojson item.joinner
          item.codeFormatterName item.valueKey,
        map := some data } := hp.congr rfl rfl
    exact accord_display hmap hjson hlisible

theorem accord_step (defaultData : List (Chaine × Valeur N)) {p : Ecran N} (hp : Accord p)
    (ev : Evenement N) : Accord (p.step defaultData ev) := by
  cases ev with
  | listItem item => exact hp.congr rfl rfl
  | answer k geojson =>
    rw [Ecran.step]
    rcases p.awaited[k]? with _ | item
    · exact hp
    · have hrest : Accord { p with awaited := p.awaited.eraseIdx k } := hp.congr rfl rfl
      exact accord_answer hrest item geojson
  | tag k =>
    rw [Ecran.step]
    rcases hk : p.tags[k]? with _ | t
    · exact hp
    · exact accord_remove defaultData hp hk

theorem accord_run (defaultData : List (Chaine × Valeur N)) {p : Ecran N} (hp : Accord p)
    (evs : List (Evenement N)) : Accord (p.run defaultData evs) := by
  induction evs generalizing p with
  | nil => exact hp
  | cons ev evs ih => exact ih (accord_step defaultData hp ev)

/-- **Tags and charts stay in step**, whatever happens to the page. -/
theorem tags_in_step (defaultData : List (Chaine × Valeur N)) (evs : List (Evenement N)) :
    InStep ((Ecran.initial : Ecran N).run defaultData evs) :=
  (accord_run defaultData accord_initial evs).inStep

end

end Events
end Page
end RondeDesFacs
