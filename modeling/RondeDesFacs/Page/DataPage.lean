import RondeDesFacs.Page.Tags

/-!
# The map page and its files

The address asked for a dataset is that of a file, so every answer for it brings the same
records, whenever it comes.  Then the page might forget all data, and know only for which item
each dataset was loaded last, which items are displayed, and what the map shows (`Vue`).  What
the handlers do with the data is what `Vue.step` does with the items (`page_of_files`): a chart
shows what its own item asks of its own file, whatever else is loaded, awaited or removed.

The price is that the files are bound together.  An answer is displayed only if all files loaded
so far can be counted, each as the item asked that was answered last.
-/

namespace RondeDesFacs
namespace Page
namespace Events

open Association Script Passes

variable {N : Type} [Nombre N]

/-! ## The page without its data -/

/-- What the data manager keeps of a file for an item. -/
def Item.json (item : Item) (geojson : Records N) : DataJson N :=
  ⟨geojson, item.joinner, codeFormatter item.codeFormatterName, item.valueKey⟩

/-- What the map shows: nothing yet, the default, or the totals of what was loaded. -/
inductive Carte where
  | rien
  | defaut
  | totaux (chargees : List (Chaine × Item))

/-- The page: the item each dataset was loaded for last, the map, the items displayed, and
those whose answers are awaited. -/
structure Vue where
  chargees : List (Chaine × Item)
  carte : Carte
  affichees : List Item
  awaited : List Item

/-- What happens to the page. -/
inductive Geste where
  | listItem (item : Item)
  /-- The answer to the `k`-th item awaited comes. -/
  | answer (k : ℕ)
  /-- The `k`-th tag is clicked. -/
  | tag (k : ℕ)

/-- The page when it has been loaded. -/
def Vue.initial : Vue := ⟨[], .rien, [], []⟩

section Files

variable (fichier : Chaine → Records N)

/-- The file of an item, as the only one. -/
def Item.seul (item : Item) : DataJsons N := [(item.dataset, item.json (fichier item.dataset))]

/-- The file of an item can be counted as the item asks. -/
def Item.comptable (item : Item) : Bool :=
  (getFormattedData (item.seul fichier) item.dataset).isSome

/-- The charts of an item, one for each of its group-by fields. -/
def Item.charts (item : Item) : List (Chart N) :=
  let chartTypeArray := split (chaine ";") (item.chartType.getD [])
  let serieNameArray := split (chaine ";") (item.serieName.getD [])
  item.groups.zipIdx.map fun e =>
    ⟨item, e.2, chartData (item.seul fichier) item.dataset e.1 chartTypeArray[e.2]?,
      serieNameArray[e.2]?⟩

/-- The files that items were loaded for. -/
def jsons (chargees : List (Chaine × Item)) : DataJsons N :=
  chargees.map fun e => (e.1, e.2.json (fichier e.1))

/-- An item is displayed if it is complete and its dataset is not displayed. -/
def ajoute (affichees : List Item) (item : Item) : List Item :=
  if item.Complete ∧ ∀ i ∈ affichees, i.dataset ≠ item.dataset then affichees ++ [item]
  else affichees

/-- The answer to an item. -/
def Vue.answer (v : Vue) (item : Item) : Vue :=
  let chargees := put v.chargees item.dataset item
  if chargees.all fun e => e.2.comptable fichier then
    { v with chargees := chargees, carte := .totaux chargees,
             affichees := ajoute v.affichees item }
  else { v with chargees := chargees }

/-- What happens to the page. -/
def Vue.step (v : Vue) : Geste → Vue
  | .listItem item => { v with awaited := v.awaited ++ [item] }
  | .answer k =>
    match v.awaited[k]? with
    | none => v
    | some item => Vue.answer fichier { v with awaited := v.awaited.eraseIdx k } item
  | .tag k =>
    match v.affichees[k]? with
    | none => v
    | some _ => { v with carte := .defaut, affichees := v.affichees.eraseIdx k }

/-- A run. -/
def Vue.run (gestes : List Geste) : Vue := gestes.foldl (Vue.step fichier) Vue.initial

/-! ## The page with its data -/

/-- The answer to an item brings its file. -/
def Geste.evenement (awaited : List Item) : Geste → Evenement N
  | .listItem item => .listItem item
  | .answer k => .answer k (awaited[k]?.bind fun item => fichier item.dataset)
  | .tag k => .tag k

variable (defaultData : List (Chaine × Valeur N))

/-- A run whose answers bring the files. -/
def Ecran.runDe (gestes : List Geste) : Ecran N :=
  gestes.foldl (fun p g => p.step defaultData (g.evenement fichier p.awaited)) Ecran.initial

/-- What is given to `setData`. -/
def Carte.data : Carte → Option (List (Chaine × Valeur N))
  | .rien => none
  | .defaut => some defaultData
  | .totaux chargees => getFormattedAllData (jsons fichier chargees)

/-- What the page is with its data. -/
def Vue.ecran (v : Vue) : Ecran N where
  dataJsons := jsons fichier v.chargees
  map := v.carte.data fichier defaultData
  charts := v.affichees.flatMap fun item => item.charts fichier
  tags := v.affichees.map fun item => ⟨item.dataset, item.text⟩
  awaited := v.awaited

end Files

/-! ## The map -/

/-- **The map can be coloured** exactly if every dataset kept can be counted. -/
theorem isSome_getFormattedAllData_iff {dataJsons : DataJsons N} :
    (getFormattedAllData dataJsons).isSome ↔
      ∀ d ∈ keys dataJsons, (getFormattedData dataJsons d).isSome := by
  constructor
  · intro h d hd
    obtain ⟨data, hdata⟩ := Option.isSome_iff_exists.mp h
    obtain ⟨res, hres⟩ := exists_getFormattedData hdata hd
    rw [hres]
    rfl
  · intro h
    have hall : formattedDatas dataJsons (keys (ordre dataJsons)) =
        some ((keys (ordre dataJsons)).map fun d => (getFormattedData dataJsons d).getD []) := by
      refine mapM_eq_map fun d hd => ?_
      obtain ⟨res, hres⟩ := Option.isSome_iff_exists.mp
        (h d ((keys_ordre_perm dataJsons).mem_iff.mp hd))
      rw [hres, Option.getD_some]
    rw [getFormattedAllData_eq, hall]
    rfl

/-! ## The charts -/

theorem chartData_congr {dataJsons dataJsons' : DataJsons N} {dataset : Chaine}
    (h : getDataJson dataJsons' dataset = getDataJson dataJsons dataset) (element : Chaine)
    (chartType : Option Chaine) :
    chartData dataJsons' dataset element chartType =
      chartData dataJsons dataset element chartType := by
  rw [chartData, chartData, getColumnChartFormattedData, getColumnChartFormattedData,
    getChartFormattedData, getChartFormattedData, h]

/-- A chart for every group-by field, where each of them can be drawn. -/
theorem createCharts_eq_zipIdx {dataJsons : DataJsons N} {item : Item}
    {chartTypeArray serieNameArray : List Chaine} (elements : List Chaine) (index : ℕ)
    (h : ∀ element chartType, (chartData dataJsons item.dataset element chartType).isSome) :
    createCharts dataJsons item chartTypeArray serieNameArray index elements =
      ((elements.zipIdx index).map fun e =>
        ⟨item, e.2, chartData dataJsons item.dataset e.1 chartTypeArray[e.2]?,
          serieNameArray[e.2]?⟩, true) := by
  induction elements generalizing index with
  | nil => rfl
  | cons element elements ih =>
    have hdata := h element chartTypeArray[index]?
    rw [createCharts, if_neg (by simp [Option.isSome_iff_ne_none.mp hdata]), ih]
    rfl

section Files

variable {fichier : Chaine → Records N} {item : Item}

omit [Nombre N] in
theorem getDataJson_seul :
    getDataJson (item.seul fichier) item.dataset = some (item.json (fichier item.dataset)) := by
  rw [getDataJson, Item.seul, get_cons, if_pos rfl]

theorem classe_of_mem_charts {c : Chart N} (hc : c ∈ item.charts fichier) :
    c.classe = item.dataset := by
  obtain ⟨e, -, rfl⟩ := List.mem_map.mp hc
  rfl

theorem charts_ne_nil : item.charts fichier ≠ [] := by
  rw [Item.charts, Ne, List.map_eq_nil_iff, List.zipIdx_eq_nil_iff]
  exact groups_ne_nil item

/-- The file of an item that can be counted can be drawn. -/
theorem isSome_chartData (h : item.comptable fichier) (element : Chaine)
    (chartType : Option Chaine) :
    (chartData (item.seul fichier) item.dataset element chartType).isSome := by
  obtain ⟨res, hres⟩ := Option.isSome_iff_exists.mp h
  obtain ⟨json, hjson, hlisible⟩ := lisible_of_getFormattedData hres
  have hcolumn := isSome_getColumnChartFormattedData hjson hlisible element
  have hmono := isSome_getChartFormattedData hjson hlisible element
  unfold chartData
  split_ifs <;> simp [hcolumn, hmono]

/-- The charts made for an item are its charts, whatever else is kept. -/
theorem createCharts_eq_charts {dataJsons : DataJsons N} (h : item.comptable fichier)
    (hjson : getDataJson dataJsons item.dataset = some (item.json (fichier item.dataset)))
    {groupBy chartType serieName : Chaine} (hgroup : item.groupBy = some groupBy)
    (htype : item.chartType = some chartType) (hserie : item.serieName = some serieName) :
    createCharts dataJsons item (split (chaine ";") chartType) (split (chaine ";") serieName) 0
      (split (chaine ";") groupBy) = (item.charts fichier, true) := by
  have hdata : ∀ element type, chartData dataJsons item.dataset element type =
      chartData (item.seul fichier) item.dataset element type := fun element type =>
    chartData_congr (hjson.trans getDataJson_seul.symm) element type
  rw [createCharts_eq_zipIdx _ _ fun element type => by
    rw [hdata]
    exact isSome_chartData h element type]
  simp only [hdata, Item.charts, Item.groups, hgroup, htype, hserie, Option.getD_some]

/-! ## What is displayed -/

/-- A dataset has charts exactly if an item of it is displayed. -/
theorem any_charts_iff {affichees : List Item} {d : Chaine} :
    ((affichees.flatMap fun item => item.charts fichier).any fun c => c.classe = d) = true ↔
      ∃ item ∈ affichees, item.dataset = d := by
  simp only [List.any_eq_true, List.mem_flatMap, decide_eq_true_eq]
  constructor
  · rintro ⟨c, ⟨item, hitem, hc⟩, hd⟩
    exact ⟨item, hitem, (classe_of_mem_charts hc).symm.trans hd⟩
  · rintro ⟨item, hitem, hd⟩
    obtain ⟨c, hc⟩ := List.exists_mem_of_ne_nil (item.charts fichier) charts_ne_nil
    exact ⟨c, ⟨item, hitem, hc⟩, (classe_of_mem_charts hc).trans hd⟩

/-- The items displayed once an answer is. -/
theorem display_eq {p : Ecran N} {affichees : List Item} (h : item.comptable fichier)
    (hjson : getDataJson p.dataJsons item.dataset = some (item.json (fichier item.dataset)))
    (hcharts : p.charts = affichees.flatMap fun i => i.charts fichier)
    (htags : p.tags = affichees.map fun i => ⟨i.dataset, i.text⟩) :
    p.display item =
      { p with charts := (ajoute affichees item).flatMap fun i => i.charts fichier,
               tags := (ajoute affichees item).map fun i => ⟨i.dataset, i.text⟩ } := by
  have hany : (p.charts.any fun c => c.classe = item.dataset) = true ↔
      ∃ i ∈ affichees, i.dataset = item.dataset := by rw [hcharts, any_charts_iff]
  unfold Ecran.display
  split
  · next groupBy chartType serieName hgroup htype hserie =>
    have hcomplete : item.Complete := by simp [Item.Complete, hgroup, htype, hserie]
    split_ifs with hshown
    · obtain ⟨i, hi, hd⟩ := hany.mp hshown
      rw [ajoute, if_neg fun hnew => hnew.2 i hi hd, ← hcharts, ← htags]
    · have hnew : ∀ i ∈ affichees, i.dataset ≠ item.dataset := fun i hi hd =>
        hshown (hany.mpr ⟨i, hi, hd⟩)
      rw [createCharts_eq_charts h hjson hgroup htype hserie, ajoute, if_pos ⟨hcomplete, hnew⟩,
        hcharts, htags]
      simp
  · next hattributes =>
    have hincomplete : ¬ item.Complete := by
      rintro ⟨hgroup, htype, hserie⟩
      obtain ⟨groupBy, hgroup⟩ := Option.isSome_iff_exists.mp hgroup
      obtain ⟨chartType, htype⟩ := Option.isSome_iff_exists.mp htype
      obtain ⟨serieName, hserie⟩ := Option.isSome_iff_exists.mp hserie
      exact hattributes groupBy chartType serieName hgroup htype hserie
    rw [ajoute, if_neg fun hnew => hincomplete hnew.1, ← hcharts, ← htags]

/-- Where no dataset is displayed twice, the charts of one are those of its item. -/
theorem filter_flatMap_charts {affichees : List Item} (hnodup : (affichees.map Item.dataset).Nodup)
    {k : ℕ} (hk : affichees[k]? = some item) :
    ((affichees.flatMap fun i => i.charts fichier).filter fun c => c.classe ≠ item.dataset) =
      (affichees.eraseIdx k).flatMap fun i => i.charts fichier := by
  have hother : ∀ i : Item, i.dataset ≠ item.dataset →
      ((i.charts fichier).filter fun c => c.classe ≠ item.dataset) = i.charts fichier :=
    fun i hi => List.filter_eq_self.mpr fun c hc =>
      decide_eq_true fun h => hi ((classe_of_mem_charts hc).symm.trans h)
  have hself : ∀ i : Item, i.dataset = item.dataset →
      ((i.charts fichier).filter fun c => c.classe ≠ item.dataset) = [] :=
    fun i hi => List.filter_eq_nil_iff.mpr fun c hc h =>
      of_decide_eq_true h ((classe_of_mem_charts hc).trans hi)
  rw [List.filter_flatMap]
  induction affichees generalizing k with
  | nil => rfl
  | cons i affichees ih =>
    rw [List.map_cons, List.nodup_cons] at hnodup
    cases k with
    | zero =>
      obtain rfl : i = item := Option.some_inj.mp hk
      rw [List.flatMap_cons, hself i rfl, List.nil_append, List.eraseIdx_cons_zero]
      refine List.flatMap_congr fun i' hi' => hother i' fun h => hnodup.1 ?_
      rw [← h]
      exact List.mem_map_of_mem hi'
    | succ k =>
      have hmem : item ∈ affichees := List.mem_of_getElem? hk
      have hi : i.dataset ≠ item.dataset := fun h =>
        hnodup.1 (h ▸ List.mem_map_of_mem hmem)
      rw [List.flatMap_cons, hother i hi, ih hnodup.2 hk, List.eraseIdx_cons_succ,
        List.flatMap_cons]

/-! ## Steps -/

/-- Every dataset is loaded for an item of its own and displayed once at most, and what is
displayed can be counted. -/
structure Vue.Coherente (fichier : Chaine → Records N) (v : Vue) : Prop where
  nodup : (keys v.chargees).Nodup
  dataset : ∀ e ∈ v.chargees, e.2.dataset = e.1
  affichees : (v.affichees.map Item.dataset).Nodup
  comptable : ∀ item ∈ v.affichees, item.comptable fichier

theorem mem_ajoute {affichees : List Item} {i : Item} (h : i ∈ ajoute affichees item) :
    i ∈ affichees ∨ i = item := by
  rw [ajoute] at h
  split_ifs at h
  · exact (List.mem_append.mp h).imp id List.mem_singleton.mp
  · exact Or.inl h

theorem nodup_ajoute {affichees : List Item} (h : (affichees.map Item.dataset).Nodup)
    (item : Item) : ((ajoute affichees item).map Item.dataset).Nodup := by
  rw [ajoute]
  split_ifs with hnew
  · rw [List.map_append, List.map_singleton]
    refine h.append (List.nodup_singleton _) (List.disjoint_singleton.mpr fun hmem => ?_)
    obtain ⟨i, hi, hd⟩ := List.mem_map.mp hmem
    exact hnew.2 i hi hd
  · exact h

theorem dataset_put {chargees : List (Chaine × Item)} (h : ∀ e ∈ chargees, e.2.dataset = e.1)
    (item : Item) : ∀ e ∈ put chargees item.dataset item, e.2.dataset = e.1 := by
  induction chargees with
  | nil => simp [put]
  | cons e chargees ih =>
    obtain ⟨he, hrest⟩ := List.forall_mem_cons.mp h
    rw [put]
    split_ifs
    · exact List.forall_mem_cons.mpr ⟨rfl, hrest⟩
    · exact List.forall_mem_cons.mpr ⟨he, ih hrest⟩

/-- Where all files loaded can be counted, that of the last answer can. -/
theorem comptable_of_all {chargees : List (Chaine × Item)} (hnodup : (keys chargees).Nodup)
    (h : (put chargees item.dataset item).all fun e => e.2.comptable fichier) :
    item.comptable fichier :=
  List.all_eq_true.mp h (item.dataset, item)
    ((get_eq_some_iff (nodup_keys_put hnodup item.dataset item) _ _).mp (get_put_self _ _ _))

theorem coherente_answer {v : Vue} (hv : v.Coherente fichier) (item : Item) :
    (v.answer fichier item).Coherente fichier := by
  have hnodup := nodup_keys_put hv.nodup item.dataset item
  have hdataset := dataset_put hv.dataset item
  rw [Vue.answer]
  split_ifs with hall
  · refine ⟨hnodup, hdataset, nodup_ajoute hv.affichees item, fun i hi => ?_⟩
    rcases mem_ajoute hi with hi | rfl
    · exact hv.comptable i hi
    · exact comptable_of_all hv.nodup hall
  · exact ⟨hnodup, hdataset, hv.affichees, hv.comptable⟩

theorem coherente_step {v : Vue} (hv : v.Coherente fichier) (g : Geste) : (v.step fichier g).Coherente fichier := by
  cases g with
  | listItem item => exact ⟨hv.nodup, hv.dataset, hv.affichees, hv.comptable⟩
  | answer k =>
    rw [Vue.step]
    rcases v.awaited[k]? with _ | item
    · exact hv
    · have hrest : Vue.Coherente fichier { v with awaited := v.awaited.eraseIdx k } :=
        ⟨hv.nodup, hv.dataset, hv.affichees, hv.comptable⟩
      exact coherente_answer hrest item
  | tag k =>
    rw [Vue.step]
    rcases v.affichees[k]? with _ | item
    · exact hv
    · have hsublist := List.eraseIdx_sublist v.affichees k
      exact ⟨hv.nodup, hv.dataset, hv.affichees.sublist (hsublist.map _),
        fun i hi => hv.comptable i (hsublist.subset hi)⟩

omit [Nombre N] in
theorem getDataJson_jsons (chargees : List (Chaine × Item)) (d : Chaine) :
    getDataJson (jsons fichier chargees) d = (get chargees d).map fun i => i.json (fichier d) :=
  get_map (fun d (i : Item) => i.json (fichier d)) chargees d

omit [Nombre N] in
theorem addDataJson_jsons (chargees : List (Chaine × Item)) (item : Item) :
    addDataJson (jsons fichier chargees) item.dataset (fichier item.dataset) item.joinner
      item.codeFormatterName item.valueKey = jsons fichier (put chargees item.dataset item) :=
  (map_put (fun d (i : Item) => i.json (fichier d)) chargees item.dataset item).symm

/-- The files loaded can be counted together exactly if each can be on its own. -/
theorem isSome_jsons_iff {chargees : List (Chaine × Item)} (hnodup : (keys chargees).Nodup)
    (hdataset : ∀ e ∈ chargees, e.2.dataset = e.1) :
    (getFormattedAllData (jsons fichier chargees)).isSome ↔
      (chargees.all fun e => e.2.comptable fichier) = true := by
  have hkeys : keys (jsons fichier chargees) = keys chargees := by
    rw [keys, jsons, List.map_map]
    rfl
  have hget : ∀ e ∈ chargees, getFormattedData (jsons fichier chargees) e.1 =
      getFormattedData (e.2.seul fichier) e.2.dataset := by
    intro e he
    rw [hdataset e he]
    refine getFormattedData_congr ?_
    have hstored : get chargees e.1 = some e.2 := (get_eq_some_iff hnodup _ _).mpr he
    have hseul : getDataJson (e.2.seul fichier) e.1 = some (e.2.json (fichier e.1)) := by
      rw [← hdataset e he]
      exact getDataJson_seul
    rw [hseul, getDataJson_jsons, hstored, Option.map_some]
  rw [isSome_getFormattedAllData_iff, hkeys, List.all_eq_true]
  constructor
  · intro h e he
    rw [Item.comptable, ← hget e he]
    exact h e.1 (List.mem_map_of_mem he)
  · intro h d hd
    obtain ⟨e, he, rfl⟩ := List.mem_map.mp hd
    rw [hget e he]
    exact h e he

variable (defaultData : List (Chaine × Valeur N))

theorem ecran_answer {v : Vue} (hv : v.Coherente fichier) (item : Item) :
    (v.ecran fichier defaultData).answer item (fichier item.dataset) =
      (v.answer fichier item).ecran fichier defaultData := by
  have hsome : (getFormattedAllData (jsons fichier (put v.chargees item.dataset item))).isSome ↔
      ((put v.chargees item.dataset item).all fun e => e.2.comptable fichier) = true :=
    isSome_jsons_iff (nodup_keys_put hv.nodup item.dataset item) (dataset_put hv.dataset item)
  have hjsons : addDataJson (v.ecran fichier defaultData).dataJsons item.dataset
      (fichier item.dataset) item.joinner item.codeFormatterName item.valueKey =
        jsons fichier (put v.chargees item.dataset item) := addDataJson_jsons _ _
  rw [Ecran.answer, hjsons, Vue.answer]
  rcases hdata : getFormattedAllData (jsons fichier (put v.chargees item.dataset item)) with _ | data
  · have hall : ¬ ((put v.chargees item.dataset item).all fun e => e.2.comptable fichier) := by
      rw [← hsome, hdata]
      exact Bool.false_ne_true
    rw [if_neg hall]
    rfl
  · have hall : (put v.chargees item.dataset item).all fun e => e.2.comptable fichier := by
      rw [← hsome, hdata]
      rfl
    have hitem := comptable_of_all hv.nodup hall
    have hjson : getDataJson (jsons fichier (put v.chargees item.dataset item)) item.dataset =
        some (item.json (fichier item.dataset)) := by
      rw [getDataJson_jsons, get_put_self, Option.map_some]
    rw [if_pos hall]
    refine (display_eq (p := { v.ecran fichier defaultData with
      dataJsons := jsons fichier (put v.chargees item.dataset item), map := some data })
      hitem hjson rfl rfl).trans ?_
    rw [Vue.ecran, Vue.ecran, Carte.data, hdata]

theorem ecran_remove {v : Vue} (hv : v.Coherente fichier) {k : ℕ} {item : Item}
    (hk : v.affichees[k]? = some item) :
    (v.ecran fichier defaultData).remove defaultData k ⟨item.dataset, item.text⟩ =
      Vue.ecran fichier defaultData
        { v with carte := .defaut, affichees := v.affichees.eraseIdx k } := by
  rw [Ecran.remove, Vue.ecran, Vue.ecran]
  dsimp only
  rw [filter_flatMap_charts hv.affichees hk, List.eraseIdx_map]
  rfl

/-- **A step** of the page is a step of the page without its data. -/
theorem ecran_step {v : Vue} (hv : v.Coherente fichier) (g : Geste) :
    (v.ecran fichier defaultData).step defaultData (g.evenement fichier v.awaited) =
      (v.step fichier g).ecran fichier defaultData := by
  cases g with
  | listItem item => rfl
  | answer k =>
    rcases hk : v.awaited[k]? with _ | item
    · have hawaited : (v.ecran fichier defaultData).awaited[k]? = none := hk
      simp only [Geste.evenement, Ecran.step, Vue.step, hawaited, hk]
    · have hawaited : (v.ecran fichier defaultData).awaited[k]? = some item := hk
      simp only [Geste.evenement, Ecran.step, Vue.step, hawaited, hk, Option.bind_some]
      have hrest : Vue.Coherente fichier { v with awaited := v.awaited.eraseIdx k } :=
        ⟨hv.nodup, hv.dataset, hv.affichees, hv.comptable⟩
      exact ecran_answer defaultData hrest item
  | tag k =>
    have htags : (v.ecran fichier defaultData).tags[k]? =
        v.affichees[k]?.map fun i => ⟨i.dataset, i.text⟩ := List.getElem?_map
    rcases hk : v.affichees[k]? with _ | item
    · rw [hk, Option.map_none] at htags
      simp only [Geste.evenement, Ecran.step, Vue.step, htags, hk]
    · rw [hk, Option.map_some] at htags
      simp only [Geste.evenement, Ecran.step, Vue.step, htags, hk]
      exact ecran_remove defaultData hv hk

end Files

theorem coherente_initial {fichier : Chaine → Records N} : Vue.initial.Coherente fichier where
  nodup := List.nodup_nil
  dataset _ he := absurd he List.not_mem_nil
  affichees := List.nodup_nil
  comptable _ hitem := absurd hitem List.not_mem_nil

theorem coherente_run {fichier : Chaine → Records N} (gestes : List Geste) :
    (Vue.run fichier gestes).Coherente fichier :=
  List.foldlRecOn gestes (Vue.step fichier) coherente_initial fun _ hv g _ => coherente_step hv g

/-- **A run** of the page is a run of the page without its data. -/
theorem ecran_foldl {fichier : Chaine → Records N} (defaultData : List (Chaine × Valeur N))
    {v : Vue} (hv : v.Coherente fichier) (gestes : List Geste) :
    gestes.foldl (fun p g => p.step defaultData (g.evenement fichier p.awaited))
        (v.ecran fichier defaultData) =
      (gestes.foldl (Vue.step fichier) v).ecran fichier defaultData := by
  induction gestes generalizing v with
  | nil => rfl
  | cons g gestes ih =>
    rw [List.foldl_cons, List.foldl_cons, ← ih (coherente_step hv g), ← ecran_step defaultData hv g]
    rfl

/-- **The page from its files.**  In every run whose answers bring the files of their datasets,
in whatever order, the page is what the items make of it, and every chart on it is drawn. -/
theorem page_of_files (fichier : Chaine → Records N) (defaultData : List (Chaine × Valeur N))
    (gestes : List Geste) :
    Ecran.runDe fichier defaultData gestes =
        (Vue.run fichier gestes).ecran fichier defaultData ∧
      ∀ c ∈ (Ecran.runDe fichier defaultData gestes).charts, c.chartData.isSome := by
  have hrun : Ecran.runDe fichier defaultData gestes =
      (Vue.run fichier gestes).ecran fichier defaultData :=
    ecran_foldl defaultData coherente_initial gestes
  refine ⟨hrun, fun c hc => ?_⟩
  rw [hrun] at hc
  obtain ⟨item, hitem, hc⟩ := List.mem_flatMap.mp hc
  obtain ⟨e, -, rfl⟩ := List.mem_map.mp hc
  exact isSome_chartData ((coherente_run gestes).comptable item hitem) _ _

end Events
end Page
end RondeDesFacs
