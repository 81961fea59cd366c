import RondeDesFacs.Page.DataManager

/-!
# The events of the map page

A click on an item of the list loads a dataset.  When the answer comes, the page
keeps the data, colours the map with all it has kept, and, unless there are elements
of the dataset's class already, makes a chart for every group-by field of the item
and a tag for the dataset.  A click on a tag removes the charts of its dataset and
the tag, and the map goes back to its default.

Answers come in any order and any number of them may be awaited, several of one
dataset and from different items too.  An exception ends the handler where it is;
what it has done stays.

Names of datasets are class names that nothing else on the page has, and not `__proto__`;
names of formatters are none that every object inherits.  The header of the list, the
template of the tags and the frames that show a map are left out.
-/

namespace RondeDesFacs
namespace Page
namespace Events

open Association Script

variable {N : Type} [Nombre N]

/-- An item of the list: the attributes its handler reads, and its text.  A dataset called
`__proto__` would not be kept but set the prototype of `dataJsons`. -/
structure Item where
  dataset : Chaine
  joinner : Option Chaine
  codeFormatterName : Option Chaine
  valueKey : Option Chaine
  groupBy : Option Chaine
  chartType : Option Chaine
  serieName : Option Chaine
  text : Chaine
  ordinaire : dataset ≠ proto
  formatter : ∀ name ∈ codeFormatterName, ¬ Heritee name
  deriving DecidableEq

/-- What a chart is drawn from. -/
inductive ChartData (N : Type) where
  | column (data : ColumnData N)
  | mono (data : List (Chaine × Valeur N)) (chartType : Option Chaine)

/-- A chart: the item and the group-by field it was made for, and what was drawn in
it, unless the drawing threw. -/
structure Chart (N : Type) where
  item : Item
  index : ℕ
  chartData : Option (ChartData N)
  serieName : Option Chaine

/-- The class of a chart. -/
def Chart.classe (c : Chart N) : Chaine := c.item.dataset

/-- The `id` of a chart's container. -/
def Chart.container (c : Chart N) : Chaine := c.item.dataset ++ decimal c.index

/-- A tag. -/
structure Tag where
  dataset : Chaine
  tagText : Chaine
  deriving DecidableEq

/-- The page: what the data manager keeps, what was last given to `setData`, the
charts and tags displayed, and the items whose answers are awaited. -/
structure Ecran (N : Type) where
  dataJsons : DataJsons N
  map : Option (List (Chaine × Valeur N))
  charts : List (Chart N)
  tags : List Tag
  awaited : List Item

/-- The page when it has been loaded. -/
def Ecran.initial : Ecran N := ⟨[], none, [], [], []⟩

/-- What happens to the page. -/
inductive Evenement (N : Type) where
  | listItem (item : Item)
  /-- The answer to the `k`-th item awaited comes. -/
  | answer (k : ℕ) (geojson : Records N)
  /-- The `k`-th tag is clicked. -/
  | tag (k : ℕ)

/-! ## The handlers -/

/-- The data of the chart of a group-by field. -/
def chartData (dataJsons : DataJsons N) (dataset element : Chaine) (chartType : Option Chaine) :
    Option (ChartData N) :=
  if chartType = some (chaine "column") then
    (getColumnChartFormattedData dataJsons dataset element).map .column
  else
    (getChartFormattedData dataJsons dataset element).map fun data => .mono data chartType

/-- The `$.each` over the group-by fields from the `index`-th on: the charts made, and
whether it ends without an exception. -/
def createCharts (dataJsons : DataJsons N) (item : Item)
    (chartTypeArray serieNameArray : List Chaine) : ℕ → List Chaine → List (Chart N) × Bool
  | _, [] => ([], true)
  | index, element :: elements =>
    let data := chartData dataJsons item.dataset element chartTypeArray[index]?
    let newChart : Chart N := ⟨item, index, data, serieNameArray[index]?⟩
    if data.isNone then ([newChart], false)
    else
      let (charts, returned) :=
        createCharts dataJsons item chartTypeArray serieNameArray (index + 1) elements
      (newChart :: charts, returned)

/-- The rest of the handler of an answer, once the map is coloured. -/
def Ecran.display (p : Ecran N) (item : Item) : Ecran N :=
  match item.groupBy, item.chartType, item.serieName with
  | some groupBy, some chartType, some serieName =>
    if p.charts.any fun c => c.classe = item.dataset then p
    else
      let (charts, returned) :=
        createCharts p.dataJsons item (split (chaine ";") chartType)
          (split (chaine ";") serieName) 0 (split (chaine ";") groupBy)
      { p with charts := p.charts ++ charts,
               tags := if returned then p.tags ++ [⟨item.dataset, item.text⟩] else p.tags }
  | _, _, _ => p

/-- The handler of an answer. -/
def Ecran.answer (p : Ecran N) (item : Item) (geojson : Records N) : Ecran N :=
  let dataJsons := addDataJson p.dataJsons item.dataset geojson item.joinner
    item.codeFormatterName item.valueKey
  match getFormattedAllData dataJsons with
  | none => { p with dataJsons := dataJsons }
  | some data => Ecran.display { p with dataJsons := dataJsons, map := some data } item

/-- The handler of a click on a tag. -/
def Ecran.remove (defaultData : List (Chaine × Valeur N)) (p : Ecran N) (k : ℕ) (t : Tag) :
    Ecran N :=
  { p with charts := p.charts.filter fun c => c.classe ≠ t.dataset,
           tags := p.tags.eraseIdx k,
           map := some defaultData }

/-- What happens to the page. -/
def Ecran.step (defaultData : List (Chaine × Valeur N)) (p : Ecran N) : Evenement N → Ecran N
  | .listItem item => { p with awaited := p.awaited ++ [item] }
  | .answer k geojson =>
    match p.awaited[k]? with
    | none => p
    | some item => Ecran.answer { p with awaited := p.awaited.eraseIdx k } item geojson
  | .tag k =>
    match p.tags[k]? with
    | none => p
    | some t => p.remove defaultData k t

/-- A run. -/
def Ecran.run (defaultData : List (Chaine × Valeur N)) (p : Ecran N) (evs : List (Evenement N)) :
    Ecran N :=
  evs.foldl (Ecran.step defaultData) p

end Events
end Page
end RondeDesFacs
