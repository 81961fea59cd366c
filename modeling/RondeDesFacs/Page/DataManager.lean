import RondeDesFacs.Base.Script
import RondeDesFacs.Library.Passes
import Mathlib.Data.Rat.Init

/-!
# The data of the map

`dataManager` keeps the datasets that have been loaded and counts their records: by
arrondissement for the map, by a field of the records for the charts.

The records come as JSON, of which the page looks at little.  Of the whole it asks
that it is an array, and of an element what `$(element)[0]['fields']` has under some
names (`Fields`); where there is no such thing the page throws an exception
(`none`).  All of the functions below look at all the records, so if the records can
be counted for the map they can be for the charts
(`isSome_getChartFormattedData`).
-/

namespace RondeDesFacs
namespace Page

open Association Passes Script

variable {N : Type} [Nombre N]

/-- A name under which an object has something from the start. -/
def Heritee (k : Chaine) : Prop := k = proto ∨ k = chaine "constructor" ∨ k ∈ heritees

instance (k : Chaine) : Decidable (Heritee k) :=
  inferInstanceAs (Decidable (k = proto ∨ k = chaine "constructor" ∨ k ∈ heritees))

/-- The fields of a record, by name. -/
abbrev Fields (N : Type) := Chaine → Valeur N

/-- The records of a dataset.  There are none if the data is no array; a record
without `fields` has none. -/
abbrev Records (N : Type) := Option (List (Option (Fields N)))

/-- A function that makes an arrondissement of a field. -/
inductive CodeFormatter where
  | codeReducer
  | adressReducer
  deriving DecidableEq

/-- `codeReducer`. -/
def codeReducer (key : Valeur N) : Chaine := chaine "751" ++ substring35 key.texte

/-- `adressReducer`.  Only a string can be split. -/
def adressReducer : Valeur N → Option Chaine
  | .string key =>
    match split (chaine " - ") key with
    | _ :: s :: _ =>
      some (chaine "751" ++ substring35 ((split (chaine " PARIS") s).headD []))
    | _ => none
  | _ => none

/-- A call of the formatter. -/
def CodeFormatter.apply : CodeFormatter → Valeur N → Option Chaine
  | .codeReducer, key => some (Page.codeReducer key)
  | .adressReducer, key => Page.adressReducer key

/-- The `codeFormatter` of a name.  Under a name that every object inherits there would be
another function; no item has such a name. -/
def codeFormatter (name : Option Chaine) : Option CodeFormatter :=
  if name = some (chaine "codeReducer") then some .codeReducer
  else if name = some (chaine "adressReducer") then some .adressReducer
  else none

theorem not_heritee_codeReducer : ∀ name ∈ some (chaine "codeReducer"), ¬ Heritee name := by
  intro name hname
  rw [← Option.some_inj.mp hname]
  decide

/-- What is kept of a dataset. -/
structure DataJson (N : Type) where
  data : Records N
  keyJoinner : Option Chaine
  codeFormatter : Option CodeFormatter
  valueKey : Option Chaine

/-- `dataJsons`. -/
abbrev DataJsons (N : Type) := List (Chaine × DataJson N)

/-- `addDataJson`. -/
def addDataJson (dataJsons : DataJsons N) (dataName : Chaine) (dataJson : Records N)
    (keyJoinner codeFormatterName valueKey : Option Chaine) : DataJsons N :=
  put dataJsons dataName ⟨dataJson, keyJoinner, codeFormatter codeFormatterName, valueKey⟩

/-- `getDataJson`. -/
def getDataJson (dataJsons : DataJsons N) (dataName : Chaine) : Option (DataJson N) :=
  get dataJsons dataName

/-! ## Counting -/

/-- An attribute, used as a name. -/
def nom (attribut : Option Chaine) : Chaine := attribut.getD (chaine "undefined")

/-- The value of a record: the field `valueKey`, or `1`. -/
def value (json : DataJson N) (fields : Fields N) : Valeur N :=
  if json.valueKey = none ∨ json.valueKey = some [] then .ofNat 1
  else fields (nom json.valueKey)

/-- `if (computedResult[key] == undefined) computedResult[key] = 0` and
`computedResult[key] += value`. -/
def compte (computedResult : Objet N) (key : Chaine) (value : Valeur N) : Objet N :=
  let o :=
    if (lire computedResult key).estVide then ecrire computedResult key (.ofNat 0)
    else computedResult
  ecrire o key ((lire o key).plus value)

/-- The codes a result starts with. -/
def codes : List Chaine :=
  [chaine "75101", chaine "75102", chaine "75105", chaine "75103", chaine "75104", chaine "75106",
    chaine "75107", chaine "75108", chaine "75109", chaine "75110", chaine "75111", chaine "75112",
    chaine "75115", chaine "75113", chaine "75114", chaine "75116", chaine "75117", chaine "75118",
    chaine "75119", chaine "75120"]

/-- The result before the first record. -/
def zeros : Objet N := codes.map fun code => (code, .ofNat 0)

/-- `key > 75120`, for a key that is `751` and at most two more units: the text is a
number if these are digits, or an exponent. -/
def depasse (key : Chaine) : Bool :=
  match key.drop 3 with
  | [a, b] =>
    (estChiffre a && estChiffre b && decide (20 < valeurIndice [a, b])) ||
      ((a == 0x65 || a == 0x45) && estChiffre b && decide (0x33 ≤ b))
  | _ => false

/-- A record, in `getFormattedData`. -/
def compteCode (json : DataJson N) (computedResult : Objet N) (element : Option (Fields N)) :
    Option (Objet N) := do
  let fields ← element
  let codeFormatter ← json.codeFormatter
  let key ← codeFormatter.apply (fields (nom json.keyJoinner))
  if depasse key then some computedResult
  else some (compte computedResult key (value json fields))

/-- `getFormattedData`: the codes and their values, or none if it throws. -/
def getFormattedData (dataJsons : DataJsons N) (dataName : Chaine) :
    Option (List (Chaine × Valeur N)) := do
  let json ← getDataJson dataJsons dataName
  let records ← json.data
  let computedResult ← records.foldlM (compteCode json) zeros
  some (ordre computedResult)

/-- What a dataset adds, in `getFormattedAllData`. -/
def cumule (result : Objet N) (currentData : List (Chaine × Valeur N)) : Objet N :=
  currentData.foldl (fun result val => ecrire result val.1 ((lire result val.1).plus val.2)) result

/-- `getFormattedAllData`. -/
def getFormattedAllData (dataJsons : DataJsons N) : Option (List (Chaine × Valeur N)) := do
  let result ← (ordre dataJsons).foldlM
    (fun result e => (getFormattedData dataJsons e.1).map (cumule result)) zeros
  some (ordre result)

/-- A record, in `getChartFormattedData`. -/
def compteChart (json : DataJson N) (groupBy : Chaine) (computedResult : Objet N)
    (element : Option (Fields N)) : Option (Objet N) :=
  element.map fun fields => compte computedResult (fields groupBy).texte (value json fields)

/-- `getChartFormattedData`. -/
def getChartFormattedData (dataJsons : DataJsons N) (dataName groupBy : Chaine) :
    Option (List (Chaine × Valeur N)) := do
  let json ← getDataJson dataJsons dataName
  let records ← json.data
  let computedResult ← records.foldlM (compteChart json groupBy) []
  some (ordre computedResult)

/-- A column of a chart: its value and the opacity of its green, `1-(alpha*index)` in
exact numbers. -/
structure Colonne (N : Type) where
  y : Valeur N
  opacite : ℚ

/-- What `getColumnChartFormattedData` returns. -/
structure ColumnData (N : Type) where
  categories : List Chaine
  data : List (Colonne N)

/-- A record, in `getColumnChartFormattedData`, which also counts the keys. -/
def compteColonne (json : DataJson N) (groupBy : Chaine) (s : Objet N × ℕ)
    (element : Option (Fields N)) : Option (Objet N × ℕ) :=
  element.map fun fields =>
    let key := (fields groupBy).texte
    (compte s.1 key (value json fields), if (lire s.1 key).estVide then s.2 + 1 else s.2)

/-- `getColumnChartFormattedData`. -/
def getColumnChartFormattedData (dataJsons : DataJsons N) (dataName groupBy : Chaine) :
    Option (ColumnData N) := do
  let json ← getDataJson dataJsons dataName
  let records ← json.data
  let (computedResult, index) ← records.foldlM (compteColonne json groupBy) ([], 0)
  let alpha : ℚ := 4 / 5 / index
  let visited := ordre computedResult
  some ⟨visited.map Prod.fst, visited.zipIdx.map fun e => ⟨e.1.2, 1 - alpha * e.2⟩⟩

/-! ## The records of a dataset -/

section Records

variable {dataJsons : DataJsons N} {dataName : Chaine} {json : DataJson N}
  {records : List (Option (Fields N))}

/-- What is given for a dataset depends on what is registered under its name only. -/
theorem getFormattedData_congr {dataJsons' : DataJsons N}
    (h : getDataJson dataJsons' dataName = getDataJson dataJsons dataName) :
    getFormattedData dataJsons' dataName = getFormattedData dataJsons dataName := by
  rw [getFormattedData, getFormattedData, h]

theorem getFormattedData_of_data (hjson : getDataJson dataJsons dataName = some json)
    (hdata : json.data = some records) :
    getFormattedData dataJsons dataName =
      (records.foldlM (compteCode json) zeros).map ordre := by
  rw [getFormattedData, hjson, Option.bind_eq_bind, Option.bind_some, hdata, Option.bind_eq_bind,
    Option.bind_some]
  rcases records.foldlM (compteCode json) zeros with _ | o <;> rfl

theorem getChartFormattedData_of_data (hjson : getDataJson dataJsons dataName = some json)
    (hdata : json.data = some records) (groupBy : Chaine) :
    getChartFormattedData dataJsons dataName groupBy =
      (records.foldlM (compteChart json groupBy) []).map ordre := by
  rw [getChartFormattedData, hjson, Option.bind_eq_bind, Option.bind_some, hdata,
    Option.bind_eq_bind, Option.bind_some]
  rcases records.foldlM (compteChart json groupBy) [] with _ | o <;> rfl

end Records

/-! ## Formatted data -/

/-- What `getFormattedData` gives for some datasets. -/
def formattedDatas (dataJsons : DataJsons N) (names : List Chaine) :
    Option (List (List (Chaine × Valeur N))) :=
  names.mapM (getFormattedData dataJsons)

/-- **What the map is given**: what the datasets give, added to zeros. -/
theorem getFormattedAllData_eq (dataJsons : DataJsons N) :
    getFormattedAllData dataJsons =
      (formattedDatas dataJsons (keys (ordre dataJsons))).map fun datas =>
        ordre (datas.foldl cumule zeros) := by
  have hnames : (ordre dataJsons).foldlM
      (fun result e => (getFormattedData dataJsons e.1).map (cumule result)) zeros =
      (keys (ordre dataJsons)).foldlM
        (fun result name => (getFormattedData dataJsons name).map (cumule result)) zeros := by
    rw [keys, List.foldlM_map]
  rw [getFormattedAllData, hnames, foldlM_map_eq, formattedDatas]
  rcases (keys (ordre dataJsons)).mapM _ with _ | datas <;> rfl

/-- If the map can be coloured, every dataset can be counted. -/
theorem exists_getFormattedData {dataJsons : DataJsons N} {data : List (Chaine × Valeur N)}
    (h : getFormattedAllData dataJsons = some data) {dataName : Chaine}
    (hname : dataName ∈ keys dataJsons) :
    ∃ res, getFormattedData dataJsons dataName = some res := by
  rw [getFormattedAllData_eq] at h
  obtain ⟨datas, hdatas, -⟩ := Option.map_eq_some_iff.mp h
  have hvisited : dataName ∈ keys (ordre dataJsons) :=
    (keys_ordre_perm dataJsons).mem_iff.mpr hname
  obtain ⟨res, -, hres⟩ := exists_of_mapM hdatas hvisited
  exact ⟨res, hres⟩

/-! ## What throws -/

/-- The records can be looked at, all of them. -/
def Lisible (records : Records N) : Prop := ∃ l, records = some l ∧ ∀ element ∈ l, element.isSome

theorem lisible_of_getFormattedData {dataJsons : DataJsons N} {dataName : Chaine}
    {res : List (Chaine × Valeur N)} (h : getFormattedData dataJsons dataName = some res) :
    ∃ json, getDataJson dataJsons dataName = some json ∧ Lisible json.data := by
  obtain ⟨json, hjson, h⟩ := Option.bind_eq_some_iff.mp h
  obtain ⟨records, hrecords, h⟩ := Option.bind_eq_some_iff.mp h
  obtain ⟨computedResult, hfold, -⟩ := Option.bind_eq_some_iff.mp h
  exact ⟨json, hjson, records, hrecords, forall_isSome_of_foldlM (fun _ => rfl) hfold⟩

theorem isSome_getChartFormattedData {dataJsons : DataJsons N} {dataName : Chaine}
    {json : DataJson N} (hjson : getDataJson dataJsons dataName = some json)
    (h : Lisible json.data) (groupBy : Chaine) :
    (getChartFormattedData dataJsons dataName groupBy).isSome := by
  obtain ⟨records, hrecords, hall⟩ := h
  have hfold := isSome_foldlM (f := compteChart json groupBy) (fun _ _ => rfl) hall []
  obtain ⟨computedResult, hfold⟩ := Option.isSome_iff_exists.mp hfold
  rw [getChartFormattedData_of_data hjson hrecords, hfold]
  rfl

theorem isSome_getColumnChartFormattedData {dataJsons : DataJsons N} {dataName : Chaine}
    {json : DataJson N} (hjson : getDataJson dataJsons dataName = some json)
    (h : Lisible json.data) (groupBy : Chaine) :
    (getColumnChartFormattedData dataJsons dataName groupBy).isSome := by
  obtain ⟨records, hrecords, hall⟩ := h
  have hfold := isSome_foldlM (f := compteColonne json groupBy) (fun _ _ => rfl) hall ([], 0)
  obtain ⟨computedResult, hfold⟩ := Option.isSome_iff_exists.mp hfold
  rw [getColumnChartFormattedData, hjson]
  simp [hrecords, hfold]

/-! ## Totals -/

theorem keys_zeros : keys (zeros : Objet N) = codes := by
  rw [keys, zeros, List.map_map]
  exact List.map_id _

theorem get_zeros {c : Chaine} (hc : c ∈ codes) : get (zeros : Objet N) c = some (.ofNat 0) :=
  get_map_of_mem hc fun _ : Chaine => (Valeur.ofNat 0 : Valeur N)

/-- An object that has every code, and no name twice. -/
structure Couvre (o : Objet N) : Prop where
  nodup : (keys o).Nodup
  subset : codes ⊆ keys o

theorem couvre_zeros : Couvre (zeros : Objet N) where
  nodup := by
    rw [keys_zeros]
    decide
  subset := by rw [keys_zeros]; exact List.Subset.refl _

omit [Nombre N] in
theorem Couvre.ecrire {o : Objet N} (h : Couvre o) (k : Chaine) (v : Valeur N) :
    Couvre (Script.ecrire o k v) :=
  ⟨nodup_keys_ecrire h.nodup k v, fun _ hc => keys_subset_ecrire o k v (h.subset hc)⟩

omit [Nombre N] in
theorem Couvre.ordre {o : Objet N} (h : Couvre o) : Couvre (Script.ordre o) := by
  have hperm := keys_ordre_perm o
  exact ⟨hperm.nodup_iff.mpr h.nodup, fun _ hc => hperm.mem_iff.mpr (h.subset hc)⟩

theorem Couvre.compte {o : Objet N} (h : Couvre o) (key : Chaine) (value : Valeur N) :
    Couvre (Page.compte o key value) := by
  unfold Page.compte
  split_ifs
  · exact (h.ecrire _ _).ecrire _ _
  · exact h.ecrire _ _

/-- **Every dataset that can be counted has a value for every code.** -/
theorem couvre_getFormattedData {dataJsons : DataJsons N} {dataName : Chaine}
    {res : List (Chaine × Valeur N)} (h : getFormattedData dataJsons dataName = some res) :
    Couvre res := by
  obtain ⟨json, hjson, h⟩ := Option.bind_eq_some_iff.mp h
  obtain ⟨records, hrecords, h⟩ := Option.bind_eq_some_iff.mp h
  obtain ⟨computedResult, hfold, h⟩ := Option.bind_eq_some_iff.mp h
  obtain rfl := Option.some_inj.mp h
  refine Couvre.ordre (foldlM_inv (I := Couvre) ?_ couvre_zeros hfold)
  intro o element o' ho ho'
  obtain ⟨fields, -, ho'⟩ := Option.bind_eq_some_iff.mp ho'
  obtain ⟨formatter, -, ho'⟩ := Option.bind_eq_some_iff.mp ho'
  obtain ⟨key, -, ho'⟩ := Option.bind_eq_some_iff.mp ho'
  split_ifs at ho'
  · exact Option.some_inj.mp ho' ▸ ho
  · exact Option.some_inj.mp ho' ▸ ho.compte _ _

theorem Couvre.cumule {o : Objet N} (h : Couvre o) (data : List (Chaine × Valeur N)) :
    Couvre (Page.cumule o data) := by
  induction data generalizing o with
  | nil => exact h
  | cons e data ih => exact ih (h.ecrire _ _)

theorem Couvre.foldl_cumule {o : Objet N} (h : Couvre o)
    (datas : List (List (Chaine × Valeur N))) : Couvre (datas.foldl Page.cumule o) := by
  induction datas generalizing o with
  | nil => exact h
  | cons data datas ih => exact ih (h.cumule data)

theorem get_cumule_of_notMem {c : Chaine} {data : List (Chaine × Valeur N)}
    (hc : c ∉ keys data) (o : Objet N) : get (cumule o data) c = get o c := by
  induction data generalizing o with
  | nil => rfl
  | cons e data ih =>
    rw [keys, List.map_cons, List.mem_cons, not_or] at hc
    rw [cumule, List.foldl_cons]
    exact (ih hc.2 _).trans (get_ecrire_of_ne hc.1 _)

/-- What a dataset adds under a name. -/
theorem get_cumule {c : Chaine} (hproto : c ≠ proto) {o : Objet N} {v w : Valeur N}
    (hv : get o c = some v) {data : List (Chaine × Valeur N)} (hdata : (keys data).Nodup)
    (hw : get data c = some w) : get (cumule o data) c = some (v.plus w) := by
  induction data generalizing o with
  | nil => exact absurd hw (by simp)
  | cons e data ih =>
    rw [keys, List.map_cons, List.nodup_cons] at hdata
    rw [get_cons] at hw
    rw [cumule, List.foldl_cons]
    split_ifs at hw with he
    · subst he
      obtain rfl : e.2 = w := Option.some_inj.mp hw
      refine (get_cumule_of_notMem hdata.1 _).trans ?_
      rw [get_ecrire_self hproto, lire, hv, Option.getD_some]
    · exact ih (by rw [get_ecrire_of_ne (Ne.symm he), hv]) hdata.2 hw

/-- The sum of what some datasets have for a code. -/
def somme (c : Chaine) (datas : List (List (Chaine × Valeur N))) : Valeur N :=
  datas.foldl (fun sum data => sum.plus ((get data c).getD .undefined)) (.ofNat 0)

theorem get_foldl_cumule {c : Chaine} (hc : c ∈ codes) {datas : List (List (Chaine × Valeur N))}
    (hdatas : ∀ data ∈ datas, Couvre data) {o : Objet N} {v : Valeur N} (hv : get o c = some v) :
    get (datas.foldl cumule o) c =
      some (datas.foldl (fun sum data => sum.plus ((get data c).getD .undefined)) v) := by
  have hproto : c ≠ proto := by
    rintro rfl
    exact absurd hc (by decide)
  induction datas generalizing o v with
  | nil => exact hv
  | cons data datas ih =>
    obtain ⟨hdata, hrest⟩ := List.forall_mem_cons.mp hdatas
    obtain ⟨w, hw⟩ := mem_keys_iff.mp (hdata.subset hc)
    rw [List.foldl_cons, List.foldl_cons, hw]
    exact ih hrest (get_cumule hproto hv hdata.nodup hw)

/-- **The map is given the totals.** -/
theorem get_getFormattedAllData {dataJsons : DataJsons N} {data : List (Chaine × Valeur N)}
    (h : getFormattedAllData dataJsons = some data) :
    ∃ datas, formattedDatas dataJsons (keys (ordre dataJsons)) = some datas ∧
      ∀ c ∈ codes, get data c = some (somme c datas) := by
  rw [getFormattedAllData_eq] at h
  obtain ⟨datas, hdatas, rfl⟩ := Option.map_eq_some_iff.mp h
  have hcouvre : ∀ data ∈ datas, Couvre data :=
    forall_of_mapM (fun _ _ => couvre_getFormattedData) hdatas
  have hfold : Couvre (datas.foldl cumule (zeros : Objet N)) :=
    couvre_zeros.foldl_cumule datas
  refine ⟨datas, hdatas, fun c hc => ?_⟩
  rw [get_ordre hfold.nodup, get_foldl_cumule hc hcouvre (get_zeros hc), somme]

end Page
end RondeDesFacs
