import RondeDesFacs.Page.Tags

/-!
# The map and the tags

The map should show the datasets that have a tag.  An answer colours it with all the
datasets ever kept, and nothing ever takes one out again; the removal of a tag puts
the default on the map, whatever tags remain.

So the map shows the selection as long as the two do not come apart (`Suit`): a tag is
removed only when it is the only one, and an answer comes only while all other
datasets kept have their tags.
-/

namespace RondeDesFacs
namespace Page
namespace Events

open Association Script

variable {N : Type}

/-- Whether a dataset has a tag. -/
def Ecran.tagged (p : Ecran N) (d : Chaine) : Bool := p.tags.any fun t => t.dataset = d

/-- The datasets that have a tag, in the order in which they are visited. -/
def Ecran.selected (p : Ecran N) : List Chaine :=
  keys (ordre (p.dataJsons.filter fun e => p.tagged e.1))

variable [Nombre N]

/-- The map shows the datasets that have a tag: their data is kept, and what was last
given to `setData` has for every code the sum of what `getFormattedData` gives for
it. -/
def ShowsSelected (p : Ecran N) : Prop :=
  p.tags ≠ [] → p.tags.map Tag.dataset ⊆ keys p.dataJsons ∧
    ∃ data datas, p.map = some data ∧ formattedDatas p.dataJsons p.selected = some datas ∧
      ∀ c ∈ codes, get data c = some (somme c datas)

/-- What is kept when the answer to an item comes. -/
def Ecran.kept (p : Ecran N) (item : Item) (geojson : Records N) : DataJsons N :=
  addDataJson p.dataJsons item.dataset geojson item.joinner item.codeFormatterName item.valueKey

/-- An answer leaves the map and the tags together.  If the map can be coloured with it,
all other datasets kept have a tag, and its own has one or gets one; or there are no
tags at all, and no charts are made.  If it cannot, the dataset has no tag. -/
def AnswerSuit (p : Ecran N) (item : Item) (geojson : Records N) : Prop :=
  if (getFormattedAllData (p.kept item geojson)).isSome then
    (∀ d ∈ keys p.dataJsons, d ≠ item.dataset → p.tagged d) ∧
        (p.tagged item.dataset ∨ item.Complete) ∨
      p.tags = [] ∧ ¬ item.Complete
  else ¬ p.tagged item.dataset

/-- An event leaves the map and the tags together.  A tag that is removed is the only
one. -/
def Suit (p : Ecran N) : Evenement N → Prop
  | .listItem _ => True
  | .answer k geojson => ∀ item ∈ p.awaited[k]?, AnswerSuit p item geojson
  | .tag _ => p.tags.length ≤ 1

/-- Every event of a run leaves the map and the tags together. -/
def RunSuit (defaultData : List (Chaine × Valeur N)) : Ecran N → List (Evenement N) → Prop
  | _, [] => True
  | p, ev :: evs => Suit p ev ∧ RunSuit defaultData (p.step defaultData ev) evs

/-! ## What is shown -/

omit [Nombre N] in
theorem tagged_iff {p : Ecran N} {d : Chaine} : p.tagged d ↔ d ∈ p.tags.map Tag.dataset := by
  simp [Ecran.tagged]

theorem ShowsSelected.subset {p : Ecran N} (h : ShowsSelected p) :
    p.tags.map Tag.dataset ⊆ keys p.dataJsons := by
  by_cases htags : p.tags = []
  · rw [htags]
    exact List.nil_subset _
  · exact (h htags).1

/-- The map has just been coloured, and all datasets have a tag. -/
theorem showsSelected_of_all {p : Ecran N} {data : List (Chaine × Valeur N)}
    (hdata : getFormattedAllData p.dataJsons = some data) (hmap : p.map = some data)
    (hsubset : p.tags.map Tag.dataset ⊆ keys p.dataJsons)
    (hall : ∀ d ∈ keys p.dataJsons, p.tagged d) : ShowsSelected p := by
  intro _
  obtain ⟨datas, hdatas, htotal⟩ := get_getFormattedAllData hdata
  have hselected : p.selected = keys (ordre p.dataJsons) := by
    rw [Ecran.selected, List.filter_eq_self.mpr]
    exact fun e he => hall e.1 (List.mem_map_of_mem he)
  exact ⟨hsubset, data, datas, hmap, hselected ▸ hdatas, htotal⟩

theorem formattedDatas_congr {dataJsons dataJsons' : DataJsons N} {names : List Chaine}
    (h : ∀ name ∈ names, getDataJson dataJsons' name = getDataJson dataJsons name) :
    formattedDatas dataJsons' names = formattedDatas dataJsons names := by
  induction names with
  | nil => rfl
  | cons name names ih =>
    obtain ⟨hname, hrest⟩ := List.forall_mem_cons.mp h
    have hdata : getFormattedData dataJsons' name = getFormattedData dataJsons name := by
      rw [getFormattedData, hname, getFormattedData]
    have htail : names.mapM (getFormattedData dataJsons') =
        names.mapM (getFormattedData dataJsons) := ih hrest
    rw [formattedDatas, formattedDatas, List.mapM_cons, List.mapM_cons, hdata, htail]

/-- A dataset without a tag has been kept, and the map left as it was. -/
theorem showsSelected_kept {p : Ecran N} (hp : ShowsSelected p) {item : Item}
    (hitem : p.tagged item.dataset = false) (geojson : Records N) :
    ShowsSelected { p with dataJsons := p.kept item geojson } := by
  intro htags
  obtain ⟨hsubset, data, datas, hmap, hdatas, htotal⟩ := hp htags
  have hselected : Ecran.selected { p with dataJsons := p.kept item geojson } = p.selected :=
    congrArg (fun l => keys (ordre l)) (filter_put_of_not (p := p.tagged) hitem p.dataJsons _)
  have hsame : ∀ name ∈ p.selected,
      getDataJson (p.kept item geojson) name = getDataJson p.dataJsons name := by
    intro name hname
    have hvisited := (keys_ordre_perm _).mem_iff.mp hname
    obtain ⟨e, he, rfl⟩ := List.mem_map.mp hvisited
    refine get_put_of_ne (fun heq => ?_) _ _
    have htagged := (List.mem_filter.mp he).2
    rw [heq, hitem] at htagged
    cases htagged
  refine ⟨fun d hd => mem_keys_put.mpr (Or.inr (hsubset hd)), data, datas, hmap, ?_, htotal⟩
  rw [hselected]
  exact (formattedDatas_congr hsame).trans hdatas

/-! ## Events -/

/-- Only the dataset of the item can get a tag. -/
theorem tags_display {p : Ecran N} {item : Item} {json : DataJson N}
    (hjson : getDataJson p.dataJsons item.dataset = some json) (h : Lisible json.data) :
    ∀ d ∈ (p.display item).tags.map Tag.dataset,
      d = item.dataset ∨ d ∈ p.tags.map Tag.dataset := by
  intro d hd
  rcases display_cases hjson h with ⟨hsame, -⟩ | ⟨-, -, charts, -, hnew⟩
  · exact Or.inr (hsame ▸ hd)
  · rw [hnew, List.map_append, List.mem_append] at hd
    exact hd.symm.imp List.mem_singleton.mp id

/-- All that is kept has a tag once an answer has been displayed; or there is no tag. -/
theorem tagged_display {p : Ecran N} (hp : Accord p) {item : Item} {json : DataJson N}
    (hjson : getDataJson p.dataJsons item.dataset = some json) (h : Lisible json.data)
    (hothers : ∀ d ∈ keys p.dataJsons, d ≠ item.dataset → p.tagged d)
    (hitem : p.tagged item.dataset ∨ item.Complete) :
    (p.display item).dataJsons = p.dataJsons ∧ (p.display item).map = p.map ∧
      ∀ d ∈ keys p.dataJsons, (p.display item).tagged d := by
  rcases display_cases hjson h with ⟨hsame, hcharts⟩ | ⟨-, -, charts, -, hnew⟩
  · rw [hsame]
    refine ⟨rfl, rfl, fun d hd => ?_⟩
    by_cases heq : d = item.dataset
    · subst heq
      exact hitem.elim id fun hcomplete =>
        tagged_iff.mpr ((hp.mem_tags_iff _).mpr (hcharts hcomplete))
    · exact hothers d hd heq
  · rw [hnew]
    refine ⟨rfl, rfl, fun d hd => tagged_iff.mpr ?_⟩
    show d ∈ (p.tags ++ [Tag.mk item.dataset item.text]).map Tag.dataset
    rw [List.map_append, List.mem_append]
    by_cases heq : d = item.dataset
    · exact Or.inr (List.mem_singleton.mpr heq)
    · exact Or.inl (tagged_iff.mp (hothers d hd heq))

theorem showsSelected_answer {p : Ecran N} (haccord : Accord p) (hp : ShowsSelected p)
    {item : Item} {geojson : Records N} (hsuit : AnswerSuit p item geojson) :
    ShowsSelected (p.answer item geojson) := by
  unfold AnswerSuit at hsuit
  rcases hdata : getFormattedAllData (p.kept item geojson) with _ | data
  · rw [hdata, if_neg (by simp)] at hsuit
    have hanswer : p.answer item geojson = { p with dataJsons := p.kept item geojson } := by
      rw [Ecran.answer, ← Ecran.kept, hdata]
    rw [hanswer]
    exact showsSelected_kept hp (by simpa using hsuit) geojson
  · rw [hdata, if_pos Option.isSome_some] at hsuit
    have hanswer : p.answer item geojson =
        Ecran.display { p with dataJsons := p.kept item geojson, map := some data } item := by
      rw [Ecran.answer, ← Ecran.kept, hdata]
    obtain ⟨res, hres⟩ := exists_getFormattedData hdata (mem_keys_put.mpr (Or.inl rfl))
    obtain ⟨json, hjson, hlisible⟩ := lisible_of_getFormattedData hres
    have hcoloured : Accord { p with dataJsons := p.kept item geojson, map := some data } :=
      haccord.congr rfl rfl
    rw [hanswer]
    rcases hsuit with ⟨hothers, hitem⟩ | ⟨hnone, hincomplete⟩
    · have hkept : ∀ d ∈ keys (p.kept item geojson), d ≠ item.dataset → p.tagged d :=
        fun d hd hne => hothers d ((mem_keys_put.mp hd).resolve_left hne) hne
      obtain ⟨hjsons, hmap, htagged⟩ :=
        tagged_display hcoloured hjson hlisible hkept hitem
      refine showsSelected_of_all (hjsons ▸ hdata) hmap (fun d hd => ?_) (hjsons ▸ htagged)
      rw [hjsons]
      refine mem_keys_put.mpr ((tags_display hjson hlisible d hd).imp id fun hold => ?_)
      exact hp.subset hold
    · -- no tag before, and none after
      rcases display_cases (p := { p with dataJsons := p.kept item geojson, map := some data })
        hjson hlisible with ⟨hsame, -⟩ | ⟨hcomplete, -⟩
      · rw [hsame]
        exact fun htags => absurd hnone htags
      · exact absurd hcomplete hincomplete

theorem showsSelected_step (defaultData : List (Chaine × Valeur N)) {p : Ecran N}
    (haccord : Accord p) (hp : ShowsSelected p) {ev : Evenement N} (hsuit : Suit p ev) :
    ShowsSelected (p.step defaultData ev) := by
  cases ev with
  | listItem item => exact hp
  | answer k geojson =>
    rw [Ecran.step]
    rcases hk : p.awaited[k]? with _ | item
    · exact hp
    · have hrest : Accord { p with awaited := p.awaited.eraseIdx k } := haccord.congr rfl rfl
      exact showsSelected_answer hrest (show ShowsSelected _ from hp) (hsuit item hk)
  | tag k =>
    rw [Ecran.step]
    rcases hk : p.tags[k]? with _ | t
    · exact hp
    · obtain ⟨hlt, -⟩ := List.getElem?_eq_some_iff.mp hk
      have hone : p.tags.length = 1 := by
        have hle : p.tags.length ≤ 1 := hsuit
        omega
      intro htags
      refine absurd (List.length_eq_zero_iff.mp ?_) htags
      show (p.tags.eraseIdx k).length = 0
      rw [List.length_eraseIdx_of_lt hlt, hone]

/-- **The map shows the selected datasets** after every run whose events leave the map
and the tags together. -/
theorem map_selected (defaultData : List (Chaine × Valeur N)) (evs : List (Evenement N))
    (h : RunSuit defaultData Ecran.initial evs) :
    ShowsSelected (Ecran.initial.run defaultData evs) := by
  have hrun : ∀ p : Ecran N, Accord p → ShowsSelected p → RunSuit defaultData p evs →
      ShowsSelected (p.run defaultData evs) := by
    clear h
    induction evs with
    | nil => exact fun p _ hp _ => hp
    | cons ev evs ih =>
      intro p haccord hp hsuit
      exact ih _ (accord_step defaultData haccord ev)
        (showsSelected_step defaultData haccord hp hsuit.1) hsuit.2
  exact hrun _ accord_initial (fun htags => absurd rfl htags) h

/-! ## Two datasets -/

/-- An item of the list, with the attributes of those of the page. -/
def itemDe (dataset : Chaine) (h : dataset ≠ proto) : Item where
  dataset := dataset
  joinner := some (chaine "arrond")
  codeFormatterName := some (chaine "codeReducer")
  valueKey := some []
  groupBy := some (chaine "arrond")
  chartType := some (chaine "pie")
  serieName := some (chaine "Distributeur")
  text := dataset
  ordinaire := h
  formatter := not_heritee_codeReducer

/-- An item. -/
def itemA : Item := itemDe (chaine "a") (by decide)

/-- Another. -/
def itemB : Item := itemDe (chaine "b") (by decide)

/-- One record, of the first arrondissement. -/
def premier : Records (Option ℤ) := some [some fun _ => .string (chaine "75001")]

/-- Two datasets are displayed, and the second one is removed. -/
def deuxPuisUn : List (Evenement (Option ℤ)) :=
  [.listItem itemA, .listItem itemB, .answer 0 premier, .answer 0 premier, .tag 1]

/-- The first one is still displayed, and the map shows the default. -/
theorem map_selected_deuxPuisUn :
    ¬ ShowsSelected ((Ecran.initial : Ecran (Option ℤ)).run zeros deuxPuisUn) := by
  intro h
  obtain ⟨-, data, datas, hmap, hdatas, htotal⟩ := h (by decide +kernel)
  have hdefault : some zeros = some data := hmap
  have hone : (formattedDatas ((Ecran.initial : Ecran (Option ℤ)).run zeros deuxPuisUn).dataJsons
      ((Ecran.initial : Ecran (Option ℤ)).run zeros deuxPuisUn).selected).map
        (somme (chaine "75101")) = some (.number (some 1)) := by
    decide +kernel
  rw [hdatas, Option.map_some, Option.some_inj] at hone
  have hzero := htotal (chaine "75101") (by decide)
  rw [hone, ← Option.some_inj.mp hdefault] at hzero
  revert hzero
  decide

/-- Two datasets, displayed. -/
def deux : List (Evenement (Option ℤ)) :=
  [.listItem itemA, .listItem itemB, .answer 0 premier, .answer 0 premier]

theorem runSuit_deux : RunSuit zeros (Ecran.initial : Ecran (Option ℤ)) deux := by
  refine ⟨trivial, trivial, fun item hitem => ?_, fun item hitem => ?_, trivial⟩
  · obtain rfl : itemA = item := Option.some_inj.mp hitem
    unfold AnswerSuit
    rw [if_pos (by decide +kernel)]
    exact Or.inl ⟨fun d hd => absurd hd List.not_mem_nil, Or.inr (by decide)⟩
  · obtain rfl : itemB = item := Option.some_inj.mp hitem
    unfold AnswerSuit
    rw [if_pos (by decide +kernel)]
    exact Or.inl ⟨by decide +kernel, Or.inr (by decide)⟩

theorem map_selected_deux :
    ShowsSelected ((Ecran.initial : Ecran (Option ℤ)).run zeros deux) :=
  map_selected zeros deux runSuit_deux

end Events
end Page
end RondeDesFacs
