import RondeDesFacs.Base.Text
import RondeDesFacs.Library.Copies
import RondeDesFacs.Library.Passes
import Mathlib.Data.List.Perm.Subperm

/-!
# A chart that follows another

With `add-to-update`, the points of a chart with several series are given a `mouseOver`, and
the pie beside it is to show how the values of the series are divided at the category under
the mouse.  `_updateAttachedChart` looks up the point of each series in the pie by its name,
writes the value into the *options* of that point, and gives the list of these options to
`setData`.

The options are objects, and `setData` treats them in two ways.  If the pie has as many points
as it is given, each point is updated in its turn: it takes what is in the options it is given,
and *copies it into its own*.  Otherwise new points are made, and they keep the options they
are given.  So if there are as many series as points, but in another order, a point may be
given options that have been overwritten just before; a name then disappears from the pie, and
with it the series is never found again (`exists_notMem_noms`, `notMem_noms_apres`).

A category that a series does not have makes the lookup fail in the middle.  Values have been
written by then, but none is shown.

The values are not negative; of others a new pie makes nulls.
-/

namespace RondeDesFacs
namespace Page
namespace AttachedChart

open Copies Passes

variable {C V : Type}

/-! ## The charts -/

/-- A series of the chart the mouse is over, with its categories and values. -/
structure Serie (C V : Type) where
  name : Text
  data : List (C × V)

/-- The options of a point. -/
structure Options (V : Type) where
  name : Text
  y : V
  deriving Inhabited

/-- A point of the pie: where its options are, and what it shows. -/
structure Point (V : Type) where
  options : ℕ
  name : Text
  y : V

/-- The pie, and what is in the objects. -/
structure Chart (V : Type) where
  objets : ℕ → Options V
  points : List (Point V)

/-- What the pie shows. -/
def Chart.affiche (chart : Chart V) : List (Options V) := chart.points.map fun p => ⟨p.name, p.y⟩

/-- The names in it. -/
def Chart.noms (chart : Chart V) : List Text := chart.points.map (·.name)

/-- The pie as it is loaded, each point with options of its own. -/
def Chart.charge [Inhabited V] (data : List (Options V)) : Chart V where
  objets i := data.getD i default
  points := data.zipIdx.map fun r => ⟨r.2, r.1.name, r.1.y⟩

/-- `chartToUpdate.series[0].data.filter(function (s) { return s.name == serie.name; })[0]`. -/
def pointDe (points : List (Point V)) (name : Text) : Option (Point V) :=
  points.find? fun p => p.name = name

section Script

variable [DecidableEq C]

/-- `serie.data.filter(function (d) { return d.category == xAxisValue; })[0].y`. -/
def Serie.valeur (s : Serie C V) (x : C) : Option V := (s.data.find? fun d => d.1 = x).map (·.2)

/-- The loop over the series: the objects after it, and the new data, unless it fails. -/
def newSerieData (points : List (Point V)) (x : C) :
    List (Serie C V) → (ℕ → Options V) → (ℕ → Options V) × Option (List ℕ)
  | [], h => (h, some [])
  | serie :: series, h =>
    match pointDe points serie.name with
    | none => (h, none)
    | some p =>
      match serie.valeur x with
      | none => (h, none)
      | some y =>
        let r := newSerieData points x series
          (Function.update h p.options { h p.options with y := y })
        (r.1, r.2.map (p.options :: ·))

/-- `setData`. -/
def Chart.setData (chart : Chart V) (data : List ℕ) : Chart V :=
  if data ≠ [] ∧ chart.points.length = data.length then
    let r := copie (chart.points.map (·.options)) data chart.objets
    ⟨r.1, chart.points.zipWith (fun p o => ⟨p.options, o.name, o.y⟩) r.2⟩
  else
    ⟨chart.objets, data.map fun i => ⟨i, (chart.objets i).name, (chart.objets i).y⟩⟩

/-- `_updateAttachedChart`, of a chart with these series. -/
def Chart.updateAttached (series : List (Serie C V)) (chart : Chart V) (x : C) : Chart V :=
  let r := newSerieData chart.points x series chart.objets
  match r.2 with
  | none => { chart with objets := r.1 }
  | some data => Chart.setData { chart with objets := r.1 } data

/-- The pie after the mouse has been over some categories. -/
def Chart.apres (series : List (Serie C V)) (chart : Chart V) (run : List C) : Chart V :=
  run.foldl (Chart.updateAttached series) chart

/-- How the values of the series are divided at a category, if they all have it. -/
def repartition (series : List (Serie C V)) (x : C) : Option (List (Options V)) :=
  series.mapM fun s => (s.valeur x).map fun y => ⟨s.name, y⟩

end Script

/-! ## Looking up -/

section Lookup

variable {series : List (Serie C V)} {points : List (Point V)} {data : List ℕ} {chart : Chart V}

/-- The point of a name. -/
theorem of_pointDe {name : Text} {p : Point V}
    (h : pointDe points name = some p) : p ∈ points ∧ p.name = name := by
  have hname := List.find?_some h
  exact ⟨List.mem_of_find?_eq_some h, of_decide_eq_true hname⟩

theorem pointDe_eq_none {name : Text} :
    pointDe points name = none ↔ name ∉ points.map (·.name) := by
  rw [pointDe, List.find?_eq_none]
  simp only [decide_eq_true_eq, List.mem_map, not_exists, not_and]

/-- Where the options of the point of a series are. -/
def Trouve (points : List (Point V)) (s : Serie C V) (i : ℕ) : Prop :=
  ∃ p, pointDe points s.name = some p ∧ p.options = i

theorem mem_of_trouve (hfound : List.Forall₂ (Trouve points) series data) :
    data ⊆ points.map (·.options) := by
  induction hfound with
  | nil => exact List.nil_subset _
  | cons hs _ ih =>
    obtain ⟨p, hp, rfl⟩ := hs
    exact List.cons_subset.mpr ⟨List.mem_map_of_mem (of_pointDe hp).1, ih⟩

/-- As many as there are points, and no two the same: these are all of them. -/
theorem perm_of_trouve (hfound : List.Forall₂ (Trouve points) series data) (hnodup : data.Nodup)
    (hlength : points.length = data.length) : data.Perm (points.map (·.options)) := by
  refine (hnodup.subperm (mem_of_trouve hfound)).perm_of_length_le ?_
  rw [List.length_map, hlength]

/-- Where everything is found, in the order of the series. -/
theorem eq_map_of_trouve (hfound : List.Forall₂ (Trouve points) series data)
    (hnodup : (points.map (·.name)).Nodup)
    (hnoms : points.map (·.name) = series.map (·.name)) : data = points.map (·.options) := by
  have hpart : ∀ ps : List (Point V), ps ⊆ points → ps.map (·.name) = series.map (·.name) →
      data = ps.map (·.options) := by
    clear hnoms
    induction hfound with
    | nil =>
      intro ps _ hps
      rw [List.map_eq_nil_iff.mp hps]
      rfl
    | cons hs _ ih =>
      rintro (_ | ⟨p, ps⟩) hsub hps
      · cases hps
      · rw [List.map_cons, List.map_cons, List.cons.injEq] at hps
        rw [List.cons_subset] at hsub
        obtain ⟨p', hp', rfl⟩ := hs
        obtain ⟨hmem', hname'⟩ := of_pointDe hp'
        have hsame : p' = p :=
          List.inj_on_of_nodup_map hnodup hmem' hsub.1 (hname'.trans hps.1.symm)
        rw [List.map_cons, hsame, ih ps hsub.2 hps.2]
  exact hpart points (List.Subset.refl _) hnoms

/-- Each point has the name its options have. -/
def Chart.Sain (chart : Chart V) : Prop :=
  ∀ p ∈ chart.points, (chart.objets p.options).name = p.name

/-- The names of the options found. -/
theorem Chart.Sain.trouve (h : chart.Sain) (s : Serie C V) (i : ℕ)
    (hi : Trouve chart.points s i) : (chart.objets i).name = s.name := by
  obtain ⟨p, hp, rfl⟩ := hi
  obtain ⟨hmem, hname⟩ := of_pointDe hp
  rw [h p hmem, hname]

/-- A pie that is loaded. -/
theorem Chart.sain_charge [Inhabited V] (data : List (Options V)) : (Chart.charge data).Sain := by
  intro p hp
  obtain ⟨⟨o, i⟩, ho, rfl⟩ := List.mem_map.mp hp
  have hi : data[i]? = some o := List.mk_mem_zipIdx_iff_getElem?.mp ho
  show (data.getD i default).name = o.name
  rw [List.getD_eq_getElem?_getD, hi, Option.getD_some]

theorem Chart.noms_charge [Inhabited V] (data : List (Options V)) :
    (Chart.charge data).noms = data.map (·.name) := by
  conv_rhs => rw [← List.zipIdx_map_fst 0 data]
  rw [Chart.noms, Chart.charge, List.map_map, List.map_map]
  rfl

theorem Chart.map_name_affiche (chart : Chart V) : chart.affiche.map (·.name) = chart.noms :=
  List.map_map

/-- What the points show after they have been updated. -/
theorem map_zipWith_points {os : List (Options V)}
    (hlength : points.length = os.length) :
    (points.zipWith (fun p o => (⟨p.options, o.name, o.y⟩ : Point V)) os).map
      (fun p => (⟨p.name, p.y⟩ : Options V)) = os := by
  induction points generalizing os with
  | nil => exact (List.length_eq_zero_iff.mp hlength.symm).symm
  | cons p points ih =>
    rcases os with _ | ⟨o, os⟩
    · cases hlength
    · rw [List.zipWith_cons_cons, List.map_cons, ih (Nat.succ_inj.mp hlength)]

end Lookup

/-! ## The loop -/

variable [DecidableEq C] {series : List (Serie C V)} {x : C} {chart : Chart V}
  {l : List (Options V)}

/-- The names are those of the series. -/
theorem map_name_repartition (h : repartition series x = some l) :
    l.map (·.name) = series.map (·.name) := by
  induction series generalizing l with
  | nil =>
    obtain rfl : [] = l := Option.some_inj.mp h
    rfl
  | cons s series ih =>
    obtain ⟨o, l, ho, hl, rfl⟩ := mapM_cons_eq_some_iff.mp h
    obtain ⟨y, -, rfl⟩ := Option.map_eq_some_iff.mp ho
    rw [List.map_cons, List.map_cons, ih hl]

section Loop

variable {points : List (Point V)} {h : ℕ → Options V} {data : List ℕ} {i : ℕ}

/-- The loop changes no name. -/
theorem name_newSerieData (points : List (Point V)) (x : C) (series : List (Serie C V))
    (h : ℕ → Options V) (i : ℕ) : ((newSerieData points x series h).1 i).name = (h i).name := by
  induction series generalizing h with
  | nil => rfl
  | cons s series ih =>
    rw [newSerieData]
    rcases pointDe points s.name with _ | p
    · rfl
    · rcases s.valeur x with _ | y
      · rfl
      · dsimp only
        rw [ih]
        by_cases hi : i = p.options
        · rw [hi, Function.update_self]
        · rw [Function.update_of_ne hi]

/-- It changes nothing but the options of points of series. -/
theorem newSerieData_of_forall_not (hi : ∀ s ∈ series, ¬ Trouve points s i) :
    (newSerieData points x series h).1 i = h i := by
  induction series generalizing h with
  | nil => rfl
  | cons s series ih =>
    rw [List.forall_mem_cons] at hi
    rw [newSerieData]
    rcases hfind : pointDe points s.name with _ | p
    · rfl
    · rcases s.valeur x with _ | y
      · rfl
      · have hne : i ≠ p.options := fun heq => hi.1 ⟨p, hfind, heq.symm⟩
        exact (ih hi.2).trans (Function.update_of_ne hne _ _)

/-- It fails if a series is not in the pie, or does not have the category. -/
theorem newSerieData_eq_none
    (hfail : (∃ s ∈ series, s.name ∉ points.map (·.name)) ∨ repartition series x = none) :
    (newSerieData points x series h).2 = none := by
  induction series generalizing h with
  | nil =>
    rcases hfail with ⟨s, hs, -⟩ | hnone
    · exact absurd hs List.not_mem_nil
    · cases hnone
  | cons s series ih =>
    rw [newSerieData]
    rcases hfind : pointDe points s.name with _ | p
    · rfl
    · rcases hval : s.valeur x with _ | y
      · rfl
      · have hmem : s.name ∈ points.map (·.name) := by
          by_contra hnot
          rw [pointDe_eq_none.mpr hnot] at hfind
          cases hfind
        have hrest : (∃ s ∈ series, s.name ∉ points.map (·.name)) ∨ repartition series x = none := by
          rcases hfail with ⟨s', hs', hnot⟩ | hnone
          · refine Or.inl ⟨s', (List.mem_cons.mp hs').resolve_left ?_, hnot⟩
            rintro rfl
            exact hnot hmem
          · right
            rcases hl : repartition series x with _ | l
            · rfl
            · have hcons : repartition (s :: series) x = some (⟨s.name, y⟩ :: l) :=
                mapM_cons_eq_some_iff.mpr ⟨_, l, by rw [hval]; rfl, hl, rfl⟩
              rw [hnone] at hcons
              cases hcons
        dsimp only
        rw [ih hrest, Option.map_none]

/-- **What the loop finds and writes.** -/
theorem newSerieData_spec (hname : ∀ s i, Trouve points (s : Serie C V) i → (h i).name = s.name)
    (hnodup : (series.map (·.name)).Nodup) (hmem : ∀ s ∈ series, s.name ∈ points.map (·.name))
    (hl : repartition series x = some l) :
    ∃ data, (newSerieData points x series h).2 = some data ∧
      List.Forall₂ (Trouve points) series data ∧
      data.map (newSerieData points x series h).1 = l := by
  induction series generalizing h l with
  | nil =>
    obtain rfl : [] = l := Option.some_inj.mp hl
    exact ⟨[], rfl, List.Forall₂.nil, rfl⟩
  | cons s series ih =>
    obtain ⟨o, l, ho, hrest, rfl⟩ := mapM_cons_eq_some_iff.mp hl
    obtain ⟨y, hval, rfl⟩ := Option.map_eq_some_iff.mp ho
    rw [List.map_cons, List.nodup_cons] at hnodup
    rw [List.forall_mem_cons] at hmem
    rcases hfind : pointDe points s.name with _ | p
    · exact absurd hmem.1 (pointDe_eq_none.mp hfind)
    · have hs : Trouve points s p.options := ⟨p, hfind, rfl⟩
      -- the name of the options stays
      have hname' : ∀ s' i, Trouve points (s' : Serie C V) i →
          (Function.update h p.options { h p.options with y := y } i).name = s'.name := by
        intro s' i hi
        by_cases heq : i = p.options
        · rw [heq] at hi ⊢
          rw [Function.update_self]
          exact hname s' _ hi
        · rw [Function.update_of_ne heq]
          exact hname s' i hi
      obtain ⟨data, hdata, hfound, hwritten⟩ := ih hname' hnodup.2 hmem.2 hrest
      -- and no later series has these options
      have hlast : ∀ s' ∈ series, ¬ Trouve points s' p.options := by
        intro s' hs' hfound'
        refine hnodup.1 ?_
        rw [← hname s _ hs, hname s' _ hfound']
        exact List.mem_map_of_mem hs'
      have hhead : { h p.options with y := y } = (⟨s.name, y⟩ : Options V) := by
        rw [← hname s _ hs]
      rw [newSerieData]
      simp only [hfind, hval]
      refine ⟨p.options :: data, by rw [hdata]; rfl, List.Forall₂.cons hs hfound, ?_⟩
      rw [List.map_cons, hwritten, newSerieData_of_forall_not hlast, Function.update_self, hhead]

end Loop

/-! ## One hover -/

section Hover

/-- A hover that fails shows nothing new. -/
theorem points_updateAttached_of_fail
    (hfail : (∃ s ∈ series, s.name ∉ chart.noms) ∨ repartition series x = none) :
    (chart.updateAttached series x).points = chart.points := by
  rw [Chart.updateAttached, newSerieData_eq_none hfail]

theorem Chart.Sain.of_fail (h : chart.Sain)
    (hfail : (∃ s ∈ series, s.name ∉ chart.noms) ∨ repartition series x = none) :
    (chart.updateAttached series x).Sain := by
  intro p hp
  rw [points_updateAttached_of_fail hfail] at hp
  rw [Chart.updateAttached, newSerieData_eq_none hfail]
  exact (name_newSerieData _ _ _ _ _).trans (h p hp)

/-- The pie goes with the series: they are all in it, and if there are no other points, in
their order. -/
def Accord (series : List (Serie C V)) (noms : List Text) : Prop :=
  (∀ s ∈ series, s.name ∈ noms) ∧
    (noms.length = series.length → noms = series.map (·.name))

/-- **A hover of a pie that goes with the series.** -/
theorem affiche_updateAttached (h : chart.Sain) (hnodup : (series.map (·.name)).Nodup)
    (haccord : Accord series chart.noms) (hl : repartition series x = some l) :
    (chart.updateAttached series x).affiche = l ∧ (chart.updateAttached series x).Sain := by
  obtain ⟨data, hdata, hfound, hwritten⟩ := newSerieData_spec h.trouve hnodup haccord.1 hl
  have hlength : data.length = series.length := hfound.length_eq.symm
  rw [Chart.updateAttached, hdata]
  dsimp only
  rw [Chart.setData]
  split_ifs with hsame
  · -- each point is given its own options
    have hnoms : chart.noms = series.map (·.name) := by
      refine haccord.2 ?_
      rw [Chart.noms, List.length_map]
      exact hsame.2.trans hlength
    have hown : data = chart.points.map (·.options) :=
      eq_map_of_trouve hfound (hnoms.symm ▸ hnodup : chart.noms.Nodup) hnoms
    dsimp only
    rw [← hown, copie_self, hwritten]
    refine ⟨map_zipWith_points ?_, ?_⟩
    · rw [← hwritten, List.length_map]
      exact hsame.2
    · intro p hp
      rw [← hwritten, hown, List.map_map, List.zipWith_map_right, List.zipWith_self] at hp
      obtain ⟨p', -, rfl⟩ := List.mem_map.mp hp
      rfl
  · refine ⟨?_, ?_⟩
    · rw [Chart.affiche, List.map_map, ← hwritten]
      rfl
    · intro p hp
      obtain ⟨i, -, rfl⟩ := List.mem_map.mp hp
      rfl

/-- **A hover of a pie in another order** loses a name. -/
theorem exists_notMem_noms (h : chart.Sain) (hnodup : (series.map (·.name)).Nodup)
    (hmem : ∀ s ∈ series, s.name ∈ chart.noms) (hlength : chart.noms.length = series.length)
    (hne : chart.noms ≠ series.map (·.name)) (hl : repartition series x = some l) :
    ∃ s ∈ series, s.name ∉ (chart.updateAttached series x).noms := by
  obtain ⟨data, hdata, hfound, hwritten⟩ := newSerieData_spec h.trouve hnodup hmem hl
  rw [Chart.noms, List.length_map] at hlength
  have hsame : chart.points.length = data.length := hlength.trans hfound.length_eq
  have hnil : data ≠ [] := by
    rintro rfl
    obtain rfl := List.forall₂_nil_right_iff.mp hfound
    exact hne (List.map_eq_nil_iff.mpr (List.length_eq_zero_iff.mp hlength))
  generalize hobjets : (newSerieData chart.points x series chart.objets).1 = objets at hwritten
  -- the names in the objects that are given
  have hnames : data.map (fun i => (objets i).name) = series.map (·.name) := by
    rw [← map_name_repartition hl, ← hwritten, List.map_map]
    rfl
  have hdistinct : (data.map fun i => (objets i).name).Nodup := hnames ▸ hnodup
  have hperm := perm_of_trouve hfound hdistinct.of_map hsame
  have horder : data ≠ chart.points.map (·.options) := by
    intro hown
    refine hne ?_
    rw [← hnames, hown, List.map_map, Chart.noms]
    refine List.map_congr_left fun p hp => ?_
    show p.name = (objets p.options).name
    rw [← hobjets, name_newSerieData, h p hp]
  have hinj : Set.InjOn (fun i => (objets i).name) {i | i ∈ chart.points.map (·.options)} :=
    fun i hi j hj =>
      List.inj_on_of_nodup_map hdistinct (hperm.symm.subset hi) (hperm.symm.subset hj)
  obtain ⟨i, hi, hlost⟩ := exists_lost hperm (hperm.nodup_iff.mp hdistinct.of_map) hinj horder
  have hserie : (objets i).name ∈ series.map (·.name) :=
    hnames ▸ List.mem_map_of_mem hi
  obtain ⟨s, hs, hname⟩ := List.mem_map.mp hserie
  refine ⟨s, hs, ?_⟩
  have hcopied : (copie (chart.points.map (·.options)) data objets).2.length =
      chart.points.length := by
    rw [length_copie (by rw [List.length_map, hsame]), List.length_map]
  rw [hname, Chart.updateAttached, hdata]
  dsimp only
  rw [Chart.setData, if_pos ⟨hnil, hsame⟩, hobjets, ← Chart.map_name_affiche, Chart.affiche]
  dsimp only
  rw [map_zipWith_points hcopied.symm]
  exact hlost

end Hover

/-! ## Runs -/

section Runs

variable {run : List C}

theorem Chart.apres_cons (series : List (Serie C V)) (chart : Chart V) (x : C) (run : List C) :
    chart.apres series (x :: run) = (chart.updateAttached series x).apres series run := rfl

/-- A pie that goes with the series goes with them after any hovers. -/
theorem accord_apres (h : chart.Sain) (hnodup : (series.map (·.name)).Nodup)
    (haccord : Accord series chart.noms) (run : List C) :
    (chart.apres series run).Sain ∧ Accord series (chart.apres series run).noms := by
  induction run generalizing chart with
  | nil => exact ⟨h, haccord⟩
  | cons x run ih =>
    rw [Chart.apres_cons]
    rcases hl : repartition series x with _ | l
    · refine ih (h.of_fail (Or.inr hl)) ?_
      rw [Chart.noms, points_updateAttached_of_fail (Or.inr hl)]
      exact haccord
    · obtain ⟨haffiche, hsain⟩ := affiche_updateAttached h hnodup haccord hl
      refine ih hsain ?_
      have hnoms : (chart.updateAttached series x).noms = series.map (·.name) := by
        rw [← Chart.map_name_affiche, haffiche, map_name_repartition hl]
      rw [hnoms]
      exact ⟨fun s hs => List.mem_map_of_mem hs, fun _ => rfl⟩

/-- Hovers where a series has no value show nothing new. -/
theorem points_apres_of_none (hrun : ∀ x ∈ run, repartition series x = none) :
    (chart.apres series run).points = chart.points := by
  induction run generalizing chart with
  | nil => rfl
  | cons x run ih =>
    rw [List.forall_mem_cons] at hrun
    rw [Chart.apres_cons, ih hrun.2, points_updateAttached_of_fail (Or.inr hrun.1)]

/-- A name that is not in the pie never gets into it. -/
theorem notMem_noms_apres {s : Serie C V} (hs : s ∈ series) (hnot : s.name ∉ chart.noms)
    (run : List C) : s.name ∉ (chart.apres series run).noms := by
  induction run generalizing chart with
  | nil => exact hnot
  | cons x run ih =>
    refine ih ?_
    rw [Chart.noms, points_updateAttached_of_fail (Or.inl ⟨s, hs, hnot⟩)]
    exact hnot

omit [DecidableEq C] in
/-- What is wrong with a pie in which all series are. -/
theorem order_of_not_accord (hmem : ∀ s ∈ series, s.name ∈ chart.noms)
    (hnot : ¬ Accord series chart.noms) :
    chart.noms.length = series.length ∧ chart.noms ≠ series.map (·.name) := by
  rw [Accord, and_iff_right hmem] at hnot
  exact Classical.not_imp.mp hnot

/-- A pie that does not go with the series: a name is missing after a hover where they all have
a value, whatever came before. -/
theorem exists_notMem_apres (h : chart.Sain) (hnodup : (series.map (·.name)).Nodup)
    (hnot : ¬ Accord series chart.noms) (run : List C) (hl : repartition series x = some l) :
    ∃ s ∈ series, s.name ∉ (chart.apres series (run ++ [x])).noms := by
  by_cases hmem : ∀ s ∈ series, s.name ∈ chart.noms
  · -- the order is wrong, and the first hover that does not fail loses a name
    induction run generalizing chart with
    | nil =>
      obtain ⟨hlength, hne⟩ := order_of_not_accord hmem hnot
      exact exists_notMem_noms h hnodup hmem hlength hne hl
    | cons x' run ih =>
      rw [List.cons_append, Chart.apres_cons]
      rcases hl' : repartition series x' with _ | l'
      · have hpoints : (chart.updateAttached series x').points = chart.points :=
          points_updateAttached_of_fail (Or.inr hl')
        have hnoms : (chart.updateAttached series x').noms = chart.noms := by
          rw [Chart.noms, hpoints, Chart.noms]
        exact ih (h.of_fail (Or.inr hl')) (hnoms.symm ▸ hnot) (hnoms.symm ▸ hmem)
      · obtain ⟨hlength, hne⟩ := order_of_not_accord hmem hnot
        obtain ⟨s, hs, hlost⟩ := exists_notMem_noms h hnodup hmem hlength hne hl'
        exact ⟨s, hs, notMem_noms_apres hs hlost _⟩
  · -- a name was missing from the start
    rw [not_forall] at hmem
    obtain ⟨s, hs⟩ := hmem
    obtain ⟨hs, hmissing⟩ := Classical.not_imp.mp hs
    exact ⟨s, hs, notMem_noms_apres hs hmissing _⟩

end Runs

/-- **What the pie shows.**  The series have names of their own, and no negative values.  After
any hovers the pie shows how the values of the series are divided at the last category that
they all have, exactly if every series is among the points the pie was loaded with, and these
were more than the series or in the order of the series.  Otherwise a series is not in it. -/
theorem attached_chart [Inhabited V] (series : List (Serie C V)) (data : List (Options V))
    (hnodup : (series.map (·.name)).Nodup) (run rest : List C) (x : C) (l : List (Options V))
    (hx : repartition series x = some l) (hrest : ∀ x' ∈ rest, repartition series x' = none) :
    (((Chart.charge data).apres series (run ++ x :: rest)).affiche = l ↔
        Accord series (data.map (·.name))) ∧
      (¬ Accord series (data.map (·.name)) →
        ∃ s ∈ series, s.name ∉ ((Chart.charge data).apres series (run ++ x :: rest)).noms) := by
  have hsain := Chart.sain_charge data
  have hnoms := Chart.noms_charge data
  have hpoints : ((Chart.charge data).apres series (run ++ x :: rest)).points =
      ((Chart.charge data).apres series (run ++ [x])).points := by
    have happres : (Chart.charge data).apres series (run ++ x :: rest) =
        ((Chart.charge data).apres series (run ++ [x])).apres series rest := by
      rw [Chart.apres, Chart.apres, Chart.apres, ← List.foldl_append, List.append_assoc,
        List.singleton_append]
    rw [happres, points_apres_of_none hrest]
  have hlost : ¬ Accord series (data.map (·.name)) →
      ∃ s ∈ series, s.name ∉ ((Chart.charge data).apres series (run ++ x :: rest)).noms := by
    intro hnot
    rw [Chart.noms, hpoints, ← Chart.noms]
    exact exists_notMem_apres hsain hnodup (hnoms.symm ▸ hnot) run hx
  refine ⟨⟨fun haffiche => ?_, fun haccord => ?_⟩, hlost⟩
  · by_contra hnot
    obtain ⟨s, hs, hmissing⟩ := hlost hnot
    rw [← Chart.map_name_affiche, haffiche, map_name_repartition hx] at hmissing
    exact hmissing (List.mem_map_of_mem hs)
  · obtain ⟨hsain', haccord'⟩ := accord_apres hsain hnodup (hnoms.symm ▸ haccord) run
    have hlast : (Chart.charge data).apres series (run ++ [x]) =
        ((Chart.charge data).apres series run).updateAttached series x := by
      rw [Chart.apres, List.foldl_append]
      rfl
    rw [Chart.affiche, hpoints, ← Chart.affiche, hlast]
    exact (affiche_updateAttached hsain' hnodup haccord' hx).1

/-- Two series over two hours. -/
def heures : List (Serie ℕ ℕ) := [⟨"F".toList, [(1, 4), (2, 5)]⟩, ⟨"H".toList, [(1, 6), (2, 7)]⟩]

/-- A pie loaded in the other order does not show them, and loses one. -/
theorem attached_chart_heures :
    ((Chart.charge [⟨"H".toList, 13⟩, ⟨"F".toList, 9⟩]).apres heures ([1] ++ 2 :: [])).affiche ≠
        [⟨"F".toList, 5⟩, ⟨"H".toList, 7⟩] ∧
      ∃ s ∈ heures, s.name ∉
        ((Chart.charge [⟨"H".toList, 13⟩, ⟨"F".toList, 9⟩]).apres heures ([1] ++ 2 :: [])).noms := by
  obtain ⟨hiff, hlost⟩ := attached_chart heures [⟨"H".toList, 13⟩, ⟨"F".toList, 9⟩] (by decide) [1]
    [] 2 [⟨"F".toList, 5⟩, ⟨"H".toList, 7⟩] rfl (fun x' hx' => absurd hx' List.not_mem_nil)
  have hnot : ¬ Accord heures ["H".toList, "F".toList] := fun h => absurd (h.2 rfl) (by decide)
  exact ⟨fun h => hnot (hiff.mp h), hlost hnot⟩

end AttachedChart
end Page
end RondeDesFacs
