import RondeDesFacs.Servlet.NullSafety
import Mathlib.Data.List.Dedup

/-!
# Points and categories

A line chart shows the `k`-th number of a series above the `k`-th category.  The
categories are the values of `AXIS` in the order in which they first come up
(`idxOf_categoriesOf`), whatever the identifier; the numbers of a series are those of
its rows, one after the other, whatever their `AXIS`.

So a row is shown above its own category exactly if its group has, at the place that
the value of `AXIS` has among all, a row of the same count (`EnPlace`).  That is so
when every group lists the values from the first on, in the common order and without
a gap; a group that skips one is shifted to the left.
-/

namespace RondeDesFacs
namespace Servlet

open Query Runs

/-- The place of a value of `AXIS`: how many others come up before it. -/
def rang (rows : List LineRow) (a : Option Text) : ℕ :=
  ((rows.takeWhile fun r => r.axis ≠ a).map fun r => r.axis).dedup.length

/-- Every row is shown above its own category: there is one series of its name, and it
has the count of the row at the position of the category. -/
def Aligned (rows : List LineRow) (categories : List (Option Text)) (data : List Serie) : Prop :=
  ∀ r ∈ rows, ∃ serie, data.filter (fun s => s.name = r.ident) = [serie] ∧
    serie.data[categories.idxOf r.axis]? = some r.res

/-- For every row there is one of the same identifier at the place of its `AXIS`, and
with its count. -/
def EnPlace (rows : List LineRow) : Prop :=
  ∀ r ∈ rows, ((rows.filter fun q => q.ident = r.ident)[rang rows r.axis]?).map (fun q => q.res) =
    some r.res

instance (rows : List LineRow) : Decidable (EnPlace rows) :=
  inferInstanceAs (Decidable (∀ r ∈ rows,
    ((rows.filter fun q => q.ident = r.ident)[rang rows r.axis]?).map (fun q => q.res) =
      some r.res))

/-! ## Categories -/

theorem categoriesOf_append (l : List (Option Text)) (rows rows' : List LineRow) :
    categoriesOf l (rows ++ rows') = categoriesOf (categoriesOf l rows) rows' :=
  List.foldl_append

theorem prefix_categoriesOf (l : List (Option Text)) (rows : List LineRow) :
    l <+: categoriesOf l rows := by
  induction rows generalizing l with
  | nil => exact List.prefix_refl l
  | cons row rows ih =>
    refine List.IsPrefix.trans ?_ (ih (addCategory l row.axis))
    unfold addCategory
    split_ifs
    · exact List.prefix_refl l
    · exact List.prefix_append l _

theorem mem_categoriesOf_iff {l : List (Option Text)} {rows : List LineRow} {a : Option Text} :
    a ∈ categoriesOf l rows ↔ a ∈ l ∨ a ∈ rows.map fun r => r.axis := by
  induction rows generalizing l with
  | nil => simp [categoriesOf]
  | cons row rows ih =>
    have hadd : a ∈ addCategory l row.axis ↔ a ∈ l ∨ a = row.axis := by
      unfold addCategory
      split_ifs with h
      · exact ⟨Or.inl, fun h' => h'.elim id fun heq => heq ▸ h⟩
      · rw [List.mem_append, List.mem_singleton]
    have hstep : categoriesOf l (row :: rows) = categoriesOf (addCategory l row.axis) rows := rfl
    rw [hstep, ih, hadd, List.map_cons, List.mem_cons, or_assoc]

theorem nodup_categoriesOf {l : List (Option Text)} (h : l.Nodup) (rows : List LineRow) :
    (categoriesOf l rows).Nodup := by
  induction rows generalizing l with
  | nil => exact h
  | cons row rows ih =>
    refine ih ?_
    show (addCategory l row.axis).Nodup
    unfold addCategory
    split_ifs with hmem
    · exact h
    · exact h.append (List.nodup_singleton _) (List.disjoint_singleton.mpr hmem)

/-- The categories are the different values of `AXIS`. -/
theorem length_categoriesOf (rows : List LineRow) :
    (categoriesOf [] rows).length = (rows.map fun r => r.axis).dedup.length := by
  refine List.Perm.length_eq ?_
  rw [List.perm_ext_iff_of_nodup (nodup_categoriesOf List.nodup_nil rows) (List.nodup_dedup _)]
  intro a
  rw [mem_categoriesOf_iff, List.mem_dedup]
  exact or_iff_right List.not_mem_nil

/-- **The position of a category** is the place of its value. -/
theorem idxOf_categoriesOf {rows : List LineRow} {r : LineRow} (hr : r ∈ rows) :
    (categoriesOf [] rows).idxOf r.axis = rang rows r.axis := by
  set p : LineRow → Bool := fun q => decide (q.axis ≠ r.axis) with hp
  have hsplit : rows.takeWhile p ++ rows.dropWhile p = rows := List.takeWhile_append_dropWhile
  have hnotMem : r.axis ∉ categoriesOf [] (rows.takeWhile p) := by
    rw [mem_categoriesOf_iff, not_or]
    refine ⟨List.not_mem_nil, fun hmem => ?_⟩
    obtain ⟨q, hq, heq⟩ := List.mem_map.mp hmem
    have hpq : p q = true := List.mem_takeWhile_imp hq
    exact of_decide_eq_true hpq heq
  -- the first row with the value, which the rows before it do not have
  rcases hdrop : rows.dropWhile p with _ | ⟨q, rest⟩
  · rw [hdrop, List.append_nil] at hsplit
    have hmem : r.axis ∈ categoriesOf [] (rows.takeWhile p) := by
      rw [hsplit]
      exact mem_categoriesOf_iff.mpr (Or.inr (List.mem_map_of_mem hr))
    exact absurd hmem hnotMem
  · have hq : q.axis = r.axis := by
      have hnot := List.head?_dropWhile_not p rows
      rw [hdrop, List.head?_cons] at hnot
      simpa [hp] using hnot
    have hcategories : categoriesOf [] rows =
        categoriesOf (categoriesOf [] (rows.takeWhile p) ++ [r.axis]) rest := by
      conv_lhs => rw [← hsplit, hdrop, categoriesOf_append]
      show categoriesOf (addCategory _ q.axis) rest = _
      rw [addCategory, hq, if_neg hnotMem]
    obtain ⟨t, ht⟩ := prefix_categoriesOf (categoriesOf [] (rows.takeWhile p) ++ [r.axis]) rest
    rw [hcategories, ← ht, List.append_assoc, List.idxOf_append_of_notMem hnotMem,
      List.singleton_append, List.idxOf_cons_self, Nat.add_zero, length_categoriesOf, rang]

/-! ## Series -/

theorem name_groupSerie {l g : List LineRow} (hg : g ∈ runs (fun r => r.ident) l) {r : LineRow}
    (hr : r ∈ g) : (groupSerie g).name = r.ident := by
  obtain ⟨q, t, rfl⟩ := List.exists_cons_of_ne_nil (List.ne_nil_of_mem hr)
  exact key_eq_of_mem_run hg (List.mem_cons_self ..) hr

/-- The names of the series of all runs. -/
theorem some_name_runs (rows : List LineRow) :
    ((runs (fun r => r.ident) rows).map groupSerie).map (fun s => some s.name) =
      runKeys (fun r => r.ident) rows := by
  rw [List.map_map, runKeys]
  refine List.map_congr_left fun g hg => ?_
  rcases g with _ | ⟨r, g⟩
  · exact absurd hg (nil_notMem_runs _ _)
  · rfl

theorem closed_runs_of_lastContinues {rows : List LineRow} (h : LastContinues rows) :
    closed (runs (fun r => r.ident) rows) = runs (fun r => r.ident) rows := by
  rcases List.eq_nil_or_concat rows with rfl | ⟨rows, row, rfl⟩
  · rfl
  · rw [List.concat_eq_append] at h ⊢
    have hlast := h row (by simp)
    rw [List.dropLast_concat] at hlast
    obtain ⟨r, hr, heq⟩ := Option.map_eq_some_iff.mp hlast
    exact closed_runs_concat_of_eq hr heq

/-- The series of an identifier, when all runs become series. -/
theorem filter_series {rows : List LineRow} (h : Contiguous (fun r => r.ident) rows) {r : LineRow}
    (hr : r ∈ rows) :
    ((runs (fun r => r.ident) rows).map groupSerie).filter (fun s => s.name = r.ident) =
      [groupSerie (rows.filter fun q => q.ident = r.ident)] := by
  have hrun := filter_mem_runs h hr
  have hname : (groupSerie (rows.filter fun q => q.ident = r.ident)).name = r.ident :=
    name_groupSerie hrun (List.mem_filter.mpr ⟨hr, decide_eq_true rfl⟩)
  have hnodup : (((runs (fun r => r.ident) rows).map groupSerie).map fun s => s.name).Nodup := by
    have hkeys := (nodup_runKeys_iff rows).mpr h
    rw [← some_name_runs] at hkeys
    refine List.Nodup.of_map some ?_
    rwa [List.map_map]
  have hone := filter_eq_singleton hnodup (List.mem_map_of_mem hrun)
  rwa [hname] at hone

/-- A last row that opens a run has no series. -/
theorem not_aligned_of_not_lastContinues {rows : List LineRow}
    (h : Contiguous (fun r => r.ident) rows) (hlast : ¬ LastContinues rows)
    (categories : List (Option Text)) :
    ¬ Aligned rows categories ((closed (runs (fun r => r.ident) rows)).map groupSerie) := by
  rcases List.eq_nil_or_concat rows with rfl | ⟨rows, row, rfl⟩
  · exact absurd (fun _ hrow => by cases hrow) hlast
  · rw [List.concat_eq_append] at h hlast ⊢
    have hne : ∀ r ∈ rows.getLast?, r.ident ≠ row.ident := by
      intro r hr heq
      refine hlast fun row' hrow' => ?_
      obtain rfl : row = row' := by simpa using hrow'
      rw [List.dropLast_concat, show rows.getLast? = some r from hr, Option.map_some, heq]
    intro haligned
    obtain ⟨serie, hserie, -⟩ := haligned row (List.mem_append_right _ (List.mem_singleton_self _))
    have hmem : serie ∈ ((runs (fun r => r.ident) rows).map groupSerie).filter
        fun s => s.name = row.ident := by
      rw [← closed_runs_concat_of_ne hne, hserie]
      exact List.mem_singleton_self _
    obtain ⟨hserie', hname⟩ := List.mem_filter.mp hmem
    have hkey : some row.ident ∈ runKeys (fun r => r.ident) rows := by
      rw [← some_name_runs, ← of_decide_eq_true hname]
      exact List.mem_map_of_mem hserie'
    exact notMem_of_contiguous_concat h hne (some_mem_runKeys_iff.mp hkey)

/-- **When the chart of a contiguous result set is aligned.** -/
theorem aligned_iff {rows : List LineRow} (h : Contiguous (fun r => r.ident) rows) :
    Aligned rows (categoriesOf [] rows)
        ((closed (runs (fun r => r.ident) rows)).map groupSerie) ↔
      LastContinues rows ∧ EnPlace rows := by
  by_cases hlast : LastContinues rows
  · rw [closed_runs_of_lastContinues hlast, and_iff_right hlast]
    refine forall₂_congr fun r hr => ?_
    have hdata : ((groupSerie (rows.filter fun q => q.ident = r.ident)).data)[rang rows r.axis]? =
        ((rows.filter fun q => q.ident = r.ident)[rang rows r.axis]?).map fun q => q.res :=
      List.getElem?_map
    rw [filter_series h hr, idxOf_categoriesOf hr, ← hdata]
    constructor
    · rintro ⟨serie, hserie, hres⟩
      obtain rfl := List.singleton_inj.mp hserie
      exact hres
    · exact fun hres => ⟨_, rfl, hres⟩
  · exact iff_of_false (not_aligned_of_not_lastContinues h hlast _) fun h' => hlast h'.1

/-- **When points line up with categories.**  Exactly when the loop gets through the
rows, the last row does not open a run, and every group has the counts of its rows at
their places. -/
theorem points_aligned (base : Connection) (param1 param2 param3 : Option Text)
    (args : Option (ℤ × Text)) (hargs : arguments param2 param3 = some args)
    (rows : List LineRow) (others : List ResultSet)
    (hbase : base (orNull param1) args = some (.line rows :: others))
    (hcontiguous : Contiguous (fun r => r.ident) rows) :
    (∃ name categories data,
      call (some base) param1 param2 param3 = .status200 (.line name categories data) ∧
        Aligned rows categories data) ↔
      Parcourable rows ∧ LastContinues rows ∧ EnPlace rows := by
  by_cases hrows : Parcourable rows
  · rw [call_of_parcourable hargs hbase hrows, ← aligned_iff hcontiguous, and_iff_right hrows]
    constructor
    · rintro ⟨_, _, data, heq, h⟩
      cases heq
      exact h
    · intro h
      exact ⟨_, _, _, rfl, h⟩
  · refine iff_of_false ?_ fun h => hrows h.1
    rintro ⟨name, categories, data, heq, -⟩
    have hnone : lineEntity (orNull param1) rows = none := by
      rw [← Option.not_isSome_iff_eq_none, lineEntity_isSome_iff]
      exact hrows
    rw [call_of_line hargs hbase, hnone] at heq
    cases heq

/-- Two origins, the second of which has no runner without a lap. -/
def decalees : List LineRow :=
  [⟨some "IUT".toList, some "0".toList, 3⟩, ⟨some "IUT".toList, some "1".toList, 2⟩,
    ⟨some "Sciences".toList, some "1".toList, 5⟩, ⟨some "Sciences".toList, some "2".toList, 4⟩]

/-- The counts of the second origin are shown one category too early. -/
theorem points_aligned_decalees :
    Contiguous (fun r => r.ident) decalees ∧
      (decalees.map fun r => (r.ident, r.axis)).Nodup ∧
      ¬ ∃ name categories data,
        call (some fun _ _ => some [.line decalees]) (some parOrigine) (some []) (some []) =
            .status200 (.line name categories data) ∧
          Aligned decalees categories data := by
  have hcontiguous : Contiguous (fun r => r.ident) decalees := by decide
  refine ⟨hcontiguous, by decide, ?_⟩
  rintro ⟨_, _, data, heq, h⟩
  rw [call_of_parcourable rfl rfl ⟨by decide, by decide⟩] at heq
  cases heq
  exact absurd ((aligned_iff hcontiguous).mp h).2 (by decide)

/-- The condition at two rows of one origin. -/
theorem points_aligned_at_uneOrigine :
    (∃ name categories data,
      call (some fun _ _ => some [.line [uneOrigine, uneOrigine']]) (some parOrigine) (some [])
          (some []) = .status200 (.line name categories data) ∧
        Aligned [uneOrigine, uneOrigine'] categories data) ↔
      Parcourable [uneOrigine, uneOrigine'] ∧ LastContinues [uneOrigine, uneOrigine'] ∧
        EnPlace [uneOrigine, uneOrigine'] :=
  points_aligned (fun _ _ => some [.line [uneOrigine, uneOrigine']]) (some parOrigine) (some [])
    (some []) none rfl [uneOrigine, uneOrigine'] [] rfl (by decide)

end Servlet
end RondeDesFacs
