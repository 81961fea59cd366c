import RondeDesFacs.Servlet.Pivot
import Mathlib.Algebra.Ring.Int.Defs

/-!
# The pie beside a line chart

`generateKPI` asks the servlet for a line chart and draws a second chart from the
same answer, a pie with one slice for each series, as large as the sum of its
data.  A slice is meant to be the total of an identifier.

A series, however, is a *run* of rows with one identifier, and the last run is
lost when it is a single row.  The rows arrive by axis first and identifier
second, which is the order that tears the rows of an identifier apart.  So the
slices are the totals exactly when the rows of each identifier happen to stand
together and the last row continues its run; or when the lost row would have
added nothing to a slice that is there without it (`TotalsKept`).  The totals are sums of
integers, exact in the page up to `2 ^ 53`.
-/

namespace RondeDesFacs
namespace Page

open Servlet Runs

/-! ## The page -/

/-- `dataPie[index] = [this.name, total]`, for each series. -/
def dataPie (data : List Serie) : List (Option Text × ℤ) :=
  data.map fun s => (s.name, s.data.foldl (fun total y => total + y) 0)

/-- What the callback makes of an answer.  It is not called on an error, and the
points of a pie have no `data` to go through. -/
def onSuccess : Response → Option (List (Option Text × ℤ))
  | .status200 (.line _ _ data) => some (dataPie data)
  | .status200 (.pie _ points) => if points = [] then some [] else none
  | .status503 => none

/-- The slices `_generateKPI` draws for a wrapper of type `line`. -/
def generateKPI (connect : Option Connection) (request : Text) :
    Option (List (Option Text × ℤ)) :=
  onSuccess (call connect (some request) (some []) (some []))

/-! ## What the slices should be -/

/-- The identifiers of the rows. -/
def idents (rows : List LineRow) : List (Option Text) := rows.map fun r => r.ident

/-- The sum of `RES` over the rows of an identifier. -/
def total (rows : List LineRow) (i : Option Text) : ℤ :=
  ((rows.filter fun r => r.ident = i).map fun r => r.res).sum

/-- One slice for each identifier, as large as its total. -/
structure PieExact (rows : List LineRow) (pie : List (Option Text × ℤ)) : Prop where
  nodup : (pie.map Prod.fst).Nodup
  names : ∀ i, i ∈ pie.map Prod.fst ↔ i ∈ idents rows
  totals : ∀ e ∈ pie, e.2 = total rows e.1

/-- The rows of each identifier stand together, and the last row does not stand
alone --- or it is a zero of an identifier that has a slice without it. -/
def TotalsKept (rows : List LineRow) : Prop :=
  ∀ row ∈ rows.getLast?,
    if rows.dropLast.getLast?.map (fun r => r.ident) = some row.ident then
      Contiguous (fun r => r.ident) rows
    else
      Contiguous (fun r => r.ident) rows.dropLast ∧
        row.ident ∈ idents rows.dropLast ∧ row.res = 0

instance (rows : List LineRow) : Decidable (TotalsKept rows) :=
  inferInstanceAs (Decidable (∀ row ∈ rows.getLast?,
    if rows.dropLast.getLast?.map (fun r => r.ident) = some row.ident then
      Contiguous (fun r => r.ident) rows
    else
      Contiguous (fun r => r.ident) rows.dropLast ∧
        row.ident ∈ idents rows.dropLast ∧ row.res = 0))

theorem totalsKept_concat (rows : List LineRow) (row : LineRow) :
    TotalsKept (rows ++ [row]) ↔
      if rows.getLast?.map (fun r => r.ident) = some row.ident then
        Contiguous (fun r => r.ident) (rows ++ [row])
      else Contiguous (fun r => r.ident) rows ∧ row.ident ∈ idents rows ∧ row.res = 0 := by
  simp [TotalsKept]

/-! ## The slices of runs -/

/-- The slices drawn when every run is a series. -/
def pieOfRuns (rows : List LineRow) : List (Option Text × ℤ) :=
  dataPie ((runs (fun r => r.ident) rows).map groupSerie)

/-- The slice of a run. -/
theorem pieOfRuns_eq (rows : List LineRow) :
    pieOfRuns rows =
      (runs (fun r => r.ident) rows).map fun g =>
        (g.head?.bind fun r => r.ident, (g.map fun r => r.res).sum) := by
  rw [pieOfRuns, dataPie, List.map_map]
  refine List.map_congr_left fun g _ => ?_
  simp [groupSerie, List.sum_eq_foldl]

/-- The names of the slices are the keys of the runs. -/
theorem some_name_pieOfRuns (rows : List LineRow) :
    ((pieOfRuns rows).map Prod.fst).map some = runKeys (fun r => r.ident) rows := by
  rw [pieOfRuns_eq, List.map_map, List.map_map, runKeys]
  refine List.map_congr_left fun g hg => ?_
  rcases g with _ | ⟨r, g⟩
  · exact absurd hg (nil_notMem_runs _ _)
  · rfl

theorem nodup_name_pieOfRuns_iff (rows : List LineRow) :
    ((pieOfRuns rows).map Prod.fst).Nodup ↔ Contiguous (fun r => r.ident) rows := by
  rw [← nodup_runKeys_iff, ← some_name_pieOfRuns, List.nodup_map_iff (Option.some_injective _)]

theorem mem_name_pieOfRuns_iff {rows : List LineRow} {i : Option Text} :
    i ∈ (pieOfRuns rows).map Prod.fst ↔ i ∈ idents rows := by
  have hrun : some i ∈ runKeys (fun r : LineRow => r.ident) rows ↔ i ∈ idents rows :=
    some_mem_runKeys_iff
  rw [← hrun, ← some_name_pieOfRuns, List.mem_map_of_injective (Option.some_injective _)]

/-- In contiguous rows a run holds all rows of its identifier. -/
theorem snd_eq_total_of_mem_pieOfRuns {rows : List LineRow}
    (h : Contiguous (fun r => r.ident) rows) {e : Option Text × ℤ} (he : e ∈ pieOfRuns rows) :
    e.2 = total rows e.1 := by
  rw [pieOfRuns_eq, List.mem_map] at he
  obtain ⟨g, hg, rfl⟩ := he
  have hconst : ∀ g' ∈ runs (fun r : LineRow => r.ident) rows, ∀ a ∈ g',
      groupKey (fun r => r.ident) g' = some a.ident :=
    fun g' hg' a ha => (groupKey_eq_some_iff hg' ha).mpr rfl
  rcases g with _ | ⟨r, g⟩
  · exact absurd hg (nil_notMem_runs _ _)
  · have hfibre := filter_flatten_of_nodup hconst ((nodup_runKeys_iff rows).mpr h) hg
      (groupKey_cons (fun r : LineRow => r.ident) r g)
    rw [flatten_runs] at hfibre
    rw [total, List.head?_cons, Option.bind_some, hfibre]

/-- **When every run becomes a slice.** -/
theorem pieExact_pieOfRuns_iff (rows : List LineRow) :
    PieExact rows (pieOfRuns rows) ↔ Contiguous (fun r => r.ident) rows := by
  constructor
  · intro h
    exact (nodup_name_pieOfRuns_iff rows).mp h.nodup
  · intro h
    exact ⟨(nodup_name_pieOfRuns_iff rows).mpr h, fun i => mem_name_pieOfRuns_iff,
      fun e he => snd_eq_total_of_mem_pieOfRuns h he⟩

/-! ## The lost row -/

theorem idents_concat (rows : List LineRow) (row : LineRow) :
    idents (rows ++ [row]) = idents rows ++ [row.ident] := by
  simp [idents]

theorem total_concat (rows : List LineRow) (row : LineRow) (i : Option Text) :
    total (rows ++ [row]) i = total rows i + if row.ident = i then row.res else 0 := by
  by_cases h : row.ident = i <;> simp [total, List.filter_append, h]

/-- **When the last row is lost.**  The slices of the rows before it are right
only if it adds nothing. -/
theorem pieExact_concat_pieOfRuns_iff (rows : List LineRow) (row : LineRow) :
    PieExact (rows ++ [row]) (pieOfRuns rows) ↔
      Contiguous (fun r => r.ident) rows ∧ row.ident ∈ idents rows ∧ row.res = 0 := by
  constructor
  · intro h
    have hcont := (nodup_name_pieOfRuns_iff rows).mp h.nodup
    have hname : row.ident ∈ (pieOfRuns rows).map Prod.fst :=
      (h.names row.ident).mpr (by rw [idents_concat]; simp)
    refine ⟨hcont, mem_name_pieOfRuns_iff.mp hname, ?_⟩
    -- the slice of the identifier is the total both with and without the row
    obtain ⟨e, he, hident⟩ := List.mem_map.mp hname
    have hwith := h.totals e he
    have hwithout := snd_eq_total_of_mem_pieOfRuns hcont he
    rw [total_concat, if_pos hident.symm] at hwith
    omega
  · rintro ⟨hcont, hident, hres⟩
    refine ⟨(nodup_name_pieOfRuns_iff rows).mpr hcont, fun i => ?_, fun e he => ?_⟩
    · rw [mem_name_pieOfRuns_iff, idents_concat, List.mem_append, List.mem_singleton]
      constructor
      · exact Or.inl
      · rintro (h | rfl)
        · exact h
        · exact hident
    · rw [snd_eq_total_of_mem_pieOfRuns hcont he, total_concat, hres, ite_self, Int.add_zero]

/-! ## The slices of an answer -/

/-- The slices of a result set with proper identifiers. -/
theorem generateKPI_eq {base : Connection} {request : Text} {rows : List LineRow}
    {more : List ResultSet} (hbase : base request none = some (.line rows :: more))
    (hnamed : ∀ r ∈ rows, Named r) :
    generateKPI (some base) request =
      some (dataPie ((closed (runs (fun r => r.ident) rows)).map groupSerie)) := by
  have hargs : arguments (some []) (some []) = some none := rfl
  rw [generateKPI, call_line hargs hbase hnamed]
  rfl

/-- The slices of the runs that are kept. -/
theorem pieExact_closed_iff (rows : List LineRow) :
    PieExact rows (dataPie ((closed (runs (fun r => r.ident) rows)).map groupSerie)) ↔
      TotalsKept rows := by
  rcases List.eq_nil_or_concat rows with rfl | ⟨rows, row, rfl⟩
  · -- no rows, no slices
    constructor
    · intro _ row hrow
      cases hrow
    · intro _
      exact ⟨List.nodup_nil, fun i => Iff.rfl, fun e he => absurd he List.not_mem_nil⟩
  · rw [List.concat_eq_append, totalsKept_concat]
    by_cases hlast : rows.getLast?.map (fun r => r.ident) = some row.ident
    · -- the last row continues its run
      obtain ⟨r, hr, heq⟩ := Option.map_eq_some_iff.mp hlast
      rw [if_pos hlast, closed_runs_concat_of_eq hr heq]
      exact pieExact_pieOfRuns_iff _
    · -- the last row stands alone
      have hne : ∀ r ∈ rows.getLast?, r.ident ≠ row.ident := by
        intro r hr heq
        exact hlast (Option.map_eq_some_iff.mpr ⟨r, hr, heq⟩)
      rw [if_neg hlast, closed_runs_concat_of_ne hne]
      exact pieExact_concat_pieOfRuns_iff rows row

/-- **The slices of a line answer.**  They are the totals of the identifiers
exactly when the rows of each stand together and the last row does not stand
alone, a redundant zero apart.  (Of integers up to `2 ^ 53`.) -/
theorem pie_totals (base : Connection) (request : Text) (rows : List LineRow)
    (more : List ResultSet) (hbase : base request none = some (.line rows :: more))
    (hnamed : ∀ r ∈ rows, Named r) :
    (∃ pie, generateKPI (some base) request = some pie ∧ PieExact rows pie) ↔
      TotalsKept rows := by
  rw [generateKPI_eq hbase hnamed, ← pieExact_closed_iff]
  constructor
  · rintro ⟨pie, hpie, hexact⟩
    rw [Option.some_inj.mp hpie]
    exact hexact
  · intro h
    exact ⟨_, rfl, h⟩

/-- The rows two origins give at two lap counts, by axis and then by
identifier. -/
def deuxOrigines : List StatRow :=
  [⟨some "IUT".toList, 0, 3⟩, ⟨some "Sciences".toList, 0, 1⟩,
    ⟨some "IUT".toList, 1, 2⟩, ⟨some "Sciences".toList, 1, 5⟩]

/-- A connection that answers with given rows. -/
def answering (rows : List StatRow) : Connection := fun _ _ => some [.line (rows.map readRow)]

theorem named_deuxOrigines : ∀ r ∈ deuxOrigines.map readRow, Named r := by
  intro r hr
  simp only [deuxOrigines, List.map_cons, List.map_nil, List.mem_cons, List.not_mem_nil,
    or_false] at hr
  rcases hr with rfl | rfl | rfl | rfl <;> exact ⟨_, by decide, rfl⟩

/-- The rows are as the procedures order them, no identifier has two at one
axis value, and the pie draws the `IUT` twice. -/
theorem pie_deuxOrigines :
    deuxOrigines.Pairwise (fun r s => Bdd.axisIdentLe r s = true) ∧
      (deuxOrigines.map fun r => (r.ident, r.axis)).Nodup ∧
      (∀ r ∈ deuxOrigines.map readRow, Named r) ∧
      ¬ ∃ pie, generateKPI (some (answering deuxOrigines)) "request".toList = some pie ∧
        PieExact (deuxOrigines.map readRow) pie := by
  refine ⟨by decide, by decide, named_deuxOrigines, ?_⟩
  rintro ⟨pie, hpie, hexact⟩
  rw [generateKPI_eq rfl named_deuxOrigines, Option.some_inj] at hpie
  rw [← hpie, pieExact_closed_iff] at hexact
  revert hexact
  decide

/-- The condition at those rows. -/
theorem pie_totals_at_deuxOrigines :
    (∃ pie, generateKPI (some (answering deuxOrigines)) "request".toList = some pie ∧
        PieExact (deuxOrigines.map readRow) pie) ↔
      TotalsKept (deuxOrigines.map readRow) :=
  pie_totals (answering deuxOrigines) "request".toList (deuxOrigines.map readRow) [] rfl
    named_deuxOrigines

end Page
end RondeDesFacs
