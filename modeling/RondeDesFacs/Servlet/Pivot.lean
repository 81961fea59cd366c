import RondeDesFacs.Servlet.StoredProcedure
import RondeDesFacs.Library.Runs
import Mathlib.Data.List.DropRight

/-!
# What the loop over the rows computes

On rows that the loop gets through (`Parcourable`), in particular on rows with proper
identifiers --- neither null nor empty ---, the series of the line chart are the
maximal runs of rows with one identifier, *except that a last run of a single row is
lost* (`lineEntity_of_parcourable`, with `closed` the runs that are kept).  The series
is flushed at two places: when a row of another identifier arrives, which closes every
run but the last, and at the last row of the result set, but there only in the branch of
a row that continues its run.

Nothing is lost exactly when there is no such last row (`pivot_lossless`).

The invariant of the loop is that `j` and `data` hold the run that the rows read
so far end with, and `previousId` its identifier (`Pending`).
-/

namespace RondeDesFacs
namespace Servlet

open Runs

/-- A row with a proper identifier. -/
def Named (row : LineRow) : Prop := ∃ i : Text, i ≠ [] ∧ row.ident = some i

/-- The series of a run. -/
def groupSerie (g : List LineRow) : Serie := ⟨g.head?.bind fun r => r.ident, g.map fun r => r.res⟩

/-- The runs that become series: a last run of one row does not. -/
def closed : List (List LineRow) → List (List LineRow)
  | [] => []
  | [g] => if g.length = 1 then [] else [g]
  | g :: g' :: gs => g :: closed (g' :: gs)

@[simp] theorem closed_nil : closed [] = [] := rfl

theorem closed_singleton (g : List LineRow) :
    closed [g] = if g.length = 1 then [] else [g] := rfl

theorem closed_cons {gs : List (List LineRow)} (hgs : gs ≠ []) (g : List LineRow) :
    closed (g :: gs) = g :: closed gs := by
  obtain ⟨g', gs, rfl⟩ := List.exists_cons_of_ne_nil hgs
  rfl

/-- The categories after some rows. -/
def categoriesOf (l : List (Option Text)) (rows : List LineRow) : List (Option Text) :=
  rows.foldl (fun l row => addCategory l row.axis) l

/-- The variables hold the run `g` of the identifier `i`, not yet put into the
array. -/
structure Pending (s : Locals) (g : List LineRow) (i : Text) : Prop where
  ne_nil : g ≠ []
  ident : ∀ r ∈ g, r.ident = some i
  j : s.j = some (some i)
  data : s.data = some (g.map fun r => r.res)
  previousId : s.previousId = some i

variable {s : Locals} {g : List LineRow} {i : Text}

theorem Pending.putSerie (h : Pending s g i) :
    putSerie s = some (s.series ++ [groupSerie g]) := by
  obtain ⟨r, t, rfl⟩ := List.exists_cons_of_ne_nil h.ne_nil
  have hr := h.ident r (List.mem_cons_self ..)
  simp [Servlet.putSerie, h.j, h.data, groupSerie, hr]

theorem Pending.concat (h : Pending s g i) {row : LineRow} (hrow : row.ident = some i) :
    Pending { s with categoriesList := addCategory s.categoriesList row.axis,
                     data := some ((g ++ [row]).map fun r => r.res),
                     previousId := row.ident } (g ++ [row]) i where
  ne_nil := List.append_ne_nil_of_right_ne_nil _ (List.cons_ne_nil _ _)
  ident r hr := by
    rcases List.mem_append.mp hr with hr | hr
    · exact h.ident r hr
    · rw [List.mem_singleton.mp hr, hrow]
  j := h.j
  data := rfl
  previousId := hrow

/-- **A row that continues its run.**  It joins the run, which is put into the
array if the row is the last one. -/
theorem tour_of_eq (h : Pending s g i) {row : LineRow} (hrow : row.ident = some i)
    (isLast : Bool) :
    ∃ s', tour false isLast s row = some s' ∧ Pending s' (g ++ [row]) i ∧
      s'.categoriesList = addCategory s.categoriesList row.axis ∧
      s'.series = s.series ++ if isLast then [groupSerie (g ++ [row])] else [] := by
  have hnext := h.concat hrow
  have hput := hnext.putSerie
  cases isLast with
  | false =>
    refine ⟨_, ?_, hnext, rfl, by simp⟩
    simp [tour, h.previousId, hrow, h.data]
  | true =>
    refine ⟨{ s with categoriesList := addCategory s.categoriesList row.axis,
                     data := some ((g ++ [row]).map fun r => r.res),
                     previousId := row.ident,
                     series := s.series ++ [groupSerie (g ++ [row])] }, ?_, ?_, rfl, rfl⟩
    · simp only [List.map_append, List.map_cons, List.map_nil, hrow] at hput
      simp [tour, h.previousId, hrow, h.data, hput]
    · exact ⟨hnext.ne_nil, hnext.ident, hnext.j, hnext.data, hnext.previousId⟩

/-- **A row that opens a run.**  The run before it is put into the array; the row
itself is only pending, last or not. -/
theorem tour_of_ne (h : Pending s g i) {row : LineRow} (hne : row.ident ≠ some i)
    (isLast : Bool) :
    tour false isLast s row =
      some ⟨addCategory s.categoriesList row.axis, s.series ++ [groupSerie g], some row.ident,
        some [row.res], row.ident⟩ := by
  simp [tour, h.previousId, hne.symm, h.putSerie]

/-- The variables after a row that opens a run. -/
theorem pending_singleton {row : LineRow} {k : Text} (hrow : row.ident = some k)
    (l : List (Option Text)) (series : List Serie) :
    Pending ⟨l, series, some row.ident, some [row.res], row.ident⟩ [row] k where
  ne_nil := List.cons_ne_nil _ _
  ident r hr := by rw [List.mem_singleton.mp hr, hrow]
  j := by rw [← hrow]
  data := rfl
  previousId := hrow

/-- **The loop from a pending run on.**  No row but the last may have a null
identifier.  The induction is on the rows still to be read; the run that grows is
part of the statement. -/
theorem parcours_of_pending (rest : List LineRow) (hrest : rest ≠ [])
    (hnotNull : ∀ r ∈ rest.dropLast, r.ident ≠ none) (h : Pending s g i) :
    ∃ s', parcours false s rest = some s' ∧
      s'.categoriesList = categoriesOf s.categoriesList rest ∧
      s'.series = s.series ++
        (closed (runs (fun r => r.ident) (g ++ rest))).map groupSerie := by
  induction rest generalizing s g i with
  | nil => exact absurd rfl hrest
  | cons row rest ih =>
    by_cases hrow : row.ident = some i
    · -- the row continues the pending run
      obtain ⟨s', hs', hp, hcat, hser⟩ := tour_of_eq h hrow rest.isEmpty
      rcases rest with _ | ⟨row', rest⟩
      · refine ⟨s', by simpa [parcours] using hs', by rw [hcat]; rfl, ?_⟩
        have hlen : (g ++ [row]).length ≠ 1 := by
          simpa using h.ne_nil
        rw [hser, runs_of_forall_eq hp.ne_nil hp.ident, closed_singleton, if_neg hlen]
        rfl
      · obtain ⟨s'', hs'', hcat', hser'⟩ := ih (List.cons_ne_nil _ _)
          (fun r hr => hnotNull r (List.mem_cons_of_mem _ hr)) hp
        refine ⟨s'', by rw [parcours, hs']; exact hs'', by rw [hcat', hcat]; rfl, ?_⟩
        rw [hser', hser]
        simp
    · -- the row closes the pending run and opens its own
      have hs' := tour_of_ne h hrow rest.isEmpty
      rw [runs_append_cons_of_ne h.ne_nil h.ident hrow,
        closed_cons (by rw [Ne, runs_eq_nil_iff]; exact List.cons_ne_nil _ _), List.map_cons]
      rcases rest with _ | ⟨row', rest⟩
      · refine ⟨_, by rw [parcours, hs']; rfl, rfl, ?_⟩
        rw [runs_of_forall_eq (k := row.ident) (List.cons_ne_nil _ _), closed_singleton]
        · rfl
        · exact fun r hr => by rw [List.mem_singleton.mp hr]
      · obtain ⟨k, hk⟩ := Option.ne_none_iff_exists'.mp (hnotNull row (List.mem_cons_self ..))
        obtain ⟨s'', hs'', hcat', hser'⟩ := ih (List.cons_ne_nil _ _)
          (fun r hr => hnotNull r (List.mem_cons_of_mem _ hr)) (pending_singleton hk _ _)
        refine ⟨s'', by rw [parcours, hs']; exact hs'', by rw [hcat']; rfl, ?_⟩
        rw [hser', List.append_assoc]
        rfl

/-- The rows the loop gets through: the first identifier is not the empty string, and
none but the last is null. -/
structure Parcourable (rows : List LineRow) : Prop where
  first : ∀ r ∈ rows.head?, r.ident ≠ some []
  notNull : ∀ r ∈ rows.dropLast, r.ident ≠ none

/-- **The line chart of a result set** that the loop gets through. -/
theorem lineEntity_of_parcourable (procName : Text) {rows : List LineRow}
    (h : Parcourable rows) :
    lineEntity procName rows =
      some (.line procName (categoriesOf [] rows)
        ((closed (runs (fun r => r.ident) rows)).map groupSerie)) := by
  rcases rows with _ | ⟨row, rest⟩
  · rfl
  · -- the first row differs from the empty string and opens the first run
    have hfirst : tour true rest.isEmpty Locals.init row =
        some ⟨addCategory [] row.axis, [], some row.ident, some [row.res], row.ident⟩ := by
      simp [tour, Locals.init, (h.first row rfl).symm]
    rw [lineEntity, parcours, hfirst, Option.bind_some]
    rcases rest with _ | ⟨row', rest⟩
    · rw [runs_of_forall_eq (k := row.ident) (List.cons_ne_nil _ _), closed_singleton]
      · rfl
      · exact fun r hr => by rw [List.mem_singleton.mp hr]
    · obtain ⟨k, hk⟩ := Option.ne_none_iff_exists'.mp (h.notNull row (List.mem_cons_self ..))
      obtain ⟨s', hs', hcat, hser⟩ := parcours_of_pending _ (List.cons_ne_nil row' rest)
        (fun r hr => h.notNull r (List.mem_cons_of_mem _ hr)) (pending_singleton hk _ [])
      rw [hs', Option.map_some, hcat, hser]
      rfl

theorem parcourable_of_named {rows : List LineRow} (hnamed : ∀ r ∈ rows, Named r) :
    Parcourable rows where
  first r hr := by
    obtain ⟨k, hne, hk⟩ := hnamed r (List.mem_of_mem_head? hr)
    rw [hk]
    exact fun h => hne (Option.some_inj.mp h)
  notNull r hr := by
    obtain ⟨k, -, hk⟩ := hnamed r (List.mem_of_mem_dropLast hr)
    rw [hk]
    exact Option.some_ne_none k

section Call

variable {base : Connection} {param1 param2 param3 : Option Text} {args : Option (ℤ × Text)}
  {rows : List LineRow} {others : List ResultSet}

/-- What the servlet answers when the first result set has three columns. -/
theorem call_of_line (hargs : arguments param2 param3 = some args)
    (hbase : base (orNull param1) args = some (.line rows :: others)) :
    call (some base) param1 param2 param3 =
      (lineEntity (orNull param1) rows).elim .status503 .status200 := by
  rw [call, Option.bind_some, hargs, Option.bind_some, hbase, Option.bind_some, List.head?_cons,
    Option.bind_some, entityOf]
  rcases lineEntity (orNull param1) rows with _ | entity <;> rfl

/-- What the servlet answers when the loop gets through the first result set. -/
theorem call_of_parcourable (hargs : arguments param2 param3 = some args)
    (hbase : base (orNull param1) args = some (.line rows :: others)) (h : Parcourable rows) :
    call (some base) param1 param2 param3 =
      .status200 (.line (orNull param1) (categoriesOf [] rows)
        ((closed (runs (fun r => r.ident) rows)).map groupSerie)) := by
  rw [call_of_line hargs hbase, lineEntity_of_parcourable _ h, Option.elim_some]

/-- What the servlet answers when the first result set has proper identifiers. -/
theorem call_line (hargs : arguments param2 param3 = some args)
    (hbase : base (orNull param1) args = some (.line rows :: others))
    (hnamed : ∀ r ∈ rows, Named r) :
    call (some base) param1 param2 param3 =
      .status200 (.line (orNull param1) (categoriesOf [] rows)
        ((closed (runs (fun r => r.ident) rows)).map groupSerie)) :=
  call_of_parcourable hargs hbase (parcourable_of_named hnamed)

end Call

/-! ## The runs that are kept -/

theorem closed_concat (gs : List (List LineRow)) (g : List LineRow) :
    closed (gs ++ [g]) = gs ++ if g.length = 1 then [] else [g] := by
  induction gs with
  | nil => rfl
  | cons g' gs ih => rw [List.cons_append, closed_cons (by simp), ih, List.cons_append]

/-- When the last row opens its run, the series are those of the rows before
it. -/
theorem closed_runs_concat_of_ne {rows : List LineRow} {row : LineRow}
    (hlast : ∀ r ∈ rows.getLast?, r.ident ≠ row.ident) :
    closed (runs (fun r => r.ident) (rows ++ [row])) = runs (fun r => r.ident) rows := by
  have hrow : ∀ r ∈ [row], r.ident = row.ident := fun r hr => by rw [List.mem_singleton.mp hr]
  rw [runs_append_of_forall_eq (List.cons_ne_nil _ _) hrow hlast, closed_concat]
  exact List.append_nil _

/-- When the last row continues its run, every run becomes a series. -/
theorem closed_runs_concat_of_eq {rows : List LineRow} {r row : LineRow}
    (hlast : rows.getLast? = some r) (heq : r.ident = row.ident) :
    closed (runs (fun r => r.ident) (rows ++ [row])) = runs (fun r => r.ident) (rows ++ [row]) := by
  -- split off the last run: the rows with the identifier of `row` at the end
  set p : LineRow → Bool := fun r => decide (r.ident = row.ident) with hp
  set pre := rows.rdropWhile p with hpre
  set t := rows.rtakeWhile p with ht
  have hrows : pre ++ t = rows := List.rdropWhile_append_rtakeWhile
  have hlen : (t ++ [row]).length ≠ 1 := by
    have htne : t ≠ [] := by
      intro hnil
      have hne : rows ≠ [] := fun h => by rw [h] at hlast; simp at hlast
      have h := List.rtakeWhile_eq_nil_iff.mp hnil hne
      rw [List.getLast?_eq_some_getLast hne, Option.some_inj] at hlast
      rw [hlast] at h
      exact h (decide_eq_true heq)
    simpa using htne
  have hconst : ∀ a ∈ t ++ [row], a.ident = row.ident := by
    intro a ha
    rcases List.mem_append.mp ha with ha | ha
    · have hpa : p a = true := List.mem_rtakeWhile_imp ha
      exact of_decide_eq_true hpa
    · rw [List.mem_singleton.mp ha]
  have hother : ∀ a ∈ pre.getLast?, a.ident ≠ row.ident := by
    intro a ha hident
    have hne : pre ≠ [] := fun h => by rw [h] at ha; simp at ha
    have h := List.rdropWhile_last_not p rows hne
    rw [List.getLast?_eq_some_getLast hne, Option.mem_some_iff] at ha
    rw [← ha] at hident
    exact h (decide_eq_true hident)
  rw [← hrows, List.append_assoc,
    runs_append_of_forall_eq (List.append_ne_nil_of_right_ne_nil _ (List.cons_ne_nil _ _)) hconst
      hother, closed_concat, if_neg hlen]

/-! ## When nothing is lost -/

/-- The series hold the counts of all rows in order, and there is one for each
maximal run, with its identifier. -/
structure Lossless (rows : List LineRow) (data : List Serie) : Prop where
  counts : (data.flatMap fun s => s.data) = rows.map fun r => r.res
  names : (data.map fun s => s.name) =
    (runs (fun r => r.ident) rows).map fun g => g.head?.bind fun r => r.ident

/-- The last row, if there is one, has the identifier of the row before it. -/
def LastContinues (rows : List LineRow) : Prop :=
  ∀ row ∈ rows.getLast?, rows.dropLast.getLast?.map (fun r => r.ident) = some row.ident

instance (rows : List LineRow) : Decidable (LastContinues rows) :=
  inferInstanceAs (Decidable (∀ row ∈ rows.getLast?,
    rows.dropLast.getLast?.map (fun r => r.ident) = some row.ident))

theorem flatMap_data_groupSerie (gs : List (List LineRow)) :
    ((gs.map groupSerie).flatMap fun s => s.data) = gs.flatten.map fun r => r.res := by
  rw [List.flatMap_map, List.map_flatten]
  rfl

/-- The series of all runs lose nothing. -/
theorem lossless_runs (rows : List LineRow) :
    Lossless rows ((runs (fun r => r.ident) rows).map groupSerie) where
  counts := by rw [flatMap_data_groupSerie, flatten_runs]
  names := by rw [List.map_map]; rfl

/-- The series of the runs that are kept. -/
theorem lossless_closed_iff (rows : List LineRow) :
    Lossless rows ((closed (runs (fun r => r.ident) rows)).map groupSerie) ↔
      LastContinues rows := by
  rcases List.eq_nil_or_concat rows with rfl | ⟨rows, row, rfl⟩
  · constructor
    · intro _ row hrow
      cases hrow
    · intro _
      exact lossless_runs []
  · have hcontinues : LastContinues (rows ++ [row]) ↔
        rows.getLast?.map (fun r => r.ident) = some row.ident := by
      simp [LastContinues]
    rw [List.concat_eq_append, hcontinues]
    constructor
    · intro h
      by_contra hlast
      have hne : ∀ r ∈ rows.getLast?, r.ident ≠ row.ident := fun r hr heq =>
        hlast (Option.map_eq_some_iff.mpr ⟨r, hr, heq⟩)
      -- the series are those of the rows before the last, so one count is missing
      have hlen := congrArg List.length h.counts
      rw [closed_runs_concat_of_ne hne, flatMap_data_groupSerie, flatten_runs, List.length_map,
        List.length_map, List.length_append, List.length_singleton] at hlen
      omega
    · intro hlast
      obtain ⟨r, hr, heq⟩ := Option.map_eq_some_iff.mp hlast
      rw [closed_runs_concat_of_eq hr heq]
      exact lossless_runs _

/-- **When the pivot loses nothing.**  Exactly when the last row does not open a
run. -/
theorem pivot_lossless (base : Connection) (param1 param2 param3 : Option Text)
    (args : Option (ℤ × Text)) (hargs : arguments param2 param3 = some args)
    (rows : List LineRow) (others : List ResultSet)
    (hbase : base (orNull param1) args = some (.line rows :: others))
    (hnamed : ∀ r ∈ rows, Named r) :
    (∃ name categories data,
      call (some base) param1 param2 param3 = .status200 (.line name categories data) ∧
        Lossless rows data) ↔ LastContinues rows := by
  rw [call_line hargs hbase hnamed, ← lossless_closed_iff]
  constructor
  · rintro ⟨_, _, data, heq, h⟩
    cases heq
    exact h
  · intro h
    exact ⟨_, _, _, rfl, h⟩

/-- The procedure that counts by origin. -/
def parOrigine : Text := "nbCoureurDepartement".toList

/-- One origin, counted at one lap count. -/
def uneOrigine : LineRow := ⟨some "IUT".toList, some "0".toList, 3⟩

/-- The same origin, counted at the next one. -/
def uneOrigine' : LineRow := ⟨some "IUT".toList, some "1".toList, 2⟩

theorem named_uneOrigine : ∀ r ∈ [uneOrigine, uneOrigine'], Named r := by
  intro r hr
  simp only [List.mem_cons, List.not_mem_nil, or_false] at hr
  rcases hr with rfl | rfl <;> exact ⟨"IUT".toList, by decide, rfl⟩

/-- A single row is lost. -/
theorem pivot_lossless_uneOrigine :
    (∀ r ∈ [uneOrigine], Named r) ∧
      ¬ ∃ name categories data,
        call (some fun _ _ => some [.line [uneOrigine]]) (some parOrigine) (some []) (some []) =
            .status200 (.line name categories data) ∧
          Lossless [uneOrigine] data := by
  have hnamed : ∀ r ∈ [uneOrigine], Named r := fun r hr =>
    named_uneOrigine r (List.mem_cons.mpr (Or.inl (List.mem_singleton.mp hr)))
  have hargs : arguments (some []) (some []) = some none := rfl
  refine ⟨hnamed, ?_⟩
  rintro ⟨_, _, data, heq, h⟩
  rw [call_line hargs rfl hnamed] at heq
  cases heq
  exact absurd ((lossless_closed_iff _).mp h) (by decide)

/-- The condition at two rows of one origin. -/
theorem pivot_lossless_at_uneOrigine :
    (∃ name categories data,
      call (some fun _ _ => some [.line [uneOrigine, uneOrigine']]) (some parOrigine) (some [])
          (some []) = .status200 (.line name categories data) ∧
        Lossless [uneOrigine, uneOrigine'] data) ↔ LastContinues [uneOrigine, uneOrigine'] :=
  pivot_lossless (fun _ _ => some [.line [uneOrigine, uneOrigine']]) (some parOrigine) (some [])
    (some []) none rfl [uneOrigine, uneOrigine'] [] rfl named_uneOrigine

end Servlet
end RondeDesFacs
