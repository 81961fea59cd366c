import RondeDesFacs.Bdd.Fonctions
import Mathlib.Algebra.Group.Int.Defs
import Mathlib.Data.List.Range

/-!
# The stored procedures

A procedure sends one result set for each `SELECT` it executes, so
`nbCoureurDepartement` and `nbCoureurSexe`, whose `SELECT` stands in a `WHILE`
loop over the lap counts `0` to `10`, send eleven (`boucle_eq`), and
`topRunner` sends one or none.

The two distributions differ in the column they group by and in nothing else:
both are `nbCoureurPar`.
-/

namespace RondeDesFacs

open Query

/-- A row of a distribution: `IDENT`, `AXIS`, `RES`. -/
structure StatRow where
  ident : Option Text
  axis : ℕ
  res : ℕ
  deriving DecidableEq

/-- A row of `topRunner`: `IDENT`, `RES`, `LAST_NAME`, `FIRST_NAME`, `PICTURE`. -/
structure RankRow where
  ident : Option Text
  res : ℕ
  lastName : Option Text
  firstName : Option Text
  picture : Option Bytes
  deriving DecidableEq

namespace Bdd

/-- `ORDER BY` on a text column, NULL first. -/
def identLe : Option Text → Option Text → Bool
  | none, _ => true
  | some _, none => false
  | some s, some t => latin1SwedishCi.le s t

/-- `order by AXIS, IDENT`. -/
def axisIdentLe (r s : StatRow) : Bool :=
  decide (r.axis < s.axis) || (decide (r.axis = s.axis) && identLe r.ident s.ident)

/-- What `GROUP BY` compares of a text column; the NULL values are one group. -/
def groupText (t : Option Text) : Option (List ℕ) := t.map latin1SwedishCi.key

variable (b : Bdd)

/-- The participants with `v1` laps. -/
def runnersAt (v1 : ℕ) : List Participant :=
  b.participant.filter fun p => b.nbTourCoureur p.partId = v1

/-- The `SELECT` of a distribution at `v1` laps: the runners with that many, by
the value of a column.  A group shows the value of its first row. -/
def selectPar (colonne : Participant → Option Text) (v1 : ℕ) : List StatRow :=
  orderBy axisIdentLe
    ((groupBy (fun p => groupText (colonne p)) (b.runnersAt v1)).map fun g =>
      ⟨g.head?.bind colonne, v1, g.length⟩)

/-- `WHILE v1 <= 10 DO ...; SET v1 = v1 + 1; END WHILE`, as the list of what the
body sends. -/
def boucle {α : Type*} (corps : ℕ → α) (v1 : ℕ) : List α :=
  if v1 ≤ 10 then corps v1 :: boucle corps (v1 + 1) else []
termination_by 11 - v1

/-- A distribution: one result set for each lap count. -/
def nbCoureurPar (colonne : Participant → Option Text) : List (List StatRow) :=
  boucle (b.selectPar colonne) 0

/-- `nbCoureurDepartement()`. -/
def nbCoureurDepartement : List (List StatRow) := b.nbCoureurPar fun p => p.partOrigine

/-- `nbCoureurSexe()`. -/
def nbCoureurSexe : List (List StatRow) := b.nbCoureurPar fun p => p.partSexe

/-- The ranked rows of `topRunner`: one for each card, `order by res`. -/
def classement : List RankRow :=
  orderBy (fun r s => decide (r.res ≤ s.res))
    ((innerJoin b.participant b.carte fun p c => p.partId = c.carteIdEtudiant).map fun x =>
      { ident := x.1.partIdEtudiant, res := b.nbTourCoureur x.1.partId,
        lastName := x.1.partNom, firstName := x.1.partPrenom, picture := x.1.partAvatar })

/-- The number of rows `topRunner` sends at most. -/
def indexmax : ℕ := 9

/-- `limit indexx, indexmax`, after `SET indexx := indexx - 1`.  The server reads
the offset as an unsigned number, so a negative one is past the end of any table. -/
def topWindow {α : Type*} (indexx : ℤ) (rows : List α) : List α :=
  limit ((indexx - 1) % 2 ^ 64).toNat indexmax rows

/-- `topRunner(indexx, idEtudiant)`.  The second argument is not used. -/
def topRunner (indexx : ℤ) (_idEtudiant : Text) : List (List RankRow) :=
  if indexx ≠ 0 then [topWindow indexx b.classement] else []

/-! ## The loop -/

theorem boucle_eq_range' {α : Type*} (corps : ℕ → α) (v1 : ℕ) :
    boucle corps v1 = (List.range' v1 (11 - v1)).map corps := by
  induction v1 using boucle.induct with
  | case1 v1 h ih =>
    have hlen : 11 - v1 = (11 - (v1 + 1)) + 1 := by omega
    rw [boucle, if_pos h, ih, hlen, List.range'_succ, List.map_cons]
  | case2 v1 h =>
    have hlen : 11 - v1 = 0 := by omega
    rw [boucle, if_neg h, hlen, List.range'_zero, List.map_nil]

/-- The loop sends the result sets for `0, ..., 10`, in that order. -/
theorem boucle_eq {α : Type*} (corps : ℕ → α) : boucle corps 0 = (List.range 11).map corps := by
  rw [boucle_eq_range', List.range_eq_range']

/-! ## The rows of a distribution -/

variable {b} {colonne : Participant → Option Text} {v1 : ℕ}

/-- A row of a distribution counts the runners of one group, and shows the value
one of them has. -/
theorem mem_selectPar {r : StatRow} (h : r ∈ b.selectPar colonne v1) :
    ∃ g, g ∈ groupBy (fun p => groupText (colonne p)) (b.runnersAt v1) ∧
      r = ⟨g.head?.bind colonne, v1, g.length⟩ := by
  rw [selectPar, (orderBy_perm _ _).mem_iff, List.mem_map] at h
  obtain ⟨g, hg, rfl⟩ := h
  exact ⟨g, hg, rfl⟩

theorem exists_ident_of_mem_selectPar {r : StatRow} (h : r ∈ b.selectPar colonne v1) :
    ∃ p ∈ b.participant, r.ident = colonne p := by
  obtain ⟨g, hg, rfl⟩ := mem_selectPar h
  obtain ⟨p, g', rfl⟩ := List.exists_cons_of_ne_nil (ne_nil_of_mem_groupBy hg)
  obtain ⟨a, -, hfilter⟩ := mem_groupBy_iff.mp hg
  have hp : p ∈ b.runnersAt v1 := by
    have hmem : p ∈ (b.runnersAt v1).filter fun q =>
        decide (groupText (colonne q) = groupText (colonne a)) := by
      rw [← hfilter]
      exact List.mem_cons_self ..
    exact List.mem_of_mem_filter hmem
  exact ⟨p, List.mem_of_mem_filter hp, rfl⟩

/-- The rows of one result set show different values. -/
theorem nodup_ident_selectPar (b : Bdd) (colonne : Participant → Option Text) (v1 : ℕ) :
    ((b.selectPar colonne v1).map fun r => r.ident).Nodup := by
  rw [selectPar, ((orderBy_perm _ _).map _).nodup_iff, List.map_map]
  refine List.Pairwise.map _ ?_
    ((pairwise_groupBy (b.runnersAt v1)).imp_of_mem fun hg hg' h => And.intro hg (And.intro hg' h))
  rintro g g' ⟨hg, hg', hne⟩
  obtain ⟨p, t, rfl⟩ := List.exists_cons_of_ne_nil (ne_nil_of_mem_groupBy hg)
  obtain ⟨q, u, rfl⟩ := List.exists_cons_of_ne_nil (ne_nil_of_mem_groupBy hg')
  intro heq
  exact hne p (List.mem_cons_self ..) q (List.mem_cons_self ..) (congrArg groupText heq)

/-- A result set is empty when no runner has its lap count. -/
theorem selectPar_eq_nil_iff :
    b.selectPar colonne v1 = [] ↔ ∀ p ∈ b.participant, b.nbTourCoureur p.partId ≠ v1 := by
  rw [← List.perm_nil, selectPar, (orderBy_perm _ _).congr_left, List.perm_nil,
    List.map_eq_nil_iff, groupBy_eq_nil_iff, runnersAt, List.filter_eq_nil_iff]
  simp

end Bdd
end RondeDesFacs
