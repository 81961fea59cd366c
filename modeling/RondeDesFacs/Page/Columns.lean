import RondeDesFacs.Page.Groups
import Mathlib.Algebra.Order.Field.Rat
import Mathlib.Tactic.Linarith
import Mathlib.Tactic.Positivity

/-!
# The columns of a chart

`getColumnChartFormattedData` is a second copy of `getChartFormattedData`.  It counts the
keys too, in the first loop, and divides by their number in the second, where it goes
through them to make each green a little more transparent than the one before.

The two agree for all values, numbers or not: what `+=` writes is never `undefined`, so a
key is taken for a new one exactly once (`Pleine`), and the counter is the number of
keys (`foldl_compteColonne`).  This needs that no key is there from the start.
-/

namespace RondeDesFacs
namespace Page

open Association Passes Script

variable {N : Type} [Nombre N]

/-- The columns show these pairs, one beside the other. -/
structure MontrePaires (colonnes : ColumnData N) (paires : List (Chaine × Valeur N)) : Prop where
  longueur : colonnes.categories.length = colonnes.data.length
  paires : colonnes.categories.zip (colonnes.data.map fun c => c.y) = paires

/-- The greens fade: the first is opaque, each is more transparent than the one before,
and the last can still be seen. -/
structure Degrade (opacites : List ℚ) : Prop where
  premiere : ∀ a ∈ opacites.head?, a = 1
  decroit : opacites.Pairwise fun a b => b < a
  visible : ∀ a ∈ opacites, 1 / 5 < a

/-! ## One record -/

section Compte

variable {o : Objet N} {key : Chaine}

/-- No value of the object is taken for `undefined`. -/
def Pleine (o : Objet N) : Prop := ∀ k v, get o k = some v → v.estVide = false

theorem plus_estVide (a b : Valeur N) : (a.plus b).estVide = false := by
  unfold Valeur.plus
  split <;> rfl

omit [Nombre N] in
/-- A key is taken for a new one if it is one. -/
theorem lire_estVide_iff (ho : Pleine o) (hkey : ¬ Heritee key) :
    (lire o key).estVide = true ↔ key ∉ keys o := by
  rw [mem_keys_iff, lire]
  rcases hget : get o key with _ | v
  · rw [Option.getD_none, heritee_of_not hkey]
    simp [Valeur.estVide]
  · rw [Option.getD_some, ho key v hget]
    simp

theorem pleine_compte (ho : Pleine o) (hkey : ¬ Heritee key) (v : Valeur N) :
    Pleine (compte o key v) := by
  have hproto : key ≠ proto := fun h => hkey (Or.inl h)
  intro k w hw
  rw [compte] at hw
  by_cases hk : k = key
  · subst hk
    rw [get_ecrire_self hproto, Option.some_inj] at hw
    rw [← hw, plus_estVide]
  · rw [get_ecrire_of_ne hk] at hw
    split_ifs at hw
    · rw [get_ecrire_of_ne hk] at hw
      exact ho k w hw
    · exact ho k w hw

/-- A new key comes last. -/
theorem keys_compte (ho : Pleine o) (hkey : ¬ Heritee key) (v : Valeur N) :
    keys (compte o key v) = if key ∈ keys o then keys o else keys o ++ [key] := by
  have hproto : key ≠ proto := fun h => hkey (Or.inl h)
  have hvide := lire_estVide_iff ho hkey
  by_cases hmem : key ∈ keys o
  · rw [compte, if_neg fun h => hvide.mp h hmem, ecrire, if_neg hproto, keys_put, if_pos hmem,
      if_pos hmem]
  · have hzero : keys (ecrire o key (.ofNat 0)) = keys o ++ [key] := by
      rw [ecrire, if_neg hproto, keys_put, if_neg hmem]
    rw [compte, if_pos (hvide.mpr hmem), ecrire, if_neg hproto, keys_put, hzero, if_neg hmem,
      if_pos (List.mem_append_right _ (List.mem_singleton_self key))]

end Compte

/-! ## All records -/

section Records

variable {groupBy : Chaine} {l : List (Fields N)}

/-- **The two loops agree**, and the counter is the number of keys. -/
theorem foldl_compteColonne (json : DataJson N)
    (hkeys : ∀ fields ∈ l, ¬ Heritee (fields groupBy).texte) {o : Objet N} (ho : Pleine o) :
    (l.map some).foldlM (compteColonne json groupBy) (o, (keys o).length) =
      ((l.map some).foldlM (compteChart json groupBy) o).map fun o' =>
        (o', (keys o').length) := by
  induction l generalizing o with
  | nil => rfl
  | cons fields l ih =>
    obtain ⟨hkey, hrest⟩ := List.forall_mem_cons.mp hkeys
    set key := (fields groupBy).texte with hdef
    set v := value json fields
    have hindex : (if (lire o key).estVide then (keys o).length + 1 else (keys o).length) =
        (keys (compte o key v)).length := by
      rw [keys_compte ho hkey]
      by_cases hmem : key ∈ keys o
      · rw [if_neg fun h => (lire_estVide_iff ho hkey).mp h hmem, if_pos hmem]
      · rw [if_pos ((lire_estVide_iff ho hkey).mpr hmem), if_neg hmem, List.length_append,
          List.length_singleton]
    have hstep : compteColonne json groupBy (o, (keys o).length) (some fields) =
        some (compte o key v, (keys (compte o key v)).length) := by
      rw [← hindex]
      rfl
    rw [List.map_cons, List.foldlM_cons, List.foldlM_cons, hstep]
    exact ih hrest (pleine_compte ho hkey v)

end Records

/-! ## The greens -/

/-- The opacities for some number of columns. -/
theorem degrade_range (n : ℕ) :
    Degrade ((List.range n).map fun i : ℕ => (1 : ℚ) - 4 / 5 / n * i) where
  premiere a ha := by
    rcases n with _ | n
    · cases ha
    · rw [List.range_succ_eq_map, List.map_cons, List.head?_cons, Option.mem_some_iff] at ha
      rw [← ha]
      simp
  decroit := by
    rw [List.pairwise_map]
    refine List.pairwise_lt_range.imp_of_mem fun {i j} hi _ hij => ?_
    have hn : (0 : ℚ) < n := by exact_mod_cast Nat.zero_lt_of_lt (List.mem_range.mp hi)
    have hlt : (i : ℚ) < j := by exact_mod_cast hij
    have halpha : (0 : ℚ) < 4 / 5 / n := by positivity
    exact sub_lt_sub_left (mul_lt_mul_of_pos_left hlt halpha) 1
  visible a ha := by
    obtain ⟨i, hi, rfl⟩ := List.mem_map.mp ha
    have hlt : (i : ℚ) < n := by exact_mod_cast List.mem_range.mp hi
    have hn : (0 : ℚ) < n := lt_of_le_of_lt (Nat.cast_nonneg i) hlt
    have halpha : (0 : ℚ) < 4 / 5 / n := by positivity
    have hall : (4 : ℚ) / 5 / n * n = 4 / 5 := div_mul_cancel₀ _ hn.ne'
    have hlast := mul_lt_mul_of_pos_left hlt halpha
    linarith

/-! ## The two views -/

/-- The columns, from what the first loop leaves. -/
def colonnes (o : Objet N) (index : ℕ) : ColumnData N where
  categories := (ordre o).map Prod.fst
  data := (ordre o).zipIdx.map fun e => ⟨e.1.2, 1 - 4 / 5 / (index : ℚ) * e.2⟩

theorem getColumnChartFormattedData_of_data {dataJsons : DataJsons N} {dataName groupBy : Chaine}
    {json : DataJson N} {records : List (Option (Fields N))} {o : Objet N} {index : ℕ}
    (hjson : getDataJson dataJsons dataName = some json) (hdata : json.data = some records)
    (hfold : records.foldlM (compteColonne json groupBy) ([], 0) = some (o, index)) :
    getColumnChartFormattedData dataJsons dataName groupBy = some (colonnes o index) := by
  rw [getColumnChartFormattedData, hjson, Option.bind_eq_bind, Option.bind_some, hdata,
    Option.bind_eq_bind, Option.bind_some]
  exact congrArg (Option.bind · _) hfold

omit [Nombre N] in
/-- They show the pairs of the pie. -/
theorem montrePaires_colonnes (o : Objet N) (index : ℕ) :
    MontrePaires (colonnes o index) (ordre o) where
  longueur := by rw [colonnes, List.length_map, List.length_map, List.length_zipIdx]
  paires := by
    have hvaleurs : ((ordre o).zipIdx.map fun e => e.1.2) = (ordre o).map Prod.snd := by
      conv_rhs => rw [← List.zipIdx_map_fst 0 (ordre o), List.map_map]
      rfl
    rw [colonnes, List.map_map]
    exact (List.zip_of_prod rfl hvaleurs.symm).symm

omit [Nombre N] in
/-- With the number of keys for a counter the greens fade. -/
theorem degrade_colonnes (o : Objet N) :
    Degrade ((colonnes o (ordre o).length).data.map fun c => c.opacite) := by
  have hopacites : ((ordre o).zipIdx.map fun e => 1 - 4 / 5 / ((ordre o).length : ℚ) * e.2) =
      (List.range (ordre o).length).map fun i : ℕ =>
        (1 : ℚ) - 4 / 5 / (ordre o).length * i := by
    rw [List.range_eq_range', ← List.zipIdx_map_snd 0 (ordre o), List.map_map]
    rfl
  rw [colonnes, List.map_map]
  exact hopacites ▸ degrade_range _

/-- **The columns and the pie agree**, whatever the values are: the columns are the pairs
of the pie in their order, the greens fade, and the counter is the number of keys. -/
theorem columns_agree (dataJsons : DataJsons N) (dataName groupBy : Chaine) (json : DataJson N)
    (l : List (Fields N)) (hjson : getDataJson dataJsons dataName = some json)
    (hdata : json.data = some (l.map some))
    (hkeys : ∀ fields ∈ l, ¬ Heritee (fields groupBy).texte) :
    ∃ paires colonnes, getChartFormattedData dataJsons dataName groupBy = some paires ∧
      getColumnChartFormattedData dataJsons dataName groupBy = some colonnes ∧
      MontrePaires colonnes paires ∧ Degrade (colonnes.data.map fun c => c.opacite) ∧
      ∃ o, (l.map some).foldlM (compteColonne json groupBy) ([], 0) =
        some (o, colonnes.categories.length) := by
  have hvide : Pleine ([] : Objet N) := fun k v h => by cases h
  have hfold := foldl_compteColonne json hkeys hvide
  obtain ⟨o, ho⟩ : ∃ o, (l.map some).foldlM (compteChart json groupBy) [] = some o := by
    rw [List.foldlM_map]
    exact ⟨_, foldlM_eq_foldl (fun _ _ _ => rfl) _⟩
  have hlength : (keys o).length = (ordre o).length := by
    rw [keys, List.length_map, (ordre_perm o).length_eq]
  rw [ho, Option.map_some, hlength] at hfold
  refine ⟨ordre o, colonnes o (ordre o).length, ?_,
    getColumnChartFormattedData_of_data hjson hdata hfold, montrePaires_colonnes _ _,
    degrade_colonnes o, o, ?_⟩
  · rw [getChartFormattedData_of_data hjson hdata, ho, Option.map_some]
  · rw [colonnes, List.length_map]
    exact hfold

/-- The columns of a dataset with two groups. -/
theorem columns_agree_at_paris :
    ∃ paires colonnes,
      getChartFormattedData [(chaine "a", textes ["Paris", "Nice", "Paris"])] (chaine "a")
        (chaine "ville") = some paires ∧
      getColumnChartFormattedData [(chaine "a", textes ["Paris", "Nice", "Paris"])] (chaine "a")
        (chaine "ville") = some colonnes ∧
      MontrePaires colonnes paires ∧ Degrade (colonnes.data.map fun c => c.opacite) ∧
      ∃ o, (villes.map some).foldlM
        (compteColonne (textes ["Paris", "Nice", "Paris"]) (chaine "ville")) ([], 0) =
          some (o, colonnes.categories.length) :=
  columns_agree [(chaine "a", textes ["Paris", "Nice", "Paris"])] (chaine "a") (chaine "ville")
    (textes ["Paris", "Nice", "Paris"]) villes rfl rfl fun fields h => by
      simp only [villes, List.map_cons, List.map_nil, List.mem_cons, List.not_mem_nil,
        or_false] at h
      rcases h with rfl | rfl | rfl <;> decide

end Page
end RondeDesFacs
