import RondeDesFacs.Page.DataManager
import RondeDesFacs.Library.Tally
import Mathlib.Algebra.Ring.Int.Defs

/-!
# Counting in a plain object

The functions of `dataManager` count in a plain object: what is not there yet, as
`== undefined` tells, is set to `0`, and then the value is added.  For most names
this is a tally (`tient_compte`), and the result for a chart is an exact group-by.

A plain object, however, is not empty.  Under the names of what every object
inherits it has functions, which are not `undefined`, and adding a number to a
function makes a text of the two; and what is written under `__proto__` is not kept
at all.  So the group-by is exact if and only if no group has such a name
(`chart_groups`).

Numbers are integers here.  Those of the page are exact as long as no number, and no sum on
the way to a total, exceeds `2 ^ 53`.
-/

namespace RondeDesFacs
namespace Page

open Association Passes Script Tally

/-- An integer. -/
def entier (n : ℤ) : Valeur (Option ℤ) := .number (some n)

/-- The integer that a value is; zero if it is none. -/
def entierDe : Valeur (Option ℤ) → ℤ
  | .number (some n) => n
  | _ => 0

/-- An object holds a table: no name twice, and the numbers of the table. -/
structure Tient (o : Objet (Option ℤ)) (T : Chaine → Option ℤ) : Prop where
  nodup : (keys o).Nodup
  get_eq : ∀ k, get o k = (T k).map entier

/-- **An exact group-by.**  One pair for each key of the entries, with the total of
the key, and the totals add up. -/
structure GroupeExact (entrees : List (Chaine × ℤ)) (res : List (Chaine × Valeur (Option ℤ))) :
    Prop where
  unique : (keys res).Nodup
  paires : ∀ e, e ∈ res ↔ ∃ k ∈ entrees.map Prod.fst, e = (k, entier (total entrees k))
  somme : ∃ totaux : List ℤ, res.map Prod.snd = totaux.map entier ∧
    totaux.sum = (entrees.map Prod.snd).sum

/-- The key and the value of each record. -/
def entreesChart (json : DataJson (Option ℤ)) (groupBy : Chaine) (l : List (Fields (Option ℤ))) :
    List (Chaine × ℤ) :=
  l.map fun fields => ((fields groupBy).texte, entierDe (value json fields))

/-! ## One record -/

section Compte

variable {o : Objet (Option ℤ)} {T : Chaine → Option ℤ} {key : Chaine}

theorem heritee_of_not {N : Type*} (h : ¬ Heritee key) :
    (heritee key : Valeur N) = .undefined := by
  rw [Heritee, not_or, not_or] at h
  rw [heritee, if_neg h.1, if_neg h.2.1, if_neg h.2.2]

theorem entier_plus (m n : ℤ) : (entier m).plus (entier n) = entier (m + n) := rfl

/-- **A record is counted** under a name that is not inherited. -/
theorem get_compte_self (ho : Tient o T) (hkey : ¬ Heritee key) (n : ℤ) :
    get (compte o key (entier n)) key = some (entier ((T key).getD 0 + n)) := by
  have hproto : key ≠ proto := fun h => hkey (Or.inl h)
  have hlire : lire o key = ((T key).map entier).getD .undefined := by
    rw [lire, ho.get_eq, heritee_of_not hkey]
  rw [compte, get_ecrire_self hproto]
  rcases hT : T key with _ | m
  · -- the first of its name
    have hvide : (lire o key).estVide = true := by
      rw [hlire, hT]
      rfl
    have hzero : lire (ecrire o key (.ofNat 0)) key = (entier 0 : Valeur (Option ℤ)) := by
      rw [lire, get_ecrire_self hproto]
      rfl
    rw [if_pos hvide, hzero, entier_plus]
    rfl
  · have hnumber : lire o key = entier m := by
      rw [hlire, hT]
      rfl
    have hvide : ¬ (lire o key).estVide = true := by
      rw [hnumber]
      exact Bool.false_ne_true
    rw [if_neg hvide, hnumber, entier_plus]
    rfl

theorem get_compte_of_ne {k : Chaine} (h : k ≠ key) (v : Valeur (Option ℤ)) :
    get (compte o key v) k = get o k := by
  rw [compte, get_ecrire_of_ne h]
  split_ifs
  · exact get_ecrire_of_ne h _
  · rfl

theorem nodup_keys_compte (ho : (keys o).Nodup) (v : Valeur (Option ℤ)) :
    (keys (compte o key v)).Nodup := by
  rw [compte]
  refine nodup_keys_ecrire ?_ _ _
  split_ifs
  · exact nodup_keys_ecrire ho _ _
  · exact ho

/-- **Counting is a tally.** -/
theorem tient_compte (ho : Tient o T) (hkey : ¬ Heritee key) (n : ℤ) :
    Tient (compte o key (entier n)) (bump T key n) where
  nodup := nodup_keys_compte ho.nodup _
  get_eq k := by
    by_cases hk : k = key
    · rw [hk, get_compte_self ho hkey, bump_self]
      rfl
    · rw [get_compte_of_ne hk, bump_of_ne hk, ho.get_eq]

/-- What is found under an inherited name is no number: nothing, or a text. -/
def SansNombre (o : Objet (Option ℤ)) (k : Chaine) : Prop :=
  get o k = none ∨ ∃ t, get o k = some (.string t)

theorem exists_heritee_eq {k : Chaine} (hk : Heritee k) :
    ∃ t, (heritee k : Valeur (Option ℤ)) = .autre t := by
  unfold heritee
  split_ifs with hproto hconstructor hmem
  · exact ⟨_, rfl⟩
  · exact ⟨_, rfl⟩
  · exact ⟨_, rfl⟩
  · exact absurd hk (by simp [Heritee, hproto, hconstructor, hmem])

/-- It is not taken for `undefined` either, and adding to it makes a text. -/
theorem lire_of_sansNombre {k : Chaine} (hk : Heritee k) (ho : SansNombre o k) :
    (lire o k).estVide = false ∧ (lire o k).nombre? = none := by
  rcases ho with hnone | ⟨t, ht⟩
  · obtain ⟨t, ht⟩ := exists_heritee_eq hk
    rw [lire, hnone, Option.getD_none, ht]
    exact ⟨rfl, rfl⟩
  · rw [lire, ht]
    exact ⟨rfl, rfl⟩

/-- **Under an inherited name nothing is counted.** -/
theorem sansNombre_compte {k : Chaine} (hk : Heritee k) (ho : SansNombre o k)
    (key : Chaine) (v : Valeur (Option ℤ)) : SansNombre (compte o key v) k := by
  by_cases hkey : k = key
  · subst hkey
    obtain ⟨hvide, hnombre⟩ := lire_of_sansNombre hk ho
    have hplus : (lire o k).plus v = .string ((lire o k).texte ++ v.texte) := by
      rw [Valeur.plus, hnombre]
    rw [compte, hvide, if_neg Bool.false_ne_true, hplus]
    by_cases hproto : k = proto
    · -- `__proto__` is not written to
      rw [ecrire, if_pos hproto]
      exact ho
    · exact Or.inr ⟨_, get_ecrire_self hproto _⟩
  · rw [SansNombre, get_compte_of_ne hkey]
    exact ho

end Compte

/-! ## All records -/

theorem tient_ordre {o : Objet (Option ℤ)} {T : Chaine → Option ℤ} (ho : Tient o T) :
    Tient (ordre o) T where
  nodup := (keys_ordre_perm o).nodup_iff.mpr ho.nodup
  get_eq k := by rw [get_ordre ho.nodup, ho.get_eq]

/-- **Counting all records.** -/
theorem tient_foldl {α : Type*} {key : α → Chaine} {v : α → Valeur (Option ℤ)} {l : List α}
    (hkey : ∀ a ∈ l, ¬ Heritee (key a)) (hv : ∀ a ∈ l, ∃ n, v a = entier n)
    {o : Objet (Option ℤ)} {T : Chaine → Option ℤ} (ho : Tient o T) :
    Tient (l.foldl (fun o a => compte o (key a) (v a)) o)
      (tally T (l.map fun a => (key a, entierDe (v a)))) := by
  induction l generalizing o T with
  | nil => exact ho
  | cons a l ih =>
    obtain ⟨ha, hrest⟩ := List.forall_mem_cons.mp hkey
    obtain ⟨hva, hvrest⟩ := List.forall_mem_cons.mp hv
    obtain ⟨n, hn⟩ := hva
    have hentree : (key a, entierDe (v a)) = (key a, n) := by rw [hn]; rfl
    rw [List.foldl_cons, List.map_cons, hentree, hn]
    exact ih hrest hvrest (tient_compte ho ha n)

theorem sansNombre_foldl {α : Type*} {key : α → Chaine} {v : α → Valeur (Option ℤ)} (l : List α)
    {k : Chaine} (hk : Heritee k) {o : Objet (Option ℤ)} (ho : SansNombre o k) :
    SansNombre (l.foldl (fun o a => compte o (key a) (v a)) o) k := by
  induction l generalizing o with
  | nil => exact ho
  | cons a l ih => exact ih (sansNombre_compte hk ho _ _)

/-- The pairs of an object that holds a tally are the groups. -/
theorem groupeExact_of_tient {entrees : List (Chaine × ℤ)} {res : List (Chaine × Valeur (Option ℤ))}
    (h : Tient res (tally (fun _ => none) entrees)) : GroupeExact entrees res := by
  have hget : ∀ k, get res k =
      if k ∈ entrees.map Prod.fst then some (entier (total entrees k)) else none := by
    intro k
    rw [h.get_eq, tally_apply, Option.getD_none, zero_add]
    split_ifs <;> rfl
  have hpaires : ∀ e, e ∈ res ↔ ∃ k ∈ entrees.map Prod.fst, e = (k, entier (total entrees k)) := by
    rintro ⟨k, v⟩
    rw [← get_eq_some_iff h.nodup, hget]
    constructor
    · intro hv
      split_ifs at hv with hmem
      exact ⟨k, hmem, by rw [Option.some_inj.mp hv]⟩
    · rintro ⟨k', hmem, heq⟩
      obtain ⟨rfl, rfl⟩ := Prod.mk.inj heq
      rw [if_pos hmem]
  refine ⟨h.nodup, hpaires, (keys res).map (total entrees), ?_, sum_total h.nodup ?_⟩
  · rw [keys, List.map_map, List.map_map]
    refine List.map_congr_left fun e he => ?_
    obtain ⟨k, -, rfl⟩ := (hpaires e).mp he
    rfl
  · intro e he
    have hmem : (e.1, entier (total entrees e.1)) ∈ res :=
      (hpaires _).mpr ⟨e.1, List.mem_map_of_mem he, rfl⟩
    exact List.mem_map_of_mem hmem

/-! ## The chart -/

/-- The result for records that can all be looked at. -/
theorem getChartFormattedData_eq {dataJsons : DataJsons (Option ℤ)} {dataName : Chaine}
    {json : DataJson (Option ℤ)} {l : List (Fields (Option ℤ))}
    (hjson : getDataJson dataJsons dataName = some json) (hdata : json.data = some (l.map some))
    (groupBy : Chaine) :
    getChartFormattedData dataJsons dataName groupBy =
      some (ordre (l.foldl (fun o fields => compte o (fields groupBy).texte (value json fields))
        [])) := by
  have hfold : (l.map some).foldlM (compteChart json groupBy) [] =
      some (l.foldl (fun o fields => compte o (fields groupBy).texte (value json fields)) []) := by
    rw [List.foldlM_map]
    exact foldlM_eq_foldl (fun _ _ _ => rfl) _
  rw [getChartFormattedData_of_data hjson hdata, hfold]
  rfl

/-- **When a chart shows an exact group-by.**  Exactly when no group has the name of
something that every object inherits.  (Of integers up to `2 ^ 53`.) -/
theorem chart_groups (dataJsons : DataJsons (Option ℤ)) (dataName groupBy : Chaine)
    (json : DataJson (Option ℤ)) (l : List (Fields (Option ℤ)))
    (hjson : getDataJson dataJsons dataName = some json) (hdata : json.data = some (l.map some))
    (hvalue : ∀ fields ∈ l, ∃ n, value json fields = entier n) :
    (∃ res, getChartFormattedData dataJsons dataName groupBy = some res ∧
        GroupeExact (entreesChart json groupBy l) res) ↔
      ∀ fields ∈ l, ¬ Heritee (fields groupBy).texte := by
  rw [getChartFormattedData_eq hjson hdata]
  constructor
  · rintro ⟨res, hres, h⟩ fields hfields hheritee
    have hsans : SansNombre (l.foldl (fun o fields =>
        compte o (fields groupBy).texte (value json fields)) []) (fields groupBy).texte :=
      sansNombre_foldl l hheritee (Or.inl rfl)
    have hordre := Option.some_inj.mp hres
    -- the group has a pair with a number, and the object has none
    have hmem : (fields groupBy).texte ∈ (entreesChart json groupBy l).map Prod.fst :=
      List.mem_map_of_mem (List.mem_map_of_mem hfields)
    have hpaire := (get_eq_some_iff h.unique _ _).mpr ((h.paires _).mpr ⟨_, hmem, rfl⟩)
    have hunique := h.unique
    rw [← hordre] at hunique hpaire
    rw [get_ordre ((keys_ordre_perm _).nodup_iff.mp hunique)] at hpaire
    rcases hsans with hnone | ⟨t, ht⟩
    · rw [hnone] at hpaire
      cases hpaire
    · rw [ht] at hpaire
      cases hpaire
  · intro h
    have hempty : Tient [] fun _ => none := ⟨List.nodup_nil, fun _ => rfl⟩
    exact ⟨_, rfl, groupeExact_of_tient (tient_ordre (tient_foldl h hvalue hempty))⟩

/-- A dataset without values, whose records have one of these texts in every field. -/
def textes (ts : List String) : DataJson (Option ℤ) where
  data := some ((ts.map fun t _ => .string (chaine t)).map some)
  keyJoinner := none
  codeFormatter := none
  valueKey := none

/-- A group called `constructor` has a text for its total. -/
theorem chart_groups_constructor :
    ¬ ∃ res, getChartFormattedData [(chaine "a", textes ["constructor"])] (chaine "a")
        (chaine "ville") = some res ∧
      GroupeExact (entreesChart (textes ["constructor"]) (chaine "ville")
        [fun _ => .string (chaine "constructor")]) res := by
  rintro ⟨res, hres, h⟩
  have hpaire := (h.paires (chaine "constructor", entier 1)).mpr ⟨chaine "constructor", by decide,
    by decide⟩
  have htexte : getChartFormattedData [(chaine "a", textes ["constructor"])] (chaine "a")
      (chaine "ville") = some [(chaine "constructor",
        .string (chaine "function Object() \x7b [native code] \x7d1"))] := by decide +kernel
  rw [hres, Option.some_inj] at htexte
  rw [htexte] at hpaire
  revert hpaire
  decide

/-- Three records in two groups. -/
def villes : List (Fields (Option ℤ)) :=
  ["Paris", "Nice", "Paris"].map fun t _ => .string (chaine t)

/-- The condition for them. -/
theorem chart_groups_at_paris :
    (∃ res, getChartFormattedData [(chaine "a", textes ["Paris", "Nice", "Paris"])] (chaine "a")
          (chaine "ville") = some res ∧
        GroupeExact (entreesChart (textes ["Paris", "Nice", "Paris"]) (chaine "ville") villes)
          res) ↔
      ∀ fields ∈ villes, ¬ Heritee (fields (chaine "ville")).texte :=
  chart_groups [(chaine "a", textes ["Paris", "Nice", "Paris"])] (chaine "a") (chaine "ville")
    (textes ["Paris", "Nice", "Paris"]) villes rfl rfl fun _ _ => ⟨1, rfl⟩

end Page
end RondeDesFacs
