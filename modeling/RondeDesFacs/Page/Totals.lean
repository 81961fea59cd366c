import RondeDesFacs.Page.Codes
import Mathlib.Data.List.Induction

/-!
# All datasets together

`getFormattedAllData` adds up what `getFormattedData` gives for every dataset that is
registered.  Its result starts with the twenty codes too, but nothing is added for a
code that comes up: the sum of `undefined` and a number is no number.  And where one
dataset cannot be counted, nothing is given at all.

So the result is the total exactly if every record has a code, of an arrondissement or
one that is ignored (`all_data_total`).  As long as that holds, the result is a table
over the codes, in the order of the codes, and adding a dataset to it is adding its
numbers (`cumule_table`); so the order of the datasets cannot matter.  For the page this is
so of integers up to `2 ^ 53`, beyond which sums are rounded.
-/

namespace RondeDesFacs
namespace Page

open Association Passes Script Tally

/-- A call of `addDataJson`.  The name `__proto__` would not name a dataset but set the
prototype of `dataJsons`, and under a name that every object inherits there is a function
that is no formatter. -/
structure Ajout where
  dataName : Chaine
  dataJson : Records (Option ℤ)
  keyJoinner : Option Chaine
  codeFormatterName : Option Chaine
  valueKey : Option Chaine
  ordinaire : dataName ≠ proto
  formatter : ∀ name ∈ codeFormatterName, ¬ Heritee name

/-- The datasets after a call. -/
def enregistre (dataJsons : DataJsons (Option ℤ)) (a : Ajout) : DataJsons (Option ℤ) :=
  addDataJson dataJsons a.dataName a.dataJson a.keyJoinner a.codeFormatterName a.valueKey

/-- The datasets after a sequence of calls. -/
def ajoutes (as : List Ajout) : DataJsons (Option ℤ) := as.foldl enregistre []

/-- The number a result has for a code; zero if it does not report it. -/
def valeurEn (res : List (Chaine × Valeur (Option ℤ))) (c : Chaine) : ℤ :=
  ((get res c).map entierDe).getD 0

/-- The sum for a code over all the names registered. -/
def sommeDe (dataJsons : DataJsons (Option ℤ)) (c : Chaine) : ℤ :=
  ((keys dataJsons).map fun name =>
    valeurEn ((getFormattedData dataJsons name).getD []) c).sum

/-- The pointwise total: every code in the result has its sum, and every code that a
dataset reports is there. -/
structure Totaux (dataJsons : DataJsons (Option ℤ)) (out : List (Chaine × Valeur (Option ℤ))) :
    Prop where
  valeurs : ∀ e ∈ out, e.2 = entier (sommeDe dataJsons e.1)
  couvre : ∀ name ∈ keys dataJsons, ∀ res, getFormattedData dataJsons name = some res →
    keys res ⊆ keys out

/-- The records can all be looked at, and their values are integers. -/
def Entiers (json : DataJson (Option ℤ)) : Prop :=
  ∃ l : List (Fields (Option ℤ)), json.data = some (l.map some) ∧
    ∀ fields ∈ l, ∃ n, value json fields = entier n

/-- Every record has the code of an arrondissement, or one that is ignored. -/
def Situe (json : DataJson (Option ℤ)) : Prop :=
  ∀ l : List (Fields (Option ℤ)), json.data = some (l.map some) →
    ∀ fields ∈ l, ∃ key, codeDe json fields = some key ∧ (key ∈ codes ∨ depasse key = true)

/-- A result that reports integers, for arrondissements only. -/
structure Regulier (res : List (Chaine × Valeur (Option ℤ))) : Prop where
  nodup : (keys res).Nodup
  subset : keys res ⊆ codes
  entiers : ∀ e ∈ res, ∃ n, e.2 = entier n

/-! ## Registration -/

theorem nodup_keys_ajoutes (as : List Ajout) : (keys (ajoutes as)).Nodup := by
  have hfold : ∀ dataJsons : DataJsons (Option ℤ), (keys dataJsons).Nodup →
      (keys (as.foldl enregistre dataJsons)).Nodup := by
    induction as with
    | nil => exact fun _ h => h
    | cons a as ih => exact fun _ h => ih _ (nodup_keys_put h _ _)
  exact hfold [] List.nodup_nil

/-- Different names are kept as they come. -/
theorem ajoutes_of_nodup {as : List Ajout} (h : (as.map Ajout.dataName).Nodup) :
    ajoutes as = as.map fun a => (a.dataName,
      ⟨a.dataJson, a.keyJoinner, codeFormatter a.codeFormatterName, a.valueKey⟩) := by
  induction as using List.reverseRecOn with
  | nil => rfl
  | append_singleton as a ih =>
    rw [List.map_append, List.map_singleton] at h
    obtain ⟨has, -, hdisjoint⟩ := List.nodup_append'.mp h
    have hkeys : keys (ajoutes as) = as.map Ajout.dataName := by
      rw [ih has, keys, List.map_map]
      rfl
    have hnotMem : a.dataName ∉ keys (ajoutes as) := by
      rw [hkeys]
      exact fun hmem => hdisjoint hmem (List.mem_singleton_self _)
    have hstep : ajoutes (as ++ [a]) = enregistre (ajoutes as) a := List.foldl_append
    rw [hstep, enregistre, addDataJson, put_of_notMem hnotMem, ih has, List.map_append]
    rfl

/-- **Datasets of different names** are the same in whatever order they come. -/
theorem getDataJson_ajoutes_of_perm {as as' : List Ajout} (h : (as.map Ajout.dataName).Nodup)
    (hperm : as.Perm as') (name : Chaine) :
    getDataJson (ajoutes as') name = getDataJson (ajoutes as) name := by
  have h' : (as'.map Ajout.dataName).Nodup := (hperm.map _).nodup_iff.mp h
  refine get_eq_of_perm (nodup_keys_ajoutes as') ?_ name
  rw [ajoutes_of_nodup h, ajoutes_of_nodup h']
  exact hperm.symm.map _

theorem getDataJson_iff {as : List Ajout} {name : Chaine} {json : DataJson (Option ℤ)} :
    getDataJson (ajoutes as) name = some json ↔ (name, json) ∈ ajoutes as :=
  get_eq_some_iff (nodup_keys_ajoutes as) name json

/-! ## One dataset -/

section Dataset

variable {dataJsons : DataJsons (Option ℤ)} {dataName : Chaine} {json : DataJson (Option ℤ)}
  {l : List (Fields (Option ℤ))} {res : List (Chaine × Valeur (Option ℤ))}

theorem codee_of_isSome (h : ∀ fields ∈ l, (codeDe json fields).isSome) :
    Codee json (fun fields => (codeDe json fields).getD []) l := by
  intro fields hfields
  obtain ⟨key, hkey⟩ := Option.isSome_iff_exists.mp (h fields hfields)
  simp only [hkey, Option.getD_some]

/-- A dataset that can be counted has a code for each record. -/
theorem exists_codee (hjson : getDataJson dataJsons dataName = some json)
    (hdata : json.data = some (l.map some))
    (hres : getFormattedData dataJsons dataName = some res) : ∃ code, Codee json code l := by
  rw [getFormattedData_of_data hjson hdata] at hres
  obtain ⟨o, hfold, -⟩ := Option.map_eq_some_iff.mp hres
  rw [List.foldlM_map] at hfold
  refine ⟨_, codee_of_isSome (forall_of_foldlM (fun o fields o' ho' => ?_) hfold)⟩
  rw [compteCode_eq] at ho'
  obtain ⟨key, hkey, -⟩ := Option.map_eq_some_iff.mp ho'
  rw [hkey]
  rfl

/-- What is reported of it are integers. -/
theorem entier_of_mem (hjson : getDataJson dataJsons dataName = some json)
    (hentiers : Entiers json) (hres : getFormattedData dataJsons dataName = some res) :
    ∀ e ∈ res, ∃ n, e.2 = entier n := by
  obtain ⟨l, hdata, hvalue⟩ := hentiers
  obtain ⟨code, hcode⟩ := exists_codee hjson hdata hres
  have htient := tient_getFormattedData hjson hdata hcode hvalue hres
  intro e he
  have hget := (get_eq_some_iff htient.nodup e.1 e.2).mpr he
  rw [htient.get_eq] at hget
  obtain ⟨n, -, hn⟩ := Option.map_eq_some_iff.mp hget
  exact ⟨n, hn.symm⟩

/-- If every record has a code, of an arrondissement or ignored, the result has integers
for the arrondissements. -/
theorem exists_regulier_of_situe (hjson : getDataJson dataJsons dataName = some json)
    (hentiers : Entiers json) (hsitue : Situe json) :
    ∃ res, getFormattedData dataJsons dataName = some res ∧ Regulier res := by
  have hints : ∀ res, getFormattedData dataJsons dataName = some res →
      ∀ e ∈ res, ∃ n, e.2 = entier n := fun _ => entier_of_mem hjson hentiers
  obtain ⟨l, hdata, hvalue⟩ := hentiers
  have hcode : Codee json (fun fields => (codeDe json fields).getD []) l := by
    refine codee_of_isSome fun fields hfields => ?_
    obtain ⟨key, hkey, -⟩ := hsitue l hdata fields hfields
    rw [hkey]
    rfl
  have hres := getFormattedData_eq hjson hdata hcode
  refine ⟨_, hres, (couvre_getFormattedData hres).nodup, fun c hc => ?_, hints _ hres⟩
  by_contra hnot
  obtain ⟨fields, hfields, heq, hdepasse⟩ :=
    (mem_keys_iff_of_tient (tient_getFormattedData hjson hdata hcode hvalue hres) hnot).mp hc
  obtain ⟨key, hkey, hplace⟩ := hsitue l hdata fields hfields
  rw [hkey, Option.getD_some] at heq
  subst heq
  rcases hplace with hmem | hignored
  · exact hnot hmem
  · rw [hdepasse] at hignored
    cases hignored

end Dataset

/-! ## Tables -/

section Tables

variable {data : List (Chaine × Valeur (Option ℤ))}

/-- The object that has the numbers of a function for the codes. -/
def table (f : Chaine → ℤ) : Objet (Option ℤ) := codes.map fun c => (c, entier (f c))

/-- The integers that are reported. -/
def nombres (data : List (Chaine × Valeur (Option ℤ))) : List (Chaine × ℤ) :=
  data.map fun e => (e.1, entierDe e.2)

theorem total_nombres_cons (e : Chaine × Valeur (Option ℤ))
    (data : List (Chaine × Valeur (Option ℤ))) (c : Chaine) :
    total (nombres (e :: data)) c =
      (if e.1 = c then entierDe e.2 else 0) + total (nombres data) c :=
  total_cons _ _ _

theorem nodup_codes : codes.Nodup := by decide

theorem zeros_eq_table : zeros = table fun _ => 0 := rfl

theorem keys_table (f : Chaine → ℤ) : keys (table f) = codes := by
  rw [keys, table, List.map_map]
  exact List.map_id _

/-- One entry is added. -/
theorem ecrire_table {c : Chaine} (hc : c ∈ codes) (f : Chaine → ℤ) (n : ℤ) :
    ecrire (table f) c ((lire (table f) c).plus (entier n)) =
      table (Function.update f c (f c + n)) := by
  have hproto : c ≠ proto := by
    rintro rfl
    exact absurd hc (by decide)
  have hlire : lire (table f) c = entier (f c) := by
    rw [lire, table, get_map_of_mem hc]
    rfl
  rw [hlire, entier_plus, ecrire, if_neg hproto, table, put_map_of_mem nodup_codes hc, table]
  refine List.map_congr_left fun c' _ => ?_
  by_cases h : c' = c
  · rw [h, Function.update_self, Function.update_self]
  · rw [Function.update_of_ne h, Function.update_of_ne h]

/-- **A dataset is added.**  Where all its codes are in the table, this adds its totals. -/
theorem cumule_table (hkeys : keys data ⊆ codes) (hints : ∀ e ∈ data, ∃ n, e.2 = entier n)
    (f : Chaine → ℤ) :
    cumule (table f) data = table fun c => f c + total (nombres data) c := by
  induction data generalizing f with
  | nil => exact congrArg table (funext fun c => (add_zero (f c)).symm)
  | cons e data ih =>
    obtain ⟨he, hrest⟩ := List.cons_subset.mp hkeys
    obtain ⟨⟨n, hn⟩, hints⟩ := List.forall_mem_cons.mp hints
    have hstep : cumule (table f) (e :: data) =
        cumule (table (Function.update f e.1 (f e.1 + n))) data := by
      rw [cumule, List.foldl_cons, hn, ecrire_table he]
      rfl
    rw [hstep, ih hrest hints]
    refine congrArg table (funext fun c => ?_)
    have hentier : entierDe e.2 = n := by rw [hn]; rfl
    rw [total_nombres_cons, hentier]
    by_cases hc : e.1 = c
    · subst hc
      rw [Function.update_self, if_pos rfl, add_assoc]
    · rw [Function.update_of_ne (Ne.symm hc), if_neg hc, zero_add]

/-- Without a name twice, a total is what is found under the name. -/
theorem total_nombres (h : (keys data).Nodup) (c : Chaine) :
    total (nombres data) c = valeurEn data c := by
  induction data with
  | nil => rfl
  | cons e data ih =>
    obtain ⟨hnotMem, hnodup⟩ := List.nodup_cons.mp h
    rw [total_nombres_cons, valeurEn, get_cons]
    by_cases hc : e.1 = c
    · subst hc
      have hrest : e.1 ∉ (nombres data).map Prod.fst := by
        rw [nombres, List.map_map]
        exact hnotMem
      rw [if_pos rfl, if_pos rfl, total_of_notMem hrest, add_zero]
      rfl
    · rw [if_neg hc, if_neg hc, zero_add]
      exact ih hnodup

/-- All datasets are added. -/
theorem foldl_cumule_table {datas : List (List (Chaine × Valeur (Option ℤ)))}
    (h : ∀ data ∈ datas, Regulier data) (f : Chaine → ℤ) :
    datas.foldl cumule (table f) =
      table fun c => f c + (datas.map fun data => valeurEn data c).sum := by
  induction datas generalizing f with
  | nil => exact congrArg table (funext fun c => (add_zero (f c)).symm)
  | cons data datas ih =>
    obtain ⟨hdata, hrest⟩ := List.forall_mem_cons.mp h
    rw [List.foldl_cons, cumule_table hdata.subset hdata.entiers, ih hrest]
    refine congrArg table (funext fun c => ?_)
    rw [total_nombres hdata.nodup, List.map_cons, List.sum_cons, add_assoc]

end Tables

/-! ## Codes that come up -/

/-- Nothing is found under a name, or something that is no number. -/
def SansEntier (o : Objet (Option ℤ)) (k : Chaine) : Prop :=
  get o k = none ∨ get o k = some (.number none)

section SansEntier

variable {o : Objet (Option ℤ)} {k : Chaine}

/-- **What comes up gets no number**: it is undefined when something is first added. -/
theorem sansEntier_cumule (hk : ¬ Heritee k) (ho : SansEntier o k)
    {data : List (Chaine × Valeur (Option ℤ))} (hints : ∀ e ∈ data, ∃ n, e.2 = entier n) :
    SansEntier (cumule o data) k := by
  induction data generalizing o with
  | nil => exact ho
  | cons e data ih =>
    obtain ⟨⟨n, hn⟩, hrest⟩ := List.forall_mem_cons.mp hints
    refine ih ?_ hrest
    by_cases hke : k = e.1
    · subst hke
      have hplus : (lire o e.1).plus e.2 = .number none := by
        rw [lire, hn, heritee_of_not hk]
        rcases ho with hnone | hnan
        · rw [hnone]
          rfl
        · rw [hnan]
          rfl
      exact Or.inr (by rw [get_ecrire_self fun h => hk (Or.inl h), hplus])
    · rw [SansEntier, get_ecrire_of_ne hke]
      exact ho

theorem sansEntier_foldl_cumule (hk : ¬ Heritee k) (ho : SansEntier o k)
    {datas : List (List (Chaine × Valeur (Option ℤ)))}
    (hints : ∀ data ∈ datas, ∀ e ∈ data, ∃ n, e.2 = entier n) :
    SansEntier (datas.foldl cumule o) k := by
  induction datas generalizing o with
  | nil => exact ho
  | cons data datas ih =>
    obtain ⟨hdata, hrest⟩ := List.forall_mem_cons.mp hints
    exact ih (sansEntier_cumule hk ho hdata) hrest

theorem sansEntier_zeros (hk : k ∉ codes) : SansEntier zeros k := by
  refine Or.inl ?_
  rw [tient_zeros.get_eq, tableZeros_of_notMem hk]
  rfl

end SansEntier

/-! ## The total -/

section Total

variable {dataJsons : DataJsons (Option ℤ)}

/-- **The total**, where every record has a code: the table of the sums. -/
theorem getFormattedAllData_of_situe (hnodup : (keys dataJsons).Nodup)
    (hentiers : ∀ e ∈ dataJsons, Entiers e.2) (hsitue : ∀ e ∈ dataJsons, Situe e.2) :
    getFormattedAllData dataJsons = some (ordre (table (sommeDe dataJsons))) := by
  have hperm := keys_ordre_perm dataJsons
  have hres : ∀ name ∈ keys (ordre dataJsons), ∃ res,
      getFormattedData dataJsons name = some res ∧ Regulier res := by
    intro name hname
    obtain ⟨json, hjson⟩ := mem_keys_iff.mp (hperm.mem_iff.mp hname)
    have hmem := (get_eq_some_iff hnodup name json).mp hjson
    exact exists_regulier_of_situe hjson (hentiers _ hmem) (hsitue _ hmem)
  have hdatas : formattedDatas dataJsons (keys (ordre dataJsons)) =
      some ((keys (ordre dataJsons)).map fun name =>
        (getFormattedData dataJsons name).getD []) := by
    refine mapM_eq_map fun name hname => ?_
    obtain ⟨res, hres, -⟩ := hres name hname
    rw [hres, Option.getD_some]
  rw [getFormattedAllData_eq, hdatas, Option.map_some, zeros_eq_table, foldl_cumule_table]
  · refine congrArg (fun f => some (ordre (table f))) (funext fun c => ?_)
    rw [zero_add, List.map_map]
    exact (hperm.map _).sum_eq
  · intro data hdata
    obtain ⟨name, hname, rfl⟩ := List.mem_map.mp hdata
    obtain ⟨res, hres, hregulier⟩ := hres name hname
    rw [hres, Option.getD_some]
    exact hregulier

theorem totaux_table (hnodup : (keys dataJsons).Nodup)
    (hentiers : ∀ e ∈ dataJsons, Entiers e.2) (hsitue : ∀ e ∈ dataJsons, Situe e.2) :
    Totaux dataJsons (ordre (table (sommeDe dataJsons))) where
  valeurs e he := by
    obtain ⟨c, -, rfl⟩ := List.mem_map.mp ((ordre_perm _).mem_iff.mp he)
    rfl
  couvre name hname res hres := by
    obtain ⟨json, hjson⟩ := mem_keys_iff.mp hname
    have hmem := (get_eq_some_iff hnodup name json).mp hjson
    obtain ⟨res', hres', hregulier⟩ :=
      exists_regulier_of_situe hjson (hentiers _ hmem) (hsitue _ hmem)
    obtain rfl := Option.some_inj.mp (hres.symm.trans hres')
    intro c hc
    rw [(keys_ordre_perm _).mem_iff, keys_table]
    exact hregulier.subset hc

/-- What is reported in all is a number only for the arrondissements. -/
theorem mem_codes_of_entier (hnodup : (keys dataJsons).Nodup)
    (hentiers : ∀ e ∈ dataJsons, Entiers e.2) {out : List (Chaine × Valeur (Option ℤ))}
    (hout : getFormattedAllData dataJsons = some out) {k : Chaine} (hk : ¬ Heritee k) {n : ℤ}
    (hn : (k, entier n) ∈ out) : k ∈ codes := by
  by_contra hnot
  rw [getFormattedAllData_eq] at hout
  obtain ⟨datas, hdatas, rfl⟩ := Option.map_eq_some_iff.mp hout
  have hints : ∀ data ∈ datas, ∀ e ∈ data, ∃ n, e.2 = entier n := by
    refine forall_of_mapM (fun name res hres => ?_) hdatas
    obtain ⟨json, hjson, -⟩ := lisible_of_getFormattedData hres
    exact entier_of_mem hjson (hentiers _ ((get_eq_some_iff hnodup name json).mp hjson)) hres
  have hfold : (keys (datas.foldl cumule (zeros : Objet (Option ℤ)))).Nodup :=
    (couvre_zeros.foldl_cumule datas).nodup
  have hget := (get_eq_some_iff hfold k _).mpr ((ordre_perm _).mem_iff.mp hn)
  rcases sansEntier_foldl_cumule hk (sansEntier_zeros hnot) hints with hnone | hnan
  · rw [hnone] at hget
    cases hget
  · rw [hnan] at hget
    cases hget

/-- **What a total says of the datasets**: every record has a code. -/
theorem situe_of_totaux (hnodup : (keys dataJsons).Nodup)
    (hentiers : ∀ e ∈ dataJsons, Entiers e.2) {out : List (Chaine × Valeur (Option ℤ))}
    (hout : getFormattedAllData dataJsons = some out) (htotaux : Totaux dataJsons out) :
    ∀ e ∈ dataJsons, Situe e.2 := by
  rintro ⟨name, json⟩ he l hdata fields hfields
  have hjson := (get_eq_some_iff hnodup name json).mpr he
  have hname : name ∈ keys dataJsons := List.mem_map_of_mem he
  obtain ⟨res, hres⟩ := exists_getFormattedData hout hname
  obtain ⟨code, hcode⟩ := exists_codee hjson hdata hres
  obtain ⟨l', hdata', hvalue⟩ := hentiers _ he
  have hl : l' = l := by
    rw [hdata, Option.some_inj] at hdata'
    exact (Option.some_injective _).list_map hdata'.symm
  rw [hl] at hvalue
  refine ⟨code fields, hcode fields hfields, ?_⟩
  by_contra hnot
  rw [not_or, Bool.not_eq_true] at hnot
  -- a code that comes up is reported, so it has an entry in the total
  have hreported : code fields ∈ keys res :=
    (mem_keys_iff_of_tient (tient_getFormattedData hjson hdata hcode hvalue hres) hnot.1).mpr
      ⟨fields, hfields, rfl, hnot.2⟩
  obtain ⟨e, hmem, hkey⟩ := List.mem_map.mp (htotaux.couvre name hname res hres hreported)
  have hheritee : ¬ Heritee e.1 := hkey ▸ not_heritee_of_codeDe (hcode fields hfields)
  have hentier : (e.1, entier (sommeDe dataJsons e.1)) ∈ out := by
    rw [← htotaux.valeurs e hmem]
    exact hmem
  exact hnot.1 (hkey ▸ mem_codes_of_entier hnodup hentiers hout hheritee hentier)

end Total

/-- The datasets that are registered determine the sums. -/
theorem sommeDe_congr {dataJsons dataJsons' : DataJsons (Option ℤ)}
    (hnodup : (keys dataJsons).Nodup) (hnodup' : (keys dataJsons').Nodup)
    (h : ∀ name, getDataJson dataJsons' name = getDataJson dataJsons name) :
    sommeDe dataJsons' = sommeDe dataJsons := by
  have hperm : (keys dataJsons').Perm (keys dataJsons) := by
    refine (List.perm_ext_iff_of_nodup hnodup' hnodup).mpr fun name => ?_
    rw [mem_keys_iff, mem_keys_iff]
    exact exists_congr fun json => by rw [← getDataJson, h]; rfl
  funext c
  have hvaleurs : (fun name => valeurEn ((getFormattedData dataJsons' name).getD []) c) =
      fun name => valeurEn ((getFormattedData dataJsons name).getD []) c :=
    funext fun name => by rw [getFormattedData_congr (h name)]
  rw [sommeDe, sommeDe, hvaleurs]
  exact (hperm.map _).sum_eq

/-- **When all the datasets together are the total.**  Exactly when every record of
every dataset has a code, of an arrondissement or one that is ignored.  (Of integers up to
`2 ^ 53`.) -/
theorem all_data_total (as : List Ajout) (hentiers : ∀ e ∈ ajoutes as, Entiers e.2) :
    (∃ out, getFormattedAllData (ajoutes as) = some out ∧ Totaux (ajoutes as) out ∧
        ∀ as', (∀ name, getDataJson (ajoutes as') name = getDataJson (ajoutes as) name) →
          getFormattedAllData (ajoutes as') = some out) ↔
      ∀ e ∈ ajoutes as, Situe e.2 := by
  have hnodup := nodup_keys_ajoutes as
  constructor
  · rintro ⟨out, hout, htotaux, -⟩
    exact situe_of_totaux hnodup hentiers hout htotaux
  · intro hsitue
    refine ⟨_, getFormattedAllData_of_situe hnodup hentiers hsitue,
      totaux_table hnodup hentiers hsitue, fun as' h => ?_⟩
    have hmem : ∀ e ∈ ajoutes as', e ∈ ajoutes as := by
      rintro ⟨name, json⟩ he
      rw [← getDataJson_iff, ← h name]
      exact getDataJson_iff.mpr he
    rw [getFormattedAllData_of_situe (nodup_keys_ajoutes as') (fun e he => hentiers e (hmem e he))
      (fun e he => hsitue e (hmem e he)), sommeDe_congr hnodup (nodup_keys_ajoutes as') h]

theorem ordinaire_a : chaine "a" ≠ proto := by decide

theorem ordinaire_b : chaine "b" ≠ proto := by decide

/-- A dataset whose records have these postal codes. -/
def ajoutCodesPostaux (dataName : Chaine) (h : dataName ≠ proto) (ts : List String) : Ajout where
  dataName := dataName
  dataJson := some ((ts.map fun t _ => .string (chaine t)).map some)
  keyJoinner := some (chaine "arrond")
  codeFormatterName := some (chaine "codeReducer")
  valueKey := none
  ordinaire := h
  formatter := not_heritee_codeReducer

/-- The postal code of Paris itself. -/
def ajoutParis : Ajout := ajoutCodesPostaux (chaine "a") ordinaire_a ["75000"]

/-- It is reported, and has no number in the total. -/
theorem all_data_total_paris :
    ¬ ∃ out, getFormattedAllData (ajoutes [ajoutParis]) = some out ∧
      Totaux (ajoutes [ajoutParis]) out ∧
      ∀ as', (∀ name, getDataJson (ajoutes as') name =
          getDataJson (ajoutes [ajoutParis]) name) →
        getFormattedAllData (ajoutes as') = some out := by
  rintro ⟨out, hout, htotaux, -⟩
  have hhead : (getFormattedAllData (ajoutes [ajoutParis])).map List.head? =
      some (some (chaine "75100", .number none)) := by decide +kernel
  rw [hout, Option.map_some, Option.some_inj] at hhead
  have hvaleur := htotaux.valeurs _ (List.mem_of_mem_head? hhead)
  cases hvaleur

/-- Two datasets, with an arrondissement in common. -/
def deuxAjouts : List Ajout :=
  [ajoutCodesPostaux (chaine "a") ordinaire_a ["75001", "75002"],
    ajoutCodesPostaux (chaine "b") ordinaire_b ["75001"]]

theorem entiers_deuxAjouts : ∀ e ∈ ajoutes deuxAjouts, Entiers e.2 := by
  have hajoutes : ajoutes deuxAjouts = deuxAjouts.map fun a =>
      (a.dataName, ⟨a.dataJson, a.keyJoinner, codeFormatter a.codeFormatterName, a.valueKey⟩) := rfl
  rw [hajoutes]
  intro e he
  obtain ⟨a, ha, rfl⟩ := List.mem_map.mp he
  simp only [deuxAjouts, List.mem_cons, List.not_mem_nil, or_false] at ha
  rcases ha with rfl | rfl <;> exact ⟨_, rfl, fun _ _ => ⟨1, rfl⟩⟩

/-- The condition for them. -/
theorem all_data_total_at_deuxAjouts :
    (∃ out, getFormattedAllData (ajoutes deuxAjouts) = some out ∧
        Totaux (ajoutes deuxAjouts) out ∧
        ∀ as', (∀ name, getDataJson (ajoutes as') name =
            getDataJson (ajoutes deuxAjouts) name) →
          getFormattedAllData (ajoutes as') = some out) ↔
      ∀ e ∈ ajoutes deuxAjouts, Situe e.2 :=
  all_data_total deuxAjouts entiers_deuxAjouts

end Page
end RondeDesFacs
