import RondeDesFacs.Page.Groups

/-!
# The arrondissements of a dataset

`getFormattedData` starts with the twenty codes of the arrondissements and counts every
record under its own.  A code above `75120` is ignored; the test for it is one-sided.
So a record whose code is below `75101`, or no number, is counted too, and the result
gets an entry for it.

The result is that of the arrondissements exactly if every record has one of the
codes or one that is ignored (`arrondissements`).  Values and totals are exact integers, as
those of the page are up to `2 ^ 53`.
-/

namespace RondeDesFacs
namespace Page

open Association Passes Script Tally

/-- Zero for every code. -/
def tableZeros (k : Chaine) : Option ℤ := get (codes.map fun code => (code, 0)) k

/-- The code and the value of each record. -/
def entreesCode (json : DataJson (Option ℤ)) (code : Fields (Option ℤ) → Chaine)
    (l : List (Fields (Option ℤ))) : List (Chaine × ℤ) :=
  l.map fun fields => (code fields, entierDe (value json fields))

/-- The code of a record, if its formatter is known and makes one of its join field. -/
def codeDe (json : DataJson (Option ℤ)) (fields : Fields (Option ℤ)) : Option Chaine :=
  json.codeFormatter.bind fun codeFormatter => codeFormatter.apply (fields (nom json.keyJoinner))

/-- The records have these codes. -/
def Codee (json : DataJson (Option ℤ)) (code : Fields (Option ℤ) → Chaine)
    (l : List (Fields (Option ℤ))) : Prop :=
  ∀ fields ∈ l, codeDe json fields = some (code fields)

/-- One entry for each arrondissement and no other, with the total of its records. -/
structure ParArrondissement (entrees : List (Chaine × ℤ))
    (res : List (Chaine × Valeur (Option ℤ))) : Prop where
  cles : (keys res).Perm codes
  totaux : ∀ c ∈ codes, get res c = some (entier (total entrees c))

/-! ## Codes -/

/-- A code starts with `751`. -/
theorem prefixe_of_apply {formatter : CodeFormatter} {v : Valeur (Option ℤ)} {key : Chaine}
    (h : formatter.apply v = some key) : ∃ t, key = chaine "751" ++ t := by
  cases formatter with
  | codeReducer => exact ⟨_, (Option.some_inj.mp h).symm⟩
  | adressReducer =>
    cases v with
    | string key' =>
      rw [CodeFormatter.apply, adressReducer] at h
      split at h
      · exact ⟨_, (Option.some_inj.mp h).symm⟩
      · cases h
    | _ => cases h

/-- No object has anything under a code from the start. -/
theorem not_heritee_prefixe (t : Chaine) : ¬ Heritee (chaine "751" ++ t) := by
  have hall : ∀ k ∈ proto :: chaine "constructor" :: heritees, k.head? ≠ some 0x37 := by decide
  intro h
  refine hall (chaine "751" ++ t) ?_ rfl
  rcases h with h | h | h
  · exact List.mem_cons.mpr (Or.inl h)
  · exact List.mem_cons_of_mem _ (List.mem_cons.mpr (Or.inl h))
  · exact List.mem_cons_of_mem _ (List.mem_cons_of_mem _ h)

theorem not_heritee_of_codeDe {json : DataJson (Option ℤ)} {fields : Fields (Option ℤ)}
    {key : Chaine} (h : codeDe json fields = some key) : ¬ Heritee key := by
  obtain ⟨formatter, -, hkey⟩ := Option.bind_eq_some_iff.mp h
  obtain ⟨t, rfl⟩ := prefixe_of_apply hkey
  exact not_heritee_prefixe t

theorem not_depasse_of_mem {c : Chaine} (h : c ∈ codes) : depasse c = false := by
  have hall : ∀ c ∈ codes, depasse c = false := by decide
  exact hall c h

theorem tableZeros_of_mem {k : Chaine} (hk : k ∈ codes) : tableZeros k = some 0 :=
  get_map_of_mem hk fun _ => 0

theorem tableZeros_of_notMem {k : Chaine} (hk : k ∉ codes) : tableZeros k = none := by
  refine get_eq_none_iff.mpr ?_
  rw [keys, List.map_map]
  exact fun hmem => hk (List.map_id codes ▸ hmem)

theorem tient_zeros : Tient zeros tableZeros where
  nodup := couvre_zeros.nodup
  get_eq k := by
    by_cases hk : k ∈ codes
    · rw [tableZeros_of_mem hk]
      exact get_zeros hk
    · rw [tableZeros_of_notMem hk, Option.map_none, get_eq_none_iff, keys_zeros]
      exact hk

/-- A record is counted under its code, unless that is ignored. -/
theorem compteCode_eq (json : DataJson (Option ℤ)) (o : Objet (Option ℤ))
    (fields : Fields (Option ℤ)) :
    compteCode json o (some fields) = (codeDe json fields).map fun key =>
      if depasse key then o else compte o key (value json fields) := by
  rw [compteCode, codeDe, Option.bind_eq_bind, Option.bind_some]
  rcases json.codeFormatter with _ | formatter
  · rfl
  · rw [Option.bind_eq_bind, Option.bind_some, Option.bind_some]
    rcases formatter.apply (fields (nom json.keyJoinner)) with _ | key
    · rfl
    · rw [Option.bind_eq_bind, Option.bind_some, Option.map_some]
      split_ifs <;> rfl

/-! ## The result -/

section Result

variable {dataJsons : DataJsons (Option ℤ)} {dataName : Chaine} {json : DataJson (Option ℤ)}
  {l : List (Fields (Option ℤ))} {code : Fields (Option ℤ) → Chaine}
  {res : List (Chaine × Valeur (Option ℤ))}

/-- The result for records that all have a code. -/
theorem getFormattedData_eq (hjson : getDataJson dataJsons dataName = some json)
    (hdata : json.data = some (l.map some)) (hcode : Codee json code l) :
    getFormattedData dataJsons dataName =
      some (ordre ((l.filter fun fields => !depasse (code fields)).foldl
        (fun o fields => compte o (code fields) (value json fields)) zeros)) := by
  have hfold : (l.map some).foldlM (compteCode json) zeros =
      some (l.foldl (fun o fields => if !depasse (code fields) then
        compte o (code fields) (value json fields) else o) zeros) := by
    rw [List.foldlM_map]
    refine foldlM_eq_foldl (fun o fields hfields => ?_) _
    rw [compteCode_eq, hcode fields hfields, Option.map_some]
    rcases depasse (code fields) with _ | _ <;> rfl
  rw [getFormattedData_of_data hjson hdata, hfold, List.foldl_filter]
  rfl

/-- **What `getFormattedData` gives**: zeros for the codes, and the totals of all the
codes that are not ignored. -/
theorem tient_getFormattedData (hjson : getDataJson dataJsons dataName = some json)
    (hdata : json.data = some (l.map some)) (hcode : Codee json code l)
    (hvalue : ∀ fields ∈ l, ∃ n, value json fields = entier n)
    (hres : getFormattedData dataJsons dataName = some res) :
    Tient res (tally tableZeros ((entreesCode json code l).filter fun e => !depasse e.1)) := by
  rw [getFormattedData_eq hjson hdata hcode] at hres
  have hentrees : ((entreesCode json code l).filter fun e => !depasse e.1) =
      (l.filter fun fields => !depasse (code fields)).map fun fields =>
        (code fields, entierDe (value json fields)) := by
    rw [entreesCode, List.filter_map]
    rfl
  rw [← Option.some_inj.mp hres, hentrees]
  refine tient_ordre (tient_foldl (fun fields hfields => ?_) (fun fields hfields => ?_) tient_zeros)
  · exact not_heritee_of_codeDe (hcode fields (List.mem_of_mem_filter hfields))
  · exact hvalue fields (List.mem_of_mem_filter hfields)

/-- Every arrondissement has the total of its records. -/
theorem get_of_tient
    (h : Tient res (tally tableZeros ((entreesCode json code l).filter fun e => !depasse e.1)))
    {c : Chaine} (hc : c ∈ codes) :
    get res c = some (entier (total (entreesCode json code l) c)) := by
  have hget := h.get_eq c
  rw [tally_of_eq_some (tableZeros_of_mem hc), zero_add, total_filter] at hget
  · exact hget
  · rintro e - rfl
    rw [not_depasse_of_mem hc]
    rfl

/-- Another code comes up if a record has it, unless it is ignored. -/
theorem mem_keys_iff_of_tient
    (h : Tient res (tally tableZeros ((entreesCode json code l).filter fun e => !depasse e.1)))
    {c : Chaine} (hc : c ∉ codes) :
    c ∈ keys res ↔ ∃ fields ∈ l, code fields = c ∧ depasse c = false := by
  have hmem : c ∈ ((entreesCode json code l).filter fun e => !depasse e.1).map Prod.fst ↔
      ∃ fields ∈ l, code fields = c ∧ depasse c = false := by
    simp only [List.mem_map, List.mem_filter, entreesCode, Bool.not_eq_true']
    constructor
    · rintro ⟨e, ⟨⟨fields, hfields, rfl⟩, hdepasse⟩, rfl⟩
      exact ⟨fields, hfields, rfl, hdepasse⟩
    · rintro ⟨fields, hfields, rfl, hdepasse⟩
      exact ⟨_, ⟨⟨fields, hfields, rfl⟩, hdepasse⟩, rfl⟩
  rw [mem_keys_iff, h.get_eq, tally_apply, tableZeros_of_notMem hc, ← hmem]
  split_ifs with h
  · exact iff_of_true ⟨_, rfl⟩ h
  · exact iff_of_false (by simp) h

end Result

/-- **When a dataset is counted by arrondissement.**  Exactly when every record has the
code of one, or a code that is ignored.  (Of integers up to `2 ^ 53`.) -/
theorem arrondissements (dataJsons : DataJsons (Option ℤ)) (dataName : Chaine)
    (json : DataJson (Option ℤ)) (l : List (Fields (Option ℤ)))
    (hjson : getDataJson dataJsons dataName = some json) (hdata : json.data = some (l.map some))
    (hformatter : json.codeFormatter = some .codeReducer)
    (hvalue : ∀ fields ∈ l, ∃ n, value json fields = entier n) :
    (∃ res, getFormattedData dataJsons dataName = some res ∧
        ParArrondissement
          (entreesCode json (fun fields => codeReducer (fields (nom json.keyJoinner))) l) res) ↔
      ∀ fields ∈ l, codeReducer (fields (nom json.keyJoinner)) ∈ codes ∨
        depasse (codeReducer (fields (nom json.keyJoinner))) = true := by
  set code : Fields (Option ℤ) → Chaine := fun fields =>
    codeReducer (fields (nom json.keyJoinner)) with hdef
  have hcode : Codee json code l := fun fields _ => by rw [codeDe, hformatter]; rfl
  have hsome := getFormattedData_eq hjson hdata hcode
  have htient := tient_getFormattedData hjson hdata hcode hvalue hsome
  constructor
  · rintro ⟨res, hres, h⟩ fields hfields
    rw [hsome, Option.some_inj] at hres
    rw [hres] at htient
    by_contra hnot
    rw [not_or, Bool.not_eq_true] at hnot
    -- the code has an entry of its own
    have hmem := (mem_keys_iff_of_tient htient hnot.1).mpr ⟨fields, hfields, rfl, hnot.2⟩
    exact hnot.1 (h.cles.mem_iff.mp hmem)
  · intro h
    refine ⟨_, hsome, ?_, fun c hc => get_of_tient htient hc⟩
    have hnodup := (couvre_getFormattedData hsome).nodup
    have hsubset := (couvre_getFormattedData hsome).subset
    refine (List.perm_ext_iff_of_nodup hnodup (by decide)).mpr fun c => ⟨fun hc => ?_, fun hc => ?_⟩
    · by_contra hnot
      obtain ⟨fields, hfields, rfl, hdepasse⟩ := (mem_keys_iff_of_tient htient hnot).mp hc
      rcases h fields hfields with hmem | hignored
      · exact hnot hmem
      · rw [hdepasse] at hignored
        cases hignored
    · exact hsubset hc

/-- A dataset whose records have these postal codes, to be counted. -/
def codesPostaux (ts : List String) : DataJson (Option ℤ) where
  data := some ((ts.map fun t _ => .string (chaine t)).map some)
  keyJoinner := some (chaine "arrond")
  codeFormatter := codeFormatter (some (chaine "codeReducer"))
  valueKey := some []

/-- The postal code of Paris itself makes an arrondissement `75100`. -/
theorem arrondissements_paris :
    ¬ ∃ res, getFormattedData [(chaine "a", codesPostaux ["75000"])] (chaine "a") = some res ∧
      ParArrondissement (entreesCode (codesPostaux ["75000"])
        (fun fields => codeReducer (fields (chaine "arrond")))
        [fun _ => .string (chaine "75000")]) res := by
  rintro ⟨res, hres, h⟩
  have hlength : (getFormattedData [(chaine "a", codesPostaux ["75000"])] (chaine "a")).map
      (fun res => (keys res).length) = some 21 := by decide +kernel
  rw [hres, Option.map_some, h.cles.length_eq] at hlength
  revert hlength
  decide

/-- Three records in two arrondissements. -/
def adresses : List (Fields (Option ℤ)) :=
  ["75001", "75002", "75001"].map fun t _ => .string (chaine t)

/-- Their dataset. -/
def deuxArrondissements : DataJson (Option ℤ) := codesPostaux ["75001", "75002", "75001"]

/-- The condition for them. -/
theorem arrondissements_at_adresses :
    (∃ res, getFormattedData [(chaine "a", deuxArrondissements)] (chaine "a") = some res ∧
        ParArrondissement (entreesCode deuxArrondissements
          (fun fields => codeReducer (fields (nom deuxArrondissements.keyJoinner))) adresses)
          res) ↔
      ∀ fields ∈ adresses,
        codeReducer (fields (nom deuxArrondissements.keyJoinner)) ∈ codes ∨
          depasse (codeReducer (fields (nom deuxArrondissements.keyJoinner))) = true :=
  arrondissements [(chaine "a", deuxArrondissements)] (chaine "a") deuxArrondissements adresses
    rfl rfl rfl fun _ _ => ⟨1, rfl⟩

end Page
end RondeDesFacs
