import RondeDesFacs.Base.Script
import RondeDesFacs.Library.UrlQuery

/-!
# The address of a dataset

`queryBuilder` puts the address of a dataset together: the name of the dataset, and a
question, a number of rows and facets where they are given.  Whether the facets are given
is asked of a variable, `facats`, that does not exist, so the function throws unless they
are the empty string; and none of the values is encoded.

So the address says what it was asked to exactly if there are no facets and the values have
nothing in them that would have to be encoded (`query_read_back`).
-/

namespace RondeDesFacs
namespace Page

open Script UrlQuery

/-- `if (v != '' && v != null) baseUrl += name + v;`. -/
def complete (baseUrl name : Chaine) : Option Chaine → Chaine
  | none => baseUrl
  | some [] => baseUrl
  | some (u :: v) => baseUrl ++ name ++ (u :: v)

/-- `queryBuilder`; the error is the name of the variable that does not exist. -/
def queryBuilder (dataset q rows facets : Option Chaine) : Except Chaine (Option Chaine) :=
  match dataset with
  | none => .ok none
  | some [] => .ok none
  | some (u :: v) =>
    let baseUrl := chaine "http://opendata.paris.fr/api/records/1.0/search?dataset=" ++ (u :: v)
    let baseUrl := complete baseUrl (chaine "&q=") q
    let baseUrl := complete baseUrl (chaine "&rows=") rows
    match facets with
    -- only the empty string keeps the condition from going on to `facats`
    | some [] => .ok (some baseUrl)
    | _ => .error (chaine "facats")

/-- What an argument that may be missing asks for. -/
def donnees : Option Chaine → List (List UInt8)
  | none => []
  | some [] => []
  | some (u :: v) => [octets (u :: v)]

/-- The address says what it was asked to. -/
structure Lue (url dataset : Chaine) (q rows facets : Option Chaine) : Prop where
  dataset : values (query url) (chaine "dataset") = [octets dataset]
  q : values (query url) (chaine "q") = donnees q
  rows : values (query url) (chaine "rows") = donnees rows
  facets : values (query url) (chaine "facets") = donnees facets

/-- The name and the value of an argument that is not missing. -/
def partie (name : Chaine) : Option Chaine → List (Chaine × Chaine)
  | none => []
  | some [] => []
  | some (u :: v) => [(name, u :: v)]

/-- What the query string is made of. -/
def parties (dataset : Chaine) (q rows : Option Chaine) : List (Chaine × Chaine) :=
  (chaine "dataset", dataset) :: (partie (chaine "q") q ++ partie (chaine "rows") rows)

/-- The names of the arguments. -/
def noms : List Chaine := [chaine "dataset", chaine "q", chaine "rows", chaine "facets"]

/-- The address without its query string. -/
def base : Chaine := chaine "http://opendata.paris.fr/api/records/1.0/search"

theorem complete_eq (baseUrl name : Chaine) (v : Option Chaine) :
    complete baseUrl (0x26 :: name ++ [0x3D]) v =
      baseUrl ++ (partie name v).flatMap fun e => 0x26 :: printPair e := by
  rcases v with _ | _ | ⟨u, v⟩
  · exact (List.append_nil _).symm
  · exact (List.append_nil _).symm
  · simp [complete, partie, printPair]

/-- **The address**, if there is one. -/
theorem queryBuilder_eq {dataset : Chaine} (h : dataset ≠ []) (q rows facets : Option Chaine) :
    queryBuilder (some dataset) q rows facets =
      if facets = some [] then .ok (some (base ++ 0x3F :: print (parties dataset q rows)))
      else .error (chaine "facats") := by
  obtain ⟨u, v, rfl⟩ := List.exists_cons_of_ne_nil h
  have hurl : complete (complete
      (chaine "http://opendata.paris.fr/api/records/1.0/search?dataset=" ++ (u :: v))
        (chaine "&q=") q) (chaine "&rows=") rows =
      base ++ 0x3F :: print (parties (u :: v) q rows) := by
    have hq : chaine "&q=" = 0x26 :: chaine "q" ++ [0x3D] := by decide
    have hrows : chaine "&rows=" = 0x26 :: chaine "rows" ++ [0x3D] := by decide
    have hdataset : chaine "http://opendata.paris.fr/api/records/1.0/search?dataset=" =
        base ++ 0x3F :: (chaine "dataset" ++ [0x3D]) := by decide
    rw [hq, hrows, hdataset, complete_eq, complete_eq, parties, print_cons, List.flatMap_append]
    simp [printPair]
  rcases facets with _ | _ | ⟨w, facets⟩
  · rfl
  · exact congrArg (fun url => Except.ok (some url)) hurl
  · rfl

theorem query_base_append (t : Chaine) : query (base ++ 0x3F :: t) = t := by
  have hbase : ∀ u ∈ base, decide (u ≠ 0x3F) = true := List.all_eq_true.mp rfl
  rw [query, List.dropWhile_append_of_pos hbase]
  simp

/-! ## What the address says -/

theorem printed_partie (name : Chaine) (v : Option Chaine) (n : Chaine) :
    printed (partie name v) n = if name = n then donnees v else [] := by
  rcases v with _ | _ | ⟨u, v⟩
  · exact (ite_self _).symm
  · exact (ite_self _).symm
  · rw [printed, partie, donnees]
    by_cases h : name = n <;> simp [h]

theorem printed_parties (dataset : Chaine) (q rows : Option Chaine) (n : Chaine) :
    printed (parties dataset q rows) n =
      (if chaine "dataset" = n then [octets dataset] else []) ++
        ((if chaine "q" = n then donnees q else []) ++
          if chaine "rows" = n then donnees rows else []) := by
  rw [← printed_partie, ← printed_partie, printed, printed, printed, parties, List.filter_cons,
    List.filter_append]
  by_cases h : chaine "dataset" = n <;> simp [h]

/-- What is asked for is what is printed. -/
theorem lue_iff (dataset : Chaine) (q rows : Option Chaine) :
    Lue (base ++ 0x3F :: print (parties dataset q rows)) dataset q rows (some []) ↔
      ∀ n ∈ noms,
        values (print (parties dataset q rows)) n = printed (parties dataset q rows) n := by
  have hdataset : printed (parties dataset q rows) (chaine "dataset") = [octets dataset] := by
    rw [printed_parties, if_pos rfl, if_neg (by decide), if_neg (by decide)]
    rfl
  have hq : printed (parties dataset q rows) (chaine "q") = donnees q := by
    rw [printed_parties, if_neg (by decide), if_pos rfl, if_neg (by decide), List.append_nil]
    rfl
  have hrows : printed (parties dataset q rows) (chaine "rows") = donnees rows := by
    rw [printed_parties, if_neg (by decide), if_neg (by decide), if_pos rfl]
    rfl
  have hfacets : printed (parties dataset q rows) (chaine "facets") = donnees (some []) := by
    rw [printed_parties, if_neg (by decide), if_neg (by decide), if_neg (by decide)]
    rfl
  rw [noms, List.forall_mem_cons, List.forall_mem_cons, List.forall_mem_cons,
    List.forall_mem_singleton, hdataset, hq, hrows, hfacets]
  constructor
  · rintro ⟨h₁, h₂, h₃, h₄⟩
    rw [query_base_append] at h₁ h₂ h₃ h₄
    exact ⟨h₁, h₂, h₃, h₄⟩
  · rintro ⟨h₁, h₂, h₃, h₄⟩
    rw [← query_base_append (print (parties dataset q rows))] at h₁ h₂ h₃ h₄
    exact ⟨h₁, h₂, h₃, h₄⟩

theorem clean_partie_iff (name : Chaine) (v : Option Chaine) :
    (∀ e ∈ partie name v, Clean e.2) ↔ ∀ v' ∈ v, Clean v' := by
  rcases v with _ | _ | ⟨u, v⟩
  · exact ⟨fun _ _ h => absurd h (by simp), fun _ _ h => absurd h List.not_mem_nil⟩
  · refine ⟨fun _ v' hv' => ?_, fun _ _ h => absurd h List.not_mem_nil⟩
    rw [← Option.some_inj.mp hv']
    exact clean_nil
  · rw [partie, List.forall_mem_singleton]
    exact ⟨fun h v' hv' => Option.some_inj.mp hv' ▸ h, fun h => h _ rfl⟩

/-- Each part has its own name. -/
theorem names_parties (dataset : Chaine) (q rows : Option Chaine) :
    ((parties dataset q rows).map Prod.fst).Sublist noms := by
  have hpartie : ∀ (name : Chaine) (v : Option Chaine),
      ((partie name v).map Prod.fst).Sublist [name] := by
    rintro name (_ | _ | ⟨u, v⟩)
    · exact List.nil_sublist _
    · exact List.nil_sublist _
    · exact List.Sublist.refl _
  rw [parties, List.map_cons, List.map_append]
  have htwo := (hpartie (chaine "q") q).append (hpartie (chaine "rows") rows)
  exact (htwo.trans (List.sublist_append_left _ [chaine "facets"])).cons_cons _

theorem isName_of_mem_noms : ∀ n ∈ noms, IsName n := by
  simp only [noms, List.forall_mem_cons]
  exact ⟨isName_of_all rfl, isName_of_all rfl, isName_of_all rfl, isName_of_all rfl,
    fun _ hn => absurd hn List.not_mem_nil⟩

/-- **When the address is read back.**  Exactly if the facets are the empty string, and the
other values need no encoding. -/
theorem query_read_back (dataset : Chaine) (hdataset : dataset ≠ [])
    (q rows facets : Option Chaine) :
    (∃ url, queryBuilder (some dataset) q rows facets = .ok (some url) ∧
      Lue url dataset q rows facets) ↔
        facets = some [] ∧ Clean dataset ∧ (∀ v ∈ q, Clean v) ∧ ∀ v ∈ rows, Clean v := by
  rw [queryBuilder_eq hdataset]
  split_ifs with hfacets
  · have hnames := names_parties dataset q rows
    have hclean := values_print_iff isName_of_mem_noms (hnames.nodup (by decide)) fun e he =>
      hnames.subset (List.mem_map_of_mem he)
    rw [← lue_iff, parties, List.forall_mem_cons, List.forall_mem_append, clean_partie_iff,
      clean_partie_iff] at hclean
    subst hfacets
    rw [← hclean, ← parties]
    simp
  · exact ⟨fun ⟨_, h, _⟩ => (by cases h), fun h => absurd h.1 hfacets⟩

/-- A dataset. -/
def arbres : Chaine := chaine "arbresremarquablesparis2011"

/-- Without facets there is no address. -/
theorem query_read_back_arbres :
    ¬ ∃ url, queryBuilder (some arbres) none none none = .ok (some url) ∧
      Lue url arbres none none none := by
  rintro ⟨url, h, -⟩
  cases h

/-- With empty ones it is read back. -/
theorem query_read_back_at_arbres :
    (∃ url, queryBuilder (some arbres) none none (some []) = .ok (some url) ∧
      Lue url arbres none none (some [])) ↔
        (some [] : Option Chaine) = some [] ∧ Clean arbres ∧
          (∀ v ∈ (none : Option Chaine), Clean v) ∧ ∀ v ∈ (none : Option Chaine), Clean v :=
  query_read_back arbres (by decide) none none (some [])

end Page
end RondeDesFacs
