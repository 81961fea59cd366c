import Mathlib.Data.List.SplitBy
import Mathlib.Data.List.Nodup
import Mathlib.Data.List.TakeWhile

/-!
# Runs of consecutive entries with one key

A program that reads sorted rows and closes a group whenever the key changes
computes the *maximal runs* of its input, not the groups of a `GROUP BY`.  The
runs are Mathlib's `List.splitBy` at "same key as the neighbour"; this file adds
what such programs are reasoned about with:

* `runs_cons` --- the first run is the longest constant start of the list;
* `runs_append_cons_of_ne` --- a constant block followed by another key is a run
  of its own, which is the step of every left-to-right fold;
* `nodup_runKeys_iff` --- the runs are groups exactly when the list is
  `Contiguous`: no key comes back after another one;
* `filter_flatten_of_nodup` --- when the keys of the runs are distinct, a run is
  the whole fibre of its key, which for a contiguous list is `filter_mem_runs`.
-/

namespace RondeDesFacs
namespace Runs

variable {α κ : Type*} [DecidableEq κ] (key : α → κ)

/-- The maximal runs of consecutive entries with one key. -/
def runs (l : List α) : List (List α) :=
  l.splitBy fun a b => decide (key a = key b)

@[simp] theorem runs_nil : runs key [] = [] := rfl

/-- The runs read the list. -/
@[simp] theorem flatten_runs (l : List α) : (runs key l).flatten = l :=
  List.flatten_splitBy _ l

theorem nil_notMem_runs (l : List α) : [] ∉ runs key l :=
  List.nil_notMem_splitBy _ l

theorem runs_eq_nil_iff {l : List α} : runs key l = [] ↔ l = [] :=
  List.splitBy_eq_nil

variable {key}

/-- A nonempty constant block is one run. -/
theorem runs_of_forall_eq {g : List α} {k : κ} (hg : g ≠ []) (hk : ∀ a ∈ g, key a = k) :
    runs key g = [g] := by
  refine List.splitBy_of_isChain hg ?_
  refine List.isChain_iff_getElem.mpr fun i hi => ?_
  have h1 := hk _ (List.getElem_mem (Nat.lt_of_succ_lt hi))
  have h2 := hk _ (List.getElem_mem hi)
  exact decide_eq_true (h1.trans h2.symm)

/-- **The step of a fold over runs.**  A constant block followed by an entry of
another key is closed there. -/
theorem runs_append_cons_of_ne {g : List α} {k : κ} (hg : g ≠ []) (hk : ∀ a ∈ g, key a = k)
    {a : α} (ha : key a ≠ k) (l : List α) :
    runs key (g ++ a :: l) = g :: runs key (a :: l) := by
  have hsplit : runs key (g ++ a :: l) = runs key g ++ runs key (a :: l) := by
    refine List.splitBy_append_cons l fun x hx => decide_eq_false ?_
    rw [hk x (List.mem_of_mem_getLast? hx)]
    exact ha.symm
  rw [hsplit, runs_of_forall_eq hg hk, List.singleton_append]

/-- A constant block after another key is the last run. -/
theorem runs_append_of_forall_eq {l g : List α} {k : κ} (hg : g ≠ [])
    (hk : ∀ a ∈ g, key a = k) (hl : ∀ a ∈ l.getLast?, key a ≠ k) :
    runs key (l ++ g) = runs key l ++ [g] := by
  have hsplit : runs key (l ++ g) = runs key l ++ runs key g := by
    refine List.splitBy_append fun x hx y hy => decide_eq_false ?_
    rw [hk y (List.mem_of_mem_head? hy)]
    exact hl x hx
  rw [hsplit, runs_of_forall_eq hg hk]

/-- The first run is the longest constant start of the list. -/
theorem runs_cons (a : α) (l : List α) :
    runs key (a :: l) =
      (a :: l.takeWhile fun b => key b = key a) ::
        runs key (l.dropWhile fun b => key b = key a) := by
  set p : α → Bool := fun b => key b = key a with hp
  have hconst : ∀ b ∈ a :: l.takeWhile p, key b = key a := by
    intro b hb
    rcases List.mem_cons.mp hb with rfl | hb
    · rfl
    · have hpb : p b = true := List.mem_takeWhile_imp hb
      exact of_decide_eq_true hpb
  have hl : a :: l = (a :: l.takeWhile p) ++ l.dropWhile p := by
    rw [List.cons_append, List.takeWhile_append_dropWhile]
  rcases hd : l.dropWhile p with _ | ⟨c, d⟩
  · rw [hl, hd, List.append_nil, runs_of_forall_eq (List.cons_ne_nil _ _) hconst, runs_nil]
  · have hc : key c ≠ key a := by
      have h := List.head?_dropWhile_not p l
      rw [hd, List.head?_cons] at h
      exact of_decide_eq_false h
    rw [hl, hd, runs_append_cons_of_ne (List.cons_ne_nil _ _) hconst hc]

/-- Every run is constant. -/
theorem key_eq_of_mem_run {l g : List α} (hg : g ∈ runs key l) {a b : α} (ha : a ∈ g)
    (hb : b ∈ g) : key a = key b := by
  have hchain : g.IsChain fun x y => key x = key y :=
    (List.isChain_of_mem_splitBy hg).imp fun _ _ h => of_decide_eq_true h
  have : IsTrans α fun x y => key x = key y := ⟨fun _ _ _ => Eq.trans⟩
  have : Std.Symm fun x y => key x = key y := ⟨fun _ _ => Eq.symm⟩
  have hpair : g.Pairwise fun x y => key x = key y := hchain.pairwise
  have hall := hpair.forall_of_forall fun x _ => (rfl : key x = key x)
  exact hall ha hb

/-- Where no key occurs twice, every run is a single entry. -/
theorem eq_singleton_of_mem_runs {l g : List α} (hl : (l.map key).Nodup) (hg : g ∈ runs key l) :
    ∃ a ∈ l, g = [a] := by
  have hsub : g.Sublist l := by
    have hflat := List.sublist_flatten_of_mem hg
    rwa [flatten_runs] at hflat
  rcases g with _ | ⟨a, _ | ⟨b, g⟩⟩
  · exact absurd hg (nil_notMem_runs _ _)
  · exact ⟨a, hsub.subset (List.mem_singleton_self a), rfl⟩
  · have hnodup := hl.sublist (hsub.map key)
    rw [List.map_cons, List.map_cons, List.nodup_cons] at hnodup
    have hkey : key a = key b := key_eq_of_mem_run hg (List.mem_cons_self ..)
      (List.mem_cons_of_mem _ (List.mem_cons_self ..))
    exact absurd (hkey ▸ List.mem_cons_self ..) hnodup.1

/-! ## The keys of the runs -/

variable (key)

/-- The key of a group: the key of its first entry. -/
def groupKey (g : List α) : Option κ := g.head?.map key

omit [DecidableEq κ] in
@[simp] theorem groupKey_cons (a : α) (g : List α) : groupKey key (a :: g) = some (key a) := rfl

/-- The keys of the runs, in order. -/
def runKeys (l : List α) : List (Option κ) := (runs key l).map (groupKey key)

@[simp] theorem runKeys_nil : runKeys key [] = [] := rfl

variable {key}

theorem groupKey_eq_some_iff {l g : List α} (hg : g ∈ runs key l) {a : α} (ha : a ∈ g) {k : κ} :
    groupKey key g = some k ↔ key a = k := by
  rcases g with _ | ⟨b, g⟩
  · exact absurd ha List.not_mem_nil
  · rw [groupKey_cons, Option.some_inj, key_eq_of_mem_run hg (List.mem_cons_self ..) ha]

/-- A key heads a run exactly when it occurs. -/
theorem some_mem_runKeys_iff {l : List α} {k : κ} :
    some k ∈ runKeys key l ↔ k ∈ l.map key := by
  rw [runKeys, List.mem_map, List.mem_map]
  constructor
  · rintro ⟨g, hg, hk⟩
    rcases g with _ | ⟨a, g⟩
    · exact absurd hg (nil_notMem_runs key l)
    · refine ⟨a, ?_, Option.some_inj.mp hk⟩
      rw [← flatten_runs key l]
      exact List.mem_flatten.mpr ⟨_, hg, List.mem_cons_self ..⟩
  · rintro ⟨a, ha, rfl⟩
    rw [← flatten_runs key l, List.mem_flatten] at ha
    obtain ⟨g, hg, hag⟩ := ha
    exact ⟨g, hg, (groupKey_eq_some_iff hg hag).mpr rfl⟩

/-- Putting an entry in front of one with its key extends the first run. -/
theorem runKeys_cons_cons_of_eq {a b : α} (h : key a = key b) (l : List α) :
    runKeys key (a :: b :: l) = runKeys key (b :: l) := by
  simp [runKeys, runs_cons, h]

/-- Putting an entry in front of one with another key opens a run. -/
theorem runKeys_cons_cons_of_ne {a b : α} (h : key a ≠ key b) (l : List α) :
    runKeys key (a :: b :: l) = some (key a) :: runKeys key (b :: l) := by
  have hb : (decide (key b = key a)) = false := decide_eq_false (Ne.symm h)
  rw [runKeys, runKeys, runs_cons, List.dropWhile_cons, hb, List.map_cons, groupKey_cons]
  rfl

/-! ## When runs are groups -/

variable (key)

/-- The entries of each key are consecutive: a key that occurs again later is the
key of the very next entry. -/
def Contiguous : List α → Prop
  | [] => True
  | a :: l => (key a ∈ l.map key → l.head?.map key = some (key a)) ∧ Contiguous l

omit [DecidableEq κ] in
@[simp] theorem contiguous_nil : Contiguous key ([] : List α) := trivial

omit [DecidableEq κ] in
theorem contiguous_cons (a : α) (l : List α) :
    Contiguous key (a :: l) ↔
      (key a ∈ l.map key → l.head?.map key = some (key a)) ∧ Contiguous key l := Iff.rfl

instance decidableContiguous : ∀ l : List α, Decidable (Contiguous key l)
  | [] => isTrue trivial
  | a :: l =>
    have := decidableContiguous l
    decidable_of_iff
      ((key a ∈ l.map key → l.head?.map key = some (key a)) ∧ Contiguous key l) Iff.rfl

variable {key}

/-- **The runs are groups exactly when the list is contiguous.** -/
theorem nodup_runKeys_iff (l : List α) : (runKeys key l).Nodup ↔ Contiguous key l := by
  induction l with
  | nil => simp
  | cons a l ih =>
    rcases l with _ | ⟨b, l⟩
    · simp [runKeys, runs_cons, contiguous_cons]
    · rw [contiguous_cons, ← ih]
      by_cases h : key a = key b
      · rw [runKeys_cons_cons_of_eq h]
        simp [h]
      · have hhead : ¬ (b :: l).head?.map key = some (key a) := by simpa using Ne.symm h
        rw [runKeys_cons_cons_of_ne h, List.nodup_cons, some_mem_runKeys_iff]
        exact and_congr_left' ⟨fun hmem h' => absurd h' hmem, fun himp h' => hhead (himp h')⟩

/-- When the keys of the groups are distinct, a group is the whole fibre of its
key. -/
theorem filter_flatten_of_nodup {gs : List (List α)}
    (hconst : ∀ g ∈ gs, ∀ a ∈ g, groupKey key g = some (key a))
    (hnodup : (gs.map (groupKey key)).Nodup) {g : List α} (hg : g ∈ gs) {k : κ}
    (hk : groupKey key g = some k) :
    gs.flatten.filter (fun a => key a = k) = g := by
  induction gs with
  | nil => exact absurd hg List.not_mem_nil
  | cons g' gs ih =>
    rw [List.map_cons, List.nodup_cons] at hnodup
    have hconst' : ∀ h ∈ gs, ∀ a ∈ h, groupKey key h = some (key a) :=
      fun h hh => hconst h (List.mem_cons_of_mem _ hh)
    rw [List.flatten_cons, List.filter_append]
    rcases List.mem_cons.mp hg with rfl | hg
    · -- the fibre is the first group: no later group has the key
      have hrest : gs.flatten.filter (fun a => decide (key a = k)) = [] := by
        refine List.filter_eq_nil_iff.mpr fun a ha hka => hnodup.1 ?_
        obtain ⟨h, hh, hah⟩ := List.mem_flatten.mp ha
        rw [hk, ← of_decide_eq_true hka, ← hconst' h hh a hah]
        exact List.mem_map_of_mem hh
      have hfirst : g.filter (fun a => decide (key a = k)) = g := by
        refine List.filter_eq_self.mpr fun a ha => decide_eq_true ?_
        have h := hconst g (List.mem_cons_self ..) a ha
        rw [hk] at h
        exact (Option.some_inj.mp h).symm
      rw [hrest, hfirst, List.append_nil]
    · have hfirst : g'.filter (fun a => decide (key a = k)) = [] := by
        refine List.filter_eq_nil_iff.mpr fun a ha hka => hnodup.1 ?_
        rw [hconst g' (List.mem_cons_self ..) a ha, of_decide_eq_true hka, ← hk]
        exact List.mem_map_of_mem hg
      rw [hfirst, List.nil_append]
      exact ih hconst' hnodup.2 hg

/-- **The run of a key** of a contiguous list is its whole fibre. -/
theorem filter_mem_runs {l : List α} (h : Contiguous key l) {a : α} (ha : a ∈ l) :
    (l.filter fun b => key b = key a) ∈ runs key l := by
  have hhead : some (key a) ∈ runKeys key l := some_mem_runKeys_iff.mpr (List.mem_map_of_mem ha)
  obtain ⟨g, hg, hkey⟩ := List.mem_map.mp hhead
  have hfibre := filter_flatten_of_nodup
    (fun g' hg' b hb => (groupKey_eq_some_iff hg' hb).mpr rfl) ((nodup_runKeys_iff l).mpr h) hg hkey
  rw [flatten_runs] at hfibre
  rwa [hfibre]

/-- A last entry that opens a run of a contiguous list has a new key. -/
theorem notMem_of_contiguous_concat {l : List α} {a : α} (h : Contiguous key (l ++ [a]))
    (hlast : ∀ b ∈ l.getLast?, key b ≠ key a) : key a ∉ l.map key := by
  have hconst : ∀ b ∈ [a], key b = key a := fun b hb => by rw [List.mem_singleton.mp hb]
  have hnodup := (nodup_runKeys_iff (l ++ [a])).mpr h
  rw [runKeys, runs_append_of_forall_eq (List.cons_ne_nil _ _) hconst hlast,
    List.map_append] at hnodup
  intro hmem
  exact List.disjoint_of_nodup_append hnodup (some_mem_runKeys_iff.mpr hmem)
    (List.mem_singleton_self _)

end Runs
end RondeDesFacs
