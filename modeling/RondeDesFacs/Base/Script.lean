import RondeDesFacs.Library.Association
import Mathlib.Data.List.Sort

/-!
# Values and objects of a script

The map page adds what it finds in the data with the operator `+` and counts it in
plain objects, so both have to be taken as the language has them.

* `plus` adds numbers, and writes texts one behind the other as soon as one of the
  two is no number (`undefined` and `null` are numbers here).
* An object has the names it inherits besides its own (`lire`), and it is visited in
  an order of its own: names that are array indices first, by size, then the others
  as they came (`ordre`).

Strings are their UTF-16 code units.  Numbers are a parameter (`Nombre`): the
double precision of the language, or exact numbers where a result is about those.
Objects and arrays occur as values of the data, where only the text they convert to
counts (`Valeur.autre`); one that redefines `toString`, and has no text, is left out.
-/

namespace RondeDesFacs
namespace Script

open Association

/-- A string: its code units. -/
abbrev Chaine := List UInt16

/-- A literal of a script, in ASCII. -/
def chaine (s : String) : Chaine := s.toList.map fun c => UInt16.ofNat c.toNat

/-- The digits of a number. -/
def decimal (n : ℕ) : Chaine := (Nat.toDigits 10 n).map fun c => UInt16.ofNat c.toNat

/-- The numbers of the language. -/
class Nombre (N : Type*) where
  ofNat : ℕ → N
  nan : N
  add : N → N → N
  texte : N → Chaine

/-- Exact integers, with none for what is not a number. -/
instance : Nombre (Option ℤ) where
  ofNat n := some n
  nan := none
  add x y := x.bind fun m => y.map fun n => m + n
  texte
    | none => chaine "NaN"
    | some n => chaine (toString n)

/-- A value. -/
inductive Valeur (N : Type*) where
  | undefined
  | null
  | bool (b : Bool)
  | number (x : N)
  | string (t : Chaine)
  /-- An object, an array or a function, by the text it converts to. -/
  | autre (texte : Chaine)
  deriving DecidableEq

variable {N : Type*}

namespace Valeur

section

variable [Nombre N]

/-- The number `n`. -/
def ofNat (n : ℕ) : Valeur N := .number (Nombre.ofNat n)

/-- The text of a value. -/
def texte : Valeur N → Chaine
  | .undefined => chaine "undefined"
  | .null => chaine "null"
  | .bool b => chaine (if b then "true" else "false")
  | .number x => Nombre.texte x
  | .string t => t
  | .autre t => t

/-- The number of a value, unless the operator `+` would take its text. -/
def nombre? : Valeur N → Option N
  | .undefined => some Nombre.nan
  | .null => some (Nombre.ofNat 0)
  | .bool b => some (Nombre.ofNat (if b then 1 else 0))
  | .number x => some x
  | .string _ => none
  | .autre _ => none

/-- `a + b`. -/
def plus (a b : Valeur N) : Valeur N :=
  match a.nombre?, b.nombre? with
  | some x, some y => .number (Nombre.add x y)
  | _, _ => .string (a.texte ++ b.texte)

end

/-- `v == undefined`. -/
def estVide : Valeur N → Bool
  | .undefined => true
  | .null => true
  | _ => false

end Valeur

/-! ## Objects -/

/-- The own properties of an object, as they came. -/
abbrev Objet (N : Type*) := List (Chaine × Valeur N)

/-- The accessor of the prototype. -/
def proto : Chaine := chaine "__proto__"

/-- The functions every object inherits. -/
def heritees : List Chaine :=
  [chaine "__defineGetter__", chaine "__defineSetter__", chaine "hasOwnProperty",
    chaine "__lookupGetter__", chaine "__lookupSetter__", chaine "isPrototypeOf",
    chaine "propertyIsEnumerable", chaine "toString", chaine "valueOf", chaine "toLocaleString"]

/-- What an object has under a name that is not its own. -/
def heritee (k : Chaine) : Valeur N :=
  if k = proto then .autre (chaine "[object Object]")
  else if k = chaine "constructor" then .autre (chaine "function Object() \x7b [native code] \x7d")
  else if k ∈ heritees then
    .autre (chaine "function " ++ k ++ chaine "() \x7b [native code] \x7d")
  else .undefined

/-- `o[k]`. -/
def lire (o : Objet N) (k : Chaine) : Valeur N := (get o k).getD (heritee k)

/-- `o[k] = v`, for a `v` that is no object: the prototype stays what it is. -/
def ecrire (o : Objet N) (k : Chaine) (v : Valeur N) : Objet N :=
  if k = proto then o else put o k v

/-- A digit. -/
def estChiffre (c : UInt16) : Bool := decide (0x30 ≤ c) && decide (c ≤ 0x39)

/-- The number a text of digits writes. -/
def valeurIndice (k : Chaine) : ℕ := k.foldl (fun n c => 10 * n + (c.toNat - 0x30)) 0

/-- Whether a name is an array index. -/
def estIndice (k : Chaine) : Bool :=
  k.all estChiffre && k ≠ [] && (k.head? ≠ some 0x30 || decide (k.length = 1)) &&
    decide (valeurIndice k < 4294967295)

/-- The order in which the properties of an object are visited. -/
def ordre {α : Type*} (o : List (Chaine × α)) : List (Chaine × α) :=
  (o.filter fun e => estIndice e.1).insertionSort
      (fun a b => valeurIndice a.1 ≤ valeurIndice b.1) ++
    o.filter fun e => !estIndice e.1

/-! ## Strings -/

/-- `t.substring(3, 5)`. -/
def substring35 (t : Chaine) : Chaine := (t.drop 3).take 2

/-- The part of a `split` from a position on: `saute` units belong to a separator, and
`courant` is what the piece has so far. -/
def morceaux (sep : Chaine) : ℕ → Chaine → Chaine → List Chaine
  | _, courant, [] => [courant]
  | saute + 1, courant, _ :: t => morceaux sep saute courant t
  | 0, courant, c :: t =>
    if sep.isPrefixOf (c :: t) then courant :: morceaux sep (sep.length - 1) [] t
    else morceaux sep 0 (courant ++ [c]) t

/-- `t.split(sep)`, for a separator that is not empty. -/
def split (sep t : Chaine) : List Chaine := morceaux sep 0 [] t

/-! ## Laws -/

/-- Numbers are told apart by their digits. -/
theorem decimal_injective : Function.Injective decimal := by
  have hback : ∀ n, Nat.toDigits 10 n = (decimal n).map fun u => Char.ofNat u.toNat := by
    intro n
    rw [decimal, List.map_map]
    refine (List.map_id _).symm.trans (List.map_congr_left fun c hc => ?_)
    have hdigit := Char.isDigit_iff_toNat.mp
      (Nat.isDigit_of_mem_toDigits (by decide) (by decide) hc)
    have hunit : (UInt16.ofNat c.toNat).toNat = c.toNat := by
      rw [UInt16.toNat_ofNat']
      exact Nat.mod_eq_of_lt (Nat.lt_of_le_of_lt hdigit.2 (by decide))
    rw [Function.comp_apply, hunit, Char.ofNat_toNat, id]
  intro m n h
  rw [← Nat.ofDigitChars_ten_toDigits (n := m), hback, h, ← hback, Nat.ofDigitChars_ten_toDigits]

theorem ordre_perm {α : Type*} (o : List (Chaine × α)) : (ordre o).Perm o := by
  have hsplit := List.filter_append_perm (fun e : Chaine × α => estIndice e.1) o
  exact ((List.perm_insertionSort _ _).append_right _).trans hsplit

theorem keys_ordre_perm {α : Type*} (o : List (Chaine × α)) : (keys (ordre o)).Perm (keys o) :=
  (ordre_perm o).map Prod.fst

theorem get_ordre {α : Type*} {o : List (Chaine × α)} (h : (keys o).Nodup) (k : Chaine) :
    get (ordre o) k = get o k :=
  (get_eq_of_perm h (ordre_perm o).symm k).symm

theorem nodup_keys_ecrire {o : Objet N} (h : (keys o).Nodup) (k : Chaine) (v : Valeur N) :
    (keys (ecrire o k v)).Nodup := by
  unfold ecrire
  split_ifs
  · exact h
  · exact nodup_keys_put h k v

theorem get_ecrire_of_ne {o : Objet N} {k k' : Chaine} (h : k' ≠ k) (v : Valeur N) :
    get (ecrire o k v) k' = get o k' := by
  unfold ecrire
  split_ifs
  · rfl
  · exact get_put_of_ne h o v

theorem get_ecrire_self {o : Objet N} {k : Chaine} (hk : k ≠ proto) (v : Valeur N) :
    get (ecrire o k v) k = some v := by
  rw [ecrire, if_neg hk, get_put_self]

/-- What an object has stays there. -/
theorem keys_subset_ecrire (o : Objet N) (k : Chaine) (v : Valeur N) :
    keys o ⊆ keys (ecrire o k v) := by
  intro k' hk'
  unfold ecrire
  split_ifs
  · exact hk'
  · exact mem_keys_put.mpr (Or.inr hk')

theorem morceaux_ne_nil (sep : Chaine) (saute : ℕ) (courant t : Chaine) :
    morceaux sep saute courant t ≠ [] := by
  fun_induction morceaux sep saute courant t with
  | case1 => exact List.cons_ne_nil _ _
  | case2 saute courant c t ih => exact ih
  | case3 courant c t hsep ih => exact List.cons_ne_nil _ _
  | case4 courant c t hsep ih => exact ih

/-- A split leaves at least one piece. -/
theorem split_ne_nil (sep t : Chaine) : split sep t ≠ [] :=
  morceaux_ne_nil sep 0 [] t

end Script
end RondeDesFacs
