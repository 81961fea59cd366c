import RondeDesFacs.Library.Separators

/-!
# Query strings

The query string of a URL ends at the first `#`, consists of pieces with `&` between them,
and a piece of a name and a value with the first `=` between them.  Names and values are
percent-decoded (`percentDecode`): an escape gives its octet, every other character the
octets of its UTF-8 form.  Texts are UTF-16 code units; a surrogate without its partner
counts as a character, as it does in a script.

A query string that is **put together with nothing encoded** is read back as it was exactly
if its values are `Clean` (`values_print_iff`).  The octets carry the proof: an escape takes
three for one, and a separator cuts some off, so a value that is not clean comes out too
short.
-/

namespace RondeDesFacs
namespace UrlQuery

open Separators

/-! ## Octets -/

/-- A high surrogate. -/
def high (u : UInt16) : Bool := 0xD800 ≤ u.toNat && u.toNat < 0xDC00

/-- A low surrogate. -/
def low (u : UInt16) : Bool := 0xDC00 ≤ u.toNat && u.toNat < 0xE000

/-- The octets of a code point. -/
def utf8 (n : ℕ) : List UInt8 :=
  if n < 0x80 then [UInt8.ofNat n]
  else if n < 0x800 then [UInt8.ofNat (0xC0 + n / 64), UInt8.ofNat (0x80 + n % 64)]
  else if n < 0x10000 then
    [UInt8.ofNat (0xE0 + n / 4096), UInt8.ofNat (0x80 + n / 64 % 64), UInt8.ofNat (0x80 + n % 64)]
  else
    [UInt8.ofNat (0xF0 + n / 262144), UInt8.ofNat (0x80 + n / 4096 % 64),
      UInt8.ofNat (0x80 + n / 64 % 64), UInt8.ofNat (0x80 + n % 64)]

/-- The code point at a unit, and how many of the units behind it belong to it. -/
def codePoint (u : UInt16) (t : List UInt16) : ℕ × ℕ :=
  match t with
  | [] => (u.toNat, 0)
  | v :: _ =>
    if high u && low v then (0x10000 + (u.toNat - 0xD800) * 0x400 + (v.toNat - 0xDC00), 1)
    else (u.toNat, 0)

/-- The octets of a text, some units of which have been read. -/
def octetsFrom : ℕ → List UInt16 → List UInt8
  | _, [] => []
  | k + 1, _ :: t => octetsFrom k t
  | 0, u :: t => utf8 (codePoint u t).1 ++ octetsFrom (codePoint u t).2 t

/-- The octets of a text. -/
def octets (t : List UInt16) : List UInt8 := octetsFrom 0 t

/-! ## Escapes -/

/-- The value of a hexadecimal digit. -/
def hex (u : UInt16) : Option ℕ :=
  if 0x30 ≤ u.toNat ∧ u.toNat ≤ 0x39 then some (u.toNat - 0x30)
  else if 0x41 ≤ u.toNat ∧ u.toNat ≤ 0x46 then some (u.toNat - 0x37)
  else if 0x61 ≤ u.toNat ∧ u.toNat ≤ 0x66 then some (u.toNat - 0x57)
  else none

/-- The octet of an escape at the beginning: a percent sign and two digits. -/
def escape : List UInt16 → Option UInt8
  | p :: a :: b :: _ =>
    if p = 0x25 then
      (hex a).bind fun h => (hex b).map fun l => UInt8.ofNat (16 * h + l)
    else none
  | _ => none

/-- The octets of a text, percent-decoded, some units of which have been read. -/
def percentDecodeFrom : ℕ → List UInt16 → List UInt8
  | _, [] => []
  | k + 1, _ :: t => percentDecodeFrom k t
  | 0, u :: t =>
    match escape (u :: t) with
    | some o => o :: percentDecodeFrom 2 t
    | none => utf8 (codePoint u t).1 ++ percentDecodeFrom (codePoint u t).2 t

/-- The octets of a text, percent-decoded. -/
def percentDecode (t : List UInt16) : List UInt8 := percentDecodeFrom 0 t

/-! ## Query strings -/

/-- A piece, split at its first `=` and decoded. -/
def pair (piece : List UInt16) : List UInt8 × List UInt8 :=
  (percentDecode (piece.takeWhile (· ≠ 0x3D)),
    percentDecode (piece.dropWhile (· ≠ 0x3D)).tail)

/-- The pairs of a query string. -/
def pairs (query : List UInt16) : List (List UInt8 × List UInt8) :=
  (((query.takeWhile (· ≠ 0x23)).splitOn 0x26).filter fun piece => !piece.isEmpty).map pair

/-- The values under a name. -/
def values (query name : List UInt16) : List (List UInt8) :=
  ((pairs query).filter fun p => p.1 = octets name).map Prod.snd

/-- The query string of a URL: what is behind its first `?`. -/
def query (url : List UInt16) : List UInt16 := (url.dropWhile (· ≠ 0x3F)).tail

/-- A pair, with nothing encoded. -/
def printPair (e : List UInt16 × List UInt16) : List UInt16 := e.1 ++ 0x3D :: e.2

/-- A query string, with nothing encoded. -/
def print (l : List (List UInt16 × List UInt16)) : List UInt16 :=
  [0x26].intercalate (l.map printPair)

/-- No escape in a text: no percent sign in front of two hexadecimal digits. -/
def Unescaped (t : List UInt16) : Prop := ∀ s, s <:+ t → escape s = none

/-- Nothing in a text that ends a value: no `&` and no `#`. -/
def Uncut (t : List UInt16) : Prop := ∀ u ∈ t, u ≠ 0x26 ∧ u ≠ 0x23

/-- A value in which nothing needs to be encoded. -/
structure Clean (v : List UInt16) : Prop where
  uncut : Uncut v
  unescaped : Unescaped v

/-- A name: ASCII letters. -/
def IsName (n : List UInt16) : Prop := n ≠ [] ∧ ∀ u ∈ n, 0x61 ≤ u.toNat ∧ u.toNat ≤ 0x7A

/-! ## An escape takes more octets than it gives -/

theorem octetsFrom_eq (k : ℕ) (t : List UInt16) : octetsFrom k t = octets (t.drop k) := by
  induction t generalizing k with
  | nil => rw [List.drop_nil, octets, octetsFrom, octetsFrom]
  | cons u t ih =>
    rcases k with _ | k
    · rfl
    · rw [octetsFrom, ih, List.drop_succ_cons]

theorem percentDecodeFrom_eq (k : ℕ) (t : List UInt16) :
    percentDecodeFrom k t = percentDecode (t.drop k) := by
  induction t generalizing k with
  | nil => rw [List.drop_nil, percentDecode, percentDecodeFrom, percentDecodeFrom]
  | cons u t ih =>
    rcases k with _ | k
    · rfl
    · rw [percentDecodeFrom, ih, List.drop_succ_cons]

/-- The units behind a unit that belong to it. -/
theorem codePoint_snd (u : UInt16) (t : List UInt16) :
    (codePoint u t).2 = 0 ∨ (codePoint u t).2 = 1 ∧ ∃ v t', t = v :: t' ∧ low v = true := by
  rcases t with _ | ⟨v, t⟩
  · exact Or.inl rfl
  · rw [codePoint]
    split_ifs with h
    · exact Or.inr ⟨rfl, v, t, rfl, (Bool.and_eq_true_iff.mp h).2⟩
    · exact Or.inl rfl

/-- An ASCII unit is one octet. -/
theorem octets_cons_of_lt {u : UInt16} (hu : u.toNat < 0x80) (t : List UInt16) :
    octets (u :: t) = UInt8.ofNat u.toNat :: octets t := by
  have hhigh : high u = false := by
    rw [high, decide_eq_false (by omega), Bool.false_and]
  have hpoint : codePoint u t = (u.toNat, 0) := by
    rcases t with _ | ⟨v, t⟩
    · rfl
    · rw [codePoint, hhigh, Bool.false_and, if_neg Bool.false_ne_true]
  rw [octets, octetsFrom, hpoint, utf8, if_pos hu]
  rfl

theorem hex_lt {u : UInt16} {d : ℕ} (h : hex u = some d) : u.toNat < 0x80 := by
  unfold hex at h
  split_ifs at h <;> omega

/-- What an escape looks like. -/
theorem exists_of_escape {s : List UInt16} {o : UInt8} (h : escape s = some o) :
    ∃ a b t, s = 0x25 :: a :: b :: t ∧ a.toNat < 0x80 ∧ b.toNat < 0x80 := by
  rcases s with _ | ⟨p, _ | ⟨a, _ | ⟨b, t⟩⟩⟩
  · cases h
  · cases h
  · cases h
  · rw [escape] at h
    split_ifs at h with hp
    obtain ⟨d, hd, h⟩ := Option.bind_eq_some_iff.mp h
    obtain ⟨e, he, -⟩ := Option.map_eq_some_iff.mp h
    exact ⟨a, b, t, by rw [hp], hex_lt hd, hex_lt he⟩

theorem unescaped_nil : Unescaped [] := by
  intro s hs
  rw [List.suffix_nil.mp hs]
  rfl

theorem clean_nil : Clean [] := ⟨fun _ hu => absurd hu List.not_mem_nil, unescaped_nil⟩

theorem unescaped_cons {u : UInt16} {t : List UInt16} :
    Unescaped (u :: t) ↔ escape (u :: t) = none ∧ Unescaped t := by
  simp only [Unescaped, List.suffix_cons_iff, or_imp, forall_and, forall_eq]

section Cons

variable {u : UInt16} {t : List UInt16}

/-- A character at the beginning, with all its units. -/
theorem octets_cons (u : UInt16) (t : List UInt16) :
    octets (u :: t) = utf8 (codePoint u t).1 ++ octets (t.drop (codePoint u t).2) := by
  rw [octets, octetsFrom, octetsFrom_eq]

/-- It stays as it is, unless it begins an escape. -/
theorem percentDecode_cons (h : escape (u :: t) = none) :
    percentDecode (u :: t) =
      utf8 (codePoint u t).1 ++ percentDecode (t.drop (codePoint u t).2) := by
  rw [percentDecode, percentDecodeFrom, h, ← percentDecodeFrom_eq]

theorem unescaped_cons_iff (h : escape (u :: t) = none) :
    Unescaped (u :: t) ↔ Unescaped (t.drop (codePoint u t).2) := by
  rw [unescaped_cons, and_iff_right h]
  rcases codePoint_snd u t with hzero | ⟨hone, v, t, rfl, hv⟩
  · rw [hzero, List.drop_zero]
  · -- a low surrogate is no percent sign
    have hlow : escape (v :: t) = none := by
      rw [Option.eq_none_iff_forall_ne_some]
      intro o ho
      obtain ⟨a, b, t', heq, -⟩ := exists_of_escape ho
      rw [(List.cons.inj heq).1] at hv
      exact absurd hv (by decide)
    rw [hone, unescaped_cons, and_iff_right hlow]
    rfl

/-- An escape gives its octet. -/
theorem percentDecode_escape {a b : UInt16} {o : UInt8}
    (h : escape (0x25 :: a :: b :: t) = some o) :
    percentDecode (0x25 :: a :: b :: t) = o :: percentDecode t := by
  rw [percentDecode, percentDecodeFrom, h, percentDecodeFrom_eq]
  rfl

end Cons

/-- **Decoding shortens** a text that has an escape, and leaves any other as it is. -/
theorem percentDecode_cases (t : List UInt16) :
    (Unescaped t ∧ percentDecode t = octets t) ∨
      (¬ Unescaped t ∧ (percentDecode t).length < (octets t).length) := by
  induction hn : t.length using Nat.strongRecOn generalizing t with
  | _ n ih =>
  rcases t with _ | ⟨u, t⟩
  · exact Or.inl ⟨unescaped_nil, rfl⟩
  rcases hescape : escape (u :: t) with _ | o
  · have hlength : (t.drop (codePoint u t).2).length < n := by
      rw [← hn, List.length_drop, List.length_cons]
      omega
    rw [percentDecode_cons hescape, octets_cons, unescaped_cons_iff hescape, List.length_append,
      List.length_append]
    rcases ih _ hlength _ rfl with ⟨hnone, heq⟩ | ⟨hsome, hlt⟩
    · exact Or.inl ⟨hnone, congrArg _ heq⟩
    · exact Or.inr ⟨hsome, Nat.add_lt_add_left hlt _⟩
  · -- an escape gives one octet for three
    obtain ⟨a, b, t, heq, ha, hb⟩ := exists_of_escape hescape
    rw [heq] at hescape hn ⊢
    have hle : (percentDecode t).length ≤ (octets t).length := by
      rcases ih t.length (by rw [← hn]; simp only [List.length_cons]; omega) t rfl with h | h
      · exact Nat.le_of_eq (congrArg List.length h.2)
      · exact Nat.le_of_lt h.2
    refine Or.inr ⟨fun h => ?_, ?_⟩
    · rw [h _ (List.suffix_refl _)] at hescape
      cases hescape
    · rw [percentDecode_escape hescape, octets_cons_of_lt (by decide), octets_cons_of_lt ha,
        octets_cons_of_lt hb]
      simp only [List.length_cons]
      omega

theorem length_percentDecode_le (t : List UInt16) :
    (percentDecode t).length ≤ (octets t).length := by
  rcases percentDecode_cases t with h | h
  · exact Nat.le_of_eq (congrArg List.length h.2)
  · exact Nat.le_of_lt h.2

theorem percentDecode_eq_octets_iff {t : List UInt16} :
    percentDecode t = octets t ↔ Unescaped t := by
  rcases percentDecode_cases t with ⟨h, heq⟩ | ⟨h, hlt⟩
  · exact ⟨fun _ => h, fun _ => heq⟩
  · exact ⟨fun heq => absurd (congrArg List.length heq) (Nat.ne_of_lt hlt), fun h' => absurd h' h⟩

/-- What is cut off at an ASCII unit has fewer octets. -/
theorem length_octets_lt_append (w : List UInt16) {c : UInt16} (hc : c.toNat < 0x80)
    (r : List UInt16) : (octets w).length < (octets (w ++ c :: r)).length := by
  have hsplit : ∀ (w : List UInt16) (k : ℕ), k ≤ w.length →
      octetsFrom k (w ++ c :: r) = octetsFrom k w ++ octets (c :: r) := by
    intro w
    induction w with
    | nil =>
      intro k hk
      obtain rfl := Nat.le_zero.mp hk
      rfl
    | cons u w ih =>
      intro k hk
      rcases k with _ | k
      · have hpoint : codePoint u (w ++ c :: r) = codePoint u w := by
          rcases w with _ | ⟨v, w⟩
          · have hlow : low c = false := by
              rw [low, decide_eq_false (by omega), Bool.false_and]
            show (if (high u && low c) = true then _ else (u.toNat, 0)) = _
            rw [hlow, Bool.and_false, if_neg Bool.false_ne_true]
            rfl
          · rfl
        have hle : (codePoint u w).2 ≤ w.length := by
          rcases codePoint_snd u w with h | ⟨h, v, t, rfl, -⟩
          · omega
          · rw [h, List.length_cons]
            omega
        rw [List.cons_append, octetsFrom, hpoint, ih _ hle, octetsFrom, List.append_assoc]
      · rw [List.cons_append, octetsFrom, octetsFrom]
        exact ih k (Nat.le_of_succ_le_succ hk)
  rw [octets, octets, hsplit w 0 (Nat.zero_le _), octets_cons_of_lt hc, List.length_append]
  simp

/-! ## Names -/

theorem isName_of_all {n : List UInt16}
    (h : (!n.isEmpty && n.all fun u => 0x61 ≤ u.toNat && u.toNat ≤ 0x7A) = true) : IsName n := by
  simpa [IsName] using h

theorem IsName.notMem {n : List UInt16} (hn : IsName n) {u : UInt16} (hu : u.toNat < 0x61) :
    u ∉ n := by
  intro hmem
  exact absurd (hn.2 u hmem).1 (Nat.not_le_of_lt hu)

theorem IsName.octets {n : List UInt16} (hn : IsName n) :
    octets n = n.map fun u => UInt8.ofNat u.toNat := by
  have hlt : ∀ u ∈ n, u.toNat < 0x80 := fun u hu => by
    have := (hn.2 u hu).2
    omega
  clear hn
  induction n with
  | nil => rfl
  | cons u n ih =>
    obtain ⟨hu, hrest⟩ := List.forall_mem_cons.mp hlt
    rw [octets_cons_of_lt hu, ih hrest, List.map_cons]

theorem IsName.percentDecode {n : List UInt16} (hn : IsName n) :
    percentDecode n = UrlQuery.octets n := by
  rw [percentDecode_eq_octets_iff]
  intro s hs
  rw [Option.eq_none_iff_forall_ne_some]
  intro o ho
  obtain ⟨a, b, t, rfl, -⟩ := exists_of_escape ho
  exact hn.notMem (u := 0x25) (by decide)
    (hs.subset (List.mem_cons_self ..))

/-- Names are told apart by their octets. -/
theorem IsName.octets_injective {m n : List UInt16} (hm : IsName m) (hn : IsName n)
    (h : UrlQuery.octets m = UrlQuery.octets n) : m = n := by
  have hback : ∀ {n : List UInt16}, IsName n →
      (n.map fun u => UInt8.ofNat u.toNat).map (fun o => UInt16.ofNat o.toNat) = n := by
    intro n hn
    rw [List.map_map]
    refine (List.map_congr_left fun u hu => ?_).trans (List.map_id n)
    have hlt : u.toNat < 2 ^ 8 := by
      have := (hn.2 u hu).2
      omega
    rw [Function.comp_apply, UInt8.toNat_ofNat_of_lt' hlt, UInt16.ofNat_toNat, id]
  rw [hm.octets, hn.octets] at h
  rw [← hback hm, h, hback hn]

/-! ## Pieces -/

theorem pair_append {n : List UInt16} (hn : IsName n) (v : List UInt16) :
    pair (n ++ 0x3D :: v) = (octets n, percentDecode v) := by
  have hequals : ∀ u ∈ n, decide (u ≠ 0x3D) = true := fun u hu =>
    decide_eq_true fun h => hn.notMem (u := 0x3D) (by decide) (h ▸ hu)
  rw [pair, List.takeWhile_append_of_pos hequals, List.dropWhile_append_of_pos hequals]
  simp [hn.percentDecode]

/-- A piece has no separator in it. -/
theorem uncut_piece {n v : List UInt16} (hn : IsName n) (hv : Uncut v) :
    Uncut (n ++ 0x3D :: v) := by
  intro u hu
  rcases List.mem_append.mp hu with hu | hu
  · exact ⟨fun h => hn.notMem (u := 0x26) (by decide) (h ▸ hu),
      fun h => hn.notMem (u := 0x23) (by decide) (h ▸ hu)⟩
  · rcases List.mem_cons.mp hu with rfl | hu
    · decide
    · exact hv u hu

section Piece

variable {n v : List UInt16} (hn : IsName n) (hv : Uncut v) (r : List UInt16)
include hn hv

/-- One piece, where what is left of the query string is empty. -/
theorem pairs_singleton (hr : r.takeWhile (fun u => decide (u ≠ 0x23)) = []) :
    pairs (n ++ 0x3D :: v ++ r) = [(octets n, percentDecode v)] := by
  have hamp : (0x26 : UInt16) ∉ n ++ 0x3D :: v := fun hmem => (uncut_piece hn hv _ hmem).1 rfl
  rw [pairs, List.takeWhile_append_of_pos fun u hu => decide_eq_true (uncut_piece hn hv u hu).2, hr,
    List.append_nil, List.splitOn_eq_singleton hamp, List.filter_cons_of_pos (by simp),
    List.filter_nil, List.map_singleton, pair_append hn]

/-- A first piece and others. -/
theorem pairs_amp :
    pairs (n ++ 0x3D :: v ++ 0x26 :: r) = (octets n, percentDecode v) :: pairs r := by
  have hamp : (0x26 : UInt16) ∉ n ++ 0x3D :: v := fun hmem => (uncut_piece hn hv _ hmem).1 rfl
  rw [pairs, List.takeWhile_append_of_pos fun u hu => decide_eq_true (uncut_piece hn hv u hu).2,
    List.takeWhile_cons_of_pos (by decide), List.splitOn_append_cons_self_of_not_mem hamp,
    List.filter_cons_of_pos (by simp), List.map_cons, pair_append hn]
  rfl

end Piece

/-! ## Printing and reading -/

theorem print_singleton (e : List UInt16 × List UInt16) : print [e] = printPair e := by
  rw [print, List.map_singleton, List.intercalate_singleton]

theorem print_cons_cons (e e' : List UInt16 × List UInt16) (l : List (List UInt16 × List UInt16)) :
    print (e :: e' :: l) = printPair e ++ 0x26 :: print (e' :: l) := by
  rw [print, List.map_cons, List.map_cons, List.intercalate_cons_cons, List.append_assoc]
  rfl

theorem print_cons (e : List UInt16 × List UInt16) (l : List (List UInt16 × List UInt16)) :
    print (e :: l) = printPair e ++ l.flatMap fun e => 0x26 :: printPair e := by
  rw [print, List.map_cons, intercalate_cons, List.flatMap_map]
  rfl

/-- A value that is cut is cut somewhere for the first time. -/
theorem exists_cut {v : List UInt16} (h : ¬ Uncut v) :
    ∃ w c r, v = w ++ c :: r ∧ Uncut w ∧ (c = 0x26 ∨ c = 0x23) := by
  rcases hfind : v.find? fun u => u = 0x26 ∨ u = 0x23 with _ | c
  · exact absurd (fun u hu => by simpa using List.find?_eq_none.mp hfind u hu) h
  · obtain ⟨hc, w, r, rfl, hw⟩ := List.find?_eq_some_iff_append.mp hfind
    exact ⟨w, c, r, rfl, fun u hu => by simpa using hw u hu, of_decide_eq_true hc⟩

section Printed

variable {e : List UInt16 × List UInt16} {l : List (List UInt16 × List UInt16)}

/-- A value that is not cut is decoded, and what follows it is read by itself. -/
theorem pairs_print_cons (hn : IsName e.1) (hv : Uncut e.2) :
    pairs (print (e :: l)) = (octets e.1, percentDecode e.2) :: pairs (print l) := by
  rcases l with _ | ⟨e', l⟩
  · have hlast := pairs_singleton hn hv [] rfl
    rw [List.append_nil] at hlast
    rw [print_singleton, printPair, hlast]
    rfl
  · rw [print_cons_cons, printPair, pairs_amp hn hv]

/-- **The first value** is read back only if it is clean. -/
theorem exists_pairs_print_cons (hn : IsName e.1) (l : List (List UInt16 × List UInt16)) :
    ∃ o ps, pairs (print (e :: l)) = (octets e.1, o) :: ps ∧ (o = octets e.2 → Clean e.2) := by
  by_cases hv : Uncut e.2
  · exact ⟨_, _, pairs_print_cons hn hv, fun h => ⟨hv, percentDecode_eq_octets_iff.mp h⟩⟩
  · -- what is read ends at the first separator
    obtain ⟨w, c, r, heq, hw, hc⟩ := exists_cut hv
    have hshort : percentDecode w ≠ octets e.2 := by
      intro h
      have hc' : c.toNat < 0x80 := by rcases hc with rfl | rfl <;> decide
      have hlt := length_octets_lt_append w hc' r
      rw [← heq, ← h] at hlt
      exact absurd (length_percentDecode_le w) (Nat.not_le_of_lt hlt)
    obtain ⟨q, hprint⟩ : ∃ q, print (e :: l) = e.1 ++ 0x3D :: w ++ c :: (r ++ q) := by
      rcases l with _ | ⟨e', l⟩
      · exact ⟨[], by rw [print_singleton, printPair, heq]; simp⟩
      · exact ⟨0x26 :: print (e' :: l), by rw [print_cons_cons, printPair, heq]; simp⟩
    rcases hc with rfl | rfl
    · exact ⟨_, _, hprint ▸ pairs_amp hn hw _, fun h => absurd h hshort⟩
    · exact ⟨_, _, hprint ▸ pairs_singleton hn hw _ rfl, fun h => absurd h hshort⟩

/-- All values are read back if they are clean. -/
theorem pairs_print (hn : ∀ e ∈ l, IsName e.1) (hv : ∀ e ∈ l, Clean e.2) :
    pairs (print l) = l.map fun e => (octets e.1, octets e.2) := by
  induction l with
  | nil => rfl
  | cons e l ih =>
    obtain ⟨hne, hnl⟩ := List.forall_mem_cons.mp hn
    obtain ⟨hve, hvl⟩ := List.forall_mem_cons.mp hv
    rw [pairs_print_cons hne hve.uncut, percentDecode_eq_octets_iff.mpr hve.unescaped,
      ih hnl hvl, List.map_cons]

theorem values_of_pairs {q n : List UInt16} {o : List UInt8} {ps : List (List UInt8 × List UInt8)}
    (h : pairs q = (octets n, o) :: ps) :
    values q n = o :: (ps.filter fun p => p.1 = octets n).map Prod.snd := by
  rw [values, h, List.filter_cons, if_pos (decide_eq_true rfl), List.map_cons]

/-- The values under another name. -/
theorem values_of_pairs_of_ne {q q' m n : List UInt16} {o : List UInt8} (hm : IsName m)
    (hn : IsName n) (hne : m ≠ n) (h : pairs q = (octets m, o) :: pairs q') :
    values q n = values q' n := by
  have hoctets : ¬ octets m = octets n := fun heq => hne (hm.octets_injective hn heq)
  rw [values, h, List.filter_cons_of_neg (by simpa using hoctets)]
  rfl

/-- **Values that are read back are clean.** -/
theorem clean_of_values (hn : ∀ e ∈ l, IsName e.1) (hnodup : (l.map Prod.fst).Nodup)
    (h : ∀ e ∈ l, values (print l) e.1 = [octets e.2]) : ∀ e ∈ l, Clean e.2 := by
  induction l with
  | nil => exact fun _ he => absurd he List.not_mem_nil
  | cons e l ih =>
    obtain ⟨hne, hnl⟩ := List.forall_mem_cons.mp hn
    obtain ⟨he, hl⟩ := List.forall_mem_cons.mp h
    obtain ⟨hnotMem, hnodup⟩ := List.nodup_cons.mp hnodup
    have hclean : Clean e.2 := by
      obtain ⟨o, ps, hpairs, hclean⟩ := exists_pairs_print_cons hne l
      rw [values_of_pairs hpairs] at he
      exact hclean (List.cons.inj he).1
    refine List.forall_mem_cons.mpr ⟨hclean, ih hnl hnodup fun e' he' => ?_⟩
    have hne' : e.1 ≠ e'.1 := fun heq => hnotMem (heq ▸ List.mem_map_of_mem he')
    rw [← values_of_pairs_of_ne hne (hnl e' he') hne' (pairs_print_cons hne hclean.uncut)]
    exact hl e' he'

/-- The values that were printed under a name. -/
def printed (l : List (List UInt16 × List UInt16)) (n : List UInt16) : List (List UInt8) :=
  (l.filter fun e => e.1 = n).map fun e => octets e.2

/-- **Values that are clean are read back**, each under its own name. -/
theorem values_print (hn : ∀ e ∈ l, IsName e.1) (hv : ∀ e ∈ l, Clean e.2) {n : List UInt16}
    (hname : IsName n) : values (print l) n = printed l n := by
  rw [values, pairs_print hn hv, List.filter_map, List.map_map, printed]
  refine congrArg _ (List.filter_congr fun e he => ?_)
  have hiff : octets e.1 = octets n ↔ e.1 = n :=
    ⟨(hn e he).octets_injective hname, congrArg octets⟩
  exact decide_eq_decide.mpr hiff

/-- Names that are printed once. -/
theorem printed_of_mem (hnodup : (l.map Prod.fst).Nodup) (he : e ∈ l) :
    printed l e.1 = [octets e.2] := by
  induction l with
  | nil => exact absurd he List.not_mem_nil
  | cons e' l ih =>
    obtain ⟨hnotMem, hnodup⟩ := List.nodup_cons.mp hnodup
    rw [printed]
    rcases List.mem_cons.mp he with rfl | he
    · have hrest : (l.filter fun e' => decide (e'.1 = e.1)) = [] := by
        rw [List.filter_eq_nil_iff]
        exact fun e' he' h => hnotMem (of_decide_eq_true h ▸ List.mem_map_of_mem he')
      rw [List.filter_cons, if_pos (decide_eq_true rfl), hrest]
      rfl
    · have hne : ¬ e'.1 = e.1 := fun heq => hnotMem (heq ▸ List.mem_map_of_mem he)
      rw [List.filter_cons_of_neg (by simpa using hne)]
      exact ih hnodup he

/-- **Printing with nothing encoded.**  Under each name the values are those that were
printed, exactly if nothing had to be encoded. -/
theorem values_print_iff {names : List (List UInt16)} (hnames : ∀ n ∈ names, IsName n)
    (hnodup : (l.map Prod.fst).Nodup) (hl : ∀ e ∈ l, e.1 ∈ names) :
    (∀ n ∈ names, values (print l) n = printed l n) ↔ ∀ e ∈ l, Clean e.2 := by
  have hn : ∀ e ∈ l, IsName e.1 := fun e he => hnames e.1 (hl e he)
  constructor
  · refine fun h => clean_of_values hn hnodup fun e he => ?_
    rw [h e.1 (hl e he), printed_of_mem hnodup he]
  · exact fun hv n hmem => values_print hn hv (hnames n hmem)

end Printed

end UrlQuery
end RondeDesFacs
