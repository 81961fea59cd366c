import RondeDesFacs.Library.DistinguishedName

/-!
# Values that make a name

A name that is put together with nothing escaped (`print`) may be no name at all.  Whether it
is one can be told from its values, each by itself (`isSome_parse_print_iff`): a value has to
`Fit` behind the equals sign of a type, as the value of an attribute with any number of
further attributes behind it.

There is one exception to "by itself".  A value that ends within an escape, at a backslash,
takes in the comma behind it, and with the comma the next type.  Such a value has to fit
together with its comma, and the next one as the rest of a value.
-/

namespace RondeDesFacs
namespace DistinguishedName

open Separators

/-- What a value is put behind to look at it by itself: a type, or a type and the first
character of a value. -/
def front (inside : Bool) : List Char := if inside then ['a', '=', 'a'] else ['a', '=']

/-- A text that can stand there. -/
def Fits (inside : Bool) (v : List Char) : Prop := (parse (front inside ++ v)).isSome

/-- A value ends within an escape. -/
def isOpen (v : List Char) : Bool := (lex .outside v).isNone

/-- A value, with the comma behind it if it takes that in. -/
def closed (v : List Char) : List Char := if isOpen v then v ++ [','] else v

/-- Values that make a name, where the first begins within a value or not. -/
def Fit : Bool → List (List Char) → Prop
  | _, [] => True
  | inside, [v] => Fits inside v
  | inside, v :: w :: vs => Fits inside (closed v) ∧ Fit (isOpen v) (w :: vs)

/-! ## Tokens between attributes -/

/-- A token between two attributes. -/
def Token.separates (a : Token) : Bool := a = .lit ',' || a = .lit '+'

/-- Everything between two separators is an attribute. -/
def Sound (ts : List Token) : Prop :=
  ∀ a ∈ ts.splitOnP Token.separates, (attributeTypeAndValue a).isSome

theorem isSome_all_iff {α β : Type} {f : α → Option β} {l : List α} :
    (all f l).isSome ↔ ∀ a ∈ l, (f a).isSome := by
  induction l with
  | nil => simp [all]
  | cons a l ih =>
    rw [all, Option.isSome_bind, List.forall_mem_cons, ← ih]
    rcases f a with _ | b <;> simp

/-- Splitting at the commas, and then at the plus signs, is splitting at both. -/
theorem flatMap_splitOn (ts : List Token) :
    (ts.splitOn (.lit ',')).flatMap (fun p => p.splitOn (.lit '+')) =
      ts.splitOnP Token.separates := by
  induction ts with
  | nil => rfl
  | cons a ts ih =>
    obtain ⟨p, ps, hp⟩ := List.exists_cons_of_ne_nil (List.splitOn_ne_nil (.lit ',') ts)
    rw [hp, List.flatMap_cons] at ih
    rw [List.splitOn_cons_eq_if_modifyHead, List.splitOnP_cons_eq_if_modifyHead, ← ih, hp]
    by_cases hcomma : a = .lit ','
    · simp [hcomma, Token.separates]
    · by_cases hplus : a = .lit '+'
      · simp [hplus, Token.separates, List.splitOn_cons_eq_if_modifyHead]
      · obtain ⟨q, qs, hq⟩ := List.exists_cons_of_ne_nil (List.splitOn_ne_nil (.lit '+') p)
        simp [hcomma, hplus, Token.separates, List.splitOn_cons_eq_if_modifyHead, hq]

/-- Tokens make a name if everything between two separators is an attribute. -/
theorem isSome_distinguishedName_iff {ts : List Token} (h : ts ≠ []) :
    (distinguishedName ts).isSome ↔ Sound ts := by
  rw [distinguishedName, if_neg h, isSome_all_iff, Sound, ← flatMap_splitOn]
  simp only [relativeDistinguishedName, isSome_all_iff, List.mem_flatMap]
  constructor
  · rintro h a ⟨p, hp, ha⟩
    exact h p hp a ha
  · exact fun h p hp a ha => h a ⟨p, hp, ha⟩

theorem sound_append_cons (ts us : List Token) {s : Token} (hs : s.separates = true) :
    Sound (ts ++ s :: us) ↔ Sound ts ∧ Sound us := by
  simp only [Sound, List.splitOnP_append_cons ts us hs, List.mem_append, or_imp, forall_and]

theorem sound_iff_of_forall {ts : List Token} (h : ∀ a ∈ ts, a.separates = false) :
    Sound ts ↔ (attributeTypeAndValue ts).isSome := by
  rw [Sound, List.splitOnP_eq_singleton h, List.forall_mem_singleton]

/-- Tokens up to the first separator. -/
theorem exists_separator (ts : List Token) :
    (∀ a ∈ ts, a.separates = false) ∨ ∃ f s us, ts = f ++ s :: us ∧
      (∀ a ∈ f, a.separates = false) ∧ s.separates = true := by
  rcases hfind : ts.find? Token.separates with _ | s
  · exact Or.inl fun a ha => by simpa using List.find?_eq_none.mp hfind a ha
  · obtain ⟨hs, f, us, rfl, hf⟩ := List.find?_eq_some_iff_append.mp hfind
    exact Or.inr ⟨f, s, us, rfl, fun a ha => by simpa using hf a ha, hs⟩

/-- **What stands in front of the first separator** can be looked at by itself. -/
theorem sound_append_iff (ts : List Token) {xs ys zs : List Token}
    (hx : ∀ a ∈ xs, a.separates = false) (hy : ∀ a ∈ ys, a.separates = false)
    (hz : ∀ a ∈ zs, a.separates = false)
    (h : ∀ f, (attributeTypeAndValue (xs ++ f)).isSome ↔
      (attributeTypeAndValue ys).isSome ∧ (attributeTypeAndValue (zs ++ f)).isSome) :
    Sound (xs ++ ts) ↔ Sound ys ∧ Sound (zs ++ ts) := by
  rw [sound_iff_of_forall hy]
  rcases exists_separator ts with hts | ⟨f, s, us, rfl, hf, hs⟩
  · rw [sound_iff_of_forall (List.forall_mem_append.mpr ⟨hx, hts⟩),
      sound_iff_of_forall (List.forall_mem_append.mpr ⟨hz, hts⟩), h]
  · rw [← List.append_assoc, ← List.append_assoc, sound_append_cons _ _ hs,
      sound_append_cons _ _ hs, sound_iff_of_forall (List.forall_mem_append.mpr ⟨hx, hf⟩),
      sound_iff_of_forall (List.forall_mem_append.mpr ⟨hz, hf⟩), h, and_assoc]

/-! ## Types and values -/

theorem not_keychar_of_not_stringchar {c : Char} (h : stringchar c = false) :
    keychar c = false ∧ c ≠ '.' := by
  have hc : c ∈ ['\x00', '\\', '"', '+', ',', ';', '<', '>'] := by
    simp only [stringchar, escaped, Bool.and_eq_false_iff, decide_eq_false_iff_not, not_not,
      Bool.not_eq_false', List.contains_iff_mem, List.mem_cons, List.not_mem_nil, or_false] at h ⊢
    tauto
  simp only [List.mem_cons, List.not_mem_nil, or_false] at hc
  rcases hc with rfl | rfl | rfl | rfl | rfl | rfl | rfl | rfl <;> decide

/-- The tokens of a type, and an equals sign, can stand within a value. -/
theorem IsType.stringchar {n : List Char} (h : IsType n) :
    ∀ c ∈ n ++ ['='], stringchar c = true := by
  intro c hc
  rcases List.mem_append.mp hc with hc | hc
  · by_contra hfalse
    exact h.notMem (not_keychar_of_not_stringchar (Bool.not_eq_true _ ▸ hfalse)) hc
  · rw [List.mem_singleton.mp hc]
    decide

theorem separates_of_stringchar {t : List Char} (h : ∀ c ∈ t, stringchar c = true) :
    ∀ a ∈ t.map Token.lit, a.separates = false := by
  intro a ha
  obtain ⟨c, hc, rfl⟩ := List.mem_map.mp ha
  have hcomma : c ≠ ',' := fun heq => absurd (heq ▸ h c hc) (by decide)
  have hplus : c ≠ '+' := fun heq => absurd (heq ▸ h c hc) (by decide)
  simp [Token.separates, hcomma, hplus]

/-- An attribute is as good as its value. -/
theorem isSome_attributeTypeAndValue_iff {n : List Char} (h : IsType n) (f : List Token) :
    (attributeTypeAndValue ((n ++ ['=']).map .lit ++ f)).isSome ↔ (attributeValue f).isSome := by
  have hequals := lit_notMem_map_lit (h.notMem (c := '=') (by decide))
  rw [List.map_append, List.append_assoc, List.map_singleton, List.singleton_append,
    attributeTypeAndValue_append hequals, h.attributeType, Option.bind_some, Option.isSome_map]

theorem isType_a : IsType ['a'] := Or.inl (by decide)

/-- Which type it is does not matter. -/
theorem sound_type_iff {n : List Char} (h : IsType n) (ts : List Token) :
    Sound ((n ++ ['=']).map .lit ++ ts) ↔ Sound (['a', '='].map .lit ++ ts) := by
  have ha := separates_of_stringchar isType_a.stringchar
  have hempty : Sound (['a', '='].map .lit) := (sound_iff_of_forall ha).mpr (by decide)
  have hswap := sound_append_iff ts (separates_of_stringchar h.stringchar) ha ha fun f => by
    rw [isSome_attributeTypeAndValue_iff h, isSome_attributeTypeAndValue_iff isType_a]
    exact (and_iff_right (by decide)).symm
  exact hswap.trans (and_iff_right hempty)

/-! ## An escape that goes on -/

theorem hexpairs_of_esc {ts : List Token} {o : UInt8} (h : .esc o ∈ ts) : hexpairs ts = none := by
  induction ts using hexpairs.induct with
  | case1 => exact absurd h List.not_mem_nil
  | case2 a b ts ih =>
    have hts : Token.esc o ∈ ts := by simpa using h
    rw [hexpairs, ih hts]
    simp
  | case3 ts hnil hpair =>
    rw [hexpairs]
    · exact hnil
    · exact hpair

/-- A value with an escape in it is a string. -/
theorem isSome_attributeValue_of_esc {ts : List Token} {o : UInt8} (h : .esc o ∈ ts) :
    (attributeValue ts).isSome ↔ isString ts = true := by
  rw [attributeValue]
  split_ifs with hsharp hstring
  · obtain ⟨us, rfl⟩ : ∃ us, ts = .lit '#' :: us := by
      rcases ts with _ | ⟨a, us⟩
      · cases hsharp
      · exact ⟨us, congrArg (· :: us) (Option.some.inj hsharp)⟩
    have hus : Token.esc o ∈ us := by simpa using h
    rw [List.tail_cons, hexpairs_of_esc hus]
    simp [isString, Token.or, leadchar]
  · simp [hstring]
  · simp [hstring]

theorem isString_append_esc {u f : List Token} {o : UInt8} {m : List Char}
    (hm : ∀ c ∈ m ++ ['='], stringchar c = true) :
    isString (u ++ .esc o :: ((m ++ ['=']).map .lit ++ f)) = true ↔
      isString (u ++ [.esc o]) = true ∧ isString (.lit 'a' :: f) = true := by
  set rest : List Token := (m ++ ['=']).map .lit ++ f with hrest
  have hhead : (u ++ Token.esc o :: rest).head? = (u ++ [Token.esc o]).head? := by
    cases u <;> rfl
  have hall : rest.all (Token.or stringchar) = f.all (Token.or stringchar) := by
    rw [hrest, List.all_append, List.all_map]
    exact (congrArg (· && _) (List.all_eq_true.mpr hm)).trans (Bool.true_and _)
  have hlast : (u ++ Token.esc o :: rest).getLast?.all (Token.or trailchar) =
      (Token.lit 'a' :: f).getLast?.all (Token.or trailchar) := by
    rcases List.eq_nil_or_concat f with rfl | ⟨f, b, rfl⟩
    · have hequals : u ++ Token.esc o :: rest = (u ++ Token.esc o :: m.map .lit) ++ [.lit '='] := by
        simp [hrest]
      rw [hequals, List.getLast?_concat]
      decide
    · simp [hrest, List.getLast?_cons]
  have hesc : (u ++ [Token.esc o]).getLast?.all (Token.or trailchar) = true := by
    simp [Token.or]
  have hlead : (some (Token.lit 'a')).all (Token.or leadchar) = true := by decide
  have hstring : Token.or stringchar (.lit 'a') = true := by decide
  simp only [isString, hhead, hlast, hesc, hlead, hstring, List.head?_cons, List.all_append,
    List.all_cons, List.all_nil, hall, Bool.and_eq_true]
  tauto

theorem isSome_attributeTypeAndValue_a (f : List Token) :
    (attributeTypeAndValue (['a', '=', 'a'].map .lit ++ f)).isSome ↔
      isString (.lit 'a' :: f) = true := by
  have hvalue : attributeValue (.lit 'a' :: f) =
      if isString (.lit 'a' :: f) then some (.string (octets (.lit 'a' :: f))) else none := by
    rw [attributeValue, if_neg (by simp)]
  have hattribute := isSome_attributeTypeAndValue_iff isType_a (.lit 'a' :: f)
  rw [hvalue] at hattribute
  refine hattribute.trans ?_
  split_ifs with h <;> simp [h]

theorem attributeType_of_esc {ts : List Token} {o : UInt8} (h : .esc o ∈ ts) :
    attributeType ts = none := by
  rw [attributeType, Option.filter_eq_none_iff]
  intro t ht
  rw [literal_eq_some_iff.mp ht, List.mem_map] at h
  obtain ⟨c, -, hc⟩ := h
  cases hc

/-- **An attribute that goes on behind an escape** is one exactly if it is one up to there,
and the rest could follow a first character. -/
theorem isSome_attributeTypeAndValue_append_esc {n : List Char} (hn : IsType n) (g f : List Token)
    (o : UInt8) :
    (attributeTypeAndValue (g ++ .esc o :: ((n ++ ['=']).map .lit ++ f))).isSome ↔
      (attributeTypeAndValue (g ++ [.esc o])).isSome ∧
        (attributeTypeAndValue (['a', '=', 'a'].map .lit ++ f)).isSome := by
  rw [isSome_attributeTypeAndValue_a]
  by_cases hg : Token.lit '=' ∈ g
  · obtain ⟨t, u, rfl, ht⟩ := List.eq_append_cons_of_mem hg
    rw [List.append_assoc, List.append_assoc, List.cons_append, List.cons_append,
      attributeTypeAndValue_append ht, attributeTypeAndValue_append ht]
    rcases attributeType t with _ | n'
    · simp
    · rw [Option.bind_some, Option.bind_some, Option.isSome_map, Option.isSome_map,
        isSome_attributeValue_of_esc (o := o) (by simp),
        isSome_attributeValue_of_esc (o := o) (by simp), isString_append_esc hn.stringchar]
  · -- the equals sign is behind the escape, so the type has it in it
    have htype : g ++ Token.esc o :: ((n ++ ['=']).map .lit ++ f) =
        (g ++ Token.esc o :: n.map .lit) ++ .lit '=' :: f := by
      simp
    have hequals : Token.lit '=' ∉ g ++ Token.esc o :: n.map .lit := by
      have hn' := lit_notMem_map_lit (hn.notMem (c := '=') (by decide))
      simpa [hg] using hn'
    rw [htype, attributeTypeAndValue_append hequals, attributeType_of_esc (o := o) (by simp),
      attributeTypeAndValue, if_neg (by simpa using hg)]
    simp

theorem sound_append_esc {n : List Char} (hn : IsType n) (xs ts : List Token) (o : UInt8) :
    Sound (xs ++ .esc o :: ((n ++ ['=']).map .lit ++ ts)) ↔
      Sound (xs ++ [.esc o]) ∧ Sound (['a', '=', 'a'].map .lit ++ ts) := by
  induction hlength : xs.length using Nat.strongRecOn generalizing xs with
  | _ k ih =>
    have hesc : (Token.esc o).separates = false := by simp [Token.separates]
    rcases exists_separator xs with hxs | ⟨f, s, us, rfl, hf, hs⟩
    · have hfront : ∀ a ∈ xs ++ .esc o :: (n ++ ['=']).map .lit, a.separates = false :=
        List.forall_mem_append.mpr
          ⟨hxs, List.forall_mem_cons.mpr ⟨hesc, separates_of_stringchar hn.stringchar⟩⟩
      have hback : ∀ a ∈ xs ++ [Token.esc o], a.separates = false :=
        List.forall_mem_append.mpr ⟨hxs, List.forall_mem_singleton.mpr hesc⟩
      have ha : ∀ a ∈ ['a', '=', 'a'].map Token.lit, a.separates = false :=
        separates_of_stringchar (List.all_eq_true.mp rfl)
      rw [← List.cons_append, ← List.append_assoc]
      refine sound_append_iff ts hfront hback ha fun f => ?_
      rw [List.append_assoc, List.cons_append]
      exact isSome_attributeTypeAndValue_append_esc hn xs f o
    · have hshort : us.length < k := by
        rw [← hlength, List.length_append, List.length_cons]
        omega
      rw [List.append_assoc, List.append_assoc, List.cons_append, List.cons_append,
        sound_append_cons _ _ hs, sound_append_cons _ _ hs, ih _ hshort us rfl, and_assoc]

/-! ## Texts -/

/-- What is read behind the end of a token. -/
theorem lex_append_of_some {r : Reader} {v : List Char} {us : List Token} (h : lex r v = some us)
    (w : List Char) : lex r (v ++ w) = (lex .outside w).map (us ++ ·) := by
  induction v generalizing r us with
  | nil =>
    rcases r with _ | _ | d
    · rw [← Option.some.inj h]
      exact Option.map_id'.symm
    · cases h
    · cases h
  | cons c v ih =>
    -- one token more in front
    have hcons : ∀ {vs} (a : Token), lex .outside v = some vs →
        (lex .outside (v ++ w)).map (a :: ·) = (lex .outside w).map (a :: vs ++ ·) := by
      intro vs a hvs
      rw [ih hvs, Option.map_map]
      rfl
    rw [List.cons_append]
    rcases r with _ | _ | d
    · rw [lex] at h ⊢
      split_ifs at h ⊢
      · exact ih h
      · obtain ⟨vs, hvs, rfl⟩ := Option.map_eq_some_iff.mp h
        exact hcons _ hvs
    · rw [lex] at h ⊢
      split_ifs at h ⊢
      · obtain ⟨vs, hvs, rfl⟩ := Option.map_eq_some_iff.mp h
        exact hcons _ hvs
      · obtain ⟨d, hd, h⟩ := Option.bind_eq_some_iff.mp h
        rw [hd]
        exact ih h
    · rw [lex] at h ⊢
      obtain ⟨l, hl, h⟩ := Option.bind_eq_some_iff.mp h
      obtain ⟨vs, hvs, rfl⟩ := Option.map_eq_some_iff.mp h
      rw [hl]
      exact hcons _ hvs

/-- Behind a text that ends within an escape, the comma ends it or nothing does. -/
theorem lex_append_of_none {r : Reader} {v : List Char} (h : lex r v = none) :
    (∀ w, lex r (v ++ ',' :: w) = none) ∨ ∃ us o, lex r (v ++ [',']) = some (us ++ [.esc o]) := by
  induction v generalizing r with
  | nil =>
    rcases r with _ | _ | d
    · cases h
    · exact Or.inr ⟨[], _, rfl⟩
    · exact Or.inl fun w => rfl
  | cons c v ih =>
    -- one token more in front
    have hcons : ∀ a : Token, (lex .outside v).map (a :: ·) = none →
        (∀ w, (lex .outside (v ++ ',' :: w)).map (a :: ·) = none) ∨
          ∃ us o, (lex .outside (v ++ [','])).map (a :: ·) = some (us ++ [.esc o]) := by
      intro a ha
      rcases ih (Option.map_eq_none_iff.mp ha) with hnone | ⟨us, o, hus⟩
      · exact Or.inl fun w => Option.map_eq_none_iff.mpr (hnone w)
      · exact Or.inr ⟨a :: us, o, by rw [hus]; rfl⟩
    simp only [List.cons_append]
    rcases r with _ | _ | d
    · simp only [lex] at h ⊢
      split_ifs at h ⊢
      · exact ih h
      · exact hcons _ h
    · simp only [lex] at h ⊢
      split_ifs at h ⊢
      · exact hcons _ h
      · rcases hd : hex c with _ | d
        · exact Or.inl fun w => rfl
        · rw [hd] at h
          exact ih h
    · simp only [lex] at h ⊢
      rcases hl : hex c with _ | l
      · exact Or.inl fun w => rfl
      · rw [hl] at h
        exact hcons _ h

/-- A name is read if its tokens are sound. -/
theorem isSome_parse_append {t : List Char} (hnil : t ≠ []) (h : '\\' ∉ t) (w : List Char) :
    (parse (t ++ w)).isSome ↔ ∃ ts, lex .outside w = some ts ∧ Sound (t.map .lit ++ ts) := by
  rw [parse, lex_append_of_some (lex_of_notMem h)]
  rcases lex .outside w with _ | ts
  · simp
  · have hne : t.map Token.lit ++ ts ≠ [] := by simp [hnil]
    rw [Option.map_some, Option.bind_some, isSome_distinguishedName_iff hne]
    simp

theorem fits_iff (inside : Bool) (v : List Char) :
    Fits inside v ↔ ∃ ts, lex .outside v = some ts ∧ Sound ((front inside).map .lit ++ ts) := by
  cases inside
  · exact isSome_parse_append (by decide) (by decide) v
  · exact isSome_parse_append (by decide) (by decide) v

/-- **A value and the next**: each has to fit, where the first ends. -/
theorem fits_append_comma (inside : Bool) (v : List Char) {n : List Char} (hn : IsType n)
    (w : List Char) :
    Fits inside (v ++ ',' :: (n ++ '=' :: w)) ↔ Fits inside (closed v) ∧ Fits (isOpen v) w := by
  have hbackslash : '\\' ∉ n ++ ['='] := fun h => absurd (hn.stringchar _ h) (by decide)
  have hnext : lex .outside (n ++ '=' :: w) =
      (lex .outside w).map ((n ++ ['=']).map .lit ++ ·) := by
    rw [← lex_append_of_some (lex_of_notMem hbackslash), List.append_assoc, List.singleton_append]
  have hcomma : (Token.lit ',').separates = true := by decide
  rw [fits_iff, fits_iff, fits_iff]
  rcases hv : lex .outside v with _ | us
  · have hopen : isOpen v = true := by rw [isOpen, hv]; rfl
    rw [closed, hopen, if_pos rfl]
    rcases lex_append_of_none hv with hnone | ⟨us, o, hus⟩
    · simp [hnone]
    · have hall := lex_append_of_some hus (n ++ '=' :: w)
      rw [List.append_assoc, List.singleton_append, hnext] at hall
      rw [hall, hus]
      rcases lex .outside w with _ | ts
      · simp
      · have hsound := sound_append_esc hn ((front inside).map .lit ++ us) ts o
        simpa [front] using hsound
  · have hopen : isOpen v = false := by rw [isOpen, hv]; rfl
    have hall := lex_append_of_some hv (',' :: (n ++ '=' :: w))
    rw [lex, if_neg (by decide), hnext] at hall
    rw [closed, hopen, if_neg Bool.false_ne_true, hall, hv]
    rcases lex .outside w with _ | ts
    · simp
    · have hsound := sound_append_cons ((front inside).map .lit ++ us)
        ((n ++ ['=']).map .lit ++ ts) hcomma
      rw [sound_type_iff hn] at hsound
      simpa [front] using hsound

/-- A value and all the next. -/
theorem fits_append_iff (inside : Bool) (v : List Char) {l : List (List Char × List Char)}
    (ht : ∀ e ∈ l, IsType e.1) :
    Fits inside (v ++ l.flatMap fun e => ',' :: printAttribute e) ↔
      Fit inside (v :: l.map Prod.snd) := by
  induction l generalizing inside v with
  | nil => rw [List.flatMap_nil, List.append_nil, List.map_nil, Fit]
  | cons e l ih =>
    obtain ⟨hte, htl⟩ := List.forall_mem_cons.mp ht
    have htext : (e :: l).flatMap (fun e => ',' :: printAttribute e) =
        ',' :: (e.1 ++ '=' :: (e.2 ++ l.flatMap fun e => ',' :: printAttribute e)) := by
      simp [printAttribute]
    rw [htext, fits_append_comma inside v hte, ih _ _ htl, List.map_cons, Fit]

theorem print_cons (e : List Char × List Char) (l : List (List Char × List Char)) :
    print (e :: l) = printAttribute e ++ l.flatMap fun e => ',' :: printAttribute e := by
  rw [print, List.map_cons, intercalate_cons, List.flatMap_map]
  rfl

/-- **Printing with nothing escaped** gives a name exactly if the values fit. -/
theorem isSome_parse_print_iff {l : List (List Char × List Char)} (hl : l ≠ [])
    (ht : ∀ e ∈ l, IsType e.1) : (parse (print l)).isSome ↔ Fit false (l.map Prod.snd) := by
  obtain ⟨e, l, rfl⟩ := List.exists_cons_of_ne_nil hl
  obtain ⟨hte, htl⟩ := List.forall_mem_cons.mp ht
  have hbackslash : '\\' ∉ e.1 ++ ['='] := fun h => absurd (hte.stringchar _ h) (by decide)
  have htext : print (e :: l) =
      (e.1 ++ ['=']) ++ (e.2 ++ l.flatMap fun e => ',' :: printAttribute e) := by
    simp [print_cons, printAttribute]
  rw [List.map_cons, ← fits_append_iff false e.2 htl, fits_iff, htext,
    isSome_parse_append (by simp) hbackslash]
  simp only [sound_type_iff hte]
  rfl

end DistinguishedName
end RondeDesFacs
