import RondeDesFacs.Library.Separators
import Mathlib.Data.List.Forall2
import Mathlib.Data.Option.Basic

/-!
# Distinguished names

The string representation of the distinguished names of a directory, in the grammar that
the directories share:

* a name is a list of relative names, with commas between them, and may be empty;
* a relative name is a list of attributes, with plus signs between them;
* an attribute is a type, an equals sign and a value;
* a type is a keyword or a dotted number, a value a string or `#` and hexadecimal digits.

In a string the separators, the quote, the angle brackets, the semicolon, the backslash and
the null character are escaped, by a backslash before them or by one before the two digits
of an octet; so are a `#` or a space at the beginning and a space at the end.

A name is read in two steps, tokens first (`lex`), so that a separator that is escaped is no
separator (`parse`).  What it says about an attribute are octets, those of UTF-8 for the
characters that stand for themselves.

The result is that of **printing with care and without**: types and values are put together
with nothing escaped, and read back as they were exactly if no value needed it
(`parse_print_iff`).  An escape takes more octets than it gives (`length_octets_lex`), so a
name that has any gives too few.
-/

namespace RondeDesFacs
namespace DistinguishedName

open Separators

/-- A character that stands for itself, or an escaped octet. -/
inductive Token where
  | lit (c : Char)
  | esc (o : UInt8)
  deriving DecidableEq

/-- The octets of a text. -/
def utf8 (t : List Char) : List UInt8 := t.flatMap String.utf8EncodeChar

/-- The octets of a token. -/
def Token.octets : Token → List UInt8
  | .lit c => String.utf8EncodeChar c
  | .esc o => [o]

/-- The octets of a list of tokens. -/
def octets (ts : List Token) : List UInt8 := ts.flatMap Token.octets

/-! ## Tokens -/

/-- `escaped`. -/
def escaped : List Char := ['"', '+', ',', ';', '<', '>']

/-- The characters that a backslash alone escapes. -/
def special : List Char := ['\\', ' ', '#', '='] ++ escaped

/-- `HEX`. -/
def hex (c : Char) : Option ℕ :=
  if '0' ≤ c ∧ c ≤ '9' then some (c.toNat - 48)
  else if 'A' ≤ c ∧ c ≤ 'F' then some (c.toNat - 55)
  else if 'a' ≤ c ∧ c ≤ 'f' then some (c.toNat - 87)
  else none

/-- Where the reader is: outside of an escape, behind its backslash, behind its first
digit. -/
inductive Reader where
  | outside
  | backslash
  | digit (h : ℕ)

/-- The octets of the escape that have been read. -/
def Reader.read : Reader → ℕ
  | .outside => 0
  | .backslash => 1
  | .digit _ => 2

/-- The tokens of a text; none if it ends in an escape or has one that is none. -/
def lex : Reader → List Char → Option (List Token)
  | .outside, [] => some []
  | .backslash, [] => none
  | .digit _, [] => none
  | .outside, c :: t =>
    if c = '\\' then lex .backslash t else (lex .outside t).map (.lit c :: ·)
  | .backslash, c :: t =>
    if c ∈ special then (lex .outside t).map (.esc (UInt8.ofNat c.toNat) :: ·)
    else (hex c).bind fun h => lex (.digit h) t
  | .digit h, c :: t =>
    (hex c).bind fun l => (lex .outside t).map (.esc (UInt8.ofNat (16 * h + l)) :: ·)

/-! ## The grammar -/

/-- An attribute value: a string, or the encoding of a value as octets. -/
inductive Value where
  | string (octets : List UInt8)
  | hexstring (octets : List UInt8)
  deriving DecidableEq

/-- An attribute: its type and its value. -/
abbrev Attribute := List Char × Value

/-- `stringchar`. -/
def stringchar (c : Char) : Bool := c ≠ '\x00' && c ≠ '\\' && !escaped.contains c

/-- `leadchar`. -/
def leadchar (c : Char) : Bool := stringchar c && c ≠ ' ' && c ≠ '#'

/-- `trailchar`. -/
def trailchar (c : Char) : Bool := stringchar c && c ≠ ' '

/-- A token that is an escape, or a character of some kind. -/
def Token.or (p : Char → Bool) : Token → Bool
  | .lit c => p c
  | .esc _ => true

/-- `string`. -/
def isString (ts : List Token) : Bool :=
  ts.head?.all (Token.or leadchar) && ts.all (Token.or stringchar) &&
    ts.getLast?.all (Token.or trailchar)

/-- The octets of `*hexpair`. -/
def hexpairs : List Token → Option (List UInt8)
  | [] => some []
  | .lit a :: .lit b :: ts =>
    (hex a).bind fun h => (hex b).bind fun l =>
      (hexpairs ts).map (UInt8.ofNat (16 * h + l) :: ·)
  | _ => none

/-- `attributeValue`. -/
def attributeValue (ts : List Token) : Option Value :=
  if ts.head? = some (.lit '#') then ((hexpairs ts.tail).filter (· ≠ [])).map .hexstring
  else if isString ts then some (.string (octets ts)) else none

/-- `keychar`. -/
def keychar (c : Char) : Bool := c.isAlpha || c.isDigit || c = '-'

/-- `descr`. -/
def isDescr (t : List Char) : Bool := t.head?.any Char.isAlpha && t.all keychar

/-- `number`. -/
def isNumber (t : List Char) : Bool :=
  t ≠ [] && t.all Char.isDigit && (t.head? ≠ some '0' || t = ['0'])

/-- `numericoid`. -/
def isNumericoid (t : List Char) : Bool :=
  2 ≤ (t.splitOn '.').length && (t.splitOn '.').all isNumber

/-- The text of tokens that are no escapes. -/
def literal : List Token → Option (List Char)
  | [] => some []
  | .lit c :: ts => (literal ts).map (c :: ·)
  | .esc _ :: _ => none

/-- `attributeType`. -/
def attributeType (ts : List Token) : Option (List Char) :=
  (literal ts).filter fun t => isDescr t || isNumericoid t

/-- `attributeTypeAndValue`. -/
def attributeTypeAndValue (ts : List Token) : Option Attribute :=
  if Token.lit '=' ∈ ts then
    (attributeType (ts.takeWhile (· ≠ .lit '='))).bind fun t =>
      (attributeValue (ts.dropWhile (· ≠ .lit '=')).tail).map fun v => (t, v)
  else none

/-- All results, if there are all. -/
def all {α β : Type} (f : α → Option β) : List α → Option (List β)
  | [] => some []
  | a :: l => (f a).bind fun b => (all f l).map (b :: ·)

/-- `relativeDistinguishedName`. -/
def relativeDistinguishedName (ts : List Token) : Option (List Attribute) :=
  all attributeTypeAndValue (ts.splitOn (.lit '+'))

/-- `distinguishedName`. -/
def distinguishedName (ts : List Token) : Option (List (List Attribute)) :=
  if ts = [] then some [] else all relativeDistinguishedName (ts.splitOn (.lit ','))

/-- A text read as a distinguished name. -/
def parse (t : List Char) : Option (List (List Attribute)) :=
  (lex .outside t).bind distinguishedName

/-! ## Names that are put together -/

/-- A type and a value, with nothing escaped. -/
def printAttribute (e : List Char × List Char) : List Char := e.1 ++ '=' :: e.2

/-- A name, with nothing escaped. -/
def print (l : List (List Char × List Char)) : List Char :=
  [','].intercalate (l.map printAttribute)

/-- A value in which nothing needs to be escaped. -/
structure Plain (v : List Char) : Prop where
  head : ∀ c ∈ v.head?, c ≠ ' ' ∧ c ≠ '#'
  chars : ∀ c ∈ v, stringchar c = true
  last : ∀ c ∈ v.getLast?, c ≠ ' '

/-- What the printed name is meant to say. -/
def meant (l : List (List Char × List Char)) : List (List Attribute) :=
  l.map fun e => [(e.1, .string (utf8 e.2))]

/-! ## Tokens and octets -/

theorem utf8_injective : Function.Injective utf8 := by
  intro t t' h
  have hbytes : t.utf8Encode = t'.utf8Encode := congrArg List.toByteArray h
  exact String.ofList_injective (String.toByteArray_inj.mp hbytes)

@[simp] theorem octets_append (ts ts' : List Token) :
    octets (ts ++ ts') = octets ts ++ octets ts' := List.flatMap_append

@[simp] theorem octets_map_lit (t : List Char) : octets (t.map .lit) = utf8 t := by
  rw [octets, List.flatMap_map]
  rfl

theorem utf8_append (t t' : List Char) : utf8 (t ++ t') = utf8 t ++ utf8 t' := List.flatMap_append

theorem one_le_length_utf8EncodeChar (c : Char) : 1 ≤ (String.utf8EncodeChar c).length := by
  rw [String.length_utf8EncodeChar]
  exact c.utf8Size_pos

/-- **An escape takes more octets than it gives**, and without one the tokens are the
characters. -/
theorem length_octets_lex {t : List Char} {ts : List Token} {r : Reader} (h : lex r t = some ts) :
    (r = .outside ∧ ts = t.map .lit) ∨ (octets ts).length < (utf8 t).length + r.read := by
  induction t generalizing r ts with
  | nil =>
    rcases r with _ | _ | _
    · exact Or.inl ⟨rfl, (Option.some.inj h).symm⟩
    · cases h
    · cases h
  | cons c t ih =>
    have hlength : (utf8 (c :: t)).length = (String.utf8EncodeChar c).length + (utf8 t).length :=
      List.length_append
    have hc := one_le_length_utf8EncodeChar c
    -- the octets of what follows an escape
    have hrest : ∀ o us, lex .outside t = some us → (octets (.esc o :: us)).length ≤
        1 + (utf8 t).length := by
      intro o us hus
      rw [octets, List.flatMap_cons, List.length_append, Token.octets, List.length_singleton]
      rcases ih hus with ⟨-, rfl⟩ | hlt
      · exact Nat.le_of_eq (congrArg (1 + ·) (congrArg List.length (octets_map_lit t)))
      · exact Nat.add_le_add_left (Nat.le_of_lt hlt) 1
    rcases r with _ | _ | d
    · rw [lex] at h
      split_ifs at h with hbackslash
      · rcases ih h with ⟨h', -⟩ | hlt
        · cases h'
        · exact Or.inr (by simp only [Reader.read] at hlt ⊢; omega)
      · obtain ⟨us, hus, rfl⟩ := Option.map_eq_some_iff.mp h
        rcases ih hus with ⟨-, rfl⟩ | hlt
        · exact Or.inl ⟨rfl, rfl⟩
        · refine Or.inr ?_
          rw [hlength, octets, List.flatMap_cons, List.length_append]
          exact Nat.add_lt_add_left hlt _
    · right
      rw [lex] at h
      split_ifs at h with hspecial
      · obtain ⟨us, hus, rfl⟩ := Option.map_eq_some_iff.mp h
        have hle := hrest (UInt8.ofNat c.toNat) us hus
        simp only [Reader.read]
        omega
      · obtain ⟨d, -, hd⟩ := Option.bind_eq_some_iff.mp h
        rcases ih hd with ⟨h', -⟩ | hlt
        · cases h'
        · simp only [Reader.read] at hlt ⊢
          omega
    · right
      obtain ⟨l, -, hl⟩ := Option.bind_eq_some_iff.mp h
      obtain ⟨us, hus, rfl⟩ := Option.map_eq_some_iff.mp hl
      have hle := hrest (UInt8.ofNat (16 * d + l)) us hus
      simp only [Reader.read]
      omega

/-- Text without a backslash is read as it is. -/
theorem lex_of_notMem {t : List Char} (h : '\\' ∉ t) : lex .outside t = some (t.map .lit) := by
  induction t with
  | nil => rfl
  | cons c t ih =>
    rw [List.mem_cons, not_or] at h
    rw [lex, if_neg (Ne.symm h.1), ih h.2]
    rfl

/-! ## Attributes -/

theorem all_eq_some_iff {α β : Type} {f : α → Option β} {l : List α} {m : List β} :
    all f l = some m ↔ List.Forall₂ (fun a b => f a = some b) l m := by
  induction l generalizing m with
  | nil =>
    rw [all, List.forall₂_nil_left_iff, Option.some.injEq]
    exact eq_comm
  | cons a l ih =>
    rw [all, List.forall₂_cons_left_iff, Option.bind_eq_some_iff]
    simp only [Option.map_eq_some_iff, ih]
    constructor
    · rintro ⟨b, hb, m, hm, rfl⟩
      exact ⟨b, m, hb, hm, rfl⟩
    · rintro ⟨b, m, hb, hm, rfl⟩
      exact ⟨b, hb, m, hm, rfl⟩

theorem literal_eq_some_iff {ts : List Token} {t : List Char} :
    literal ts = some t ↔ ts = t.map .lit := by
  induction ts generalizing t with
  | nil => simp [literal, eq_comm]
  | cons a ts ih =>
    rcases a with c | o
    · rw [literal, Option.map_eq_some_iff]
      constructor
      · rintro ⟨u, hu, rfl⟩
        rw [ih.mp hu, List.map_cons]
      · intro h
        rcases t with _ | ⟨c', t⟩
        · cases h
        · rw [List.map_cons, List.cons.injEq, Token.lit.injEq] at h
          exact ⟨t, ih.mpr h.2, congrArg (· :: t) h.1⟩
    · rcases t with _ | ⟨c', t⟩ <;> simp [literal]

/-- An attribute is split at its first equals sign. -/
theorem attributeTypeAndValue_append {ts us : List Token} (h : Token.lit '=' ∉ ts) :
    attributeTypeAndValue (ts ++ .lit '=' :: us) =
      (attributeType ts).bind fun t => (attributeValue us).map fun v => (t, v) := by
  have hne : ∀ a ∈ ts, decide (a ≠ Token.lit '=') = true := by
    intro a ha
    exact decide_eq_true fun heq => h (heq ▸ ha)
  rw [attributeTypeAndValue, if_pos (by simp), List.takeWhile_append_of_pos hne,
    List.dropWhile_append_of_pos hne]
  simp

/-- What an attribute is made of. -/
theorem exists_of_attributeTypeAndValue {ts : List Token} {t : List Char} {v : Value}
    (h : attributeTypeAndValue ts = some (t, v)) :
    ∃ us, ts = t.map .lit ++ .lit '=' :: us ∧ attributeValue us = some v := by
  by_cases hmem : Token.lit '=' ∈ ts
  · obtain ⟨as, us, rfl, has⟩ := List.eq_append_cons_of_mem hmem
    rw [attributeTypeAndValue_append has] at h
    obtain ⟨t', ht', h⟩ := Option.bind_eq_some_iff.mp h
    obtain ⟨v', hv', heq⟩ := Option.map_eq_some_iff.mp h
    obtain ⟨rfl, rfl⟩ := Prod.mk.inj heq
    rw [literal_eq_some_iff.mp (Option.filter_eq_some_iff.mp ht').1]
    exact ⟨us, rfl, hv'⟩
  · rw [attributeTypeAndValue, if_neg hmem] at h
    cases h

theorem isString_map_lit_iff {v : List Char} : isString (v.map .lit) = true ↔ Plain v := by
  have hiff : isString (v.map .lit) = true ↔ (∀ c ∈ v.head?, leadchar c = true) ∧
      (∀ c ∈ v, stringchar c = true) ∧ ∀ c ∈ v.getLast?, trailchar c = true := by
    rw [isString, List.head?_map, List.getLast?_map, List.all_map, Option.all_map, Option.all_map]
    simp only [Bool.and_eq_true, List.all_eq_true, Option.all_eq_true, and_assoc]
    exact Iff.rfl
  rw [hiff]
  constructor
  · rintro ⟨hlead, hstring, htrail⟩
    refine ⟨fun c hc => ?_, hstring, fun c hc => ?_⟩
    · have h := hlead c hc
      simp only [leadchar, Bool.and_eq_true, decide_eq_true_eq] at h
      exact ⟨h.1.2, h.2⟩
    · have h := htrail c hc
      simp only [trailchar, Bool.and_eq_true, decide_eq_true_eq] at h
      exact h.2
  · rintro ⟨hhead, hstring, hlast⟩
    refine ⟨fun c hc => ?_, hstring, fun c hc => ?_⟩
    · simp only [leadchar, Bool.and_eq_true, decide_eq_true_eq]
      exact ⟨⟨hstring c (List.mem_of_mem_head? hc), (hhead c hc).1⟩, (hhead c hc).2⟩
    · simp only [trailchar, Bool.and_eq_true, decide_eq_true_eq]
      exact ⟨hstring c (List.mem_of_mem_getLast? hc), hlast c hc⟩

/-- A string, read from characters and escapes. -/
theorem attributeValue_eq_string {ts : List Token} {o : List UInt8}
    (h : attributeValue ts = some (.string o)) : isString ts = true ∧ octets ts = o := by
  rw [attributeValue] at h
  split_ifs at h with hsharp hstring
  · simp at h
  · exact ⟨hstring, Value.string.inj (Option.some.inj h)⟩

/-- A plain value is a string. -/
theorem Plain.attributeValue {v : List Char} (h : Plain v) :
    attributeValue (v.map .lit) = some (.string (utf8 v)) := by
  have hsharp : (v.map Token.lit).head? ≠ some (.lit '#') := by
    rw [List.head?_map]
    intro heq
    obtain ⟨c, hc, hlit⟩ := Option.map_eq_some_iff.mp heq
    exact (h.head c hc).2 (Token.lit.inj hlit)
  rw [DistinguishedName.attributeValue, if_neg hsharp, if_pos (isString_map_lit_iff.mpr h),
    octets_map_lit]

/-- A plain value has no separator in it and no backslash. -/
theorem Plain.notMem {v : List Char} (h : Plain v) {c : Char} (hc : stringchar c = false) :
    c ∉ v := by
  intro hmem
  rw [h.chars c hmem] at hc
  cases hc

/-- The types of a name that is put together. -/
def IsType (t : List Char) : Prop := isDescr t = true ∨ isNumericoid t = true

/-- A type has no separator in it and no backslash. -/
theorem IsType.notMem {t : List Char} (h : IsType t) {c : Char}
    (hc : keychar c = false ∧ c ≠ '.') : c ∉ t := by
  intro hmem
  have hkey : keychar c = true ∨ c = '.' := by
    rcases h with h | h
    · rw [isDescr, Bool.and_eq_true, List.all_eq_true] at h
      exact Or.inl (h.2 c hmem)
    · rw [isNumericoid, Bool.and_eq_true, List.all_eq_true] at h
      have ht : ['.'].intercalate (t.splitOn '.') = t := List.intercalate_splitOn '.'
      rw [← ht] at hmem
      rcases of_mem_intercalate hmem with hdot | ⟨n, hn, hcn⟩
      · exact Or.inr (List.mem_singleton.mp hdot)
      · have hnumber := h.2 n hn
        rw [isNumber, Bool.and_eq_true, Bool.and_eq_true, List.all_eq_true] at hnumber
        rw [keychar, hnumber.1.2 c hcn, Bool.or_true]
        exact Or.inl rfl
  rcases hkey with hkey | hdot
  · rw [hc.1] at hkey
    cases hkey
  · exact hc.2 hdot

theorem IsType.attributeType {t : List Char} (h : IsType t) :
    attributeType (t.map .lit) = some t := by
  rw [DistinguishedName.attributeType, literal_eq_some_iff.mpr rfl, Option.filter_some, if_pos]
  rcases h with h | h
  · rw [h, Bool.true_or]
  · rw [h, Bool.or_true]

theorem notMem_printAttribute {e : List Char × List Char} (ht : IsType e.1) (hv : Plain e.2)
    {c : Char} (hc : c ∈ ['\\', ',', '+']) : c ∉ printAttribute e := by
  obtain ⟨htype, hequals, hstring⟩ :
      (keychar c = false ∧ c ≠ '.') ∧ c ≠ '=' ∧ stringchar c = false := by
    rw [List.mem_cons, List.mem_cons, List.mem_singleton] at hc
    rcases hc with rfl | rfl | rfl <;> decide
  rw [printAttribute, List.mem_append, List.mem_cons, not_or, not_or]
  exact ⟨ht.notMem htype, hequals, hv.notMem hstring⟩

theorem lit_notMem_map_lit {t : List Char} {c : Char} (h : c ∉ t) : Token.lit c ∉ t.map .lit := by
  intro hmem
  obtain ⟨c', hc', heq⟩ := List.mem_map.mp hmem
  exact h (Token.lit.inj heq ▸ hc')

/-- A relative name with one attribute. -/
theorem relativeDistinguishedName_eq_singleton {ts : List Token} {a : Attribute}
    (h : relativeDistinguishedName ts = some [a]) : attributeTypeAndValue ts = some a := by
  obtain ⟨p, ps, hp, hps, heq⟩ := List.forall₂_cons_right_iff.mp (all_eq_some_iff.mp h)
  rw [List.forall₂_nil_right_iff.mp hps] at heq
  have hts : [Token.lit '+'].intercalate (ts.splitOn (.lit '+')) = ts :=
    List.intercalate_splitOn _
  rw [heq, List.intercalate_singleton] at hts
  exact hts ▸ hp

/-- **An attribute that is printed with a plain value** is read back. -/
theorem relativeDistinguishedName_printAttribute {e : List Char × List Char} (ht : IsType e.1)
    (hv : Plain e.2) :
    relativeDistinguishedName ((printAttribute e).map .lit) = some [(e.1, .string (utf8 e.2))] := by
  have hplus := lit_notMem_map_lit (notMem_printAttribute ht hv (c := '+') (by decide))
  have hequals := lit_notMem_map_lit (ht.notMem (c := '=') (by decide))
  have hattribute : attributeTypeAndValue ((printAttribute e).map .lit) =
      some (e.1, .string (utf8 e.2)) := by
    rw [printAttribute, List.map_append, List.map_cons, attributeTypeAndValue_append hequals,
      ht.attributeType, hv.attributeValue]
    rfl
  rw [relativeDistinguishedName, List.splitOn_eq_singleton hplus, all, all, hattribute]
  rfl

/-! ## Reading back what was printed -/

theorem exists_eq_map_lit {ts : List Token} (h : ∀ a ∈ ts, ∃ c, a = .lit c) :
    ∃ t : List Char, ts = t.map .lit := by
  induction ts with
  | nil => exact ⟨[], rfl⟩
  | cons a ts ih =>
    obtain ⟨⟨c, rfl⟩, hts⟩ := List.forall_mem_cons.mp h
    obtain ⟨t, rfl⟩ := ih hts
    exact ⟨c :: t, rfl⟩

theorem forall_of_forall₂ {α β : Type} {R : α → β → Prop} {S : β → Prop} {l : List α} {m : List β}
    (h : List.Forall₂ R l m) (hS : ∀ a ∈ l, ∀ b, R a b → S b) : ∀ b ∈ m, S b := by
  induction h with
  | nil => exact fun _ hb => absurd hb List.not_mem_nil
  | cons hab _ ih =>
    obtain ⟨ha, hl⟩ := List.forall_mem_cons.mp hS
    exact List.forall_mem_cons.mpr ⟨ha _ hab, ih hl⟩

section Printed

variable {l : List (List Char × List Char)}

/-- A relative name that is read as an attribute of a printed name. -/
def ReadAs (p : List Token) (e : List Char × List Char) : Prop :=
  ∃ us, p = e.1.map .lit ++ .lit '=' :: us ∧ isString us = true ∧ octets us = utf8 e.2

/-- The relative names of a name that says what it was meant to. -/
theorem readAs_of_distinguishedName {ts : List Token} (hl : l ≠ [])
    (h : distinguishedName ts = some (meant l)) :
    List.Forall₂ ReadAs (ts.splitOn (.lit ',')) l := by
  rw [distinguishedName] at h
  split_ifs at h with hnil
  · exact absurd (List.map_eq_nil_iff.mp (Option.some.inj h).symm) hl
  have hrelative := all_eq_some_iff.mp h
  rw [meant, List.forall₂_map_right_iff] at hrelative
  refine hrelative.imp fun p e hp => ?_
  obtain ⟨us, hus, hvalue⟩ :=
    exists_of_attributeTypeAndValue (relativeDistinguishedName_eq_singleton hp)
  exact ⟨us, hus, attributeValue_eq_string hvalue⟩

/-- They have as many octets as the text. -/
theorem octets_of_readAs {ts : List Token} (h : List.Forall₂ ReadAs (ts.splitOn (.lit ',')) l) :
    octets ts = utf8 (print l) := by
  have hmap : (ts.splitOn (.lit ',')).map octets = (l.map printAttribute).map utf8 := by
    rw [← List.forall₂_eq_eq_eq, List.map_map, List.forall₂_map_left_iff,
      List.forall₂_map_right_iff]
    refine h.imp fun p e hp => ?_
    obtain ⟨us, rfl, -, hus⟩ := hp
    rw [Function.comp_apply, printAttribute, octets_append, octets_map_lit, utf8_append, octets,
      List.flatMap_cons, ← octets, hus]
    rfl
  have hjoin : [Token.lit ','].intercalate (ts.splitOn (.lit ',')) = ts :=
    List.intercalate_splitOn _
  conv_lhs => rw [← hjoin]
  rw [octets, flatMap_intercalate, print, utf8, flatMap_intercalate]
  exact congrArg _ hmap

/-- **A name that says what it was meant to** has no escape in it. -/
theorem plain_of_parse (hl : l ≠ []) (h : parse (print l) = some (meant l)) :
    ∀ e ∈ l, Plain e.2 := by
  obtain ⟨ts, hts, hname⟩ := Option.bind_eq_some_iff.mp h
  have hpieces := readAs_of_distinguishedName hl hname
  have hoctets := octets_of_readAs hpieces
  have hjoin : [Token.lit ','].intercalate (ts.splitOn (.lit ',')) = ts :=
    List.intercalate_splitOn _
  have hlit : ts = (print l).map .lit := by
    rcases length_octets_lex hts with ⟨-, h⟩ | hlt
    · exact h
    · rw [hoctets] at hlt
      exact absurd hlt (Nat.lt_irrefl _)
  refine forall_of_forall₂ hpieces fun p hp e he => ?_
  obtain ⟨us, rfl, hstring, hus⟩ := he
  obtain ⟨u, rfl⟩ : ∃ u : List Char, us = u.map .lit := by
    refine exists_eq_map_lit fun a ha => ?_
    have hmem : a ∈ ts := by
      rw [← hjoin]
      exact mem_intercalate (List.mem_append_right _ (List.mem_cons_of_mem _ ha)) hp
    rw [hlit] at hmem
    obtain ⟨c, -, rfl⟩ := List.mem_map.mp hmem
    exact ⟨c, rfl⟩
  rw [octets_map_lit] at hus
  rw [← utf8_injective hus]
  exact isString_map_lit_iff.mp hstring

/-- **Plain values are read back.** -/
theorem parse_of_plain (hl : l ≠ []) (ht : ∀ e ∈ l, IsType e.1) (hv : ∀ e ∈ l, Plain e.2) :
    parse (print l) = some (meant l) := by
  have hbackslash : '\\' ∉ print l := by
    intro hmem
    rcases of_mem_intercalate hmem with hcomma | ⟨p, hp, hmem⟩
    · exact absurd hcomma (by decide)
    · obtain ⟨e, he, rfl⟩ := List.mem_map.mp hp
      exact notMem_printAttribute (ht e he) (hv e he) (by decide) hmem
  have hsplit : ((print l).map Token.lit).splitOn (.lit ',') =
      l.map fun e => (printAttribute e).map .lit := by
    rw [print, map_intercalate, List.map_map]
    refine List.splitOn_intercalate _ (fun p hp => ?_) (fun h => hl (List.map_eq_nil_iff.mp h))
    obtain ⟨e, he, rfl⟩ := List.mem_map.mp hp
    exact lit_notMem_map_lit (notMem_printAttribute (ht e he) (hv e he) (by decide))
  have hne : (print l).map Token.lit ≠ [] := by
    intro hnil
    have hempty : [] ∈ l.map fun e => (printAttribute e).map Token.lit := by
      rw [← hsplit, hnil]
      exact List.mem_singleton_self []
    obtain ⟨e, -, he⟩ := List.mem_map.mp hempty
    simp [printAttribute] at he
  rw [parse, lex_of_notMem hbackslash, Option.bind_some, distinguishedName, if_neg hne, hsplit,
    all_eq_some_iff, meant, List.forall₂_map_left_iff, List.forall₂_map_right_iff,
    List.forall₂_same]
  exact fun e he => relativeDistinguishedName_printAttribute (ht e he) (hv e he)

/-- **Printing with nothing escaped.**  The name is read back exactly if nothing had to
be. -/
theorem parse_print_iff (hl : l ≠ []) (ht : ∀ e ∈ l, IsType e.1) :
    parse (print l) = some (meant l) ↔ ∀ e ∈ l, Plain e.2 :=
  ⟨plain_of_parse hl, parse_of_plain hl ht⟩

end Printed

end DistinguishedName
end RondeDesFacs
