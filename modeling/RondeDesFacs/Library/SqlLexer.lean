import Mathlib.Algebra.GroupWithZero.Nat
import Mathlib.Data.List.TakeWhile
import Mathlib.Data.List.Infix

/-!
# The words of an SQL statement

A program that builds a statement by concatenation and the server that reads it
meet in the server's lexical rules: where a literal ends is decided by its bytes,
not by whoever wrote them.  The rules below are MySQL's in its default mode, for a
connection whose characters are single bytes.  A string stands between quotes;
inside, the quote is written twice or behind a backslash, and a backslash escapes
what follows it.

* `readQuoted` reads a string, `tokens` a whole statement.
* A text survives between two quotes unchanged exactly if it is `Plain`: it has no
  quote, and a backslash only before `%` or `_`, where it stands for itself
  (`readQuoted_of_plain`).
* Reading never makes a string longer than what was written
  (`exists_raw_of_readQuoted`), which is what bounds the damage a text can do: when
  the string read is as long as the text written, it *is* the text.
-/

namespace RondeDesFacs
namespace SqlLexer

/-- `'`. -/
abbrev quote : UInt8 := 0x27

/-- The backslash. -/
abbrev backslash : UInt8 := 0x5C

/-- A token.  Comments and blanks leave none. -/
inductive Token where
  | word (w : List UInt8)
  /-- A string literal, by its value. -/
  | string (s : List UInt8)
  /-- An identifier between backticks. -/
  | ident (s : List UInt8)
  | symbol (c : UInt8)
  deriving DecidableEq

/-! ## Strings -/

/-- What a backslash and a byte stand for. -/
def escape (e : UInt8) : List UInt8 :=
  if e = 0x6E then [0x0A]
  else if e = 0x74 then [0x09]
  else if e = 0x72 then [0x0D]
  else if e = 0x62 then [0x08]
  else if e = 0x30 then [0x00]
  else if e = 0x5A then [0x1A]
  else if e = 0x25 ∨ e = 0x5F then [backslash, e]
  else [e]

/-- Reads the string behind an opening quote `q`: its value and what follows the
closing quote. -/
def readQuoted (escapes : Bool) (q : UInt8) :
    List UInt8 → Option (List UInt8 × List UInt8)
  | [] => none
  | [c] => if c = q then some ([], []) else none
  | c :: e :: t =>
    if c = q then
      if e = q then (readQuoted escapes q t).map fun r => (q :: r.1, r.2)
      else some ([], e :: t)
    else if escapes = true ∧ c = backslash then
      (readQuoted escapes q t).map fun r => (escape e ++ r.1, r.2)
    else (readQuoted escapes q (e :: t)).map fun r => (c :: r.1, r.2)

/-- A text that stands for itself between quotes `q`. -/
def Plain (q : UInt8) : List UInt8 → Prop
  | [] => True
  | [c] => c ≠ q ∧ c ≠ backslash
  | c :: e :: t =>
    if c = backslash then (e = 0x25 ∨ e = 0x5F) ∧ Plain q t else c ≠ q ∧ Plain q (e :: t)

instance decidablePlain (q : UInt8) : (s : List UInt8) → Decidable (Plain q s)
  | [] => isTrue trivial
  | [_] => inferInstanceAs (Decidable (_ ∧ _))
  | c :: e :: t =>
    have := decidablePlain q t
    have := decidablePlain q (e :: t)
    inferInstanceAs (Decidable (if c = backslash then (e = 0x25 ∨ e = 0x5F) ∧ Plain q t
      else c ≠ q ∧ Plain q (e :: t)))

theorem plain_cons {q c : UInt8} {s : List UInt8} (hq : c ≠ q) (hb : c ≠ backslash)
    (hs : Plain q s) : Plain q (c :: s) := by
  rcases s with _ | ⟨e, t⟩
  · exact ⟨hq, hb⟩
  · rw [Plain, if_neg hb]
    exact ⟨hq, hs⟩

theorem length_escape_le (e : UInt8) : (escape e).length ≤ 2 := by
  unfold escape
  split_ifs <;> simp

/-- A pair of bytes that stands for two is one that stands for itself. -/
theorem escape_of_length_eq {e : UInt8} (h : (escape e).length = 2) :
    (e = 0x25 ∨ e = 0x5F) ∧ escape e = [backslash, e] := by
  unfold escape at h ⊢
  split_ifs at h ⊢ with h1 h2 h3 h4 h5 h6 h7 <;> simp at h
  exact ⟨h7, rfl⟩

variable {q : UInt8}

theorem readQuoted_close {escapes : Bool} {r : List UInt8} (hr : r.head? ≠ some q) :
    readQuoted escapes q (q :: r) = some ([], r) := by
  rcases r with _ | ⟨c, r⟩
  · rw [readQuoted, if_pos rfl]
  · have hc : c ≠ q := fun h => hr (by rw [h, List.head?_cons])
    rw [readQuoted, if_pos rfl, if_neg hc]

/-- **A plain text is read as it is written.** -/
theorem readQuoted_of_plain (hq : q ≠ backslash) {s : List UInt8} (hs : Plain q s)
    {r : List UInt8} (hr : r.head? ≠ some q) :
    readQuoted true q (s ++ q :: r) = some (s, r) := by
  fun_induction Plain q s with
  | case1 => exact readQuoted_close hr
  | case2 c =>
    obtain ⟨hc, hb⟩ := hs
    rw [List.singleton_append, readQuoted, if_neg hc, if_neg fun h => hb h.2, readQuoted_close hr]
    rfl
  | case3 e t ih =>
    obtain ⟨he, ht⟩ := hs
    have hescape : escape e = [backslash, e] := by
      rcases he with rfl | rfl <;> rfl
    rw [List.cons_append, List.cons_append, readQuoted, if_neg hq.symm, if_pos ⟨rfl, rfl⟩,
      ih ht, Option.map_some, hescape]
    rfl
  | case4 c e t hc ih =>
    obtain ⟨hcq, ht⟩ := hs
    rw [List.cons_append, List.cons_append, readQuoted, if_neg hcq, if_neg fun h => hc h.2,
      ← List.cons_append, ih ht, Option.map_some]

/-- What a string is read from: a stretch that is no shorter than the string, and
that, where backslashes escape, is the string itself, and plain, if it is no
longer. -/
theorem exists_raw_of_readQuoted {escapes : Bool} {t d r : List UInt8}
    (h : readQuoted escapes q t = some (d, r)) :
    ∃ raw, t = raw ++ q :: r ∧ d.length ≤ raw.length ∧
      (escapes = true → d.length = raw.length → raw = d ∧ Plain q d) := by
  fun_induction readQuoted escapes q t generalizing d with
  | case1 => simp at h
  | case2 =>
    obtain ⟨rfl, rfl⟩ : [] = d ∧ [] = r := by simpa using h
    exact ⟨[], rfl, le_rfl, fun _ _ => ⟨rfl, trivial⟩⟩
  | case3 c hc => simp at h
  | case4 t ih =>
    -- the quote, written twice
    obtain ⟨⟨d', r'⟩, hread, heq⟩ := Option.map_eq_some_iff.mp h
    obtain ⟨rfl, rfl⟩ : q :: d' = d ∧ r' = r := by simpa using heq
    obtain ⟨raw, rfl, hle, -⟩ := ih hread
    refine ⟨q :: q :: raw, rfl, ?_, fun _ hlen => ?_⟩
    · simp only [List.length_cons]
      omega
    · simp only [List.length_cons] at hlen
      omega
  | case5 e t he =>
    obtain ⟨rfl, rfl⟩ : [] = d ∧ e :: t = r := by simpa using h
    exact ⟨[], rfl, le_rfl, fun _ _ => ⟨rfl, trivial⟩⟩
  | case6 c e t hc hb ih =>
    obtain ⟨⟨d', r'⟩, hread, heq⟩ := Option.map_eq_some_iff.mp h
    obtain ⟨rfl, rfl⟩ : escape e ++ d' = d ∧ r' = r := by simpa using heq
    obtain ⟨raw, rfl, hle, hraw⟩ := ih hread
    have hescape := length_escape_le e
    refine ⟨c :: e :: raw, rfl, ?_, fun hesc hlen => ?_⟩
    · simp only [List.length_append, List.length_cons]
      omega
    · simp only [List.length_append, List.length_cons] at hlen
      obtain ⟨he, hself⟩ := escape_of_length_eq (e := e) (by omega)
      obtain ⟨rfl, hplain⟩ := hraw hesc (by omega)
      obtain rfl : c = backslash := hb.2
      rw [hself]
      exact ⟨rfl, by simpa [Plain] using ⟨he, hplain⟩⟩
  | case7 c e t hc hb ih =>
    obtain ⟨⟨d', r'⟩, hread, heq⟩ := Option.map_eq_some_iff.mp h
    obtain ⟨rfl, rfl⟩ : c :: d' = d ∧ r' = r := by simpa using heq
    obtain ⟨raw, ht, hle, hraw⟩ := ih hread
    refine ⟨c :: raw, by rw [ht, List.cons_append], by simpa using hle, fun hesc hlen => ?_⟩
    obtain ⟨rfl, hplain⟩ := hraw hesc (by simpa using hlen)
    exact ⟨rfl, plain_cons hc (fun hcb => hb ⟨hesc, hcb⟩) hplain⟩

/-- Where the reading of a text as itself ends: behind it, or behind a later
quote. -/
theorem plain_or_of_readQuoted {s r r' : List UInt8}
    (h : readQuoted true q (s ++ q :: r) = some (s, r')) :
    (Plain q s ∧ r' = r) ∨ ∃ m, r = m ++ q :: r' := by
  obtain ⟨raw, ht, hle, hraw⟩ := exists_raw_of_readQuoted h
  rcases hle.eq_or_lt with hlen | hlen
  · obtain ⟨rfl, hplain⟩ := hraw rfl hlen
    rw [List.append_cancel_left_eq, List.cons.injEq] at ht
    exact Or.inl ⟨hplain, ht.2.symm⟩
  · refine Or.inr ?_
    have htext : s ++ [q] <+: raw ++ q :: r' := ⟨r, by rw [← ht, List.append_assoc]; rfl⟩
    obtain ⟨m, hm⟩ : s ++ [q] <+: raw := by
      refine List.prefix_of_prefix_length_le htext (List.prefix_append ..) ?_
      rw [List.length_append]
      exact hlen
    rw [← hm, List.append_assoc, List.append_assoc, List.append_cancel_left_eq] at ht
    exact ⟨m, by simpa using ht⟩

/-! ## Statements -/

/-- Blanks, and what else separates words. -/
def isSpace (c : UInt8) : Bool := (decide (0x09 ≤ c) && decide (c ≤ 0x0D)) || decide (c = 0x20)

/-- The bytes of words and numbers: letters, digits, `_`, `$`, and all of the second
half. -/
def isWord (c : UInt8) : Bool :=
  (decide (0x30 ≤ c) && decide (c ≤ 0x39)) || (decide (0x41 ≤ c) && decide (c ≤ 0x5A)) ||
    (decide (0x61 ≤ c) && decide (c ≤ 0x7A)) || decide (c = 0x5F) || decide (c = 0x24) ||
    decide (0x80 ≤ c)

/-- What follows the `*/` of a comment. -/
def blockEnd : List UInt8 → Option (List UInt8)
  | c :: d :: t => if c = 0x2A ∧ d = 0x2F then some t else blockEnd (d :: t)
  | _ => none

/-- What follows a comment to the end of the line. -/
def lineEnd (t : List UInt8) : List UInt8 := t.dropWhile fun c => c ≠ 0x0A

/-- Whether what follows a `-` makes it a comment: another one and a blank, a control
byte or the end. -/
def isDashes : List UInt8 → Bool
  | [c] => c = 0x2D
  | c :: d :: _ => c = 0x2D && (decide (d ≤ 0x20) || decide (d = 0x7F))
  | [] => false

/-- Whether what follows a `/` makes it a comment.  One that starts with `/*!` is
code, and its bytes are left as they are. -/
def isBlock : List UInt8 → Bool
  | [c] => c = 0x2A
  | c :: d :: _ => c = 0x2A && d ≠ 0x21
  | [] => false

/-- Reads one token, or skips one blank or comment, from its first byte on.  A prefix
of a string (`x'41'`) is a word before it. -/
def lexOne (c : UInt8) (t : List UInt8) : Option (List Token × List UInt8) :=
  if isSpace c then some ([], t)
  else if isWord c then some ([.word (c :: t.takeWhile isWord)], t.dropWhile isWord)
  else if c = quote ∨ c = 0x22 then
    (readQuoted true c t).map fun r => ([.string r.1], r.2)
  else if c = 0x60 then (readQuoted false c t).map fun r => ([.ident r.1], r.2)
  else if c = 0x23 ∨ (c = 0x2D ∧ isDashes t) then some ([], lineEnd t)
  else if c = 0x2F ∧ isBlock t then (blockEnd t.tail).map fun r => ([], r)
  else some ([.symbol c], t)

/-- The least a token is written with. -/
def Token.minLength : Token → ℕ
  | .word w => w.length
  | .string s => s.length + 2
  | .ident s => s.length + 2
  | .symbol _ => 1

theorem length_of_readQuoted {escapes : Bool} {t d r : List UInt8}
    (h : readQuoted escapes q t = some (d, r)) : d.length + r.length + 1 ≤ t.length := by
  obtain ⟨raw, rfl, hle, -⟩ := exists_raw_of_readQuoted h
  rw [List.length_append, List.length_cons]
  omega

theorem length_of_blockEnd {t r : List UInt8} (h : blockEnd t = some r) :
    r.length ≤ t.length := by
  fun_induction blockEnd t with
  | case1 c d t hend =>
    obtain rfl : t = r := by simpa using h
    simp only [List.length_cons]
    omega
  | case2 c d t hend ih => exact Nat.le_succ_of_le (ih h)
  | case3 => simp at h

/-- A token between quotes is written with two bytes more at least. -/
theorem length_of_quoted {escapes : Bool} (tok : List UInt8 → Token)
    (htok : ∀ s, (tok s).minLength = s.length + 2) {t r : List UInt8} {toks : List Token}
    (h : (readQuoted escapes q t).map (fun r => ([tok r.1], r.2)) = some (toks, r)) :
    r.length ≤ t.length ∧ (toks.map Token.minLength).sum + r.length ≤ t.length + 1 := by
  obtain ⟨⟨d, r'⟩, hread, heq⟩ := Option.map_eq_some_iff.mp h
  obtain ⟨rfl, rfl⟩ : [tok d] = toks ∧ r' = r := by simpa using heq
  have hlen := length_of_readQuoted hread
  rw [List.map_singleton, List.sum_singleton, htok]
  omega

/-- What is left to read is shorter, by at least what the token is written with. -/
theorem length_of_lexOne {c : UInt8} {t r : List UInt8} {toks : List Token}
    (h : lexOne c t = some (toks, r)) :
    r.length ≤ t.length ∧ (toks.map Token.minLength).sum + r.length ≤ t.length + 1 := by
  unfold lexOne at h
  split_ifs at h with hspace hword hquote htick hline hblock
  · obtain ⟨rfl, rfl⟩ : [] = toks ∧ t = r := by simpa using h
    simp
  · obtain ⟨rfl, rfl⟩ : [.word (c :: t.takeWhile isWord)] = toks ∧ t.dropWhile isWord = r := by
      simpa using h
    have hsplit := congrArg List.length (List.takeWhile_append_dropWhile (p := isWord) (l := t))
    rw [List.length_append] at hsplit
    simp only [List.map_cons, List.map_nil, Token.minLength, List.sum_cons, List.sum_nil,
      List.length_cons]
    omega
  · exact length_of_quoted .string (fun _ => rfl) h
  · exact length_of_quoted .ident (fun _ => rfl) h
  · obtain ⟨rfl, rfl⟩ : [] = toks ∧ lineEnd t = r := by simpa using h
    have hlen : (lineEnd t).length ≤ t.length := (List.dropWhile_suffix _).length_le
    simp only [List.map_nil, List.sum_nil]
    omega
  · obtain ⟨r', hend, heq⟩ := Option.map_eq_some_iff.mp h
    obtain ⟨rfl, rfl⟩ : [] = toks ∧ r' = r := by simpa using heq
    have hlen := length_of_blockEnd hend
    rw [List.length_tail] at hlen
    simp only [List.map_nil, List.sum_nil]
    omega
  · obtain ⟨rfl, rfl⟩ : [.symbol c] = toks ∧ t = r := by simpa using h
    simp [Token.minLength, Nat.add_comm]

/-- The tokens of a statement, or none if a string or a comment is left open. -/
def tokens : List UInt8 → Option (List Token)
  | [] => some []
  | c :: t =>
    match h : lexOne c t with
    | none => none
    | some (toks, r) =>
      have : r.length < t.length + 1 := Nat.lt_succ_of_le (length_of_lexOne h).1
      (tokens r).map fun rest => toks ++ rest
termination_by t => t.length

theorem tokens_cons (c : UInt8) (t : List UInt8) :
    tokens (c :: t) = (lexOne c t).bind fun r => (tokens r.2).map fun rest => r.1 ++ rest := by
  rw [tokens]
  split
  · next h => simp [h]
  · next h => simp [h]

/-- **A statement is at least as long as its tokens.** -/
theorem sum_minLength_le {t : List UInt8} {toks : List Token} (h : tokens t = some toks) :
    (toks.map Token.minLength).sum ≤ t.length := by
  induction hn : t.length using Nat.strong_induction_on generalizing t toks with
  | _ n ih =>
    rcases t with _ | ⟨c, t⟩
    · obtain rfl : [] = toks := by simpa [tokens] using h
      simp
    · rw [tokens_cons] at h
      obtain ⟨⟨first, r⟩, hone, hrest⟩ := Option.bind_eq_some_iff.mp h
      obtain ⟨rest, htoks, rfl⟩ := Option.map_eq_some_iff.mp hrest
      have hlen := length_of_lexOne hone
      rw [List.length_cons] at hn
      have hih := ih r.length (by omega) htoks rfl
      simp only [List.map_append, List.sum_append]
      omega

theorem tokens_space {c : UInt8} (hc : isSpace c) (t : List UInt8) :
    tokens (c :: t) = tokens t := by
  simp [tokens_cons, lexOne, hc]

theorem isSpace_of_isWord {c : UInt8} (h : isWord c) : isSpace c = false := by
  simp only [isWord, isSpace, Bool.or_eq_true, Bool.and_eq_true, decide_eq_true_eq,
    Bool.or_eq_false_iff, Bool.and_eq_false_iff, decide_eq_false_iff_not,
    UInt8.le_iff_toNat_le, ← UInt8.toNat_inj, UInt8.reduceToNat] at h ⊢
  omega

/-- A word ends where the next byte is none of a word. -/
theorem tokens_word {w r : List UInt8} (hne : w ≠ []) (hw : w.all isWord)
    (hr : r.head?.all fun d => !isWord d) :
    tokens (w ++ r) = (tokens r).map fun rest => .word w :: rest := by
  rcases w with _ | ⟨c, w⟩
  · exact absurd rfl hne
  · rw [List.all_cons, Bool.and_eq_true] at hw
    have hall : ∀ d ∈ w, isWord d := List.all_eq_true.mp hw.2
    have htake : (w ++ r).takeWhile isWord = w ∧ (w ++ r).dropWhile isWord = r := by
      rw [List.takeWhile_append_of_pos hall, List.dropWhile_append_of_pos hall]
      rcases r with _ | ⟨d, r⟩
      · simp
      · have hd : isWord d = false := by simpa using hr
        simp [hd]
    rw [List.cons_append, tokens_cons, lexOne, isSpace_of_isWord hw.1,
      if_neg Bool.false_ne_true, if_pos hw.1, htake.1, htake.2]
    rfl

/-- Words, with a blank behind each. -/
def phrase (ws : List (List UInt8)) : List UInt8 := ws.flatMap fun w => w ++ [0x20]

theorem tokens_phrase {ws : List (List UInt8)} (h : ws.all fun w => !w.isEmpty && w.all isWord)
    (r : List UInt8) :
    tokens (phrase ws ++ r) = (tokens r).map fun rest => ws.map .word ++ rest := by
  induction ws with
  | nil => simp [phrase]
  | cons w ws ih =>
    rw [List.all_cons, Bool.and_eq_true, Bool.and_eq_true] at h
    have hne : w ≠ [] := by simpa using h.1.1
    have htext : phrase (w :: ws) ++ r = w ++ 0x20 :: (phrase ws ++ r) := by simp [phrase]
    rw [htext, tokens_word hne h.1.2 rfl, tokens_space rfl, ih h.2, Option.map_map]
    rfl

/-- The bytes that stand for themselves wherever they are. -/
def isSymbol (c : UInt8) : Bool :=
  !isSpace c && !isWord c && !([quote, 0x22, 0x60, 0x23, 0x2D, 0x2F].contains c)

theorem tokens_symbol {c : UInt8} (hc : isSymbol c) (t : List UInt8) :
    tokens (c :: t) = (tokens t).map fun rest => .symbol c :: rest := by
  have hone : lexOne c t = some ([.symbol c], t) := by
    simp [isSymbol] at hc
    simp [lexOne, hc]
  rw [tokens_cons, hone]
  rfl

theorem tokens_minus {t : List UInt8} (ht : t.head? ≠ some 0x2D) :
    tokens (0x2D :: t) = (tokens t).map fun rest => .symbol 0x2D :: rest := by
  have hdashes : isDashes t = false := by
    rcases t with _ | ⟨c, _ | ⟨d, t⟩⟩
    · rfl
    all_goals
      have hc : c ≠ 0x2D := fun h => ht (by rw [h, List.head?_cons])
      simp [isDashes, hc]
  have hone : lexOne 0x2D t = some ([.symbol 0x2D], t) := by
    simp [lexOne, isSpace, isWord, quote, hdashes]
  rw [tokens_cons, hone]
  rfl

theorem tokens_string (t : List UInt8) :
    tokens (quote :: t) =
      (readQuoted true quote t).bind fun r => (tokens r.2).map fun rest => .string r.1 :: rest := by
  have hone : lexOne quote t = (readQuoted true quote t).map fun r => ([.string r.1], r.2) := rfl
  rw [tokens_cons, hone, Option.bind_map]
  rfl

/-- Tokens read before the rest do not matter to it. -/
theorem map_append_eq_some_iff {x : Option (List Token)} (p : List Token) {toks : List Token} :
    (x.map fun rest => p ++ rest) = some (p ++ toks) ↔ x = some toks :=
  (Option.map_injective (List.append_right_injective p)).eq_iff (b := some toks)

theorem tokens_phrase_iff {ws : List (List UInt8)}
    (h : ws.all fun w => !w.isEmpty && w.all isWord) {r : List UInt8} {toks : List Token} :
    tokens (phrase ws ++ r) = some (ws.map .word ++ toks) ↔ tokens r = some toks := by
  rw [tokens_phrase h]
  exact map_append_eq_some_iff _

theorem tokens_symbol_iff {c : UInt8} (hc : isSymbol c) {t : List UInt8} {toks : List Token} :
    tokens (c :: t) = some (.symbol c :: toks) ↔ tokens t = some toks := by
  rw [tokens_symbol hc]
  exact map_append_eq_some_iff [.symbol c]

theorem tokens_word_iff {w r : List UInt8} (hne : w ≠ []) (hw : w.all isWord)
    (hr : r.head?.all fun d => !isWord d) {toks : List Token} :
    tokens (w ++ r) = some (.word w :: toks) ↔ tokens r = some toks := by
  rw [tokens_word hne hw hr]
  exact map_append_eq_some_iff [.word w]

/-- **A text written between quotes.**  It is read as the literal it was meant to be
exactly if it is plain, unless the literal could also end at a later quote. -/
theorem tokens_literal_iff {s r : List UInt8} {toks : List Token} (hr : r.head? ≠ some quote)
    (hlater : ∀ m r', r = m ++ quote :: r' → tokens r' ≠ some toks) :
    tokens (quote :: (s ++ quote :: r)) = some (.string s :: toks) ↔
      Plain quote s ∧ tokens r = some toks := by
  rw [tokens_string]
  constructor
  · intro h
    obtain ⟨⟨d, r'⟩, hread, hrest⟩ := Option.bind_eq_some_iff.mp h
    obtain ⟨rest, htoks, heq⟩ := Option.map_eq_some_iff.mp hrest
    obtain ⟨rfl, rfl⟩ : d = s ∧ rest = toks := by simpa using heq
    rcases plain_or_of_readQuoted hread with ⟨hplain, rfl⟩ | ⟨m, hm⟩
    · exact ⟨hplain, htoks⟩
    · exact absurd htoks (hlater m r' hm)
  · rintro ⟨hplain, htoks⟩
    rw [readQuoted_of_plain (by decide) hplain hr, Option.bind_some, htoks]
    rfl

/-- A plain text has no quote. -/
theorem notMem_of_plain {q : UInt8} (hq : q ≠ 0x25 ∧ q ≠ 0x5F ∧ q ≠ backslash) {s : List UInt8}
    (hs : Plain q s) : q ∉ s := by
  fun_induction Plain q s with
  | case1 => exact List.not_mem_nil
  | case2 c => exact fun h => hs.1 (List.mem_singleton.mp h).symm
  | case3 e t ih =>
    obtain ⟨he, ht⟩ := hs
    rw [List.mem_cons, List.mem_cons, not_or, not_or]
    refine ⟨hq.2.2, ?_, ih ht⟩
    rcases he with rfl | rfl
    · exact hq.1
    · exact hq.2.1
  | case4 c e t hb ih =>
    rw [List.mem_cons, not_or]
    exact ⟨Ne.symm hs.1, ih hs.2⟩

/-- The bytes that may begin a comment. -/
def isComment (c : UInt8) : Bool := c = 0x23 || c = 0x2D || c = 0x2F

end SqlLexer
end RondeDesFacs
