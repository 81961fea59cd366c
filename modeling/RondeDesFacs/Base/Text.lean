import RondeDesFacs.Library.PadSpace

/-!
# Strings on the wire and strings in the database

The repository is written in five languages that do not share a notion of
string.  PHP and C handle *bytes*; Java, JavaScript and the columns of the
database handle *characters*.  The two meet at a database connection, whose
character set says which characters the bytes of a statement are.

The tables of `rdf.sql` are declared `DEFAULT CHARSET=latin1`, with no collation,
so their text columns are compared by `latin1_swedish_ci`: case and most accents
do not count, and neither do trailing spaces.
-/

namespace RondeDesFacs

/-- Characters: a text column, a Java string, a JavaScript string. -/
abbrev Text := List Char

/-- Bytes: a PHP string, a C string, a file. -/
abbrev Bytes := List UInt8

/-- A string literal of a PHP or C source. -/
def ascii (s : String) : Bytes := s.toList.map fun c => UInt8.ofNat c.toNat

/-- Bytes read as characters, one by one. -/
def latin1 (b : Bytes) : Text := b.map fun x => Char.ofNat x.toNat

/-- The character set of a connection: how the server reads the bytes of a
statement as text of the tables, and how it writes text in an answer.  A
statement it cannot read fails.  All of them agree on the first 128 bytes. -/
structure Charset where
  /-- Bytes of a statement, read as text of a latin1 column. -/
  decode : Bytes → Option Text
  /-- Text of a latin1 column, written in an answer. -/
  encode : Text → Bytes
  /-- ASCII reads as itself. -/
  decode_ascii : ∀ b : Bytes, (∀ x ∈ b, x < 128) → decode b = some (latin1 b)

/-- A latin1 connection: one byte is one character. -/
def Charset.latin1 : Charset where
  decode b := some (RondeDesFacs.latin1 b)
  encode t := t.map fun c => UInt8.ofNat c.toNat
  decode_ascii _ _ := rfl

theorem latin1_char_eq_space_iff (x : UInt8) : Char.ofNat x.toNat = ' ' ↔ x = 0x20 := by
  have hlt : x.toNat < 256 := x.toNat_lt
  have hvalid : x.toNat.isValidChar := Or.inl (by omega)
  have hchar : (Char.ofNat x.toNat).toNat = x.toNat := by
    rw [Char.ofNat, dif_pos hvalid]
    rfl
  rw [← Char.toNat_inj, hchar, ← UInt8.toNat_inj]
  rfl

/-! ## The collation `latin1_swedish_ci` -/

/-- The weights of the characters from `À` on. -/
def swedishAccents : List ℕ :=
  [0x41, 0x41, 0x41, 0x41, 0x5C, 0x5B, 0x5C, 0x43, 0x45, 0x45, 0x45, 0x45, 0x49, 0x49, 0x49, 0x49,
   0x44, 0x4E, 0x4F, 0x4F, 0x4F, 0x4F, 0x5D, 0xD7, 0xD8, 0x55, 0x55, 0x55, 0x59, 0x59, 0xDE, 0xDF,
   0x41, 0x41, 0x41, 0x41, 0x5C, 0x5B, 0x5C, 0x43, 0x45, 0x45, 0x45, 0x45, 0x49, 0x49, 0x49, 0x49,
   0x44, 0x4E, 0x4F, 0x4F, 0x4F, 0x4F, 0x5D, 0xF7, 0xD8, 0x55, 0x55, 0x55, 0x59, 0x59, 0xDE, 0xFF]

/-- The weight of a character code: lower case letters weigh what upper case ones
do, accented letters what the table says, everything else its own code. -/
def swedishWeight (n : ℕ) : ℕ :=
  if 0x61 ≤ n ∧ n ≤ 0x7A then n - 0x20
  else if 0xC0 ≤ n ∧ n ≤ 0xFF then swedishAccents.getD (n - 0xC0) n
  else n

theorem eq_of_swedishWeight_eq_space {n : ℕ} (h : swedishWeight n = 0x20) : n = 0x20 := by
  have hrow : ∀ i < 64, swedishAccents.getD i (i + 0xC0) ≠ 0x20 := by decide
  unfold swedishWeight at h
  split_ifs at h with h1 h2
  · omega
  · have hi := hrow (n - 0xC0) (by omega)
    rw [Nat.sub_add_cancel h2.1] at hi
    exact absurd h hi
  · exact h

/-- The default collation of the latin1 tables of `rdf.sql`. -/
def latin1SwedishCi : Collation Char where
  weight c := swedishWeight c.toNat
  space := ' '
  eq_space c h := by
    have hn : c.toNat = 0x20 := eq_of_swedishWeight_eq_space h
    exact Char.toNat_inj.mp hn

/-- `=` on text columns. -/
abbrev SameText (s t : Text) : Prop := latin1SwedishCi.Same s t

/-! ## What a column keeps of a value -/

/-- The settings of the server that decide what an `INSERT` does with a value its
column cannot hold, and its conversions from text to the other column types.
`none` refuses the statement. -/
structure Serveur where
  /-- Whether `sql_mode` is strict. -/
  strict : Bool
  /-- A text value in a `tinyint` column. -/
  toTinyint : Text → Option ℤ
  /-- A text value in a `date` column. -/
  toDate : Text → Option Text

/-- A value in a `varchar(w)` column.  Spaces past the width are dropped in every
mode; anything else past it is cut off, or refused in strict mode. -/
def Serveur.varchar (srv : Serveur) (w : ℕ) (t : Text) : Option Text :=
  if srv.strict && (t.drop w).any (· ≠ ' ') then none else some (t.take w)

/-- A value in a `char(w)` column, which is read back without its trailing
spaces. -/
def Serveur.char (srv : Serveur) (w : ℕ) (t : Text) : Option Text :=
  (srv.varchar w t).map latin1SwedishCi.trim

/-- The bytes a `blob` column holds at most. -/
def blobMax : ℕ := 65535

/-- A value in a `blob` column. -/
def Serveur.blob (srv : Serveur) (b : Bytes) : Option Bytes :=
  if srv.strict && decide (blobMax < b.length) then none else some (b.take blobMax)

theorem Serveur.eq_take_of_varchar {srv : Serveur} {w : ℕ} {t u : Text}
    (h : srv.varchar w t = some u) : u = t.take w := by
  unfold varchar at h
  split_ifs at h
  exact (Option.some_inj.mp h).symm

theorem Serveur.eq_of_blob {srv : Serveur} {b c : Bytes} (hb : b.length ≤ blobMax)
    (h : srv.blob b = some c) : c = b := by
  unfold blob at h
  split_ifs at h
  rw [← Option.some_inj.mp h, List.take_of_length_le hb]

end RondeDesFacs
