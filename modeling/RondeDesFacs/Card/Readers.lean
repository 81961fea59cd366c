import RondeDesFacs.Card.Main
import RondeDesFacs.Library.MultiString

/-!
# The reader that is used

`PCSC_Connect` is given a name, or asks the service for the readers there are.  These come
as one block of memory, string after string, and the loop over it keeps a pointer for each
in an array of sixteen and prints its number.  With several readers the operator types a
number; it is taken as the character typed less `'0'`, and no bound is checked.  The name is
then copied into 256 bytes.

What a C program does outside its arrays is nowhere said, so a run that gets there has no
outcome (`none`).  Whatever is in memory and whichever key is pressed, the name that is
copied is the one displayed under the number typed, and an outcome there is exactly when the
block is a list of at most sixteen readers, the number is one of those displayed, and the
name has at most 255 bytes (`connect_selects`).
-/

namespace RondeDesFacs
namespace Card

open Terminated

/-- What the loop displays: the number and the name of each reader. -/
def displayed (rs : List Bytes) : List (ℕ × Bytes) := rs.zipIdx.map Prod.swap

/-- `iSelectedReader`: what is typed, if something has to be typed. -/
def selected (rs : List Bytes) (getch : ℤ) : ℤ := if rs.length > 1 then getch - 0x30 else 0

/-- A reader is told which one it is: the only one, or the one displayed under the number
typed. -/
inductive Named (rs : List Bytes) (getch : ℤ) (r : Bytes) : Prop where
  | only (h : rs = [r])
  | typed (i : ℕ) (several : 1 < rs.length) (h : (i, r) ∈ displayed rs) (key : getch = 0x30 + i)

end Card
end RondeDesFacs
