import RondeDesFacs.Bdd.Procedures

/-!
# The servlet `StoredProcedure`

`call` runs a stored procedure through JDBC and turns its answer into the JSON
the charts read.  `executeQuery` hands over the *first* result set; the others
would have to be asked for, and are not.

A result set of three columns becomes a line chart: categories and one series for
each identifier.  The loop that builds it (`parcours`) keeps the series under
construction in two variables, `j` and `data`, that are null until the first row
opens a series, and compares every identifier with the previous one, which starts
as the empty string.  Every dereference of a null reference is a
`NullPointerException`, modelled by `none`; `call` answers 503 to any exception.

JSON objects are mutable, but no series is written to after it is put into the
array, so a series is a value here.
-/

namespace RondeDesFacs
namespace Servlet

/-- A row of a three column result set, as `getString` and `getInt` read it. -/
structure LineRow where
  ident : Option Text
  axis : Option Text
  res : ℤ
  deriving DecidableEq

/-- A JDBC result set: three columns, or the five of `topRunner`. -/
inductive ResultSet where
  | line (rows : List LineRow)
  | rank (rows : List RankRow)

/-- An object of the `data` array of a line chart.  Putting a null name leaves
the field out. -/
structure Serie where
  name : Option Text
  data : List ℤ
  deriving DecidableEq

/-- An object of the `data` array of a pie chart. -/
structure PiePoint where
  id : Option Text
  y : ℤ
  name : Text
  picture : Option Bytes
  deriving DecidableEq

/-- The JSON of an answer. -/
inductive Entity where
  | pie (procName : Text) (data : List PiePoint)
  | line (procName : Text) (categories : List (Option Text)) (data : List Serie)
  deriving DecidableEq

/-- The HTTP answer. -/
inductive Response where
  | status200 (entity : Entity)
  | status503
  deriving DecidableEq

/-! ## The line chart -/

/-- The local variables of the loop over the rows. -/
structure Locals where
  categoriesList : List (Option Text)
  series : List Serie
  /-- The object under construction: its name, once there is an object. -/
  j : Option (Option Text)
  data : Option (List ℤ)
  previousId : Option Text

/-- The variables before the loop. -/
def Locals.init : Locals where
  categoriesList := []
  series := []
  j := none
  data := none
  previousId := some []

/-- `if (!categoriesList.contains(category)) categoriesList.add(category)`. -/
def addCategory (l : List (Option Text)) (category : Option Text) : List (Option Text) :=
  if category ∈ l then l else l ++ [category]

/-- `j.put("data", data); series.put(j);`. -/
def putSerie (s : Locals) : Option (List Serie) :=
  match s.j, s.data with
  | some name, some data => some (s.series ++ [⟨name, data⟩])
  | _, _ => none

/-- One turn of the loop, at a row that is or is not the first or the last. -/
def tour (isFirst isLast : Bool) (s : Locals) (row : LineRow) : Option Locals :=
  let categories := addCategory s.categoriesList row.axis
  match s.previousId with
  | none => none
  | some previousId =>
    if some previousId ≠ row.ident then
      match if isFirst then some s.series else putSerie s with
      | none => none
      | some series =>
        some { categoriesList := categories, series := series, j := some row.ident,
               data := some [row.res], previousId := row.ident }
    else
      match s.data with
      | none => none
      | some data =>
        let s' : Locals := { s with categoriesList := categories, data := some (data ++ [row.res]),
                                    previousId := row.ident }
        if isLast then (putSerie s').map fun series => { s' with series := series } else some s'

/-- `while (rs.next())`. -/
def parcours (isFirst : Bool) (s : Locals) : List LineRow → Option Locals
  | [] => some s
  | row :: rows => (tour isFirst rows.isEmpty s row).bind fun s' => parcours false s' rows

/-- The line chart of a result set. -/
def lineEntity (procName : Text) (rows : List LineRow) : Option Entity :=
  (parcours true Locals.init rows).map fun s => .line procName s.categoriesList s.series

/-! ## The pie chart -/

/-- What concatenation makes of a string that may be null. -/
def orNull (t : Option Text) : Text := t.getD "null".toList

/-- The object of a row. -/
def piePoint (r : RankRow) : PiePoint where
  id := r.ident
  y := r.res
  name := orNull r.firstName ++ " ".toList ++ orNull r.lastName
  picture := r.picture

/-! ## The call -/

/-- `Integer.parseInt`, which throws on anything but a decimal `int`. -/
def parseInt (t : Text) : Option ℤ :=
  let value (ds : Text) : Option ℕ :=
    if ds = [] then none
    else ds.foldl (fun acc d => acc.bind fun n =>
      if d.isDigit then some (10 * n + (d.toNat - '0'.toNat)) else none) (some 0)
  let z : Option ℤ := match t with
    | '-' :: ds => (value ds).map fun n => -(n : ℤ)
    | '+' :: ds => (value ds).map fun n => (n : ℤ)
    | ds => (value ds).map fun n => (n : ℤ)
  z.filter fun n => -2147483648 ≤ n ∧ n ≤ 2147483647

/-- What the database behind a connection does with a call: the result sets of
the procedure, in order, or an `SQLException`.  The arguments are those of
`(?, ?)`, none for `()`. -/
abbrev Connection := Text → Option (ℤ × Text) → Option (List ResultSet)

/-- The arguments of the call; `none` is an exception. -/
def arguments (param2 param3 : Option Text) : Option (Option (ℤ × Text)) :=
  match param2, param3 with
  | some p2, some p3 =>
    if p2.length + p3.length > 0 then (parseInt p2).map fun n => some (n, p3) else some none
  | _, _ => none

/-- The JSON of a result set. -/
def entityOf (procName : Text) : ResultSet → Option Entity
  | .line rows => lineEntity procName rows
  | .rank rows => some (.pie procName (rows.map piePoint))

/-- `StoredProcedure.call`.  The connection may fail; a missing form parameter is
null.  `executeQuery` gives the first result set. -/
def call (connect : Option Connection) (param1 param2 param3 : Option Text) : Response :=
  let answer := connect.bind fun base =>
    (arguments param2 param3).bind fun args =>
      (base (orNull param1) args).bind fun resultSets =>
        resultSets.head?.bind fun rs => entityOf (orNull param1) rs
  match answer with
  | some entity => .status200 entity
  | none => .status503

/-! ## The procedures of `rdf.sql` behind a connection -/

/-- A row of a distribution, as it is read. -/
def readRow (r : StatRow) : LineRow where
  ident := r.ident
  axis := some (Nat.toDigits 10 r.axis)
  res := r.res

/-- The result sets of a distribution. -/
def distribution (rs : List (List StatRow)) : List ResultSet :=
  rs.map fun rows => .line (rows.map readRow)

/-- A connection to the database `rdf`. -/
def connection (b : Bdd) : Connection
  | name, none =>
    if name = "nbCoureurDepartement".toList then some (distribution b.nbCoureurDepartement)
    else if name = "nbCoureurSexe".toList then some (distribution b.nbCoureurSexe)
    else none
  | name, some (indexx, idEtudiant) =>
    if name = "topRunner".toList then
      some ((b.topRunner indexx idEtudiant).map .rank)
    else none

end Servlet
end RondeDesFacs
