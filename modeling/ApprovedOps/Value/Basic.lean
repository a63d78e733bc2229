import ApprovedOps.Number.Binary64
import ApprovedOps.Value.Calendar
import ApprovedOps.Json.Value

/-! # Structured values

The values of record files: scalars of several kinds, lists, pairs, mappings and sets. A container
may hold itself; such containers are kept in a table, and the places where they come again name
their row.
-/

namespace ApprovedOps

/-- A structured value. -/
inductive Value where
  /-- The null value. -/
  | null
  /-- A truth value. -/
  | bool (b : Bool)
  /-- An integer. -/
  | integer (i : Int)
  /-- A floating-point number. -/
  | real (x : Binary64)
  /-- A text. -/
  | string (t : Text)
  /-- Raw bytes. -/
  | bytes (bs : List UInt8)
  /-- A date. -/
  | date (d : Date)
  /-- A moment. -/
  | moment (m : Moment)
  /-- A time of day. -/
  | time (t : TimeOfDay)
  /-- A list. -/
  | list (items : List Value)
  /-- A pair. -/
  | pair (first second : Value)
  /-- A mapping, in order of insertion. -/
  | mapping (entries : List (Value × Value))
  /-- A set. -/
  | set (members : List Value)
  /-- The container in a row of the table. -/
  | knot (row : Nat)
  deriving Repr, Inhabited

/-- A value with the containers that hold themselves. -/
structure Knotted where
  /-- The value. -/
  value : Value
  /-- The table of containers that hold themselves. -/
  table : List Value := []
  deriving Repr, Inhabited

namespace Value

mutual

/-- The structured value of a JSON value. -/
def ofJson : Json → Value
  | .null => .null
  | .bool b => .bool b
  | .integer i => .integer i
  | .real x => .real x
  | .string t => .string t
  | .array items => .list (ofItems items)
  | .object fields => .mapping (ofFields fields)

/-- The structured values of JSON values. -/
def ofItems : List Json → List Value
  | [] => []
  | v :: vs => ofJson v :: ofItems vs

/-- The entries of the fields of a JSON object. -/
def ofFields : List (Text × Json) → List (Value × Value)
  | [] => []
  | (key, v) :: fields => (.string key, ofJson v) :: ofFields fields

end

/-- The container that a knot stands for, or the value itself. -/
def resolve (table : List Value) : Value → Value
  | .knot row => table.getD row .null
  | v => v

/-- Does the value count as absent: null, false, zero or empty? -/
def isBlank : Value → Bool
  | .null => true
  | .bool b => !b
  | .integer i => i == 0
  | .real x => x.isZero
  | .string t => t.isEmpty
  | .bytes bs => bs.isEmpty
  | .list items => items.isEmpty
  | .mapping entries => entries.isEmpty
  | .set members => members.isEmpty
  | _ => false

/-- The name of the kind of a value. -/
def kindName : Value → Text
  | .null => "NoneType"
  | .bool _ => "bool"
  | .integer _ => "int"
  | .real _ => "float"
  | .string _ => "str"
  | .bytes _ => "bytes"
  | .date _ => "date"
  | .moment _ => "datetime"
  | .time _ => "time"
  | .list _ => "list"
  | .pair _ _ => "tuple"
  | .mapping _ => "dict"
  | .set _ => "set"
  | .knot _ => "list"

/-- The name of the kind of a value, with the family of the kinds of the calendar. -/
def fullKindName (v : Value) : Text :=
  match v with
  | .date _ | .moment _ | .time _ => Text.ofString "datetime." ++ v.kindName
  | v => v.kindName

/-- The exact numeric value of a truth value or number, as a ratio. -/
def number? : Value → Option (Int × Nat)
  | .bool b => some (if b then 1 else 0, 1)
  | .integer i => some (i, 1)
  | .real (.finite negative m e) => some (Binary64.ratio negative m e)
  | _ => none

/-- Are two scalars the same key? Numbers are compared by value, whatever their kinds. -/
def sameKey (a b : Value) : Bool :=
  match a.number?, b.number? with
  | some (p, q), some (r, s) => p * s == r * q
  | _, _ =>
    match a, b with
    | .null, .null => true
    | .real .nan, .real .nan => true
    | .real (.infinite x), .real (.infinite y) => x == y
    | .string x, .string y => x == y
    | .bytes x, .bytes y => x == y
    | .date x, .date y => x == y
    | .moment x, .moment y => x.same y
    | _, _ => false

/-- Gives a key a value, at the key's old place or else at the end. -/
def insertEntry (key v : Value) : List (Value × Value) → List (Value × Value)
  | [] => [(key, v)]
  | (k, w) :: rest => if k.sameKey key then (k, v) :: rest else (k, w) :: insertEntry key v rest

end Value

end ApprovedOps
