import ApprovedOps.Toml.Failure
import ApprovedOps.Value.Basic

/-! # Tables under construction

A TOML text builds its tables statement by statement. Headers open tables, keys with dots open
tables on the way, and marks keep track of what cannot be opened or extended again.
-/

namespace ApprovedOps

namespace Toml

/-- The entries of a table. -/
abbrev Entries := List (Value × Value)

namespace Entries

/-- The value of a name. -/
def get? (name : Text) : Entries → Option Value
  | [] => none
  | (k, v) :: es => if k.sameKey (.string name) then some v else get? name es

/-- Gives a name a value, at its old place or else at the end. -/
def put (name : Text) (v : Value) (es : Entries) : Entries :=
  Value.insertEntry (.string name) v es

/-- Changes the table at a key, which is made if there is none. Where the key comes by an array of
    tables, its last table is meant if `throughArrays` is set. Nothing else may be in the way. -/
def updateAt (throughArrays : Bool) (change : Entries → Option Entries) :
    Key → Entries → Option Entries
  | [], es => change es
  | name :: key, es =>
    match es.get? name with
    | none => (updateAt throughArrays change key []).map fun t => es.put name (.mapping t)
    | some (.mapping t) =>
      (updateAt throughArrays change key t).map fun t => es.put name (.mapping t)
    | some (.list items) =>
      match throughArrays, items.getLast? with
      | true, some (.mapping t) =>
        (updateAt throughArrays change key t).map fun t =>
          es.put name (.list (items.dropLast ++ [.mapping t]))
      | _, _ => none
    | some _ => none

/-- Adds an empty table to the array of tables with a name. -/
def append (name : Text) (es : Entries) : Option Entries :=
  match es.get? name with
  | none => some (es.put name (.list [.mapping []]))
  | some (.list items) => some (es.put name (.list (items ++ [.mapping []])))
  | some _ => none

/-- Gives a new name a value. -/
def addNew (name : Text) (v : Value) (es : Entries) : Option Entries :=
  if (es.get? name).isSome then none else some (es.put name v)

end Entries

/-- What is known of a key. -/
inductive Mark where
  /-- A table was opened there and cannot be opened by a header again. -/
  | opened
  /-- An inline table or array is there, which cannot be extended, nor anything in it. -/
  | fixed
  deriving DecidableEq, Repr

/-- What a text has built so far. -/
structure Builder where
  /-- The outermost table. -/
  table : Entries := []
  /-- The marks of keys. -/
  marks : List (Key × Mark) := []
  /-- The keys that count as opened from the next header on. -/
  pending : List Key := []
  /-- The key of the last header. -/
  header : Key := []

namespace Builder

/-- Was a table opened at the key? -/
def isOpened (b : Builder) (key : Key) : Bool :=
  b.marks.contains (key, .opened)

/-- Is there something at the key that cannot be extended? -/
def isFixed (b : Builder) (key : Key) : Bool :=
  b.marks.any fun (k, m) => m = .fixed && k.isPrefixOf key

/-- Marks a key. -/
def mark (b : Builder) (key : Key) (m : Mark) : Builder :=
  { b with marks := (key, m) :: b.marks }

/-- Lets the pending keys count as opened. -/
def settle (b : Builder) : Builder :=
  { b with marks := b.pending.map (·, .opened) ++ b.marks, pending := [] }

/-- Forgets all about a key and what is under it. -/
def forget (b : Builder) (key : Key) : Builder :=
  { b with marks := b.marks.filter fun (k, _) => !key.isPrefixOf k }

/-- The header of a table. -/
def openTable (b : Builder) (key : Key) : Except Cause Builder :=
  if b.isOpened key ∨ b.isFixed key then
    .error (.declaredTwice key)
  else
    match b.table.updateAt true some key with
    | none => .error .overwritten
    | some table => .ok { b.mark key .opened with table, header := key }

/-- The header of another table in an array of tables. -/
def openNext (b : Builder) (key : Key) : Except Cause Builder :=
  if b.isFixed key then
    .error (.immutable key)
  else
    match b.table.updateAt true (Entries.append (key.getLastD [])) key.dropLast with
    | none => .error .overwritten
    | some table => .ok { (b.forget key).mark key .opened with table, header := key }

/-- Is it a value with parts? -/
def hasParts : Value → Bool
  | .list _ | .mapping _ => true
  | _ => false

/-- A key with its value. -/
def add (b : Builder) (key : Key) (v : Value) : Except Cause Builder :=
  let parents := (List.range (key.length - 1)).map fun i => b.header ++ key.take (i + 1)
  match parents.find? b.isOpened with
  | some parent => .error (.redefined parent)
  | none =>
    let above := b.header ++ key.dropLast
    if b.isFixed above then
      .error (.immutable above)
    else
      match b.table.updateAt true (Entries.addNew (key.getLastD []) v) above with
      | none => .error .overwritten
      | some table =>
        let b := { b with table, pending := b.pending ++ parents }
        .ok (if hasParts v then b.mark (b.header ++ key) .fixed else b)

end Builder

/-- An inline table under construction. -/
structure InlineBuilder where
  /-- Its entries. -/
  table : Entries := []
  /-- The keys of inline tables and arrays in it. -/
  fixed : List Key := []

/-- A key with its value in an inline table. -/
def InlineBuilder.add (b : InlineBuilder) (key : Key) (v : Value) : Except Cause InlineBuilder :=
  let name := key.getLastD []
  if b.fixed.any (·.isPrefixOf key) then
    .error (.immutable key)
  else
    match b.table.updateAt false some key.dropLast with
    | none => .error .overwritten
    | some table =>
      match table.updateAt false (Entries.addNew name v) key.dropLast with
      | none => .error (.duplicateKey name)
      | some table =>
        .ok { table, fixed := if Builder.hasParts v then key :: b.fixed else b.fixed }

end Toml

end ApprovedOps
