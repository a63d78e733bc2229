import ApprovedOps.Record.Basic
import ApprovedOps.Value.Display

/-! # Records as mappings

What a record file holds: a mapping of the record's fields. Keys are read whatever their case, and
any value is read as its text; fields that say nothing are not written.
-/

namespace ApprovedOps

/-- Why a mapping is no record. -/
inductive FieldError where
  /-- The iteration hint is no mapping but of another kind. -/
  | orderNotMapping (kind : Text)
  /-- The values of the iteration hint are no collection but of another kind. -/
  | valuesNotCollection (kind : Text)
  deriving DecidableEq, Repr

/-- The words for a failure. -/
def FieldError.message : FieldError → Text
  | .orderNotMapping kind => .concat ["'", kind, "' object has no attribute 'items'"]
  | .valuesNotCollection kind => .concat ["'", kind, "' object is not iterable"]

namespace Fields

/-- A mapping with the lower case of the texts of its keys. -/
def lowerKeys (table : List Value) (entries : List (Value × Value)) : Dictionary Value :=
  Dictionary.ofEntries (entries.map fun (k, v) => ((k.display table).lower, v))

/-- The text of a field, empty where the field is absent or blank. -/
def text (table : List Value) (key : String) (d : Dictionary Value) : Text :=
  match d.get? (Text.ofString key) with
  | none => []
  | some v => if (v.resolve table).isBlank then [] else v.display table

/-- The elements of a collection. -/
def elements? : Value → Option (List Value)
  | .list items => some items
  | .set members => some members
  | .pair a b => some [a, b]
  | .mapping entries => some (entries.map (·.1))
  | .string t => some (t.map fun p => .string [p])
  | .bytes bs => some (bs.map fun b => .integer b.toNat)
  | _ => none

/-- The iteration hint of a mapping. -/
def order (table : List Value) (d : Dictionary Value) : Except FieldError Order := do
  match (d.get? (Text.ofString "order")).map (Value.resolve table) with
  | none => return {}
  | some v =>
    if v.isBlank then
      return {}
    else
      match v with
      | .mapping entries =>
        let hint := lowerKeys table entries
        let target := text table "var" hint
        match (hint.get? (Text.ofString "values")).map (Value.resolve table) with
        | none => return { target }
        | some values =>
          if values.isBlank then
            return { target }
          else
            match elements? values with
            | some vs => return { target, values := vs.map (Value.display table) }
            | none => throw (.valuesNotCollection values.fullKindName)
      | v => throw (.orderNotMapping v.fullKindName)

end Fields

namespace Record

/-- The record of a mapping. -/
def ofEntries (table : List Value) (entries : List (Value × Value)) : Except FieldError Record := do
  let d := Fields.lowerKeys table entries
  let order ← Fields.order table d
  return {
    ns := Fields.text table "namespace" d
    name := Fields.text table "name" d
    comment := Fields.text table "comment" d
    query := Fields.text table "query" d
    vars := Fields.text table "vars" d
    order }

end Record

/-- A written field: a text, or a part with fields of its own. -/
inductive WrittenField where
  /-- A text. -/
  | text (t : Text)
  /-- A list of texts. -/
  | texts (ts : List Text)
  /-- A mapping. -/
  | fields (fs : List (Text × WrittenField))
  deriving Repr

namespace Order

/-- The fields of an iteration hint that says something. -/
def written (o : Order) : List (Text × WrittenField) :=
  (if o.target = [] then [] else [(Text.ofString "var", .text o.target)])
    ++ (if o.values = [] then [] else [(Text.ofString "values", .texts o.values)])

/-- The fields of an iteration hint in a record. -/
def writtenFields (o : Order) : List (Text × WrittenField) :=
  if o.isEmpty then [] else [(Text.ofString "order", .fields o.written)]

end Order

namespace Record

/-- A field that is written only if it says something. -/
def optionalField (key : String) (t : Text) : List (Text × WrittenField) :=
  if t = [] then [] else [(Text.ofString key, .text t)]

/-- The fields of a record in the order in which they are written. -/
def written (r : Record) : List (Text × WrittenField) :=
  optionalField "namespace" r.ns ++ [(Text.ofString "name", .text r.name)]
    ++ optionalField "comment" r.comment ++ [(Text.ofString "query", .text r.query)]
    ++ optionalField "vars" r.vars ++ r.order.writtenFields

end Record

mutual

/-- The value of a written field. -/
def WrittenField.value : WrittenField → Value
  | .text t => .string t
  | .texts ts => .list (ts.map .string)
  | .fields fs => .mapping (WrittenField.entries fs)

/-- The entries of written fields. -/
def WrittenField.entries : List (Text × WrittenField) → List (Value × Value)
  | [] => []
  | (key, f) :: fs => (.string key, f.value) :: WrittenField.entries fs

end

namespace Record

/-- The record on one line, for messages; fragments are left out. -/
def describe (r : Record) : Text :=
  let field (name : String) (t : Text) := Text.ofString name ++ [.char '='] ++ t.quoted
  Text.ofString "Item("
    ++ Text.join (Text.ofString ", ")
      [ field "name" r.name, field "query" r.query, field "namespace" r.ns,
        field "comment" r.comment, field "vars" r.vars,
        Text.ofString "metadata=Metadata(order=Order(" ++ field "var" r.order.target
          ++ Text.ofString ", values=" ++ (Value.list (r.order.values.map .string)).display []
          ++ Text.ofString "))" ]
    ++ [.char ')']

end Record

end ApprovedOps
