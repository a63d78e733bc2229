import ApprovedOps.Number.Binary64
import ApprovedOps.Dictionary

/-! # JSON values -/

namespace ApprovedOps

/-- A JSON value. Numbers with a fraction or an exponent are floating-point numbers. -/
inductive Json where
  /-- The null value. -/
  | null
  /-- A truth value. -/
  | bool (b : Bool)
  /-- A number without fraction and exponent. -/
  | integer (i : Int)
  /-- Any other number. -/
  | real (x : Binary64)
  /-- A string. -/
  | string (t : Text)
  /-- An array. -/
  | array (items : List Json)
  /-- An object, in order of insertion. -/
  | object (fields : List (Text × Json))
  deriving Repr, Inhabited

namespace Json

/-- The fields of an object. -/
def fields? : Json → Option (Dictionary Json)
  | .object fields => some fields
  | _ => none

/-- The value of a field of an object. -/
def field? (key : Text) (v : Json) : Option Json :=
  v.fields?.bind (Dictionary.get? key)

end Json

end ApprovedOps
