import ApprovedOps.Json.Reader
import ApprovedOps.Json.Writer
import ApprovedOps.Number.Numeral
import ApprovedOps.Variables.Relaxed

/-! # Cleaned variables

A variables block as indented JSON.
-/

namespace ApprovedOps

namespace Variables

/-- Why a variables block is refused. -/
inductive Error where
  /-- The stripped text is no JSON; `remaining` code points of it are left at the cause. -/
  | malformed (stripped : Text) (cause : Json.Cause) (remaining : Nat)
  /-- An integer has more digits than are read. -/
  | integerTooLong (digits : Nat)
  deriving DecidableEq, Repr

/-- The words for a refused block that is no JSON. -/
def malformedMessage (stripped : Text) (cause : Json.Cause) (remaining : Nat) : Text :=
  "invalid variables json: " ++ Json.malformedMessage stripped cause remaining

/-- The words for a refused block. -/
def Error.message : Error → Text
  | .malformed stripped cause remaining => malformedMessage stripped cause remaining
  | .integerTooLong digits => Numeral.tooLong digits

/-- The value of a variables block. -/
def read (t : Text) : Except Error Json :=
  let stripped := strip t
  match Json.read stripped with
  | .ok v => .ok v
  | .error (.malformed cause remaining) => .error (.malformed stripped cause remaining)
  | .error (.integerTooLong digits) => .error (.integerTooLong digits)

/-- The variables block as JSON with `indent` spaces for each level. -/
def clean (indent : Nat) (t : Text) : Except Error Text := do
  let v ← read t
  return v.render indent

/-- The indentation of stored variables. -/
def storedIndent : Nat := 2

end Variables

end ApprovedOps
