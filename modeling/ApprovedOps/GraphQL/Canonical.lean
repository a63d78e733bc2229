import ApprovedOps.GraphQL.Grammar
import ApprovedOps.GraphQL.Layout
import ApprovedOps.GraphQL.Report

/-! # Canonical operations

The authoritative name of a submitted operation and its text in the normal layout. Only named
operations are approved.
-/

namespace ApprovedOps

/-- Why an operation text is refused. -/
inductive CanonicalError where
  /-- The text is no document of the language. -/
  | malformed (text : Text) (e : GraphQL.SyntaxError)
  /-- The document has no operation. -/
  | noOperation
  /-- The first operation has no name. -/
  | unnamedOperation
  deriving DecidableEq, Repr

/-- The words for a refused text. -/
def CanonicalError.message : CanonicalError → Text
  | .malformed text e => e.report text
  | .noOperation => "no operation defined"
  | .unnamedOperation =>
    "no query name defined. only named queries are saved to the allow list"

/-- The normal form of an operation text. -/
structure Canonical where
  /-- The text of the document in its normal layout. -/
  query : Text
  /-- The name of the first operation. -/
  name : Text
  deriving DecidableEq, Repr

namespace Canonical

/-- The operations of a document. -/
def operations (d : GraphQL.Document) : List GraphQL.Operation :=
  d.filterMap fun
    | .operation o => some o
    | _ => none

/-- The normal form of a text. -/
def ofText (t : Text) : Except CanonicalError Canonical :=
  match GraphQL.Document.ofText t with
  | .error e => .error (.malformed t e)
  | .ok d =>
    match (operations d).head? with
    | none => .error .noOperation
    | some o =>
      match o.name with
      | none => .error .unnamedOperation
      | some name => .ok ⟨GraphQL.Document.render d, name⟩

end Canonical

end ApprovedOps
