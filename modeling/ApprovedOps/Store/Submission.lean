import ApprovedOps.Record.Basic
import ApprovedOps.Text.Utf8

/-! # Submissions

A document that is submitted to a store with its variables, its iteration hint and its namespace.
It is cut into its parts at once, and what comes out is the draft of a record.
-/

namespace ApprovedOps

/-- Variables that are submitted with a document. -/
inductive SubmittedVariables where
  /-- None. -/
  | absent
  /-- A text. -/
  | text (t : Text)
  /-- The bytes of a text. -/
  | bytes (bs : List UInt8)
  deriving DecidableEq, Repr

/-- A document that is submitted. -/
structure Submission where
  /-- The document. -/
  document : Text
  /-- Variables, which win over those in the document unless they are empty. -/
  vars : SubmittedVariables := .absent
  /-- An iteration hint. -/
  order : Order := {}
  /-- The namespace. -/
  ns : Text := []
  deriving DecidableEq, Repr

/-- Why a document is not accepted. -/
inductive SetError where
  /-- The store is for reading only. -/
  | readOnly
  /-- The store is closed. -/
  | closed
  /-- The document is empty. -/
  | empty
  /-- The document has not the form of one. -/
  | malformed (e : DocumentError)
  /-- The bytes of the variables are no UTF-8. -/
  | vars (e : Utf8.Failure)
  deriving DecidableEq, Repr

/-- The words for a failure. -/
def SetError.message : SetError → Text
  | .readOnly => "allow list is read-only"
  | .closed => "allow list is closed"
  | .empty => "empty query"
  | .malformed e => e.message
  | .vars e => Text.ofString "variables are not valid utf-8: " ++ e.message

namespace SubmittedVariables

/-- The text of submitted variables, empty for none. -/
def read : SubmittedVariables → Except SetError Text
  | .absent => .ok []
  | .text t => .ok t
  | .bytes bs =>
    match Utf8.decode bs with
    | .ok t => .ok t
    | .error e => .error (.vars e)

end SubmittedVariables

namespace Submission

/-- The record of a submission, which has no name yet. -/
def draft (s : Submission) : Except SetError Record := do
  if s.document = [] then
    throw .empty
  match Parts.ofText s.document with
  | .error e => throw (.malformed e)
  | .ok p =>
    let r := Record.ofParts p
    let vars ← s.vars.read
    return {
      r with
      ns := s.ns
      order := s.order
      vars := if vars = [] then r.vars else vars }

end Submission

end ApprovedOps
