import ApprovedOps.Document.Parts
import ApprovedOps.Record.FileName

/-! # Records

An approved operation: its text, its name, and what was submitted with it.
-/

namespace ApprovedOps

/-- An iteration hint: a variable and the values it runs through. -/
structure Order where
  /-- The name of the variable. -/
  target : Text := []
  /-- The values. -/
  values : List Text := []
  deriving DecidableEq, Repr

/-- Does the hint say nothing? -/
def Order.isEmpty (o : Order) : Bool :=
  o.target.isEmpty && o.values.isEmpty

/-- An approved operation. -/
structure Record where
  /-- The name of the operation. -/
  name : Text := []
  /-- The text of the operation. -/
  query : Text := []
  /-- The namespace, empty for none. -/
  ns : Text := []
  /-- The comment before the operation. -/
  comment : Text := []
  /-- The variables block. -/
  vars : Text := []
  /-- The iteration hint. -/
  order : Order := {}
  /-- The fragments that came with the operation. They have files of their own. -/
  fragments : List Fragment := []
  deriving DecidableEq, Repr

namespace Record

/-- The extension of record files. -/
def fileExtension : Text := ".yaml"

/-- The key to look a record up by: its name in lower case. -/
def key (r : Record) : Text :=
  r.name.lower

/-- The name of the record's file. -/
def fileName (r : Record) : Text :=
  FileName.compose r.ns r.name fileExtension

/-- The record without its fragments, which is what its file keeps. -/
def bare (r : Record) : Record :=
  { r with fragments := [] }

/-- Do two records agree in everything but their fragments? -/
def agrees (r s : Record) : Bool :=
  r.bare = s.bare

/-- The record of a document, which has no name and namespace yet. -/
def ofParts (p : Parts) : Record :=
  { comment := p.comment, vars := p.vars, query := p.query, fragments := p.fragments }

end Record

end ApprovedOps
