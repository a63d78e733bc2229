import ApprovedOps.Files.Basic
import ApprovedOps.GraphQL.Canonical
import ApprovedOps.Record.Format
import ApprovedOps.Variables.Clean
import ApprovedOps.Yaml.Layout

/-! # Saving a record

A record is saved as one file under `queries` and one for each of its fragments under `fragments`.
First the operation is checked for its name and the variables are cleaned; then the files are
written in order, and a failure leaves those before it.
-/

namespace ApprovedOps

/-- Where the files of a store are. -/
structure Shelf where
  /-- The directory of the store. -/
  root : Text
  deriving DecidableEq, Repr

namespace Shelf

/-- The store at a path, where slashes at the end do not count. -/
def ofPath (path : Text) : Shelf :=
  let root := Path.withoutSlashes path
  ⟨if root = [] then [.char '/'] else root⟩

/-- The directory of records. -/
def queries (s : Shelf) : Text :=
  Path.join s.root "queries"

/-- The directory of fragments. -/
def fragments (s : Shelf) : Text :=
  Path.join s.root "fragments"

/-- The path of a record's file. -/
def recordPath (s : Shelf) (r : Record) : Text :=
  Path.join s.queries r.fileName

/-- The path of a fragment's file. -/
def fragmentPath (s : Shelf) (ns name : Text) : Text :=
  Path.join s.fragments (FileName.compose ns name [])

/-- The path that a path stands for in the store. Absolute paths, addresses and paths that already
    begin with the store's directory stand for themselves. -/
def resolve (s : Shelf) (path : Text) : Text :=
  if Text.startsWith path [.char '/'] ∨ Text.hasInfix path "://" then path
  else if s.root ≠ [.char '/'] ∧ Text.startsWith path (s.root ++ [.char '/']) then path
  else Path.join s.root path

end Shelf

/-- Why a record was not saved. -/
inductive SaveError where
  /-- The operation is no document with one named operation. -/
  | canonical (e : CanonicalError)
  /-- The variables are not allowed. -/
  | vars (e : Variables.Error)
  /-- A text with a lone surrogate cannot be written. -/
  | notEncodable
  /-- A file could not be written. -/
  | file (e : FileFailure)

/-- The words for why a record was not saved. -/
def SaveError.message : SaveError → Text
  | .canonical e => e.message
  | .vars e => e.message
  | .notEncodable => "surrogates not allowed"
  | .file e => e.message

/-- A file to be written. -/
structure PlannedFile where
  /-- Its path. -/
  path : Text
  /-- Its text. -/
  text : Text
  deriving DecidableEq, Repr

/-- The outcome of saving a record. -/
structure SaveResult where
  /-- The record, as far as it was completed. -/
  record : Record
  /-- The path of its file, if all files were written. -/
  path : Text := []
  /-- Why it was not saved. -/
  error : Option SaveError := none

namespace Record

/-- The record with the name of its operation. -/
def named (r : Record) : Except SaveError Record :=
  match Canonical.ofText r.query with
  | .ok c => .ok { r with name := c.name }
  | .error e => .error (.canonical e)

/-- The record with cleaned variables. -/
def cleaned (r : Record) : Except SaveError Record :=
  if r.vars = [] then
    .ok r
  else
    match Variables.clean Variables.storedIndent r.vars with
    | .ok vars => .ok { r with vars }
    | .error e => .error (.vars e)

/-- The files of a record in the order in which they are written. -/
def files (s : Shelf) (r : Record) : List PlannedFile :=
  ⟨s.recordPath r, r.yaml⟩
    :: r.fragments.map fun f => ⟨s.fragmentPath r.ns f.name, f.value⟩

end Record

section

variable {σ : Type} [Files σ]

/-- Writes a file, unless its path is among those that cannot be written. -/
def Files.tryWrite (broken : List Text) (fs : σ) (path : Text) (bytes : List UInt8) :
    Except FileFailure σ :=
  if broken.contains path then .error brokenFailure else Files.write fs path bytes

/-- Writes files in order up to the first that fails. -/
def Files.writeAll (broken : List Text) (fs : σ) : List PlannedFile → σ × Option SaveError
  | [] => (fs, none)
  | f :: rest =>
    match Utf8.encode? f.text with
    | none => (fs, some .notEncodable)
    | some bytes =>
      match Files.tryWrite broken fs f.path bytes with
      | .error e => (fs, some (.file e))
      | .ok fs => writeAll broken fs rest

/-- Saves a record. -/
def Shelf.save (s : Shelf) (broken : List Text) (fs : σ) (r : Record) : σ × SaveResult :=
  match r.named with
  | .error e => (fs, { record := r, error := some e })
  | .ok named =>
    match named.cleaned with
    | .error e => (fs, { record := named, error := some e })
    | .ok cleaned =>
      match Files.writeAll broken fs (cleaned.files s) with
      | (fs, none) => (fs, { record := cleaned, path := s.recordPath cleaned })
      | (fs, some e) => (fs, { record := cleaned, error := some e })

end

end ApprovedOps
