import ApprovedOps.Files.Basic
import ApprovedOps.Record.Fields
import ApprovedOps.Text.Utf8
import ApprovedOps.Yaml.Assembly
import ApprovedOps.Yaml.Message

/-! # File formats

A record is kept in a file of one of two formats, which the extension tells: a raw document, whose
name and namespace are those of the file, or a YAML mapping of the record's fields. Extensions can
be given a format.
-/

namespace ApprovedOps

/-- How a record is kept in a file. -/
inductive Format where
  /-- A raw document. -/
  | document
  /-- A YAML mapping of the record's fields. -/
  | mapping
  deriving DecidableEq, Repr

/-- Why a file holds no record. -/
inductive FileError where
  /-- The extension has no format. -/
  | unknownType (path : Text)
  /-- The file name of a raw document gives no name. -/
  | noName (path : Text)
  /-- The file cannot be read. -/
  | file (e : FileFailure)
  /-- The bytes are no UTF-8. -/
  | notUtf8 (e : Utf8.Failure)
  /-- The text is no document. -/
  | document (e : DocumentError)
  /-- The text is no YAML. -/
  | yaml (t : Text) (e : Yaml.Failure)
  /-- The YAML value is no mapping but of another kind. -/
  | notMapping (path kind : Text)
  /-- The mapping is no record. -/
  | fields (e : FieldError)

/-- The words for a failure. -/
def FileError.message : FileError → Text
  | .unknownType path => Text.ofString "unknown filetype: " ++ path
  | .noName path => Text.ofString "invalid filename: " ++ path
  | .file e => e.message
  | .notUtf8 e => e.message
  | .document e => e.message
  | .yaml t e => e.message t
  | .notMapping path kind => path ++ Text.ofString ": expected a mapping, got " ++ kind
  | .fields e => e.message

/-- The formats of extensions. -/
abbrev Formats := Dictionary Format

namespace Formats

/-- The formats of the usual extensions. -/
def standard : Formats :=
  [(".gql", .document), (".graphql", .document), (".yml", .mapping), (".yaml", .mapping)]

/-- Gives an extension, with or without its dot, a format. Case does not matter. -/
def register (ext : Text) (f : Format) (formats : Formats) : Formats :=
  let dotted := if Text.startsWith ext [.char '.'] then ext else .char '.' :: ext
  Dictionary.insert dotted.lower f formats

/-- The format of a path. -/
def ofPath (formats : Formats) (path : Text) : Except FileError Format :=
  match Dictionary.get? (FileName.extension path).lower formats with
  | some f => .ok f
  | none => .error (.unknownType path)

end Formats

/-- The text of what was read from a file. -/
def FileText.ofContent (content : Except FileFailure (List UInt8)) : Except FileError Text :=
  match content with
  | .error e => .error (.file e)
  | .ok bytes =>
    match Utf8.decode bytes with
    | .ok t => .ok t
    | .error e => .error (.notUtf8 e)

namespace Record

/-- The record of a YAML text, whose path is for messages. A text that says nothing is an empty
    record. -/
def ofYaml (path t : Text) : Except FileError Record := do
  match Yaml.read t with
  | .error e => throw (.yaml t e)
  | .ok k =>
    let v := k.value.resolve k.table
    let entries ←
      if v.isBlank then
        pure []
      else
        match v with
        | .mapping entries => pure entries
        | v => throw (.notMapping path v.kindName)
    match ofEntries k.table entries with
    | .ok r => return r
    | .error e => throw (.fields e)

/-- The record of a raw document at a path. -/
def ofDocument (path : Text) (content : Except FileFailure (List UInt8)) :
    Except FileError Record := do
  let (ns, name) := FileName.split (FileName.stem path)
  if name = [] then
    throw (.noName path)
  let t ← FileText.ofContent content
  match Parts.ofText t with
  | .ok p => return { ofParts p with ns, name }
  | .error e => throw (.document e)

/-- The record of a file at a path, given what was read from it. -/
def ofFile (formats : Formats) (path : Text) (content : Except FileFailure (List UInt8)) :
    Except FileError Record := do
  match ← formats.ofPath path with
  | .document => ofDocument path content
  | .mapping => ofYaml path (← FileText.ofContent content)

end Record

end ApprovedOps
