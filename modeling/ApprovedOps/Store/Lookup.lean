import ApprovedOps.Store.Save

/-! # Finding records

Records are found by path or by namespace and name, or all are loaded at once. Nothing is kept in
memory; every answer is read from the files.
-/

namespace ApprovedOps

namespace Shelf

variable {σ : Type} [Files σ]

/-- The record of the file at a path. -/
def read (formats : Formats) (fs : σ) (path : Text) : Except FileError Record :=
  Record.ofFile formats path (Files.read fs path)

/-- The record of a file of the store. -/
def get (s : Shelf) (formats : Formats) (fs : σ) (path : Text) : Except FileError Record :=
  read formats fs (s.resolve path)

/-- The extensions of record files, in the order in which they are tried. -/
def extensions : List Text :=
  [".gql", ".graphql", ".yml", ".yaml"]

/-- The record with a namespace and a name, if there is a file for it. -/
def getByName (s : Shelf) (formats : Formats) (fs : σ) (ns name : Text) :
    Except FileError (Option Record) :=
  let start := Path.join s.queries (FileName.compose ns name [])
  match (extensions.map (start ++ ·)).find? (Files.exists? fs) with
  | none => .ok none
  | some path => (read formats fs path).map some

/-- The records of some paths; files of other types are passed over. -/
def readAll (formats : Formats) (fs : σ) : List Text → Except FileError (List Record)
  | [] => .ok []
  | path :: paths =>
    match read formats fs path with
    | .error (.unknownType _) => readAll formats fs paths
    | .error e => .error e
    | .ok r => (readAll formats fs paths).map (r :: ·)

/-- All records in the order of their paths. -/
def load (s : Shelf) (formats : Formats) (fs : σ) : Except FileError (List Record) :=
  if Files.isDirectory fs s.queries then readAll formats fs (Files.filesIn fs s.queries) else .ok []

/-- The text of a fragment. -/
def fragment (s : Shelf) (fs : σ) (ns name : Text) : Except FileError Text :=
  FileText.ofContent (Files.read fs (s.fragmentPath ns name))

end Shelf

end ApprovedOps
