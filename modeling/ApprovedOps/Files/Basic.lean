import ApprovedOps.Files.Path

/-! # File systems

What the library needs of a file system, and how its operations fail.
-/

namespace ApprovedOps

/-- What went wrong with a file. -/
inductive FileProblem where
  /-- There is nothing at the path. -/
  | missing
  /-- There is a directory at the path. -/
  | isDirectory
  /-- Something that is to be a directory is a file. -/
  | notDirectory
  /-- Something is in the way. -/
  | obstructed
  /-- A name in the path is too long. -/
  | nameTooLong
  /-- The path cannot be written. -/
  | broken
  deriving DecidableEq, Repr

/-- A failed operation on a file. -/
structure FileFailure where
  /-- What went wrong. -/
  problem : FileProblem
  /-- The words for it. -/
  message : Text
  deriving DecidableEq, Repr

/-- A file system whose states are the values of a type. -/
class Files (σ : Type) where
  /-- The bytes of a file. -/
  read : σ → Text → Except FileFailure (List UInt8)
  /-- Writes a file. -/
  write : σ → Text → List UInt8 → Except FileFailure σ
  /-- Makes a directory with all above it. A directory that exists is left alone. -/
  makeDirectory : σ → Text → Except FileFailure σ
  /-- Is there a directory at the path? -/
  isDirectory : σ → Text → Bool
  /-- Is there anything at the path? -/
  exists? : σ → Text → Bool
  /-- The paths of the files directly in a directory, in order. -/
  filesIn : σ → Text → List Text

namespace Files

/-- Texts in order of their code points. -/
def sorted (paths : List Text) : List Text :=
  paths.mergeSort fun a b => !Text.lt b a

/-- The failure of a path that cannot be written. -/
def brokenFailure : FileFailure :=
  ⟨.broken, []⟩

end Files

end ApprovedOps
