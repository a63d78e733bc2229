import ApprovedOps.Text.Case

/-! # File names

Records and fragments are filed under `namespace.name` and an extension. How a name is composed and
split, and how a path ends in a file name with an extension.
-/

namespace ApprovedOps

namespace FileName

/-- `namespace.name` and an extension, or the name and the extension where there is no
    namespace. -/
def compose (ns name ext : Text) : Text :=
  if ns = [] then name ++ ext else ns ++ [.char '.'] ++ name ++ ext

/-- Everything up to the last occurrence of a code point, and everything after it. -/
def splitLast? (sep : CodePoint) : Text → Option (Text × Text)
  | [] => none
  | c :: r =>
    match splitLast? sep r with
    | some (before, after) => some (c :: before, after)
    | none => if c = sep then some ([], r) else none

/-- Splits a stem at its last dot into namespace and name. A stem that ends in a dot has
    neither. -/
def split (stem : Text) : Text × Text :=
  match splitLast? (.char '.') stem with
  | none => ([], stem)
  | some (_, []) => ([], [])
  | some (ns, name) => (ns, name)

/-- What follows the last slash of a path. -/
def base (path : Text) : Text :=
  match splitLast? (.char '/') path with
  | some (_, after) => after
  | none => path

/-- A file name split before the last dot that is not among its leading dots. -/
def splitBaseExtension (name : Text) : Text × Text :=
  let dots := name.takeWhile (· = .char '.')
  let rest := name.dropWhile (· = .char '.')
  match splitLast? (.char '.') rest with
  | some (before, after) => (dots ++ before, .char '.' :: after)
  | none => (name, [])

/-- The extension of a path, with its dot. -/
def extension (path : Text) : Text :=
  (splitBaseExtension (base path)).2

/-- The file name of a path, without its extension. -/
def stem (path : Text) : Text :=
  (splitBaseExtension (base path)).1

end FileName

end ApprovedOps
