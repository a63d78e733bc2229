import ApprovedOps.Text.CodePoint

/-! # Paths

Paths as texts, and paths as sequences of names. The latter know neither empty names nor single
dots, but keep double dots, which only a directory tree can resolve.
-/

namespace ApprovedOps

/-- A path as a sequence of names. -/
structure Path where
  /-- The slashes in front: none, one or two. -/
  anchor : Text := []
  /-- The names. -/
  names : List Text := []
  deriving DecidableEq, Repr

namespace Path

/-! ## Paths as texts -/

/-- A path below another one. An absolute path stands for itself. -/
def join (base path : Text) : Text :=
  if Text.startsWith path [.char '/'] then path
  else if base = [] ∨ Text.endsWith base [.char '/'] then base ++ path
  else base ++ .char '/' :: path

/-- A path without the slashes at its end. -/
def withoutSlashes (path : Text) : Text :=
  (path.reverse.dropWhile (· = .char '/')).reverse

/-! ## Paths as sequences of names -/

/-- Is it a name, and not the mark of the directory itself? -/
def isName (t : Text) : Bool :=
  !(t = [] || t = [.char '.'])

/-- The path that a text writes. Exactly two slashes in front are not the same as one. -/
def ofText (t : Text) : Path :=
  let slashes := (t.takeWhile (· = .char '/')).length
  { anchor := List.replicate (if slashes = 2 then 2 else min slashes 1) (.char '/')
    names := (Text.splitOn (.char '/') t).filter isName }

/-- The text of a path. -/
def toText (p : Path) : Text :=
  if p.anchor = [] ∧ p.names = [] then [.char '.']
  else p.anchor ++ Text.join [.char '/'] p.names

/-- Does the path begin at the root? -/
def isAbsolute (p : Path) : Bool :=
  !p.anchor.isEmpty

/-- A path below another one. An absolute path stands for itself. -/
def below (base p : Path) : Path :=
  if p.isAbsolute then p else { base with names := base.names ++ p.names }

/-- The last name, empty if there is none. -/
def name (p : Path) : Text :=
  p.names.getLastD []

/-- The path and all those it is below, the nearest first. -/
def withParents (p : Path) : List Path :=
  (List.range (p.names.length + 1)).map fun i =>
    { p with names := p.names.take (p.names.length - i) }

/-- The path without double dots, where each leads back to the directory above. -/
def resolved (p : Path) : Path :=
  { anchor := [.char '/']
    names := p.names.foldl
      (fun names name => if name = Text.ofString ".." then names.dropLast else names ++ [name]) [] }

end Path

end ApprovedOps
