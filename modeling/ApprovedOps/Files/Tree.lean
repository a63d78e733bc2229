import ApprovedOps.Dictionary
import ApprovedOps.Files.Basic

/-! # File trees

A tree of files in memory: bytes by path, and the directories that were made. A directory also
exists as soon as something lies under it, and writing a file makes no directories.
-/

namespace ApprovedOps

/-- A tree of files. -/
structure FileTree where
  /-- The bytes of the files, by path. -/
  files : Dictionary (List UInt8) := []
  /-- The directories that were made, apart from the root. -/
  made : List Text := []
  deriving DecidableEq, Repr

namespace FileTree

/-- The form in which the tree knows a path: one slash in front and none at the end. The root is the
    empty path. Addresses, which have `://` or `::` in them, only lose slashes at the end. -/
def normal (path : Text) : Text :=
  let p := (Text.dropPrefix? path "memory://").getD path
  if Text.hasInfix p "::" ∨ Text.hasInfix p "://" then
    Path.withoutSlashes p
  else
    let inner := Path.withoutSlashes (p.dropWhile (· = .char '/'))
    if inner = [] then [] else .char '/' :: inner

/-- Everything before the last slash. -/
def beforeLastSlash (path : Text) : Text :=
  (path.reverse.dropWhile (· ≠ .char '/')).tail.reverse

/-- The directory that a path lies in, with one slash in front. -/
def parent (path : Text) : Text :=
  let p := normal path
  .char '/' :: (beforeLastSlash p).dropWhile (· = .char '/')

/-- The directories above a path, the nearest first, without the root. At most as many as the bound
    allows. -/
def ancestorsFrom : Nat → Text → List Text
  | 0, _ => []
  | bound + 1, path =>
    let up := parent path
    if 1 < up.length then up :: ancestorsFrom bound up else []

/-- The directories above a path, the nearest first, without the root. -/
def ancestors (path : Text) : List Text :=
  ancestorsFrom (path.length + 1) path

/-- The bytes of the file at a path. -/
def file? (t : FileTree) (path : Text) : Option (List UInt8) :=
  Dictionary.get? (normal path) t.files

/-- Is there a file at the path? -/
def isFile (t : FileTree) (path : Text) : Bool :=
  (t.file? path).isSome

/-- Was a directory made at the path? The root is always there. -/
def isMade (t : FileTree) (path : Text) : Bool :=
  normal path = [] || t.made.contains (normal path)

/-- Does a path lie under another one, both as the tree knows them? -/
def isUnder (above path : Text) : Bool :=
  Text.startsWith path (above ++ [.char '/'])

/-- Is there a directory at the path? -/
def isDirectory (t : FileTree) (path : Text) : Bool :=
  t.isMade path || (t.files.any fun (p, _) => isUnder (normal path) p)
    || t.made.any (isUnder (normal path))

/-- Is there anything at the path? -/
def exists? (t : FileTree) (path : Text) : Bool :=
  t.isFile path || t.isDirectory path

/-- The failure of an operation at a path, which is what is said of it. -/
def failAt {α : Type} (problem : FileProblem) (path : Text) : Except FileFailure α :=
  .error ⟨problem, path⟩

/-- The bytes of the file at a path. -/
def read (t : FileTree) (path : Text) : Except FileFailure (List UInt8) :=
  match t.file? path with
  | some bytes => .ok bytes
  | none => failAt .missing (normal path)

/-- Writes a file. -/
def write (t : FileTree) (path : Text) (bytes : List UInt8) : Except FileFailure FileTree :=
  if t.isMade path then
    failAt .isDirectory (normal path)
  else
    match (ancestors path).find? t.isFile with
    | some file => failAt .obstructed file
    | none => .ok { t with files := Dictionary.insert (normal path) bytes t.files }

/-- Makes the first of some directories, of which each lies in the next. Those above it are made
    first, up to the nearest that exists. -/
def makeChain (t : FileTree) : List Text → Except FileFailure FileTree
  | [] => .ok t
  | path :: above =>
    if t.isFile path ∨ t.isMade path then
      .ok t
    else
      match above.head?.filter t.isFile with
      | some file => failAt .notDirectory file
      | none => do
        let t ← makeChain t above
        return { t with made := t.made ++ [normal path] }

/-- Makes a directory with all above it. One that exists, even as a file, is left alone. -/
def makeDirectory (t : FileTree) (path : Text) : Except FileFailure FileTree :=
  makeChain t (path :: ancestors path)

/-- The files directly in a directory, in order. A file counts as a directory that holds itself. -/
def filesIn (t : FileTree) (path : Text) : List Text :=
  let dir := normal path
  if t.isFile path then
    [dir]
  else
    let start := dir ++ [.char '/']
    Files.sorted ((t.files.map (·.1)).filter fun p =>
      match Text.dropPrefix? p start with
      | some name => !name.contains (.char '/')
      | none => false)

/-- Removes what is at a path and under it. -/
def remove (t : FileTree) (path : Text) : Except FileFailure FileTree :=
  if t.exists? path then
    let gone := fun p => p = normal path || isUnder (normal path) p
    .ok { files := t.files.filter fun (p, _) => !gone p, made := t.made.filter (!gone ·) }
  else
    failAt .missing (normal path)

end FileTree

instance : Files FileTree where
  read := FileTree.read
  write := FileTree.write
  makeDirectory := FileTree.makeDirectory
  isDirectory := FileTree.isDirectory
  exists? := FileTree.exists?
  filesIn := FileTree.filesIn

end ApprovedOps
