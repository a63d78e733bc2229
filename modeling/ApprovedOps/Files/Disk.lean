import ApprovedOps.Files.Basic
import ApprovedOps.Text.Quoted
import ApprovedOps.Text.Utf8

/-! # Disks

Files and directories of a disk with a working directory. A path is followed name by name, and
every name but the last has to be that of a directory. There are no links.
-/

namespace ApprovedOps

/-- A disk. -/
structure Disk where
  /-- The bytes of the files, by the names from the root on. -/
  files : List (List Text × List UInt8) := []
  /-- The directories apart from the root, by the names from the root on. -/
  directories : List (List Text) := []
  /-- The directory that relative paths start from. -/
  working : List Text := []
  deriving DecidableEq, Repr

namespace Disk

/-- The number of a problem and the words for it. -/
def problemWords : FileProblem → Nat × String
  | .missing => (2, "No such file or directory")
  | .obstructed => (17, "File exists")
  | .notDirectory => (20, "Not a directory")
  | .isDirectory => (21, "Is a directory")
  | .nameTooLong => (36, "File name too long")
  | .broken => (5, "Input/output error")

/-- The words for a problem with a path. -/
def describe (problem : FileProblem) (path : Text) : Text :=
  let (number, words) := problemWords problem
  .concat ["[Errno ", .ofNat number, "] ", words, ": ", path.quoted]

/-- The failure of an operation at a path. -/
def failAt {α : Type} (path : Text) (problem : FileProblem) : Except FileFailure α :=
  .error ⟨problem, describe problem path⟩

/-- The bytes of the file at a place. -/
def fileAt? (d : Disk) (place : List Text) : Option (List UInt8) :=
  (d.files.find? (·.1 = place)).map (·.2)

/-- Is there a directory at the place? -/
def isDirectoryAt (d : Disk) (place : List Text) : Bool :=
  place.isEmpty || d.directories.contains place

/-- Is there anything at the place? -/
def existsAt (d : Disk) (place : List Text) : Bool :=
  d.isDirectoryAt place || (d.fileAt? place).isSome

/-- The greatest number of bytes in a name. -/
def maxNameLength : Nat := 255

/-- Is the name too long? -/
def isTooLong (name : Text) : Bool :=
  maxNameLength < ((Utf8.encode? name).getD []).length

/-- The place that names lead to from another place. Every name but the last leads to a directory;
    the last may lead to nothing. -/
def follow (d : Disk) : List Text → List Text → Except FileProblem (List Text)
  | place, [] => .ok place
  | place, name :: names =>
    if d.isDirectoryAt place then
      if isTooLong name then .error .nameTooLong
      else if name = [] ∨ name = [.char '.'] then follow d place names
      else if name = Text.ofString ".." then follow d place.dropLast names
      else follow d (place ++ [name]) names
    else if (d.fileAt? place).isSome then
      .error .notDirectory
    else
      .error .missing

/-- The place that a path leads to. A slash at the end asks for a directory. -/
def locate (d : Disk) (path : Text) : Except FileProblem (List Text) := do
  if path = [] then
    throw .missing
  let start := if Text.startsWith path [.char '/'] then [] else d.working
  let place ← d.follow start (Text.splitOn (.char '/') path)
  return place

/-- Is there a directory at the path? -/
def isDirectory (d : Disk) (path : Text) : Bool :=
  match d.locate path with
  | .ok place => d.isDirectoryAt place
  | .error _ => false

/-- Is there anything at the path? -/
def exists? (d : Disk) (path : Text) : Bool :=
  match d.locate path with
  | .ok place => d.existsAt place
  | .error _ => false

/-- The bytes of the file at a path. -/
def read (d : Disk) (path : Text) : Except FileFailure (List UInt8) :=
  match d.locate path with
  | .error problem => failAt path problem
  | .ok place =>
    if d.isDirectoryAt place then
      failAt path .isDirectory
    else
      match d.fileAt? place with
      | some bytes => .ok bytes
      | none => failAt path .missing

/-- Writes the file at a path. -/
def write (d : Disk) (path : Text) (bytes : List UInt8) : Except FileFailure Disk :=
  match d.locate path with
  | .error problem => failAt path problem
  | .ok place =>
    if d.isDirectoryAt place then
      failAt path .isDirectory
    else
      .ok { d with files := d.files.filter (·.1 ≠ place) ++ [(place, bytes)] }

/-- Makes a directory in one that exists. -/
def makeOne (d : Disk) (path : Text) : Except FileFailure Disk :=
  match d.locate path with
  | .error problem => failAt path problem
  | .ok place =>
    if d.existsAt place then failAt path .obstructed
    else .ok { d with directories := d.directories ++ [place] }

/-- Makes the first of some directories, of which each lies in the next. Those above it are made
    first, up to the nearest that exists. -/
def makeChain (d : Disk) : List Text → Except FileFailure Disk
  | [] => .ok d
  | path :: above => do
    let d ←
      if above.head?.all d.exists? then
        pure d
      else
        match makeChain d above with
        | .error ⟨.obstructed, _⟩ => pure d
        | made => made
    match d.makeOne path with
    | .ok d => return d
    | .error e => if d.isDirectory path then return d else throw e

/-- The path and those above it, the nearest first; none of them is the root or empty. -/
def chain (path : Text) : List Text :=
  let names := Text.splitOn (.char '/') path
  let ends := (List.range names.length).map fun i => names.take (names.length - i)
  (ends.filter fun names => names.getLast? ≠ some []).map (Text.join [.char '/'])

/-- Makes a directory with all above it. A directory that exists is left alone. -/
def makeDirectory (d : Disk) (path : Text) : Except FileFailure Disk :=
  d.makeChain (chain path)

/-- The names of the files directly in a directory. -/
def namesIn (d : Disk) (place : List Text) : List Text :=
  d.files.filterMap fun (p, _) => if p.dropLast = place then p.getLast? else none

/-- The files directly in a directory, in order. A file counts as a directory that holds itself. -/
def filesIn (d : Disk) (path : Text) : List Text :=
  match d.locate path with
  | .error _ => []
  | .ok place =>
    if d.isDirectoryAt place then
      Files.sorted ((d.namesIn place).map (path ++ .char '/' :: ·))
    else
      [path]

/-! ## Addresses -/

/-- A path without the name of a protocol in front. -/
def withoutProtocol (path : Text) : Text :=
  let protocols : List Text := ["file://", "file:", "local://", "local:"]
  (protocols.findSome? (Text.dropPrefix? path)).getD path

/-- The absolute path that a path stands for as an address of the disk; slashes at its end do not
    count. -/
def address (d : Disk) (path : Text) : Text :=
  let p := withoutProtocol path
  let here := Text.join [] (d.working.map (.char '/' :: ·))
  let whole :=
    if Text.startsWith p [.char '/'] then p
    else here ++ .char '/' :: (Text.dropPrefix? p "./").getD p
  let inner := Path.withoutSlashes whole
  if inner = [] then [.char '/'] else inner

end Disk

instance : Files Disk where
  read d path := d.read (d.address path)
  write d path bytes := d.write (d.address path) bytes
  makeDirectory d path := d.makeDirectory (d.address path)
  isDirectory d path := d.isDirectory (d.address path)
  exists? d path := d.exists? (d.address path)
  filesIn d path := d.filesIn (d.address path)

end ApprovedOps
