import ApprovedOps.Command.Line

/-! # The program

Runs a command line on the disk of the machine. What the command may look at is read first, then the
command is run, and then what it changed is written.
-/

namespace ApprovedOps

namespace Program

/-- The text of a string of the machine. -/
def textOf (s : String) : Text :=
  Text.ofString s

/-- The string of a place on the disk. -/
def pathOf (place : List Text) : String :=
  ((Text.join [] (place.map (.char '/' :: ·))).toString?).getD ""

/-- The place on the disk that a path leads to from another place. -/
def placeFrom (working : List Text) (path : Text) : List Text :=
  let here : Path := ⟨[.char '/'], working⟩
  (here.below (.ofText path)).resolved.names

/-- Is there a directory at the place? -/
def isDirectory (place : List Text) : IO Bool := do
  try
    let path ← IO.FS.realPath (if place = [] then "/" else pathOf place)
    path.isDir
  catch _ => return false

/-- Adds what is at a place to a disk, and the directories above it. -/
def look (d : Disk) (place : List Text) : IO Disk := do
  let mut d := d
  for i in List.range (place.length + 1) do
    let p := place.take i
    if !d.existsAt p then
      if ← isDirectory p then
        d := { d with directories := d.directories ++ [p] }
      else
        try
          let bytes ← IO.FS.readBinFile (pathOf p)
          d := { d with files := d.files ++ [(p, bytes.toList)] }
        catch _ => pure ()
  return d

/-- Adds a directory and the files directly in it to a disk. -/
def lookInside (d : Disk) (place : List Text) : IO Disk := do
  let mut d ← look d place
  if d.isDirectoryAt place then
    let path ← IO.FS.realPath (if place = [] then "/" else pathOf place)
    for entry in ← path.readDir do
      d ← look d (place ++ [textOf entry.fileName])
  return d

/-- Adds the files of settings at a place and above it to a disk. -/
def lookForSettings (d : Disk) (place : List Text) : IO Disk := do
  let mut d ← look d place
  for i in List.range (place.length + 1) do
    d ← look d (place.take i ++ Settings.fileName.names)
  return d

/-- Adds the files of a store that the words of a command line may be about to a disk. -/
def lookIntoStore (d : Disk) (s : Settings) (words : List Text) : IO Disk := do
  let mut d := d
  for directory in [s.queries.toText, s.fragments.toText] do
    let directory := d.address directory
    d ← lookInside d (placeFrom d.working directory)
    for word in words do
      d ← lookInside d (placeFrom d.working (Path.join directory word)).dropLast
  return d

/-- The parts of the words of a command line that may be names. -/
def namesIn (words : List Text) : List Text :=
  words ++ words.filterMap fun word =>
    match word.dropWhile (· ≠ .char '=') with
    | [] => none
    | _ :: value => some value

/-- Adds all that a command line may be about to a disk. -/
def lookAround (w : Workspace) (words : List Text) : IO Workspace := do
  let names := namesIn words
  let mut d ← lookForSettings w.disk w.disk.working
  for name in names do
    d ← lookForSettings d (placeFrom d.working name)
  for start in none :: names.map some do
    match Settings.load w.environment d start with
    | .ok s => d ← lookIntoStore d s names
    | .error _ => pure ()
  return { w with disk := d }

/-- Writes what has changed on a disk. -/
def commit (before after : Disk) : IO Unit := do
  for place in after.directories do
    if !before.directories.contains place then
      IO.FS.createDirAll (pathOf place)
  for (place, bytes) in after.files do
    if before.fileAt? place ≠ some bytes then
      IO.FS.writeBinFile (pathOf place) (ByteArray.mk bytes.toArray)

/-- Reads a stream to its end. -/
partial def readAll (stream : IO.FS.Stream) (before : List UInt8) : IO (List UInt8) := do
  let bytes ← stream.read 65536
  if bytes.isEmpty then return before else readAll stream (before ++ bytes.toList)

/-- What the environment says of the settings. -/
def environment : IO Environment := do
  let root ← IO.getEnv "GQLALLOW_ROOT"
  let readOnly ← IO.getEnv "GQLALLOW_READ_ONLY"
  let level ← IO.getEnv "GQLALLOW_LOG_LEVEL"
  return { root := root.map textOf, readOnly := readOnly.map textOf, level := level.map textOf }

/-- A text as a string to be shown. -/
def shown (t : Text) : String :=
  String.ofList (t.map fun
    | .char c => c
    | .surrogate _ => '\uFFFD')

end Program

end ApprovedOps

open ApprovedOps in
/-- Runs the command line. -/
def main (words : List String) : IO UInt32 := do
  let words := words.map Program.textOf
  let working := (Path.ofText (Program.textOf (← IO.currentDir).toString)).names
  let start : Workspace := { disk := { working }, environment := ← Program.environment }
  let before ← Program.lookAround start words
  let input ←
    if words.contains [.char '-'] then Program.readAll (← IO.getStdin) [] else pure []
  let (after, report) := Command.run before input words
  Program.commit before.disk after.disk
  (← IO.getStdout).putStr (Program.shown report.output)
  (← IO.getStderr).putStr (Program.shown report.ending.errors)
  return report.ending.status.toUInt32
