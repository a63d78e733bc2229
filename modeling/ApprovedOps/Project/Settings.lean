import ApprovedOps.Files.Disk
import ApprovedOps.Toml.Reader
import ApprovedOps.Value.Display
import ApprovedOps.Text.Case

/-! # The settings of a project

A project is a directory with a file `allowlist.toml`, which says where its store is and how it is
opened. Some settings can be overridden by the environment.
-/

namespace ApprovedOps

/-- What the environment says of the settings. -/
structure Environment where
  /-- Where the store is. -/
  root : Option Text := none
  /-- Is the store for reading only? -/
  readOnly : Option Text := none
  /-- The level of messages. -/
  level : Option Text := none
  deriving DecidableEq, Repr

/-- The settings of a project. -/
structure Settings where
  /-- The directory of the project. -/
  root : Path
  /-- The name of the project, which may be any value. -/
  name : Value
  /-- The directory of the store. -/
  store : Path
  /-- The protocol of the file system that the store is in. -/
  protocol : Text
  /-- Is the store for reading only? -/
  readOnly : Bool
  /-- How many records may wait to be saved. -/
  queueSize : Nat
  /-- The level of messages. -/
  level : Text

/-- Why there are no settings. -/
inductive SettingsError where
  /-- The file cannot be read or written. -/
  | file (e : FileFailure)
  /-- The file is no UTF-8. -/
  | notUtf8 (e : Utf8.Failure)
  /-- The text of the file is no TOML. -/
  | toml (t : Text) (e : Toml.Failure)
  /-- What is to be a section is of another kind. -/
  | sectionNotTable (kind : Text)
  /-- The path of the store is of another kind than a text. -/
  | rootNotText (kind : Text) (below : Bool)
  /-- The size of the queue is of a kind without numbers. -/
  | sizeNotNumber (kind : Text)
  /-- The size of the queue is a text that is no integer. -/
  | sizeNotInteger (e : Numeral.Failure)
  /-- The size of the queue is infinite. -/
  | sizeInfinite
  /-- The size of the queue is no number. -/
  | sizeNaN
  /-- The size of the queue is not positive. -/
  | sizeTooSmall (size : Int)
  /-- There is a file of settings already. -/
  | existing (path : Text)
  /-- The name of the project has a lone surrogate. -/
  | notEncodable

namespace SettingsError

/-- The words for an error. -/
def message : SettingsError → Text
  | .file e => e.message
  | .notUtf8 e => e.message
  | .toml t e => e.message t
  | .sectionNotTable kind => .concat ["'", kind, "' object has no attribute 'get'"]
  | .rootNotText kind true =>
    .concat ["unsupported operand type(s) for /: 'PosixPath' and '", kind, "'"]
  | .rootNotText kind false =>
    Text.ofString "expected str, bytes or os.PathLike object, not " ++ kind
  | .sizeNotNumber kind =>
    .concat [
      "int() argument must be a string, a bytes-like object or a real number, not '", kind, "'" ]
  | .sizeNotInteger e => e.message
  | .sizeInfinite => "cannot convert float infinity to integer"
  | .sizeNaN => "cannot convert float NaN to integer"
  | .sizeTooSmall size => Text.ofString "queue_size must be >= 1, got " ++ Text.ofInt size
  | .existing path => Text.ofString "allowlist.toml already exists at " ++ path
  | .notEncodable => "surrogates not allowed"

end SettingsError

namespace Settings

/-- The name of the file of settings. -/
def fileName : Path :=
  ⟨[], ["allowlist.toml"]⟩

/-- The path of the store if none is set. -/
def defaultStore : Text := ".allowlist"

/-- The protocol if none is set, which is that of the disk. -/
def defaultProtocol : Text := "file"

/-- The nearest directory from one upward that has a file of settings, or else the one itself. -/
def findRoot (d : Disk) (start : Path) : Path :=
  (start.withParents.find? fun p => d.exists? (p.below fileName).toText).getD start

/-- The file of settings in a directory, if there is one. -/
def readFile (d : Disk) (root : Path) : Except SettingsError Toml.Entries := do
  let path := (root.below fileName).toText
  if d.exists? path then
    match d.read path with
    | .error e => throw (.file e)
    | .ok bytes =>
      match Utf8.decode bytes with
      | .error e => throw (.notUtf8 e)
      | .ok t =>
        let t := Toml.withLineFeeds t
        match Toml.readLines t with
        | .ok entries => return entries
        | .error e => throw (.toml t e)
  else
    return []

/-- The value of a name in a section, which may be left out. -/
def get? (part : Option Value) (name : String) : Except SettingsError (Option Value) :=
  match part with
  | none => .ok none
  | some (.mapping entries) => .ok (Toml.Entries.get? (Text.ofString name) entries)
  | some v => .error (.sectionNotTable v.fullKindName)

/-- A text that says something. -/
def nonEmpty (t : Option Text) : Option Text :=
  t.filter (· ≠ [])

/-- The directory of the store: below that of the project if the store is on the disk, and as it is
    given for any other file system. -/
def storePath (root : Path) (onDisk : Bool) (given : Value) : Except SettingsError Path :=
  match given with
  | .string t => .ok (if onDisk then root.below (.ofText t) else .ofText t)
  | v => .error (.rootNotText v.fullKindName onDisk)

/-- The words that say yes. -/
def yesWords : List Text :=
  ["1", "true", "yes", "on"]

/-- Does the text say yes, whatever its case and the blanks around it? -/
def saysYes (t : Text) : Bool :=
  yesWords.contains t.trim.lower

/-- A value as an integer: a fraction is cut off, and a text is read. -/
def integer (v : Value) : Except SettingsError Int :=
  match v with
  | .bool b => .ok (if b then 1 else 0)
  | .integer i => .ok i
  | .real (.infinite _) => .error .sizeInfinite
  | .real x =>
    match x.truncate? with
    | some i => .ok i
    | none => .error .sizeNaN
  | .string t =>
    match Numeral.integer 10 t with
    | .ok i => .ok i
    | .error e => .error (.sizeNotInteger e)
  | v => .error (.sizeNotNumber v.fullKindName)

/-- The settings of a file, as far as the environment does not override them. -/
def ofFile (env : Environment) (root : Path) (file : Toml.Entries) :
    Except SettingsError Settings := do
  let part := Toml.Entries.get? "allowlist" file
  let logging := Toml.Entries.get? "logging" file
  let given ← match nonEmpty env.root with
    | some t => pure (Value.string t)
    | none => pure ((← get? part "root").getD (.string defaultStore))
  let protocol := ((← get? part "fs").getD (.string defaultProtocol)).display []
  let store ← storePath root (protocol = defaultProtocol) given
  let written := (← get? part "read_only").any (!·.isBlank)
  let readOnly := env.readOnly.elim written saysYes
  let size ← integer ((← get? part "queue_size").getD (.integer 1))
  if size < 1 then
    throw (.sizeTooSmall size)
  let name := (← get? part "name").getD (.string root.name)
  let level ← match nonEmpty env.level with
    | some t => pure (Value.string t)
    | none => pure ((← get? logging "level").getD (.string "INFO"))
  return {
    root, name, store, protocol, readOnly
    queueSize := size.toNat
    level := (level.display []).upper }

/-- The settings of a project on a disk. The project is looked for from a directory upward: from
    `start`, or else from the working directory. -/
def load (env : Environment) (d : Disk) (start : Option Text) : Except SettingsError Settings := do
  let here : Path := ⟨[.char '/'], d.working⟩
  let root := findRoot d ((nonEmpty start).elim here Path.ofText)
  ofFile env root (← readFile d root)

/-- The directory of the store's records. -/
def queries (s : Settings) : Path :=
  s.store.below ⟨[], ["queries"]⟩

/-- The directory of the store's fragments. -/
def fragments (s : Settings) : Path :=
  s.store.below ⟨[], ["fragments"]⟩

/-! ## New projects -/

/-- The text of a new file of settings. -/
def template (name : Text) : Text :=
  .concat [
    "[allowlist]\nname = \"", name, "\"\n# root = \".allowlist\"   # default\n",
    "# fs = \"file\"           # fsspec protocol\n# read_only = false\n",
    "# queue_size = 1        # pending writes before set() blocks\n\n",
    "# [logging]\n# level = \"INFO\"\n" ]

/-- Writes a new file of settings, unless there is one. The project is named after its directory if
    it has no name of its own. -/
def init (d : Disk) (root : Path) (name : Option Text) : Disk × Except SettingsError Path :=
  let path := root.below fileName
  if d.exists? path.toText then
    (d, .error (.existing path.toText))
  else
    let written := Utf8.encode? (template ((nonEmpty name).getD root.name))
    match d.write path.toText (written.getD []) with
    | .error e => (d, .error (.file e))
    | .ok d => (d, if written.isSome then .ok path else .error .notEncodable)

end Settings

end ApprovedOps
