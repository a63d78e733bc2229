import ApprovedOps.Number.Notation
import ApprovedOps.Store.Machine

/-! # The store

The set of approved operations of one directory. Documents are submitted to it and saved by its
writer later; records are read from the files at any time. A store that is opened for reading only
has no writer.
-/

namespace ApprovedOps

/-- A store, whose files are in a file system of type `σ`. -/
structure Store (σ : Type) where
  /-- Is it for reading only? -/
  readOnly : Bool
  /-- The formats of files. -/
  formats : Formats := .standard
  /-- Its files, its writer and the calls to it. -/
  machine : Store.Machine σ

namespace Store

variable {σ : Type} [Files σ]

/-- Makes a directory of the store, or notes that it could not be made. -/
def makeDirectory (m : Machine σ) (path : Text) : Machine σ :=
  let made :=
    if m.broken.contains path then .error Files.brokenFailure
    else Files.makeDirectory m.files path
  match made with
  | .ok files => { m with files }
  | .error _ => m.note [.noticed (.directoryNotMade path)]

/-- Opens the store at a path. Its directories are made, unless it is for reading only. -/
def openAt (files : σ) (path : Text) (readOnly : Bool) (queueSize : Int) (observer : Observer)
    (broken : List Text) : Store σ :=
  let shelf := Shelf.ofPath path
  let m : Machine σ := { shelf, observer, files, broken, queue := .ofSize queueSize }
  let machine :=
    if readOnly then m else makeDirectory (makeDirectory m shelf.queries) shelf.fragments
  { readOnly, machine }

/-- Submits a document. The answer is none while it waits for room in the queue. -/
def set (s : Store σ) (submission : Submission) : Store σ × Except SetError (Option Outcome) :=
  if s.readOnly then
    (s, .error .readOnly)
  else
    match s.machine.perform { stage := .submitting submission } with
    | (machine, some .refused) => ({ s with machine }, .error .closed)
    | (machine, some (.rejected e)) => ({ s with machine }, .error e)
    | (machine, o) => ({ s with machine }, .ok o)

/-- Waits until everything that was accepted is done, and tells whether it is. -/
def wait (s : Store σ) (timeout : Option Binary64) : Store σ × Option Bool :=
  if s.readOnly then
    (s, some true)
  else
    match s.machine.perform { stage := .waiting, timeout } with
    | (machine, some (.waited complete)) => ({ s with machine }, some complete)
    | (machine, _) => ({ s with machine }, none)

/-- Closes the store. Without `drain`, what waits in the queue is given up. -/
def close (s : Store σ) (drain : Bool) (timeout : Option Binary64) : Store σ :=
  if s.readOnly then s
  else { s with machine := (s.machine.perform { stage := .closing drain, timeout }).1 }

/-- The record of a file. -/
def get (s : Store σ) (path : Text) : Except FileError Record :=
  s.machine.shelf.get s.formats s.machine.files path

/-- The record with a namespace and a name. -/
def getByName (s : Store σ) (ns name : Text) : Except FileError (Option Record) :=
  s.machine.shelf.getByName s.formats s.machine.files ns name

/-- All records. -/
def load (s : Store σ) : Except FileError (List Record) :=
  s.machine.shelf.load s.formats s.machine.files

/-- The text of a fragment. -/
def fragment (s : Store σ) (ns name : Text) : Except FileError Text :=
  s.machine.shelf.fragment s.machine.files ns name

end Store

namespace Store

/-- The words for a notice, given the words for why a record was not saved. -/
def Notice.message (describe : SaveError → Text) : Notice → Text
  | .directoryNotMade path => Text.ofString "allow list: cannot create " ++ path
  | .notSaved e => Text.ofString "allow list save: " ++ describe e
  | .observerFailed => "allow list: result observer failed"
  | .closeTimedOut => "allow list: close timed out waiting for a pending set"
  | .discarded count =>
    .concat ["allow list: discarded ", .ofNat count, " pending save(s) on close"]
  | .writerBusy timeout =>
    .concat ["allow list: writer still busy after ", timeout.oneDecimal, "s"]
  | .discardedLate count =>
    .concat ["allow list: discarded ", .ofNat count, " save(s) queued during close"]

end Store

end ApprovedOps
