import ApprovedOps.Files.Tree
import ApprovedOps.Project.Settings
import ApprovedOps.Store.Basic

/-! # Stores of projects

Where a project works: a disk, file trees in memory and an environment. The settings of a project
tell in which of the file systems its store is.
-/

namespace ApprovedOps

/-- Where projects work. -/
structure Workspace where
  /-- The disk. -/
  disk : Disk
  /-- The files in memory. -/
  memory : FileTree := {}
  /-- The environment. -/
  environment : Environment := {}

/-- The kind of file system that a store is in. -/
inductive Medium where
  /-- The disk. -/
  | disk
  /-- Memory. -/
  | memory
  deriving DecidableEq, Repr

/-- The file system of a protocol. -/
def Medium.ofProtocol? (protocol : Text) : Option Medium :=
  if protocol = Text.ofString "file" ∨ protocol = Text.ofString "local" then some .disk
  else if protocol = Text.ofString "memory" then some .memory
  else none

/-- Why a project's store cannot be used. -/
inductive WorkspaceError where
  /-- There are no settings. -/
  | settings (e : SettingsError)
  /-- There is no file system of that protocol. -/
  | unknownProtocol (protocol : Text)
  /-- A directory cannot be made. -/
  | file (e : FileFailure)

/-- The words for an error. -/
def WorkspaceError.message : WorkspaceError → Text
  | .settings e => e.message
  | .unknownProtocol protocol => Text.ofString "Protocol not known: " ++ protocol
  | .file e => e.message

namespace Settings

/-- The file system of the store. -/
def medium (s : Settings) : Except WorkspaceError Medium :=
  match Medium.ofProtocol? s.protocol with
  | some m => .ok m
  | none => .error (.unknownProtocol s.protocol)

/-- Opens the store of a project in a file system. -/
def openStore {σ : Type} [Files σ] (s : Settings) (files : σ) : Store σ :=
  .openAt files s.store.toText s.readOnly s.queueSize .attentive []

/-- Makes the directories of the store in a file system, up to the first that fails. -/
def makeDirectories {σ : Type} [Files σ] (s : Settings) (files : σ) : σ × Option FileFailure :=
  match Files.makeDirectory files s.queries.toText with
  | .error e => (files, some e)
  | .ok files =>
    match Files.makeDirectory files s.fragments.toText with
    | .error e => (files, some e)
    | .ok files => (files, none)

end Settings

namespace Workspace

/-- The settings of the project of a directory, or of the working directory. -/
def settings (w : Workspace) (start : Option Text) : Except SettingsError Settings :=
  Settings.load w.environment w.disk start

/-- Makes the directories of a project's store. -/
def ensure (w : Workspace) (s : Settings) : Workspace × Option WorkspaceError :=
  match s.medium with
  | .error e => (w, some e)
  | .ok .disk =>
    let (disk, e) := s.makeDirectories w.disk
    ({ w with disk }, e.map .file)
  | .ok .memory =>
    let (memory, e) := s.makeDirectories w.memory
    ({ w with memory }, e.map .file)

/-- A store and what became of it, in the file system that the settings tell. What is done to the
    store must not depend on the file system. -/
def withStore {α : Type} (w : Workspace) (s : Settings) (readOnly : Bool)
    (use : {σ : Type} → [Files σ] → Store σ → Store σ × α) :
    Except WorkspaceError (Workspace × α) := do
  let s := { s with readOnly := s.readOnly || readOnly }
  match ← s.medium with
  | .disk =>
    let (store, a) := use (s.openStore w.disk)
    return ({ w with disk := store.machine.files }, a)
  | .memory =>
    let (store, a) := use (s.openStore w.memory)
    return ({ w with memory := store.machine.files }, a)

end Workspace

end ApprovedOps
