import ApprovedOps.Command.Report
import ApprovedOps.Terminal.Table

/-! # Commands of projects

What can be done with a project from the command line: making one, submitting a document to its
store, listing the records of the store, and showing one of them or a fragment.
-/

namespace ApprovedOps

namespace Command

/-- The levels that messages can have. -/
def levels : List Text :=
  ["CRITICAL", "FATAL", "ERROR", "WARN", "WARNING", "INFO", "DEBUG", "NOTSET"]

/-- The settings of the project that the working directory is in. -/
def settingsHere (w : Workspace) : Except Ending Settings :=
  match w.settings none with
  | .error e => .error (.refused e.message)
  | .ok s => if levels.contains s.level then .ok s else .error (.broken (.unknownLevel s.level))

/-- What is read from the store of the project that the working directory is in. -/
def fromStore {α : Type} (w : Workspace)
    (use : {σ : Type} → [Files σ] → Settings → Store σ → Except Ending α) : Except Ending α := do
  let s ← settingsHere w
  match w.withStore s true fun store => (store, use s store) with
  | .error e => throw (.broken (.workspace e))
  | .ok (_, result) => result

/-- The report of a command that may end early. -/
def reportOf (r : Except Ending Report) : Report :=
  match r with
  | .ok r => r
  | .error ending => { ending }

/-! ## Making a project -/

/-- What is written about the directories of a store. -/
def directoriesReport (s : Settings) : Report :=
  .writing (.concat [
    "Queries   : ", s.queries.toText, "\nFragments : ", s.fragments.toText, "\n" ])

/-- Makes the directories of the project of a directory. -/
def prepare (w : Workspace) (root : Path) : Workspace × Report :=
  match w.settings (some root.toText) with
  | .error e => (w, .breakdown (.settings e))
  | .ok s =>
    match w.ensure s with
    | (w, none) => (w, directoriesReport s)
    | (w, some e) => (w, .breakdown (.workspace e))

/-- Makes a project in a directory, unless there is one already, and the directories of its
    store. -/
def initialise (w : Workspace) (name : Option Text) (directory : Text) : Workspace × Report :=
  let here : Path := ⟨[.char '/'], w.disk.working⟩
  let root := (here.below (.ofText directory)).resolved
  let (disk, made) := Settings.init w.disk root name
  let w := { w with disk }
  let first : Report := match made with
    | .ok path => .writing (.concat ["Created ", path.toText, "\n"])
    | .error (.existing _) => .writing "allowlist.toml already exists — skipping init\n"
    | .error e => .breakdown (.settings e)
  match first.ending with
  | .well =>
    let (w, rest) := prepare w root
    (w, first.andThen rest)
  | _ => (w, first)

/-! ## Submitting a document -/

/-- The report on what was saved: the paths, up to the first record that was not saved. -/
def savedReport : List SaveResult → Report
  | [] => {}
  | r :: rest =>
    match r.error with
    | some e => .refusal (Text.ofString "not saved: " ++ e.message)
    | none => (Report.writing (r.path ++ [.char '\n'])).andThen (savedReport rest)

/-- The results of saving in a history. -/
def resultsIn (history : List Store.Event) : List SaveResult :=
  history.filterMap fun
    | .saved r => some r
    | _ => none

/-- Submits a document to a store, closes the store, and reports on what was saved. -/
def submit {σ : Type} [Files σ] (s : Submission) (store : Store σ) : Store σ × Report :=
  let (store, accepted) := store.set s
  let store := store.close true none
  match accepted with
  | .error e => (store, .refusal e.message)
  | .ok _ => (store, savedReport (resultsIn store.machine.history))

/-- What to submit, once the files are read. -/
def submission (document : Except Utf8.Failure Text) (vars : Option (Except Utf8.Failure Text))
    (order : Order) (ns : Text) : Except Ending Submission := do
  let vars ← match vars with
    | none => pure SubmittedVariables.absent
    | some (.ok t) => pure (.text t)
    | some (.error e) => throw (.broken (.notUtf8 e))
  match document with
  | .ok document => return { document, vars, order, ns }
  | .error e => throw (.broken (.notUtf8 e))

/-- Submits a document to the store of the project that the working directory is in. -/
def add (w : Workspace) (document : Except Utf8.Failure Text)
    (vars : Option (Except Utf8.Failure Text)) (order : Order) (ns : Text) :
    Workspace × Report :=
  match settingsHere w with
  | .error ending => (w, { ending })
  | .ok s =>
    let used := w.withStore s false fun store =>
      match submission document vars order ns with
      | .ok submission => submit submission store
      | .error ending => (store.close true none, { ending })
    match used with
    | .ok (w, report) => (w, report)
    | .error e => (w, .refusal e.message)

/-! ## Listing records -/

/-- The width of the terminal that tables are drawn for. -/
def terminalWidth : Nat := 80

/-- The columns of the list of records. -/
def listColumns : List Column :=
  [ { header := "Namespace", wraps := false }, { header := "Name", wraps := false },
    { header := "Vars", alignment := .center }, { header := "Comment" } ]

/-- The row of a record. -/
def listRow (r : Record) : List Text :=
  [r.ns, r.name, if r.vars = [] then [] else [.char '✓'], r.comment.firstLine]

/-- The table of records of a project. -/
def listTable (name : Text) (records : List Record) : Table where
  title := Text.ofString "allow list — " ++ name
  columns := listColumns
  rows := records.map listRow

/-- The report on records of a project: their table and their number. -/
def listReport (name : Text) (records : List Record) : Report :=
  match (listTable name records).render terminalWidth with
  | .error e => .breakdown (.markup e)
  | .ok table =>
    (Report.writing table).andThen
      (.writing (.concat [.ofNat records.length, " operation(s)\n"]))

/-- Lists the records of the store, or those of one namespace. -/
def list (w : Workspace) (ns : Option Text) : Report :=
  reportOf <| fromStore w fun s store =>
    match store.load with
    | .error e => .error (.refused e.message)
    | .ok records =>
      .ok (listReport (s.name.display []) (records.filter fun r => ns.all (r.ns = ·)))

/-! ## Showing one record or fragment -/

/-- Shows the record with a namespace and a name. -/
def showRecord (w : Workspace) (ns name : Text) : Report :=
  reportOf <| fromStore w fun _ store =>
    match store.getByName ns name with
    | .error e => .error (.refused e.message)
    | .ok none => .error (.refused (Text.ofString "not in allow list: " ++ name))
    | .ok (some r) => .ok (.writing r.yaml)

/-- Shows the fragment with a namespace and a name. -/
def showFragment (w : Workspace) (ns name : Text) : Report :=
  reportOf <| fromStore w fun _ store =>
    match store.fragment ns name with
    | .ok t => .ok (.writing (t ++ [.char '\n']))
    | .error (.file ⟨.missing, _⟩) =>
      .error (.refused (Text.ofString "no such fragment: " ++ name))
    | .error e => .error (.broken (.fragment e))

end Command

end ApprovedOps
