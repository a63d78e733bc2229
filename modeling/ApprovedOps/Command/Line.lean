import ApprovedOps.Command.Given
import ApprovedOps.Command.Project

/-! # Command lines

The commands of the program and what their lines may say. A line is read from left to right; help is
shown if it is asked for anywhere; files are opened, and arguments counted, only after that.
-/

namespace ApprovedOps

namespace Command

/-! ## Forms -/

/-- The switch for a namespace. -/
def namespaceSwitch (help : Text) : Switch where
  letter := some 'n'
  name := "--namespace"
  value := some "TEXT"
  help := help

/-- Making a project. -/
def initForm : Form where
  path := "cli init"
  about := "Create allowlist.toml and the store directories."
  switches := [
    { name := "--dir", value := some "TEXT", help := "Project root  [default: .]" }, .showHelp ]
  arguments := [{ name := "NAME", isOptional := true }]

/-- Submitting a document. -/
def addForm : Form where
  path := "cli add"
  about := "Submit the GraphQL document in FILE ('-' for stdin)."
  switches := [
    { name := "--vars", value := some "FILENAME", help := "Variables JSON file" },
    namespaceSwitch "Namespace prefix",
    { name := "--order-var", value := some "TEXT", help := "Variable iterated by the gateway" },
    { name := "--order-value", value := some "TEXT"
      help := "Value for --order-var (repeatable)" },
    .showHelp ]
  arguments := [{ name := "FILE" }]

/-- Listing records. -/
def listForm : Form where
  path := "cli list"
  about := "List allow-listed operations."
  switches := [namespaceSwitch "Only this namespace", .showHelp]

/-- Showing a record. -/
def showForm : Form where
  path := "cli show"
  about := "Print the record for NAME as YAML."
  switches := [namespaceSwitch "Namespace prefix", .showHelp]
  arguments := [{ name := "NAME" }]

/-- Showing a fragment. -/
def fragmentForm : Form where
  path := "cli fragment"
  about := "Print the body of fragment NAME."
  switches := [namespaceSwitch "Namespace prefix", .showHelp]
  arguments := [{ name := "NAME" }]

/-- The commands, in the order in which they are shown. -/
inductive Verb where
  /-- Submits a document. -/
  | add
  /-- Shows a fragment. -/
  | fragment
  /-- Makes a project. -/
  | init
  /-- Lists records. -/
  | list
  /-- Shows a record. -/
  | show
  deriving DecidableEq, Repr

namespace Verb

/-- All commands. -/
def all : List Verb :=
  [add, fragment, init, list, «show»]

/-- The word for a command. -/
def word : Verb → Text
  | add => "add"
  | fragment => "fragment"
  | init => "init"
  | list => "list"
  | «show» => "show"

/-- The form of a command. -/
def form : Verb → Form
  | add => addForm
  | fragment => fragmentForm
  | init => initForm
  | list => listForm
  | «show» => showForm

/-- The command of a word. -/
def ofWord? (t : Text) : Option Verb :=
  all.find? (·.word = t)

end Verb

/-- All lines of the program. -/
def programForm : Form where
  path := "cli"
  about := "gqlallow — GraphQL operation allow-list."
  switches := [.showVersion, .showHelp]
  commands := Verb.all.map fun v => (v.word, v.form.about)

/-! ## Files that a line names -/

/-- A file that a line names. -/
inductive Source where
  /-- The standard input. -/
  | input
  /-- A file on the disk. -/
  | file (bytes : List UInt8)

/-- Opens a file that a line names for one of its parameters; a dash is the standard input. -/
def openSource (d : Disk) (parameter path : Text) : Except Misuse Source :=
  if path = [.char '-'] then
    .ok .input
  else
    match d.read path with
    | .ok bytes => .ok (.file bytes)
    | .error e => .error (.notOpened parameter path (Disk.problemWords e.problem).2)

/-- A text in which every line ends with a line feed. -/
def withLineFeeds : Text → Text
  | [] => []
  | .char '\r' :: .char '\n' :: r => .char '\n' :: withLineFeeds r
  | .char '\r' :: r => .char '\n' :: withLineFeeds r
  | p :: r => p :: withLineFeeds r

/-- The text of a source, and what is left of the standard input. -/
def Source.text (input : List UInt8) : Source → Except Utf8.Failure Text × List UInt8
  | .input => ((Utf8.decode input).map withLineFeeds, [])
  | .file bytes => ((Utf8.decode bytes).map withLineFeeds, input)

/-! ## Running -/

/-- The switches that only show something, of which the first one counts. -/
def shown? (f : Form) (g : Given) : Option Text :=
  g.switches.findSome? fun (name, _) =>
    if name = Switch.showHelp.name then some f.helpPage
    else if name = Switch.showVersion.name then some "cli, version 0.1.0\n"
    else none

/-- Does a line give too few or too many arguments? -/
def argumentMisuse? (f : Form) (arguments : List Text) : Option Misuse :=
  match (f.arguments.drop arguments.length).find? (!·.isOptional) with
  | some a => some (.argumentMissing a.name)
  | none =>
    match arguments.drop f.arguments.length with
    | [] => none
    | rest => some (.argumentsLeft rest)

/-- Runs a command that is given what it needs: it only shows something, or is misused, or is run
    with its first argument. -/
def runWith (w : Workspace) (f : Form) (g : Given) (run : Option Text → Workspace × Report) :
    Workspace × Report :=
  match shown? f g, argumentMisuse? f g.arguments with
  | some t, _ => (w, .writing t)
  | none, some m => (w, { ending := .misused f m })
  | none, none => run g.arguments.head?

/-- Opens the files that a line names for a submission: the variables, then the document. -/
def openSources (d : Disk) (g : Given) : Except Misuse (Option Source × Source) := do
  let vars ← (g.value? "--vars").mapM (openSource d "--vars")
  match g.arguments with
  | [] => throw (.argumentMissing "FILE")
  | path :: rest =>
    let document ← openSource d "FILE" path
    if rest ≠ [] then
      throw (.argumentsLeft rest)
    return (vars, document)

/-- Runs the command that submits a document. -/
def runAdd (w : Workspace) (input : List UInt8) (g : Given) : Workspace × Report :=
  match shown? addForm g, openSources w.disk g with
  | some t, _ => (w, .writing t)
  | none, .error m => (w, { ending := .misused addForm m })
  | none, .ok (vars, document) =>
    let order : Order := {
      target := (g.value? "--order-var").getD []
      values := g.values "--order-value" }
    let ns := (g.value? "--namespace").getD []
    let (vars, input) := match vars with
      | some source => let (t, input) := source.text input; (some t, input)
      | none => (none, input)
    add w (document.text input).1 vars order ns

/-- Runs a command with the words that follow its own. -/
def runVerb (w : Workspace) (input : List UInt8) (v : Verb) (words : List Text) :
    Workspace × Report :=
  match v.form.read words with
  | .error m => (w, { ending := .misused v.form m })
  | .ok g =>
    let ns := g.value? "--namespace"
    match v with
    | .add => runAdd w input g
    | .init =>
      runWith w initForm g fun name => initialise w name ((g.value? "--dir").getD [.char '.'])
    | .list => runWith w listForm g fun _ => (w, list w ns)
    | .show =>
      runWith w showForm g fun name => (w, showRecord w (ns.getD []) (name.getD []))
    | .fragment =>
      runWith w fragmentForm g fun name => (w, showFragment w (ns.getD []) (name.getD []))

/-- What is shown for a line whose command is not known. Words with dashes in the place of its name
    are read as switches first. -/
def unknownCommand (name : Text) (rest : List Text) : Report :=
  match programForm.read (name :: rest) with
  | .error m => { ending := .misused programForm m }
  | .ok g =>
    match shown? programForm g with
    | some t => .writing t
    | none =>
      let similar := Text.closest name (Verb.all.map (·.word))
      { ending := .misused programForm (.noSuchCommand name similar) }

/-- Runs a command line. -/
def run (w : Workspace) (input : List UInt8) (words : List Text) : Workspace × Report :=
  if words = [] then
    (w, { ending := .misused programForm .nothingSaid })
  else
    match programForm.read words with
    | .error m => (w, { ending := .misused programForm m })
    | .ok g =>
      match shown? programForm g, g.arguments with
      | some t, _ => (w, .writing t)
      | none, [] => (w, { ending := .misused programForm .commandMissing })
      | none, name :: rest =>
        match Verb.ofWord? name with
        | some v => runVerb w input v rest
        | none => (w, unknownCommand name rest)

end Command

end ApprovedOps
