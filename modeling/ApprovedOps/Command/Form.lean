import ApprovedOps.Text.Quoted

/-! # Forms of commands

What a command line may say: the switches and arguments of a command. From this come its usage line
and its page of help, and the words for a line that the command does not understand.
-/

namespace ApprovedOps

namespace Command

/-- A switch of a command. -/
structure Switch where
  /-- Its letter, if it has one. -/
  letter : Option Char := none
  /-- Its name, with two dashes. -/
  name : Text
  /-- What its value is called, if it has one. -/
  value : Option Text := none
  /-- What it does. -/
  help : Text
  deriving DecidableEq, Repr

/-- An argument of a command. -/
structure Argument where
  /-- What it is called. -/
  name : Text
  /-- Can it be left out? -/
  isOptional : Bool := false
  deriving DecidableEq, Repr

/-- What the lines of a command may say. -/
structure Form where
  /-- The words that call it. -/
  path : Text
  /-- What it does. -/
  about : Text
  /-- Its switches. -/
  switches : List Switch
  /-- Its arguments. -/
  arguments : List Argument := []
  /-- The commands below it and what they do. Such a form has no switches after its first
      argument, which is the name of a command. -/
  commands : List (Text × Text) := []
  deriving DecidableEq, Repr

/-- What a line does that its command does not understand. -/
inductive Misuse where
  /-- It names an unknown switch. -/
  | noSuchSwitch (name : Text) (similar : List Text)
  /-- It ends before the value of a switch. -/
  | valueMissing (name : Text)
  /-- It gives a value to a switch that has none. -/
  | valueRefused (name : Text)
  /-- It leaves an argument out. -/
  | argumentMissing (name : Text)
  /-- It has more arguments than the command. -/
  | argumentsLeft (arguments : List Text)
  /-- It names a file that cannot be opened. -/
  | notOpened (parameter path words : Text)
  /-- It names no command. -/
  | commandMissing
  /-- It names an unknown command. -/
  | noSuchCommand (name : Text) (similar : List Text)
  /-- It says nothing. -/
  | nothingSaid
  deriving DecidableEq, Repr

namespace Switch

/-- The switch that shows the page of help. -/
def showHelp : Switch where
  name := "--help"
  help := "Show this message and exit."

/-- The switch that shows the version. -/
def showVersion : Switch where
  name := "--version"
  help := "Show the version and exit."

/-- How the switch is written. -/
def shape (s : Switch) : Text :=
  let letter := match s.letter with
    | some c => [.char '-', .char c, .char ',', .char ' ']
    | none => []
  let value := match s.value with
    | some v => .char ' ' :: v
    | none => []
  letter ++ s.name ++ value

end Switch

namespace Form

/-- How the arguments are written. -/
def shapeOfArguments (f : Form) : Text :=
  if f.commands = [] then
    f.arguments.flatMap fun a =>
      .char ' ' :: if a.isOptional then .char '[' :: a.name ++ [.char ']'] else a.name
  else
    Text.ofString " COMMAND [ARGS]..."

/-- The usage line. -/
def usage (f : Form) : Text :=
  .concat ["Usage: ", f.path, " [OPTIONS]", f.shapeOfArguments, "\n"]

/-- Two columns of texts under a heading. -/
def columns (heading : Text) (entries : List (Text × Text)) : Text :=
  let width := ((entries.map (·.1.length)).max?).getD 0 + 2
  let lines : List Text := entries.map fun (left, right) =>
    .concat ["  ", left, List.replicate (width - left.length) (.char ' '), right, "\n"]
  .concat ["\n", heading, ":\n", lines.flatten]

/-- The page of help. -/
def helpPage (f : Form) : Text :=
  .concat [
    f.usage, "\n  ", f.about, "\n",
    columns "Options" (f.switches.map fun s => (s.shape, s.help)),
    if f.commands = [] then [] else columns "Commands" f.commands ]

end Form

namespace Misuse

/-- The words for what was perhaps meant. -/
def suggestion (similar : List Text) : Text :=
  match similar with
  | [] => []
  | [t] => .concat [" Did you mean ", t.quoted, "?"]
  | ts =>
    let sorted := ts.mergeSort fun a b => !Text.lt b a
    .concat [
      " (Did you mean one of: ", Text.join (Text.ofString ", ") (sorted.map Text.quoted), "?)" ]

/-- The words for a misuse. -/
def message : Misuse → Text
  | .noSuchSwitch name similar =>
    .concat ["No such option ", name.quoted, ".", suggestion similar]
  | .valueMissing name => .concat ["Option ", name.quoted, " requires an argument."]
  | .valueRefused name => .concat ["Option ", name.quoted, " does not take a value."]
  | .argumentMissing name => .concat ["Missing argument '", name, "'."]
  | .argumentsLeft arguments =>
    .concat [
      if arguments.length = 1 then "Got unexpected extra argument ("
      else "Got unexpected extra arguments (",
      Text.join [.char ' '] arguments, ")" ]
  | .notOpened parameter path words =>
    .concat ["Invalid value for '", parameter, "': '", path, "': ", words]
  | .commandMissing => "Missing command."
  | .noSuchCommand name similar =>
    .concat ["No such command ", name.quoted, ".", suggestion similar]
  | .nothingSaid => []

/-- What is shown for a line of a form. A line that says nothing gets the page of help, and a
    misplaced value only its words. -/
def report (f : Form) (m : Misuse) : Text :=
  let words := .concat ["Error: ", m.message, "\n"]
  match m with
  | .nothingSaid => f.helpPage
  | .valueMissing _ | .valueRefused _ => words
  | _ => .concat [f.usage, "Try '", f.path, " --help' for help.\n\n", words]

end Misuse

end Command

end ApprovedOps
