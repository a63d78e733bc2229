import ApprovedOps.Command.Form
import ApprovedOps.Project.Workspace
import ApprovedOps.Terminal.Markup

/-! # Reports of commands

What a command writes, and how it ends: well, with a refusal that it explains, with a line that it
did not understand, or broken off by something that it has no words for.
-/

namespace ApprovedOps

namespace Command

/-- Why a command broke off. -/
inductive Breakdown where
  /-- There are no settings. -/
  | settings (e : SettingsError)
  /-- The store of the project cannot be used. -/
  | workspace (e : WorkspaceError)
  /-- The settings ask for messages of an unknown level. -/
  | unknownLevel (level : Text)
  /-- What was to be read is no UTF-8. -/
  | notUtf8 (e : Utf8.Failure)
  /-- A text has markup that cannot be used. -/
  | markup (e : Markup.Failure)
  /-- A text with a lone surrogate cannot be written. -/
  | notEncodable
  /-- A fragment cannot be read. -/
  | fragment (e : FileError)

/-- How a command ends. -/
inductive Ending where
  /-- Well. -/
  | well
  /-- With a refusal. -/
  | refused (message : Text)
  /-- With a line that was not understood. -/
  | misused (f : Form) (m : Misuse)
  /-- Broken off. -/
  | broken (b : Breakdown)

/-- What a command has to say. -/
structure Report where
  /-- What it writes. -/
  output : Text := []
  /-- How it ends. -/
  ending : Ending := .well

namespace Ending

/-- The status that is handed to the caller. -/
def status : Ending → Nat
  | .well => 0
  | .refused _ | .broken _ => 1
  | .misused _ _ => 2

/-- What is written about it apart from the output. -/
def errors : Ending → Text
  | .well | .broken _ => []
  | .refused message => .concat ["Error: ", message, "\n"]
  | .misused f m => m.report f

end Ending

namespace Report

/-- The report of a command that refuses. -/
def refusal (message : Text) : Report :=
  { ending := .refused message }

/-- The report of a command that breaks off. -/
def breakdown (b : Breakdown) : Report :=
  { ending := .broken b }

/-- The report of a command that writes a text. -/
def writing (t : Text) : Report :=
  if t.chars?.isSome then { output := t } else breakdown .notEncodable

/-- The report of a command that goes on after another one has ended well. -/
def andThen (r : Report) (next : Report) : Report :=
  match r.ending with
  | .well => { next with output := r.output ++ next.output }
  | _ => r

end Report

end Command

end ApprovedOps
