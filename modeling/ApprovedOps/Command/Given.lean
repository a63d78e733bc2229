import ApprovedOps.Command.Form
import ApprovedOps.Text.Similar

/-! # Reading command lines

What a line gives to the command of a form: values for its switches, and arguments. A switch takes
its value from the same word or else the whole next word, whatever that looks like; two dashes end
the switches.
-/

namespace ApprovedOps

namespace Command

/-- What a line gives to a command. -/
structure Given where
  /-- The names of switches and their values, in order; a switch without one has the empty text. -/
  switches : List (Text × Text) := []
  /-- The arguments. -/
  arguments : List Text := []
  deriving DecidableEq, Repr

namespace Given

/-- What a line gives that has another switch in front. -/
def withSwitch (name value : Text) (g : Given) : Given :=
  { g with switches := (name, value) :: g.switches }

/-- What a line gives that has another argument in front. -/
def withArgument (t : Text) (g : Given) : Given :=
  { g with arguments := t :: g.arguments }

/-- Is the switch given? -/
def has (g : Given) (name : String) : Bool :=
  g.switches.any (·.1 = Text.ofString name)

/-- All values of a switch. -/
def values (g : Given) (name : String) : List Text :=
  (g.switches.filter (·.1 = Text.ofString name)).map (·.2)

/-- The value of a switch, of which the last one counts. -/
def value? (g : Given) (name : String) : Option Text :=
  (g.values name).getLast?

end Given

/-- What a word with a dash in front says. -/
structure DashedWord where
  /-- The switches in it with their values. -/
  switches : List (Text × Text) := []
  /-- The switch whose value is the next word: as it is written, and its name. -/
  pending : Option (Text × Text) := none
  deriving DecidableEq, Repr

namespace Form

/-- The switch of a name. -/
def named? (f : Form) (name : Text) : Option Switch :=
  f.switches.find? (·.name = name)

/-- The switch of a letter. -/
def lettered? (f : Form) (p : CodePoint) : Option Switch :=
  f.switches.find? fun s => s.letter.any fun c => p = .char c

/-- What letters after one dash say. The value of a switch is what follows its letter. -/
def readLetters (f : Form) : Text → Except Misuse DashedWord
  | [] => .ok {}
  | p :: r =>
    match f.lettered? p with
    | none => .error (.noSuchSwitch [.char '-', p] [])
    | some s =>
      if s.value.isNone then
        (f.readLetters r).map fun w => { w with switches := (s.name, []) :: w.switches }
      else if r = [] then
        .ok { pending := some ([.char '-', p], s.name) }
      else
        .ok { switches := [(s.name, r)] }

/-- What a word with a dash in front says. An equals sign separates a name from its value. -/
def readDashed (f : Form) (word : Text) : Except Misuse DashedWord :=
  let name := word.takeWhile (· ≠ .char '=')
  let value := word.dropWhile (· ≠ .char '=')
  match f.named? name with
  | some s =>
    match s.value, value with
    | none, [] => .ok { switches := [(name, [])] }
    | none, _ :: _ => .error (.valueRefused name)
    | some _, [] => .ok { pending := some (name, name) }
    | some _, _ :: v => .ok { switches := [(name, v)] }
  | none =>
    if Text.startsWith word "--" then
      .error (.noSuchSwitch name (Text.closest name (f.switches.map (·.name))))
    else
      f.readLetters (word.drop 1)

/-- Does a word say something of switches? -/
def isDashed (word : Text) : Bool :=
  match word with
  | .char '-' :: _ :: _ => true
  | _ => false

/-- What the words of a line give to a command. -/
def read (f : Form) : List Text → Except Misuse Given
  | [] => .ok {}
  | word :: rest =>
    if word = Text.ofString "--" then
      .ok { arguments := rest }
    else if isDashed word then
      match f.readDashed word, rest with
      | .error e, _ => .error e
      | .ok ⟨switches, none⟩, rest =>
        (f.read rest).map fun g => { g with switches := switches ++ g.switches }
      | .ok ⟨_, some (written, _)⟩, [] => .error (.valueMissing written)
      | .ok ⟨switches, some (_, name)⟩, value :: rest =>
        (f.read rest).map fun g => { g with switches := switches ++ (name, value) :: g.switches }
    else if f.commands = [] then
      (f.read rest).map (·.withArgument word)
    else
      .ok { arguments := word :: rest }

end Form

end Command

end ApprovedOps
