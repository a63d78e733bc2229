import ApprovedOps.Value.Basic
import ApprovedOps.Number.Notation
import ApprovedOps.Text.Quoted

/-! # Displayed values

The text that stands for a value where a record wants text: a text is itself, any other scalar its
usual notation, and a container its elements between brackets, with texts quoted. A container that
comes again inside itself is cut short.
-/

namespace ApprovedOps

namespace Value

/-- How one byte is written between two `quote`s. -/
def escapeByte (quote : Char) (b : UInt8) : Text :=
  let c := Char.ofNat b.toNat
  if c = quote ∨ c = '\\' then [.char '\\', .char c]
  else if c = '\t' then "\\t"
  else if c = '\n' then "\\n"
  else if c = '\r' then "\\r"
  else if 0x20 ≤ b ∧ b < 0x7F then [.char c]
  else "\\x" ++ Text.hex 2 b.toNat

/-- Bytes between quotes. -/
def quotedBytes (bs : List UInt8) : Text :=
  let quote := if bs.contains 0x27 && !bs.contains 0x22 then '"' else '\''
  .char 'b' :: .char quote :: bs.flatMap (escapeByte quote) ++ [.char quote]

/-- The distance of a clock from universal time. -/
def displayAhead (minutes : Int) : Text :=
  if minutes = 0 then
    "datetime.timezone.utc"
  else
    let seconds :=
      if minutes < 0 then
        "days=-1, seconds=" ++ Text.ofInt (minutes * 60 + 86400)
      else
        "seconds=" ++ Text.ofInt (minutes * 60)
    Text.ofString "datetime.timezone(datetime.timedelta(" ++ seconds ++ Text.ofString "))"

/-- A date or moment inside a container. -/
def displayCalendar (kind : String) (numbers : List Nat) (ahead : Option Int) : Text :=
  Text.ofString "datetime." ++ Text.ofString kind ++ [.char '(']
    ++ Text.join (Text.ofString ", ") (numbers.map Text.ofNat)
    ++ (match ahead with
        | some minutes => Text.ofString ", tzinfo=" ++ displayAhead minutes
        | none => [])
    ++ [.char ')']

/-- A scalar inside a container. -/
def displayScalar : Value → Text
  | .null => "None"
  | .bool true => "True"
  | .bool false => "False"
  | .integer i => Text.ofInt i
  | .real x => x.render .plain
  | .string t => t.quoted
  | .bytes bs => quotedBytes bs
  | .date d => displayCalendar "date" d.numbers none
  | .moment m => displayCalendar "datetime" m.numbers m.ahead
  | .time t => displayCalendar "time" t.numbers none
  | _ => []

/-- What stands for a container that comes again inside itself. -/
def displayAgain : Value → Text
  | .mapping _ => "\x7b...\x7d"
  | .pair _ _ => "(...)"
  | .set _ => "set(...)"
  | _ => "[...]"

mutual

/-- A value inside a container; `spare` bounds how many rows of the table are open at once, and
    `busy` lists those that are. -/
def displayAt (table : List Value) (spare : Nat) (busy : List Nat) : Value → Text
  | .list items => [.char '['] ++ displayItems table spare busy items ++ [.char ']']
  | .pair a b =>
    [.char '('] ++ displayAt table spare busy a ++ Text.ofString ", "
      ++ displayAt table spare busy b ++ [.char ')']
  | .mapping entries => [.char '{'] ++ displayEntries table spare busy entries ++ [.char '}']
  | .set [] => "set()"
  | .set members => [.char '{'] ++ displayItems table spare busy members ++ [.char '}']
  | .knot row =>
    if busy.contains row then
      displayAgain (table.getD row .null)
    else
      match spare with
      | 0 => []
      | spare + 1 => displayAt table spare (row :: busy) (table.getD row .null)
  | v => displayScalar v
termination_by v => (spare, sizeOf v)

/-- The elements of a list, separated by commas. -/
def displayItems (table : List Value) (spare : Nat) (busy : List Nat) : List Value → Text
  | [] => []
  | [v] => displayAt table spare busy v
  | v :: w :: vs =>
    displayAt table spare busy v ++ Text.ofString ", " ++ displayItems table spare busy (w :: vs)
termination_by vs => (spare, sizeOf vs)

/-- The entries of a mapping, separated by commas. -/
def displayEntries (table : List Value) (spare : Nat) (busy : List Nat) :
    List (Value × Value) → Text
  | [] => []
  | [(k, v)] => displayAt table spare busy k ++ Text.ofString ": " ++ displayAt table spare busy v
  | (k, v) :: e :: es =>
    displayAt table spare busy k ++ Text.ofString ": " ++ displayAt table spare busy v
      ++ Text.ofString ", " ++ displayEntries table spare busy (e :: es)
termination_by es => (spare, sizeOf es)

end

/-- The text that stands for a value. -/
def display (table : List Value) (v : Value) : Text :=
  match v with
  | .string t => t
  | .date d => d.iso
  | .moment m => m.iso
  | .time t => t.iso
  | v => displayAt table (table.length + 1) [] v

end Value

end ApprovedOps
