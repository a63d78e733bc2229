import ApprovedOps.Yaml.Tokens

/-! # The words for refused documents

What is said of a refused document: what was being read, what is wrong, and for both the line and
the column with the piece of the line around them. At most 37 code points of a line are shown on
either side of a place; of longer ones the nearest 32 with an ellipsis.
-/

namespace ApprovedOps

namespace Yaml

/-- How many code points of a document come before a point of it. -/
def Mark.index (t : Text) : Mark → Nat
  | .after count => count
  | .tokensLeft count => place count
  | .pastToken count => place count + 1
where
  /-- Where a token begins, by how many tokens are left there. -/
  place (count : Nat) : Nat :=
    (Token.places t).getD ((Token.scan t).length - count) t.length

namespace Message

/-- What a document is called. -/
def title : Text :=
  "  in \"<unicode string>\", "

/-- Spaces. -/
def spaces (n : Nat) : Text :=
  List.replicate n (.char ' ')

/-- What stands for the rest of a long line. -/
def ellipsis : Text :=
  " ... "

/-- The code points of a line on one side of a place, the nearest first, and whether there are
    more. -/
def side (t : Text) : Text × Bool :=
  let line := t.takeWhile (!Cursor.isBreak ·)
  if 37 ≤ line.length then (line.take 32, true) else (line, false)

/-- The line around a place, and below it a mark of the place. -/
def snippet (t : Text) (index : Nat) : Text :=
  let (before, longBefore) := side (t.take index).reverse
  let (after, longAfter) := side (t.drop index)
  let head := if longBefore then ellipsis else []
  let tail := if longAfter then ellipsis else []
  .concat [
    spaces 4, head, before.reverse, after, tail, "\n",
    spaces (4 + before.length + head.length), "^" ]

/-- The words for a place: its line and column, and the line around it. -/
def place (t : Text) (index : Nat) : Text :=
  let c := Cursor.forward index { rest := t }
  .concat [
    title, "line ", .ofNat (c.line + 1), ", column ", .ofNat (c.column + 1), ":\n",
    snippet t index ]

/-- Are two places on the same line and in the same column? -/
def coincide (t : Text) (a b : Nat) : Bool :=
  let c := Cursor.forward a { rest := t }
  let d := Cursor.forward b { rest := t }
  c.line == d.line && c.column == d.column

/-- The words for what is said against a document. The place where an activity began is left out
    if it is the place of the problem. -/
def ofComplaint (t : Text) (c : Complaint) : Text :=
  let index := c.mark.index t
  let start := (c.start.map (Mark.index t)).filter fun start => !coincide t start index
  .join "\n" <|
    c.activity.toList.map Activity.message ++ start.toList.map (place t)
      ++ [c.problem.message, place t index]

/-- The words for a distance of time in minutes, as days and seconds. -/
def distance (minutes : Int) : Text :=
  let days := minutes.fdiv (24 * 60)
  let seconds := minutes.fmod (24 * 60) * 60
  .concat [
    "datetime.timedelta(days=", .ofInt days,
    if seconds = 0 then [] else Text.ofString ", seconds=" ++ .ofInt seconds, ")" ]

/-- The words for what the calendar or the clock does not have. -/
def ofInstant : NoSuchInstant → Text
  | .year year => .concat ["year ", .ofNat year, " is out of range"]
  | .month => "month must be in 1..12"
  | .day => "day is out of range for month"
  | .hour => "hour must be in 0..23"
  | .minute => "minute must be in 0..59"
  | .second => "second must be in 0..59"
  | .distance minutes =>
    .concat [
      "offset must be a timedelta strictly between -timedelta(hours=24) and timedelta(hours=24), ",
      "not ", distance minutes, "." ]

end Message

/-- The words for why a text is refused. -/
def Failure.message (t : Text) : Failure → Text
  | .notAllowed p index =>
    .concat [
      "unacceptable character #x", .hex 4 p.value, ": special characters are not allowed\n",
      Message.title, "position ", .ofNat index ]
  | .malformed c => Message.ofComplaint t c
  | .notInteger e => e.message
  | .notReal t => Text.ofString "could not convert string to float: " ++ t.quoted
  | .emptyNumber => "string index out of range"
  | .numberTooLarge => "int too large to convert to float"
  | .notTruthValue word => word.quoted
  | .notInstant => "'NoneType' object has no attribute 'groupdict'"
  | .instantInMapping => "expected string or bytes-like object, got 'list'"
  | .noSuchInstant what => Message.ofInstant what
  | .noSuchCodePoint => "chr() arg not in range(0x110000)"
  | .codePointTooLarge => "Python int too large to convert to C int"

end Yaml

end ApprovedOps
