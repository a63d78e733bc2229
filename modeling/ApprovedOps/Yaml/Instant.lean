import ApprovedOps.Value.Calendar

/-! # Written dates and moments

A date as `year-month-day`, optionally with a time of day and a distance from universal time.
-/

namespace ApprovedOps

namespace Yaml

/-- A written time of day. -/
structure WrittenTime where
  /-- The hour. -/
  hour : Nat
  /-- The minute. -/
  minute : Nat
  /-- The second. -/
  second : Nat
  /-- The digits after the point of the seconds. -/
  fraction : Text
  /-- The distance from universal time in minutes. -/
  ahead : Option Int
  deriving DecidableEq, Repr

/-- A written date, possibly with a time of day. -/
structure WrittenInstant where
  /-- The year. -/
  year : Nat
  /-- The digits of the month. -/
  month : Text
  /-- The digits of the day. -/
  day : Text
  /-- The time of day. -/
  time : Option WrittenTime
  deriving DecidableEq, Repr

namespace WrittenInstant

/-- The number that ASCII digits stand for. -/
def digitsValue (digits : Text) : Nat :=
  digits.foldl (fun n p => n * 10 + p.hexValue?.getD 0) 0

/-- Digits at the beginning of a text, at least `least` and at most `most`, and the rest. -/
def digits? (least most : Nat) (s : Text) : Option (Text × Text) :=
  let run := (s.take most).takeWhile CodePoint.isAsciiDigit
  if least ≤ run.length then some (run, s.drop run.length) else none

/-- What follows a code point. -/
def after? (c : Char) (s : Text) : Option Text :=
  match s with
  | [] => none
  | p :: r => if p = .char c then some r else none

/-- Is it a space or a tab? -/
def isSpace (p : CodePoint) : Bool :=
  p = .char ' ' || p = .char '\t'

/-- The distance from universal time: `Z`, or a sign with hours and optional minutes. -/
def ahead? (s : Text) : Option (Int × Text) :=
  match s with
  | [] => none
  | p :: r =>
    if p = .char 'Z' then
      some (0, r)
    else if p = .char '+' ∨ p = .char '-' then do
      let (hours, r) ← digits? 1 2 r
      let (minutes, r) := (do
        let r ← after? ':' r
        digits? 2 2 r).getD ([], r)
      let n : Int := digitsValue hours * 60 + digitsValue minutes
      return (if p = .char '-' then -n else n, r)
    else
      none

/-- What separates the date from the time of day. -/
def separator? (s : Text) : Option Text :=
  match s with
  | [] => none
  | p :: r =>
    if p = .char 'T' ∨ p = .char 't' then some r
    else if isSpace p then some (r.dropWhile isSpace)
    else none

/-- The time of day to the end of the text. -/
def time? (s : Text) : Option WrittenTime := do
  let (hour, s) ← digits? 1 2 s
  let s ← after? ':' s
  let (minute, s) ← digits? 2 2 s
  let s ← after? ':' s
  let (second, s) ← digits? 2 2 s
  let (fraction, s) := match after? '.' s with
    | some r => (r.takeWhile CodePoint.isAsciiDigit, r.dropWhile CodePoint.isAsciiDigit)
    | none => ([], s)
  let time := fun ahead => WrittenTime.mk (digitsValue hour) (digitsValue minute)
    (digitsValue second) fraction ahead
  if s = [] then
    return time none
  else
    let (ahead, rest) ← ahead? (s.dropWhile isSpace)
    if rest = [] then return time (some ahead) else none

/-- The instant that a whole text writes. -/
def ofText? (s : Text) : Option WrittenInstant := do
  let (year, s) ← digits? 4 4 s
  let s ← after? '-' s
  let (month, s) ← digits? 1 2 s
  let s ← after? '-' s
  let (day, s) ← digits? 1 2 s
  if s = [] then
    return ⟨digitsValue year, month, day, none⟩
  else
    let s ← separator? s
    let time ← time? s
    return ⟨digitsValue year, month, day, some time⟩

/-- Is the instant in its plain form: a time of day, or a month and a day of two digits? -/
def isPlain (w : WrittenInstant) : Bool :=
  w.time.isSome || (w.month.length == 2 && w.day.length == 2)

/-- Millionths of a second from the digits after the point. -/
def micros (fraction : Text) : Nat :=
  let kept := fraction.take 6
  digitsValue kept * Nat.pow 10 (6 - kept.length)

/-- The date, if the calendar has it. -/
def date? (w : WrittenInstant) : Option Date :=
  Date.of? w.year (digitsValue w.month) (digitsValue w.day)

/-- The moment of a date and a written time of day, if the clock has it. -/
def moment? (date : Date) (t : WrittenTime) : Option Moment :=
  Moment.of? date t.hour t.minute t.second (micros t.fraction) t.ahead

end WrittenInstant

end Yaml

end ApprovedOps
