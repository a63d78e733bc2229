import ApprovedOps.Text.CodePoint

/-! # Dates and moments

Calendar dates, and moments with an optional distance from universal time.
-/

namespace ApprovedOps

/-- A calendar date. -/
structure Date where
  /-- The year, from 1 to 9999. -/
  year : Nat
  /-- The month, from 1. -/
  month : Nat
  /-- The day of the month, from 1. -/
  day : Nat
  deriving DecidableEq, Repr

/-- A date with a time of day. -/
structure Moment where
  /-- The date. -/
  date : Date
  /-- The hour, from 0 to 23. -/
  hour : Nat
  /-- The minute, from 0 to 59. -/
  minute : Nat
  /-- The second, from 0 to 59. -/
  second : Nat
  /-- Millionths of a second. -/
  micro : Nat
  /-- How many minutes the clock is ahead of universal time, if that is known. -/
  ahead : Option Int
  deriving DecidableEq, Repr

/-- A time of day on no certain date. -/
structure TimeOfDay where
  /-- The hour, from 0 to 23. -/
  hour : Nat
  /-- The minute, from 0 to 59. -/
  minute : Nat
  /-- The second, from 0 to 59. -/
  second : Nat
  /-- Millionths of a second. -/
  micro : Nat
  deriving DecidableEq, Repr

namespace Date

/-- Does the year have a leap day? -/
def isLeap (year : Nat) : Bool :=
  year % 4 == 0 && (year % 100 != 0 || year % 400 == 0)

/-- How many days a month has. -/
def daysIn (year month : Nat) : Nat :=
  if month = 2 then (if isLeap year then 29 else 28)
  else if month = 4 ∨ month = 6 ∨ month = 9 ∨ month = 11 then 30
  else 31

/-- The date, if the calendar has it. -/
def of? (year month day : Nat) : Option Date :=
  if 1 ≤ year ∧ year ≤ 9999 ∧ 1 ≤ month ∧ month ≤ 12 ∧ 1 ≤ day ∧ day ≤ daysIn year month then
    some ⟨year, month, day⟩
  else
    none

/-- How many days have passed since the first day of year 1. -/
def ordinal (d : Date) : Nat :=
  let y := d.year - 1
  let before := (List.range (d.month - 1)).foldl (fun n m => n + daysIn d.year (m + 1)) 0
  y * 365 + y / 4 - y / 100 + y / 400 + before + d.day - 1

/-- Decimal digits, padded with zeros to a width. -/
def padded (width n : Nat) : Text :=
  let digits := Nat.toDigits 10 n
  (List.replicate (width - digits.length) '0' ++ digits).map .char

/-- The date as `year-month-day`. -/
def iso (d : Date) : Text :=
  padded 4 d.year ++ [.char '-'] ++ padded 2 d.month ++ [.char '-'] ++ padded 2 d.day

/-- The numbers of a date. -/
def numbers (d : Date) : List Nat :=
  [d.year, d.month, d.day]

end Date

namespace TimeOfDay

/-- The time as hour, minute and second, and millionths if there are any. -/
def iso (t : TimeOfDay) : Text :=
  Date.padded 2 t.hour ++ [.char ':'] ++ Date.padded 2 t.minute
    ++ [.char ':'] ++ Date.padded 2 t.second
    ++ (if t.micro = 0 then [] else .char '.' :: Date.padded 6 t.micro)

/-- The numbers of a time, without the seconds and their parts where these are zero. -/
def numbers (t : TimeOfDay) : List Nat :=
  [t.hour, t.minute]
    ++ (if t.micro ≠ 0 then [t.second, t.micro] else if t.second ≠ 0 then [t.second] else [])

end TimeOfDay

namespace Moment

/-- The moment, if the clock and the calendar have it. Clocks differ from universal time by less
    than a day. -/
def of? (date : Date) (hour minute second micro : Nat) (ahead : Option Int) : Option Moment :=
  if hour < 24 ∧ minute < 60 ∧ second < 60 ∧ ahead.all (fun m => m.natAbs < 24 * 60) then
    some ⟨date, hour, minute, second, micro, ahead⟩
  else
    none

/-- The distance from universal time as a sign, hours and minutes. -/
def isoAhead (minutes : Int) : Text :=
  (if minutes < 0 then Text.ofString "-" else Text.ofString "+")
    ++ Date.padded 2 (minutes.natAbs / 60) ++ [.char ':'] ++ Date.padded 2 (minutes.natAbs % 60)

/-- The time of day of a moment. -/
def time (m : Moment) : TimeOfDay :=
  ⟨m.hour, m.minute, m.second, m.micro⟩

/-- The moment as date, time of day and distance from universal time. -/
def iso (m : Moment) : Text :=
  m.date.iso ++ [.char ' '] ++ m.time.iso
    ++ (match m.ahead with | some minutes => isoAhead minutes | none => [])

/-- The numbers of a moment, without the seconds and their parts where these are zero. -/
def numbers (m : Moment) : List Nat :=
  m.date.numbers ++ m.time.numbers

/-- Millionths of a second since the first day of year 1, on the moment's own clock. -/
def localMicros (m : Moment) : Int :=
  (((m.date.ordinal * 24 + m.hour) * 60 + m.minute) * 60 + m.second) * 1000000 + m.micro

/-- Do two moments name the same instant? One with a known distance from universal time is never
    the same as one without. -/
def same (a b : Moment) : Bool :=
  match a.ahead, b.ahead with
  | some x, some y => a.localMicros - x * 60000000 == b.localMicros - y * 60000000
  | none, none => a.localMicros == b.localMicros
  | _, _ => false

end Moment

end ApprovedOps
