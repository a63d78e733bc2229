import ApprovedOps.Number.Numeral
import ApprovedOps.Toml.Failure
import ApprovedOps.Value.Basic
import ApprovedOps.Yaml.Instant

/-! # TOML strings, numbers and instants

Values without parts. Every reader takes a text from its beginning and gives what it read and what
is left.
-/

namespace ApprovedOps

namespace Toml

/-- Gives up at the beginning of `rest`. -/
def fail {α : Type} (cause : Cause) (rest : Text) : Except Failure α :=
  .error (.malformed cause rest.length)

/-- Is it a space or a tab? -/
def isBlank (p : CodePoint) : Bool :=
  p = .char ' ' || p = .char '\t'

/-- Is it a space, a tab or a line feed? -/
def isBlankOrBreak (p : CodePoint) : Bool :=
  isBlank p || p = .char '\n'

/-- Is it a control character other than the tab? -/
def isControl (p : CodePoint) : Bool :=
  (p.value < 0x20 && p ≠ .char '\t') || p.value = 0x7F

/-- Can it not stand in a string, on one line or several? -/
def isIllegal (multiline : Bool) (p : CodePoint) : Bool :=
  isControl p && !(multiline && p = .char '\n')

/-! ## Strings -/

/-- Text up to a mark, in which some code points cannot stand; the mark is left. -/
def until? (mark : Text) : Text → Option (Text × Text)
  | [] => if mark = [] then some ([], []) else none
  | p :: r =>
    if mark.isPrefixOf (p :: r) then some ([], p :: r)
    else (until? mark r).map fun (run, rest) => (p :: run, rest)

/-- Refuses a text with a code point that cannot stand in it; `after` is what follows the text. -/
def refuseControls (multiline : Bool) (after : Text) : Text → Except Failure Unit
  | [] => .ok ()
  | p :: r =>
    if isIllegal multiline p then fail (.invalidCharacter p) (p :: r ++ after)
    else refuseControls multiline after r

/-- A literal string after its opening mark. -/
def literal (mark : Text) (multiline : Bool) (s : Text) : Except Failure (Text × Text) :=
  match until? mark s with
  | none => fail (.expected mark) []
  | some (run, rest) => do
    refuseControls multiline rest run
    return (run, rest.drop mark.length)

/-- The code point of so many hexadecimal digits. -/
def hexEscape (count : Nat) (s : Text) : Except Failure (Text × Text) :=
  match (s.take count).mapM CodePoint.hexValue? with
  | none => fail .invalidHex s
  | some digits =>
    if digits.length = count then
      match CodePoint.ofNat? (digits.foldl (fun n d => n * 16 + d) 0) with
      | some (.char c) => .ok ([.char c], s.drop count)
      | _ => fail .notScalar (s.drop count)
    else
      fail .invalidHex s

/-- The code point of an escape letter. -/
def escapeLetter? (p : CodePoint) : Option Char :=
  if p = .char 'b' then some '\x08'
  else if p = .char 't' then some '\t'
  else if p = .char 'n' then some '\n'
  else if p = .char 'f' then some '\x0C'
  else if p = .char 'r' then some '\r'
  else if p = .char '"' then some '"'
  else if p = .char '\\' then some '\\'
  else none

/-- A line break after a backslash, with the blanks around it, says nothing. -/
def lineEnd (s : Text) : Except Failure (Text × Text) :=
  match s.dropWhile isBlank with
  | [] => .ok ([], [])
  | p :: r =>
    if p = .char '\n' then .ok ([], r.dropWhile isBlankOrBreak)
    else fail .unescapedBackslash (p :: r)

/-- An escape after its backslash. -/
def escape (multiline : Bool) (s : Text) : Except Failure (Text × Text) :=
  match s with
  | [] => fail .unescapedBackslash []
  | p :: r =>
    if multiline ∧ isBlankOrBreak p then lineEnd s
    else if p = .char 'u' then hexEscape 4 r
    else if p = .char 'U' then hexEscape 8 r
    else
      match escapeLetter? p with
      | some c => .ok ([.char c], r)
      | none => fail .unescapedBackslash r

/-- A string with escapes after its opening mark, at most as long as the bound allows. -/
def basic (multiline : Bool) : Nat → Text → Except Failure (Text × Text)
  | 0, s => fail .unterminatedString s
  | bound + 1, s =>
    match s with
    | [] => fail .unterminatedString []
    | p :: r =>
      if p = .char '"' ∧ !multiline then
        .ok ([], r)
      else if multiline ∧ Text.startsWith s "\"\"\"" then
        .ok ([], s.drop 3)
      else if p = .char '\\' then do
        let (escaped, r) ← escape multiline r
        let (more, rest) ← basic multiline bound r
        return (escaped ++ more, rest)
      else if isIllegal multiline p then
        fail (.illegalCharacter p) s
      else do
        let (more, rest) ← basic multiline bound r
        return (p :: more, rest)

/-- Up to two quotes that come right before the closing mark, which is read already. -/
def extraQuotes (quote : Char) (t : Text) (rest : Text) : Text × Text :=
  let extra := (rest.take 2).takeWhile (· = .char quote)
  (t ++ extra, rest.drop extra.length)

/-- A string on several lines after its opening mark. -/
def multilineString (quote : Char) (s : Text) : Except Failure (Text × Text) := do
  let s := if s.head? = some (.char '\n') then s.tail else s
  let (t, rest) ←
    if quote = '"' then basic true (s.length + 1) s
    else literal (List.replicate 3 (.char quote)) true s
  return extraQuotes quote t rest

/-- A string on one line. -/
def lineString (quote : Char) (s : Text) : Except Failure (Text × Text) :=
  if quote = '"' then basic false (s.length + 1) s else literal [.char quote] false s

/-! ## Instants -/

/-- Two digits of a number that is not greater than `most`. -/
def twoDigits? (least most : Nat) (s : Text) : Option (Nat × Text) :=
  match Yaml.WrittenInstant.digits? 2 2 s with
  | some (digits, rest) =>
    let n := Yaml.WrittenInstant.digitsValue digits
    if least ≤ n ∧ n ≤ most then some (n, rest) else none
  | none => none

/-- What follows a code point. -/
def after? (c : Char) (s : Text) : Option Text :=
  if s.head? = some (.char c) then some s.tail else none

/-- A time of day. -/
def time? (s : Text) : Option (TimeOfDay × Text) := do
  let (hour, s) ← twoDigits? 0 23 s
  let (minute, s) ← twoDigits? 0 59 (← after? ':' s)
  let (second, s) ← twoDigits? 0 59 (← after? ':' s)
  match (after? '.' s).bind (Yaml.WrittenInstant.digits? 1 6) with
  | some (digits, rest) =>
    return (⟨hour, minute, second, Yaml.WrittenInstant.micros digits⟩,
      rest.dropWhile CodePoint.isAsciiDigit)
  | none => return (⟨hour, minute, second, 0⟩, s)

/-- The distance from universal time, if it is written. -/
def ahead (s : Text) : Option Int × Text :=
  match s with
  | [] => (none, s)
  | p :: r =>
    if p = .char 'Z' ∨ p = .char 'z' then
      (some 0, r)
    else if p = .char '+' ∨ p = .char '-' then
      let written := do
        let (hours, r) ← twoDigits? 0 23 r
        let (minutes, r) ← twoDigits? 0 59 (← after? ':' r)
        return (hours * 60 + minutes, r)
      match written with
      | some (n, rest) => (some (if p = .char '-' then -(n : Int) else n), rest)
      | none => (none, s)
    else
      (none, s)

/-- The numbers of a date. The calendar need not have it. -/
def date? (s : Text) : Option ((Nat × Nat × Nat) × Text) := do
  let (year, s) ← Yaml.WrittenInstant.digits? 4 4 s
  let (month, s) ← twoDigits? 1 12 (← after? '-' s)
  let (day, s) ← twoDigits? 1 31 (← after? '-' s)
  return ((Yaml.WrittenInstant.digitsValue year, month, day), s)

/-- What follows the mark between date and time. -/
def afterSeparator? (s : Text) : Option Text :=
  match s with
  | [] => none
  | p :: r => if p = .char 'T' ∨ p = .char 't' ∨ p = .char ' ' then some r else none

/-- A date, a moment or a time of day, if one begins here. -/
def instant? (s : Text) : Option (Except Failure (Value × Text)) :=
  match date? s with
  | some ((year, month, day), rest) =>
    some <|
      match Date.of? year month day with
      | none => fail .invalidDate s
      | some date =>
        match (afterSeparator? rest).bind time? with
        | some (t, rest) =>
          let (ahead, rest) := ahead rest
          .ok (.moment ⟨date, t.hour, t.minute, t.second, t.micro, ahead⟩, rest)
        | none => .ok (.date date, rest)
  | none => (time? s).map fun (t, rest) => .ok (.time t, rest)

/-! ## Numbers -/

/-- Digits, with single underscores between them. -/
def digitRun (isDigit : CodePoint → Bool) : Text → Text × Text
  | [] => ([], [])
  | p :: r =>
    if isDigit p then
      let (more, rest) := digitRun isDigit r
      (p :: more, rest)
    else if p = .char '_' ∧ r.head?.any isDigit then
      digitRun isDigit r
    else
      ([], p :: r)

/-- Digits that begin with one. -/
def digits? (isDigit : CodePoint → Bool) (s : Text) : Option (Text × Text) :=
  if s.head?.any isDigit then some (digitRun isDigit s) else none

/-- Is it a digit of a base? -/
def isDigitOf (base : Nat) (p : CodePoint) : Bool :=
  p.hexValue?.any (· < base)

/-- The base that a letter after a zero stands for. -/
def base? (p : CodePoint) : Option Nat :=
  if p = .char 'x' then some 16
  else if p = .char 'b' then some 2
  else if p = .char 'o' then some 8
  else none

/-- An integer to a base that is written before it. -/
def basedInteger? (s : Text) : Option (Value × Text) := do
  let letter ← s[1]?
  let base ← base? letter
  let (digits, rest) ← digits? (isDigitOf base) (s.drop 2)
  if s.head? = some (.char '0') then
    return (.integer (digits.foldl (fun n p => n * base + p.hexValue?.getD 0) 0 : Nat), rest)
  else
    none

/-- The sign of a number and what follows it. -/
def sign (s : Text) : Bool × Text :=
  match s with
  | [] => (false, [])
  | p :: r =>
    if p = .char '-' then (true, r) else if p = .char '+' then (false, r) else (false, s)

/-- The digits before the point: a zero, or digits that begin with another one. -/
def whole? (s : Text) : Option (Text × Text) :=
  match s with
  | [] => none
  | p :: r => if p = .char '0' then some ([p], r) else digits? (isDigitOf 10) s

/-- The digits after the point, if there are any. -/
def fraction (s : Text) : Text × Text :=
  ((after? '.' s).bind (digits? (isDigitOf 10))).getD ([], s)

/-- The exponent, if there is one. -/
def exponent? (s : Text) : Option (Int × Text) := do
  let r ← match after? 'e' s with
    | some r => some r
    | none => after? 'E' s
  let (negative, r) := sign r
  let (digits, rest) ← digits? (isDigitOf 10) r
  let n : Int := Yaml.WrittenInstant.digitsValue digits
  return (if negative then -n else n, rest)

/-- A number to base ten. -/
def decimal? (s : Text) : Option (Except Failure (Value × Text)) := do
  let (negative, r) := sign s
  let (whole, r) ← whole? r
  let (fraction, r) := fraction r
  let power := exponent? r
  if fraction = [] ∧ power.isNone then
    if Numeral.maxDigits < whole.length then
      return .error (.integerTooLong whole.length)
    else
      let n : Int := Yaml.WrittenInstant.digitsValue whole
      return .ok (.integer (if negative then -n else n), r)
  else
    let (power, rest) := power.getD (0, r)
    let digits := Yaml.WrittenInstant.digitsValue (whole ++ fraction)
    return .ok (.real (.ofDecimal negative digits (power - fraction.length)), rest)

/-- A number that is infinite or none. -/
def special? (s : Text) : Option (Value × Text) :=
  let (negative, r) := sign s
  if Text.startsWith r "inf" then some (.real (.infinite negative), r.drop 3)
  else if Text.startsWith r "nan" then some (.real .nan, r.drop 3)
  else none

/-- A value without parts and without quotes. -/
def plain (s : Text) : Except Failure (Value × Text) :=
  if Text.startsWith s "true" then
    .ok (.bool true, s.drop 4)
  else if Text.startsWith s "false" then
    .ok (.bool false, s.drop 5)
  else
    match instant? s with
    | some step => step
    | none =>
      match basedInteger? s with
      | some step => .ok step
      | none =>
        match decimal? s with
        | some step => step
        | none =>
          match special? s with
          | some step => .ok step
          | none => fail .invalidValue s

end Toml

end ApprovedOps
