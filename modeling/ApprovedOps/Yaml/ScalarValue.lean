import ApprovedOps.Number.Numeral
import ApprovedOps.Text.Case
import ApprovedOps.Value.Base64
import ApprovedOps.Value.Basic
import ApprovedOps.Yaml.Node

/-! # The values of scalars

What the text of a scalar stands for once its tag is known. A tag that is written out may claim more
than the text can keep, and then the scalar has no value.
-/

namespace ApprovedOps

namespace Yaml

namespace ScalarValue

/-- A truth value by its word, whatever its case. -/
def bool (t : Text) : Except Failure Value :=
  let word := t.lower
  if ScalarKind.oneOf ["yes", "true", "on"] word then .ok (.bool true)
  else if ScalarKind.oneOf ["no", "false", "off"] word then .ok (.bool false)
  else .error (.notTruthValue word)

/-- A text without its underscores. -/
def withoutUnderscores (t : Text) : Text :=
  t.filter (!ScalarKind.isUnderscore ·)

/-- Does the text begin with a minus sign? -/
def isNegative (t : Text) : Bool :=
  t.head? = some (.char '-')

/-- The integer of a base that a whole text stands for. -/
def integer (base : Nat) (t : Text) : Except Failure Int :=
  (Numeral.integer base t).mapError .notInteger

/-- The number with these digits to base sixty. -/
def sixties (digits : List Int) : Int :=
  digits.foldl (fun n d => n * 60 + d) 0

/-- An integer after its sign, to the base that its beginning tells. -/
def unsignedInteger (t : Text) : Except Failure Int :=
  match t with
  | [] => .error .emptyNumber
  | p :: r =>
    if t = [.char '0'] then .ok 0
    else if p = .char '0' ∧ r.head? = some (.char 'b') then integer 2 r.tail
    else if p = .char '0' ∧ r.head? = some (.char 'x') then integer 16 r.tail
    else if p = .char '0' then integer 8 t
    else if t.contains (.char ':') then do
      return sixties (← (Text.splitOn (.char ':') t).mapM (integer 10))
    else
      integer 10 t

/-- An integer with an optional sign; underscores do not count. -/
def int (t : Text) : Except Failure Value := do
  let t := withoutUnderscores t
  if t = [] then
    throw .emptyNumber
  let i ← unsignedInteger (ScalarKind.unsigned t)
  return .integer (if isNegative t then -i else i)

/-- The floating-point number that a whole text stands for. -/
def real (t : Text) : Except Failure Binary64 :=
  match Numeral.real? t with
  | some x => .ok x
  | none => .error (.notReal t)

/-- The sum of digits to base sixty, the last digit first, where `base` is the weight of the next
    one. -/
def realSixties (base : Nat) (sum : Binary64) : List Binary64 → Except Failure Binary64
  | [] => .ok sum
  | x :: xs =>
    match Binary64.ofNat base with
    | .finite negative m e => realSixties (base * 60) (sum.add (x.mul (.finite negative m e))) xs
    | _ => .error .numberTooLarge

/-- A floating-point number after its sign. -/
def unsignedReal (t : Text) : Except Failure Binary64 :=
  if ScalarKind.oneOf [".inf"] t then .ok (.infinite false)
  else if ScalarKind.oneOf [".nan"] t then .ok .nan
  else if t.contains (.char ':') then do
    let digits ← (Text.splitOn (.char ':') t).mapM real
    realSixties 1 (.zero false) digits.reverse
  else
    real t

/-- A floating-point number with an optional sign; neither underscores nor case count. -/
def float (t : Text) : Except Failure Value := do
  let t := (withoutUnderscores t).lower
  if t = [] then
    throw .emptyNumber
  let x ← unsignedReal (ScalarKind.unsigned t)
  return .real (if isNegative t then x.neg else x)

/-- The ASCII characters of a text. -/
def ascii? (t : Text) : Option (List Char) :=
  if t.all (·.value < 0x80) then t.chars? else none

/-- What is wrong with a text that has other code points than the ASCII ones; it shows the first
    run of them. -/
def notAscii (t : Text) : Problem :=
  let plain := t.takeWhile (·.value < 0x80)
  let run := (t.drop plain.length).takeWhile (0x80 ≤ ·.value)
  .notAscii plain.length (plain.length + run.length - 1) (run.headD '\x00')

/-- Bytes to base 64, of a scalar that begins somewhere. -/
def binary (start : Mark) (t : Text) : Except Failure Value :=
  match ascii? t with
  | none => .error (.malformed { problem := notAscii t, mark := start })
  | some cs =>
    match Base64.decode cs with
    | some bytes => .ok (.bytes bytes)
    | none => .error (.malformed { problem := .incomplete (Base64.letters cs), mark := start })

/-- A date or moment. -/
def timestamp (t : Text) : Except Failure Value := do
  let some written := WrittenInstant.ofText? (ScalarKind.withoutLineFeed t) | throw .notInstant
  match written.time with
  | none => return .date (← date written)
  | some time =>
    match time.ahead with
    | some minutes =>
      if 24 * 60 ≤ minutes.natAbs then
        throw (.noSuchInstant (.distance minutes))
    | none => pure ()
    match WrittenInstant.moment? (← date written) time with
    | some m => return .moment m
    | none => throw (.noSuchInstant (missing time))
where
  /-- The date, if the calendar has it. -/
  date (written : WrittenInstant) : Except Failure Date :=
    match written.date? with
    | some date => .ok date
    | none =>
      .error (.noSuchInstant (
        if written.year = 0 then .year written.year
        else if (Date.of? written.year (WrittenInstant.digitsValue written.month) 1).isNone then
          .month
        else
          .day))
  /-- What the clock lacks of a time that it does not have. -/
  missing (time : WrittenTime) : NoSuchInstant :=
    if 24 ≤ time.hour then .hour
    else if 60 ≤ time.minute then .minute
    else .second

/-- The value of a scalar that begins somewhere, or nothing if the tag is not for scalars. -/
def ofText? (tag : Tag) (start : Mark) (t : Text) : Option (Except Failure Value) :=
  match tag with
  | .null => some (.ok .null)
  | .bool => some (bool t)
  | .int => some (int t)
  | .float => some (float t)
  | .binary => some (binary start t)
  | .timestamp => some (timestamp t)
  | .str => some (.ok (.string t))
  | _ => none

end ScalarValue

end Yaml

end ApprovedOps
