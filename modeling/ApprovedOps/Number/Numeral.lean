import ApprovedOps.Number.Binary64
import ApprovedOps.Text.Blank
import ApprovedOps.Text.Digit
import ApprovedOps.Text.Quoted

/-! # Numerals

Numbers in texts: with blanks around them, a sign, digits of any script, and single underscores
between digits.
-/

namespace ApprovedOps

namespace Numeral

/-- The most decimal digits of an integer that is read. -/
def maxDigits : Nat := 4300

/-- The words for an integer with more digits. -/
def tooLong (digits : Nat) : Text :=
  .concat [
    "Exceeds the limit (4300 digits) for integer string conversion: value has ", .ofNat digits,
    " digits; use sys.set_int_max_str_digits() to increase the limit" ]

/-- Why a text is no integer. -/
inductive Failure where
  /-- It is no numeral of the base. -/
  | malformed (base : Nat) (t : Text)
  /-- It has too many digits. -/
  | tooLong (digits : Nat)
  deriving DecidableEq, Repr

/-- The words for a failure, which show the beginning of the text. -/
def Failure.message : Failure → Text
  | .malformed base t =>
    .concat [
      "invalid literal for int() with base ", .ofNat base, ": ", t.quoted.take 200 ]
  | .tooLong digits => Numeral.tooLong digits

/-- The blanks around numbers: those of other scripts, and the ASCII ones that move the cursor. -/
def isBlank (p : CodePoint) : Bool :=
  let n := p.value
  (9 ≤ n && n ≤ 13) || n == 0x20 || (0x80 ≤ n && p.isBlank)

/-- The ASCII character that a code point counts as. -/
def ascii? (p : CodePoint) : Option Char :=
  if p.value < 0x80 then some (Char.ofNat p.value)
  else p.digitValue?.map fun d => Char.ofNat ('0'.toNat + d)

/-- The ASCII characters of a numeral without the blanks around it. -/
def chars? (t : Text) : Option (List Char) :=
  let t := t.dropWhile isBlank
  let t := (t.reverse.dropWhile isBlank).reverse
  t.mapM ascii?

/-- A sign and the rest. -/
def sign : List Char → Bool × List Char
  | '-' :: r => (true, r)
  | '+' :: r => (false, r)
  | r => (false, r)

/-- The value of a digit or letter. -/
def digitValue? (c : Char) : Option Nat :=
  if c.isDigit then some (c.toNat - '0'.toNat)
  else if c.isLower then some (c.toNat - 'a'.toNat + 10)
  else if c.isUpper then some (c.toNat - 'A'.toNat + 10)
  else none

/-- The characters without the underscores that stand between two digits, if there are no
    others. -/
def withoutUnderscores (isDigit : Char → Bool) : List Char → Option (List Char)
  | [] => some []
  | '_' :: _ => none
  | c :: '_' :: d :: r =>
    if isDigit c && isDigit d then (withoutUnderscores isDigit (d :: r)).map (c :: ·) else none
  | c :: r => (withoutUnderscores isDigit r).map (c :: ·)

/-- The digits of a base below 36, and the number that they stand for. -/
def digits? (base : Nat) (cs : List Char) : Option (Nat × Nat) := do
  let isDigit := fun c => (digitValue? c).any (· < base)
  let ds ← withoutUnderscores isDigit cs
  if ds.isEmpty ∨ !ds.all isDigit then
    none
  else
    return (ds.length, ds.foldl (fun n c => n * base + (digitValue? c).getD 0) 0)

/-- What follows the mark of a base, and an underscore after it. -/
def afterMark (base : Nat) (cs : List Char) : List Char :=
  match cs with
  | '0' :: m :: r =>
    let marked := (base = 16 ∧ m.toLower = 'x') ∨ (base = 8 ∧ m.toLower = 'o')
      ∨ (base = 2 ∧ m.toLower = 'b')
    if marked then (match r with | '_' :: s => s | s => s) else cs
  | cs => cs

/-- The integer of a base that a text stands for. -/
def integer (base : Nat) (t : Text) : Except Failure Int := do
  let some (negative, cs) := (chars? t).map sign | throw (.malformed base t)
  let some (count, n) := digits? base (afterMark base cs) | throw (.malformed base t)
  if base = 10 ∧ maxDigits < count then
    throw (.tooLong count)
  else
    return if negative then -(n : Int) else n

/-- The digits at the beginning and the rest. -/
def digitRun (cs : List Char) : List Char × List Char :=
  (cs.takeWhile Char.isDigit, cs.dropWhile Char.isDigit)

/-- The number that decimal digits stand for. -/
def decimal (ds : List Char) : Nat :=
  ds.foldl (fun n c => n * 10 + (c.toNat - '0'.toNat)) 0

/-- The exponent that the whole text writes; an empty text writes zero. -/
def exponent? (cs : List Char) : Option Int :=
  match cs with
  | [] => some 0
  | e :: r =>
    let (negative, r) := sign r
    if e.toLower = 'e' ∧ !r.isEmpty ∧ r.all Char.isDigit then
      let n : Int := decimal r
      some (if negative then -n else n)
    else
      none

/-- The floating-point number that a text stands for. -/
def real? (t : Text) : Option Binary64 := do
  let cs ← chars? t
  let cs ← withoutUnderscores Char.isDigit cs
  let (negative, cs) := sign cs
  let word := String.ofList (cs.map Char.toLower)
  if word = "inf" ∨ word = "infinity" then
    return .infinite negative
  else if word = "nan" then
    return .nan
  else
    let (whole, cs) := digitRun cs
    let (fraction, cs) := match cs with
      | '.' :: r => digitRun r
      | cs => ([], cs)
    if whole.isEmpty ∧ fraction.isEmpty then
      none
    else
      let power ← exponent? cs
      return .ofDecimal negative (decimal (whole ++ fraction)) (power - fraction.length)

end Numeral

end ApprovedOps
