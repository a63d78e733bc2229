import ApprovedOps.Yaml.Instant

/-! # What plain scalars stand for

A scalar without quotes stands for a truth value, a number, an instant, null, a merge, a default
value or a text, by its form alone.
-/

namespace ApprovedOps

namespace Yaml

/-- What a plain scalar stands for. -/
inductive ScalarKind where
  /-- A truth value. -/
  | bool
  /-- A floating-point number. -/
  | float
  /-- An integer. -/
  | int
  /-- The mark of entries to be merged. -/
  | merge
  /-- The null value. -/
  | null
  /-- A date or moment. -/
  | timestamp
  /-- The mark of a default value. -/
  | value
  /-- An indicator that stands alone. -/
  | indicator
  /-- A text. -/
  | string
  deriving DecidableEq, Repr

namespace ScalarKind

/-- Is the text one of some words? -/
def oneOf (words : List String) (t : Text) : Bool :=
  words.any fun w => Text.ofString w = t

/-- The words for truth values. -/
def boolWords : List String :=
  [ "yes", "Yes", "YES", "no", "No", "NO", "true", "True", "TRUE", "false", "False", "FALSE",
    "on", "On", "ON", "off", "Off", "OFF" ]

/-- The words for null. -/
def nullWords : List String :=
  ["", "~", "null", "Null", "NULL"]

/-- A text without its sign. -/
def unsigned (t : Text) : Text :=
  match t with
  | [] => []
  | p :: r => if p = .char '+' ∨ p = .char '-' then r else p :: r

/-- Is it an underscore? -/
def isUnderscore (p : CodePoint) : Bool :=
  p = .char '_'

/-- Is it a digit or an underscore? -/
def isDigitOrUnderscore (p : CodePoint) : Bool :=
  p.isAsciiDigit || isUnderscore p

/-- Is the text empty or an exponent with a sign? -/
def isExponent (t : Text) : Bool :=
  match t with
  | [] => true
  | e :: sign :: r =>
    (e = .char 'e' || e = .char 'E') && (sign = .char '+' || sign = .char '-')
      && !r.isEmpty && r.all CodePoint.isAsciiDigit
  | _ => false

/-- What follows a digit and the digits and underscores after it. -/
def afterDigits? (t : Text) : Option Text :=
  match t with
  | [] => none
  | p :: r => if p.isAsciiDigit then some (r.dropWhile isDigitOrUnderscore) else none

/-- What follows the parts to base sixty: each a colon and a number below sixty. -/
def afterSixties (t : Text) : Text :=
  match t with
  | colon :: a :: b :: r =>
    if colon = .char ':' ∧ a.isAsciiDigit then
      if b.isAsciiDigit then
        if a.value < '6'.toNat then afterSixties r else colon :: a :: b :: r
      else
        afterSixties (b :: r)
    else
      colon :: a :: b :: r
  | [colon, a] => if colon = .char ':' ∧ a.isAsciiDigit then [] else [colon, a]
  | t => t
termination_by t.length
decreasing_by all_goals simp only [List.length_cons]; omega

/-- Is it a number with a decimal point and digits before it? -/
def isPointed (t : Text) : Bool :=
  match afterDigits? (unsigned t) with
  | some (p :: r) => p = .char '.' && isExponent (r.dropWhile isDigitOrUnderscore)
  | _ => false

/-- Is it a number with a decimal point first? -/
def isPointFirst (t : Text) : Bool :=
  match t with
  | [] => false
  | p :: r => p = .char '.' && (afterDigits? r).any isExponent

/-- Is it a number to base sixty with a decimal point? -/
def isPointedSixties (t : Text) : Bool :=
  match afterDigits? (unsigned t) with
  | some r =>
    match afterSixties r with
    | p :: s => (afterSixties r).length < r.length && p = .char '.' && s.all isDigitOrUnderscore
    | [] => false
  | none => false

/-- Is it a floating-point number? -/
def isFloat (t : Text) : Bool :=
  isPointed t || isPointFirst t || isPointedSixties t
    || oneOf [".inf", ".Inf", ".INF"] (unsigned t) || oneOf [".nan", ".NaN", ".NAN"] t

/-- Is it an integer after its sign? -/
def isUnsignedInt (t : Text) : Bool :=
  match t with
  | [] => false
  | p :: r =>
    if p = .char '0' then
      match r with
      | [] => true
      | q :: s =>
        if q = .char 'b' then
          !s.isEmpty && s.all fun p => p = .char '0' || p = .char '1' || isUnderscore p
        else if q = .char 'x' then
          !s.isEmpty && s.all fun p => p.hexValue?.isSome || isUnderscore p
        else
          (q :: s).all fun p => (p.isAsciiDigit && p.value < '8'.toNat) || isUnderscore p
    else
      p.isAsciiDigit && (afterSixties (r.dropWhile isDigitOrUnderscore)).isEmpty

/-- Is it a date or moment? -/
def isTimestamp (t : Text) : Bool :=
  (WrittenInstant.ofText? t).any WrittenInstant.isPlain

/-- A text without a line feed at its end. -/
def withoutLineFeed (t : Text) : Text :=
  if t.getLast? = some (.char '\n') then t.dropLast else t

/-- What a scalar on one line stands for. -/
def ofLine (t : Text) : ScalarKind :=
  if oneOf boolWords t then .bool
  else if isFloat t then .float
  else if isUnsignedInt (unsigned t) then .int
  else if oneOf ["<<"] t then .merge
  else if oneOf nullWords t then .null
  else if isTimestamp t then .timestamp
  else if oneOf ["="] t then .value
  else if oneOf ["!", "&", "*"] t then .indicator
  else .string

/-- What a plain scalar stands for. A line feed at its end does not count, unless it is all there
    is. -/
def ofPlain (t : Text) : ScalarKind :=
  if t = [.char '\n'] then .string else ofLine (withoutLineFeed t)

end ScalarKind

end Yaml

end ApprovedOps
