import ApprovedOps.Text.CodePoint

/-! # Refused JSON texts

Why a text is no JSON, and where: the line, the column and the offset of the place that the reason
speaks of.
-/

namespace ApprovedOps

namespace Json

/-- Why a text is no JSON. -/
inductive Cause where
  /-- The text begins with a byte order mark. -/
  | byteOrderMark
  /-- No value begins here. -/
  | expectingValue
  /-- No member name begins here. -/
  | expectingName
  /-- No colon follows a member name. -/
  | expectingColon
  /-- Neither a comma nor the closing bracket follows an element. -/
  | expectingComma
  /-- Something follows the value. -/
  | extraData
  /-- The string that starts here does not end. -/
  | unterminatedString
  /-- A control character stands in a string. -/
  | controlCharacter
  /-- A backslash is followed by no escape letter. -/
  | invalidEscape
  /-- A numeric escape lacks its four digits. -/
  | invalidNumericEscape
  deriving DecidableEq, Repr

/-- The words for a cause. -/
def Cause.message : Cause → Text
  | .byteOrderMark => "Unexpected UTF-8 BOM (decode using utf-8-sig)"
  | .expectingValue => "Expecting value"
  | .expectingName => "Expecting property name enclosed in double quotes"
  | .expectingColon => "Expecting ':' delimiter"
  | .expectingComma => "Expecting ',' delimiter"
  | .extraData => "Extra data"
  | .unterminatedString => "Unterminated string starting at"
  | .controlCharacter => "Invalid control character at"
  | .invalidEscape => "Invalid \\escape"
  | .invalidNumericEscape => "Invalid \\uXXXX escape"

/-- How reading a text can fail. -/
inductive Failure where
  /-- The text is no JSON; `remaining` code points are left from the place of the cause on. -/
  | malformed (cause : Cause) (remaining : Nat)
  /-- An integer has more digits than are read. -/
  | integerTooLong (digits : Nat)
  deriving DecidableEq, Repr

/-- The most digits of an integer that is read. -/
def maxIntegerDigits : Nat := 4300

/-- The words for a place in a text: its line and column, counted from one, and its offset. -/
def place (t : Text) (offset : Nat) : Text :=
  let before := t.take offset
  let line := before.count (.char '\n') + 1
  let column := (before.reverse.takeWhile (· ≠ .char '\n')).length + 1
  "line " ++ Text.ofNat line ++ " column " ++ Text.ofNat column ++ " (char "
    ++ Text.ofNat offset ++ ")"

/-- The words for a text that is no JSON. -/
def malformedMessage (t : Text) (cause : Cause) (remaining : Nat) : Text :=
  cause.message ++ ": " ++ place t (t.length - remaining)

end Json

end ApprovedOps
