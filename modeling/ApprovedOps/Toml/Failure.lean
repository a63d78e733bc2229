import ApprovedOps.Number.Numeral
import ApprovedOps.Text.Quoted

/-! # Refused TOML texts

Why a text is no TOML, and the words for it with line and column.
-/

namespace ApprovedOps

namespace Toml

/-- The parts of a key with dots between them. -/
abbrev Key := List Text

/-- Why a text is no TOML. -/
inductive Cause where
  /-- No statement begins here. -/
  | invalidStatement
  /-- Something follows a statement on its line. -/
  | expectedLineEnd
  /-- A mark is missing. -/
  | expected (mark : Text)
  /-- A control character stands in a comment or a literal string. -/
  | invalidCharacter (p : CodePoint)
  /-- A control character stands in another string. -/
  | illegalCharacter (p : CodePoint)
  /-- A table is declared for the second time. -/
  | declaredTwice (key : Key)
  /-- A value is in the way. -/
  | overwritten
  /-- The header of a table does not end. -/
  | unclosedHeader
  /-- The header of an array of tables does not end. -/
  | unclosedArrayHeader
  /-- An inline table or array cannot be extended. -/
  | immutable (key : Key)
  /-- A declared table cannot be extended by a key with dots. -/
  | redefined (key : Key)
  /-- No equals sign follows a key. -/
  | expectedEquals
  /-- No key begins here. -/
  | invalidKey
  /-- An array does not end. -/
  | unclosedArray
  /-- An inline table does not end. -/
  | unclosedInlineTable
  /-- A key comes twice in an inline table. -/
  | duplicateKey (name : Text)
  /-- A backslash begins no escape. -/
  | unescapedBackslash
  /-- An escape has not enough digits. -/
  | invalidHex
  /-- An escape names no scalar value. -/
  | notScalar
  /-- A string does not end. -/
  | unterminatedString
  /-- The calendar does not have a date. -/
  | invalidDate
  /-- No value begins here. -/
  | invalidValue
  deriving DecidableEq, Repr

/-- How reading a text can fail. -/
inductive Failure where
  /-- The text is no TOML; `remaining` code points are left from the place of the cause on. -/
  | malformed (cause : Cause) (remaining : Nat)
  /-- An integer has more digits than are read. -/
  | integerTooLong (digits : Nat)
  deriving DecidableEq, Repr

/-- The parts of a key between brackets. -/
def Key.quoted (key : Key) : Text :=
  let parts := Text.join (Text.ofString ", ") (key.map Text.quoted)
  .char '(' :: parts ++ Text.ofString (if key.length = 1 then ",)" else ")")

/-- The words for a cause. -/
def Cause.message : Cause → Text
  | .invalidStatement => "Invalid statement"
  | .expectedLineEnd => "Expected newline or end of document after a statement"
  | .expected mark => Text.ofString "Expected " ++ mark.quoted
  | .invalidCharacter p => Text.ofString "Found invalid character " ++ Text.quoted [p]
  | .illegalCharacter p => Text.ofString "Illegal character " ++ Text.quoted [p]
  | .declaredTwice key => .concat ["Cannot declare ", key.quoted, " twice"]
  | .overwritten => "Cannot overwrite a value"
  | .unclosedHeader => "Expected ']' at the end of a table declaration"
  | .unclosedArrayHeader => "Expected ']]' at the end of an array declaration"
  | .immutable key => Text.ofString "Cannot mutate immutable namespace " ++ key.quoted
  | .redefined key => Text.ofString "Cannot redefine namespace " ++ key.quoted
  | .expectedEquals => "Expected '=' after a key in a key/value pair"
  | .invalidKey => "Invalid initial character for a key part"
  | .unclosedArray => "Unclosed array"
  | .unclosedInlineTable => "Unclosed inline table"
  | .duplicateKey name => Text.ofString "Duplicate inline table key " ++ name.quoted
  | .unescapedBackslash => "Unescaped '\\' in a string"
  | .invalidHex => "Invalid hex value"
  | .notScalar => "Escaped character is not a Unicode scalar value"
  | .unterminatedString => "Unterminated string"
  | .invalidDate => "Invalid date or datetime"
  | .invalidValue => "Invalid value"

/-- The words for a place in a text: its line and column, counted from one. -/
def place (t : Text) (offset : Nat) : Text :=
  if t.length ≤ offset then
    "end of document"
  else
    let before := t.take offset
    let line := before.count (.char '\n') + 1
    let column := (before.reverse.takeWhile (· ≠ .char '\n')).length + 1
    .concat ["line ", .ofNat line, ", column ", .ofNat column]

/-- The words for a failure in a text. -/
def Failure.message (t : Text) : Failure → Text
  | .malformed cause remaining =>
    .concat [cause.message, " (at ", place t (t.length - remaining), ")"]
  | .integerTooLong digits => Numeral.tooLong digits

end Toml

end ApprovedOps
