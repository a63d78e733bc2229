import ApprovedOps.Text.CodePoint

/-! # Tokens of operation texts

The tokens of the GraphQL language and the ways in which a text fails to be one of its documents.
-/

namespace ApprovedOps

namespace GraphQL

/-- The kinds of tokens. -/
inductive TokenKind where
  /-- One of the marks `! $ & ( ) ... : = @ [ ] { | }`. -/
  | mark (text : Text)
  /-- A name. -/
  | name
  /-- A number without fraction and exponent. -/
  | int
  /-- A number with a fraction or an exponent. -/
  | float
  /-- A string on one line. -/
  | string
  /-- A string between triple quotes. -/
  | blockString
  /-- The end of the text. -/
  | eof
  deriving DecidableEq, Repr

/-- A token. -/
structure Token where
  /-- Its kind. -/
  kind : TokenKind
  /-- The offset at which it starts. -/
  start : Nat
  /-- Its value: the name, the digits, or the content of the string. -/
  value : Text := []
  deriving DecidableEq, Repr

/-- How a kind of token is called. -/
def TokenKind.describe : TokenKind → Text
  | .mark text => .char '\'' :: text ++ [.char '\'']
  | .name => "Name"
  | .int => "Int"
  | .float => "Float"
  | .string => "String"
  | .blockString => "BlockString"
  | .eof => "<EOF>"

/-- Does a token of this kind show its value? -/
def TokenKind.hasValue : TokenKind → Bool
  | .mark _ | .eof => false
  | _ => true

/-- How a token is called: its kind, and its value if it has one. -/
def Token.describe (t : Token) : Text :=
  if t.kind.hasValue then
    .concat [t.kind.describe, " '", t.value, "'"]
  else
    t.kind.describe

/-- What is wrong at a place of a text. -/
inductive Problem where
  /-- A token of another kind should stand here. -/
  | expectedKind (wanted : TokenKind) (found : Token)
  /-- A certain word should stand here. -/
  | expectedWord (wanted : Text) (found : Token)
  /-- The token fits nowhere here. -/
  | unexpected (found : Token)
  /-- A variable stands in a constant value. -/
  | variableInConstant (name : Text)
  /-- The value of an enumeration has a reserved name. -/
  | reservedEnumValue (found : Token)
  /-- A shorthand query has a description. -/
  | describedShorthand
  /-- Something that is no definition has a description. -/
  | describedOther
  /-- The code point begins no token. -/
  | unexpectedCharacter (p : CodePoint)
  /-- The code point is a surrogate that stands alone. -/
  | invalidCharacter (p : CodePoint)
  /-- A string is opened by a single quote. -/
  | singleQuote
  /-- Two dots stand where three should. -/
  | twoDots
  /-- A point with digits lacks the digits before it. -/
  | pointFirst (digits : Text)
  /-- A digit follows a leading zero. -/
  | digitAfterZero (found : Option CodePoint)
  /-- A number needs a digit here. -/
  | expectedDigit (found : Option CodePoint)
  /-- A numeric escape names no scalar value. -/
  | invalidUnicodeEscape (escape : Text)
  /-- A backslash is followed by no escape letter. -/
  | invalidEscape (escape : Text)
  /-- A surrogate stands alone in a string. -/
  | invalidInString (p : CodePoint)
  /-- A string does not end. -/
  | unterminatedString
  deriving DecidableEq, Repr

/-- A place of a text with what is wrong there. -/
structure SyntaxError where
  /-- The offset of the place. -/
  position : Nat
  /-- What is wrong. -/
  problem : Problem
  deriving DecidableEq, Repr

/-- How a code point is shown: between quotes if it is printable ASCII, else by its number. -/
def showCodePoint (p : CodePoint) : Text :=
  if 0x20 ≤ p.value ∧ p.value < 0x7F then [.char '\'', p, .char '\'']
  else "U+" ++ Text.hexUpper 4 p.value

/-- How a code point or the end of the text is shown. -/
def showNext : Option CodePoint → Text
  | some p => showCodePoint p
  | none => "<EOF>"

/-- The words for a problem. -/
def Problem.message : Problem → Text
  | .expectedKind wanted found =>
    .concat ["Expected ", wanted.describe, ", found ", found.describe, "."]
  | .expectedWord wanted found =>
    .concat ["Expected '", wanted, "', found ", found.describe, "."]
  | .unexpected found => .concat ["Unexpected ", found.describe, "."]
  | .variableInConstant name =>
    .concat ["Unexpected variable '$", name, "' in constant value."]
  | .reservedEnumValue found =>
    .concat [found.describe, " is reserved and cannot be used for an enum value."]
  | .describedShorthand =>
    "Unexpected description, descriptions are not supported on shorthand queries."
  | .describedOther =>
    "Unexpected description, only GraphQL definitions support descriptions."
  | .unexpectedCharacter p => .concat ["Unexpected character: ", showCodePoint p, "."]
  | .invalidCharacter p => .concat ["Invalid character: ", showCodePoint p, "."]
  | .singleQuote =>
    "Unexpected single quote character ('), did you mean to use a double quote (\")?"
  | .twoDots => "Unexpected '..', did you mean '...'?"
  | .pointFirst digits =>
    .concat ["Invalid number, expected digit before '.', did you mean '0.", digits, "'?"]
  | .digitAfterZero found =>
    .concat ["Invalid number, unexpected digit after 0: ", showNext found, "."]
  | .expectedDigit found =>
    .concat ["Invalid number, expected digit but got: ", showNext found, "."]
  | .invalidUnicodeEscape escape =>
    .concat ["Invalid Unicode escape sequence: '", escape, "'."]
  | .invalidEscape escape => .concat ["Invalid character escape sequence: '", escape, "'."]
  | .invalidInString p =>
    .concat ["Invalid character within String: ", showCodePoint p, "."]
  | .unterminatedString => "Unterminated string."

end GraphQL

end ApprovedOps
