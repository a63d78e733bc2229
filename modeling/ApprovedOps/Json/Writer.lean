import ApprovedOps.Json.Value
import ApprovedOps.Number.Notation

/-! # Writing JSON

Indented JSON: every element and member on a line of its own, empty arrays and objects closed at
once, and every code point but quotes, backslashes and controls written as itself.
-/

namespace ApprovedOps

namespace Json

/-- How a code point is written inside a string. -/
def escape (p : CodePoint) : Text :=
  if p = '"' then "\\\""
  else if p = '\\' then "\\\\"
  else if p = '\n' then "\\n"
  else if p = '\r' then "\\r"
  else if p = '\t' then "\\t"
  else if p = '\x0c' then "\\f"
  else if p = '\x08' then "\\b"
  else if p.value < 0x20 then "\\u" ++ Text.hex 4 p.value
  else [p]

/-- A string between quotes. -/
def quote (t : Text) : Text :=
  .char '"' :: t.flatMap escape ++ [.char '"']

/-- A line break and the indentation of a nesting level. -/
def newline (indent level : Nat) : Text :=
  .char '\n' :: List.replicate (indent * level) (.char ' ')

mutual

/-- A value at a nesting level. -/
def renderAt (indent level : Nat) : Json → Text
  | .null => "null"
  | .bool true => "true"
  | .bool false => "false"
  | .integer i => Text.ofInt i
  | .real x => x.render .json
  | .string t => quote t
  | .array [] => "[]"
  | .array (v :: vs) =>
    [.char '['] ++ newline indent (level + 1) ++ renderAt indent (level + 1) v
      ++ renderItems indent (level + 1) vs ++ newline indent level ++ [.char ']']
  | .object [] => "\x7b\x7d"
  | .object ((key, v) :: fields) =>
    [.char '{'] ++ newline indent (level + 1) ++ quote key ++ Text.ofString ": "
      ++ renderAt indent (level + 1) v ++ renderFields indent (level + 1) fields
      ++ newline indent level ++ [.char '}']

/-- The further elements of an array, each after a comma. -/
def renderItems (indent level : Nat) : List Json → Text
  | [] => []
  | v :: vs =>
    [.char ','] ++ newline indent level ++ renderAt indent level v ++ renderItems indent level vs

/-- The further members of an object, each after a comma. -/
def renderFields (indent level : Nat) : List (Text × Json) → Text
  | [] => []
  | (key, v) :: fields =>
    [.char ','] ++ newline indent level ++ quote key ++ Text.ofString ": "
      ++ renderAt indent level v ++ renderFields indent level fields

end

/-- The text of a value, with `indent` spaces for each level. -/
def render (indent : Nat) (v : Json) : Text :=
  v.renderAt indent 0

end Json

end ApprovedOps
