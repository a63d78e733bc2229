import ApprovedOps.Text.Printable

/-! # Quoted texts

A text between quotes on one line, with backslash escapes for what has no printed form. The quote
is `'`, unless the text holds `'` and no `"`.
-/

namespace ApprovedOps

namespace Text.Quoted

/-- How one code point is written between two `quote`s. -/
def escape (quote : Char) (p : CodePoint) : Text :=
  if p = .char quote ∨ p = '\\' then [.char '\\', p]
  else if p = '\t' then "\\t"
  else if p = '\n' then "\\n"
  else if p = '\r' then "\\r"
  else if p.isPrintable then [p]
  else if p.value < 0x100 then "\\x" ++ hex 2 p.value
  else if p.value < 0x10000 then "\\u" ++ hex 4 p.value
  else "\\U" ++ hex 8 p.value

/-- The quote that a text is written with. -/
def quoteFor (t : Text) : Char :=
  if t.contains (.char '\'') && !t.contains (.char '"') then '"' else '\''

end Text.Quoted

/-- The text between quotes. -/
def Text.quoted (t : Text) : Text :=
  let quote := Quoted.quoteFor t
  .char quote :: t.flatMap (Quoted.escape quote) ++ [.char quote]

end ApprovedOps
