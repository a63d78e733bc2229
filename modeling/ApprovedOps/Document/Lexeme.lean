import ApprovedOps.Text.Blank
import ApprovedOps.Text.Digit

/-! # Lexemes of a submitted document

A document is read left to right as comments, strings, names, numbers and single marks, with blanks
between them. No grammar is involved: any text has lexemes, unless a comment or a string in it does
not end.
-/

namespace ApprovedOps

/-- The kinds of pieces of a document. -/
inductive Lexeme.Kind where
  /-- `# …` or `// …` to the end of the line, or `/* … */`. -/
  | comment
  /-- `"…"` or `"""…"""`. -/
  | string
  /-- A letter or underscore and the letters, digits and underscores after it. -/
  | name
  /-- Digits, with an optional sign, fraction and exponent. -/
  | number
  /-- Any other code point that is no blank. -/
  | mark
  deriving DecidableEq, Repr

/-- A piece of a document. -/
structure Lexeme where
  /-- What kind of piece it is. -/
  kind : Lexeme.Kind
  /-- Its text. -/
  text : Text
  /-- The offset of its first code point. -/
  start : Nat
  deriving DecidableEq, Repr

namespace Lexeme

/-- The offset after the last code point. -/
def stop (l : Lexeme) : Nat :=
  l.start + l.text.length

/-- What may be left open in a document. -/
inductive Bracketed where
  /-- A block comment. -/
  | comment
  /-- A string. -/
  | string
  deriving DecidableEq, Repr

/-- A comment or string that does not end. -/
structure Unterminated where
  /-- What does not end. -/
  what : Bracketed
  /-- The offset of its opening. -/
  start : Nat
  deriving DecidableEq, Repr

/-- How many code points the line takes. -/
def lineTail (s : Text) : Nat :=
  (s.takeWhile (· ≠ .char '\n')).length

/-- How many code points there are up to and with the next `*/`. -/
def commentTail : Text → Option Nat
  | [] => none
  | c :: r =>
    if c = .char '*' ∧ r.head? = some (.char '/') then some 2 else (commentTail r).map (· + 1)

/-- How many code points a string takes after its opening quote, if it is closed on its line. A
    backslash takes the code point after it along, whatever it is. -/
def quotedTail : Text → Option Nat
  | [] => none
  | c :: r =>
    if c = .char '"' then
      some 1
    else if c = .char '\\' then
      match r with
      | [] => none
      | _ :: r' => (quotedTail r').map (· + 2)
    else if c = .char '\n' then
      none
    else
      (quotedTail r).map (· + 1)

/-- Three double quotes. -/
def tripleQuote : Text :=
  [.char '"', .char '"', .char '"']

/-- How many code points a block string takes after its opening quotes, if it is closed. A
    backslash before three quotes keeps them inside, unless no other three quotes close the
    string after them. -/
def blockTail : Text → Option Nat
  | [] => none
  | c :: r =>
    if tripleQuote.isPrefixOf (c :: r) then
      some 3
    else if c = .char '\\' ∧ tripleQuote.isPrefixOf r then
      match blockTail (r.drop 3) with
      | some n => some (n + 4)
      | none => some 4
    else
      (blockTail r).map (· + 1)
termination_by s => s.length
decreasing_by all_goals simp only [List.length_cons, List.length_drop]; omega

/-- How many code points a string takes after its first quote. -/
def stringTail (r : Text) : Option Nat :=
  let block :=
    if tripleQuote.isPrefixOf (.char '"' :: r) then (blockTail (r.drop 2)).map (· + 2) else none
  block.or (quotedTail r)

/-- How many digits a text begins with. -/
def digitRun (s : Text) : Nat :=
  (s.takeWhile CodePoint.isDigit).length

/-- How many code points a fraction takes. -/
def fractionTail (s : Text) : Nat :=
  match s with
  | [] => 0
  | c :: r =>
    let n := digitRun r
    if c = .char '.' ∧ 0 < n then n + 1 else 0

/-- How many code points an exponent takes. -/
def exponentTail (s : Text) : Nat :=
  match s with
  | [] => 0
  | c :: r =>
    let sign := if r.head? = some (.char '+') ∨ r.head? = some (.char '-') then 1 else 0
    let n := digitRun (r.drop sign)
    if (c = .char 'e' ∨ c = .char 'E') ∧ 0 < n then n + sign + 1 else 0

/-- How many code points a number without sign takes; none if no digit comes first. -/
def numberTail (s : Text) : Nat :=
  let whole := digitRun s
  if whole = 0 then
    0
  else
    let fraction := fractionTail (s.drop whole)
    whole + fraction + exponentTail (s.drop (whole + fraction))

/-- What begins at a place of a document, with the code points it takes after the first. -/
inductive Piece where
  /-- A run of blanks. -/
  | blank (tail : Nat)
  /-- A lexeme. -/
  | lexeme (kind : Kind) (tail : Nat)
  /-- A comment or string that does not end. -/
  | unterminated (what : Bracketed)
  deriving DecidableEq, Repr

/-- What a code point and the text after it begin with. -/
def Piece.of (c : CodePoint) (r : Text) : Piece :=
  if c.isBlank then
    .blank (r.takeWhile CodePoint.isBlank).length
  else if c = .char '#' then
    .lexeme .comment (lineTail r)
  else if c = .char '/' then
    if r.head? = some (.char '/') then
      .lexeme .comment (lineTail r)
    else if r.head? = some (.char '*') then
      match commentTail (r.drop 1) with
      | some n => .lexeme .comment (n + 1)
      | none => .unterminated .comment
    else
      .lexeme .mark 0
  else if c = .char '"' then
    match stringTail r with
    | some n => .lexeme .string n
    | none => .unterminated .string
  else if c.isNameStart then
    .lexeme .name (r.takeWhile CodePoint.isNameContinue).length
  else if c.isDigit then
    .lexeme .number (numberTail (c :: r) - 1)
  else if c = .char '-' then
    if 0 < numberTail r then .lexeme .number (numberTail r) else .lexeme .mark 0
  else
    .lexeme .mark 0

/-- The lexemes of a text that starts at an offset, up to the first comment or string in it that
    does not end; `piece` says what begins where. -/
def scanWith (piece : CodePoint → Text → Piece) (offset : Nat) (s : Text) :
    List Lexeme × Option Unterminated :=
  match s with
  | [] => ([], none)
  | c :: r =>
    match piece c r with
    | .blank n => scanWith piece (offset + n + 1) (r.drop n)
    | .lexeme kind n =>
      let (rest, failure) := scanWith piece (offset + n + 1) (r.drop n)
      (⟨kind, c :: r.take n, offset⟩ :: rest, failure)
    | .unterminated what => ([], some ⟨what, offset⟩)
termination_by s.length
decreasing_by all_goals simp only [List.length_cons, List.length_drop]; omega

/-- The lexemes of a document, up to the first comment or string in it that does not end. -/
def scan (t : Text) : List Lexeme × Option Unterminated :=
  scanWith Piece.of 0 t

/-- Is the lexeme this mark? -/
def isMark (l : Lexeme) (c : Char) : Bool :=
  l.kind = .mark && l.text = [.char c]

end Lexeme

end ApprovedOps
