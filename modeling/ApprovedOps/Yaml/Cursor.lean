import ApprovedOps.Text.Quoted

/-! # Places in a document

A place in a document with its line and column, and the classes of code points that matter to where
scalars and lines end.
-/

namespace ApprovedOps

namespace Yaml

/-- A place in a document. -/
structure Cursor where
  /-- What is left of the document. -/
  rest : Text
  /-- How many code points come before. -/
  index : Nat := 0
  /-- The line, counted from zero. -/
  line : Nat := 0
  /-- The column, counted from zero; byte order marks do not count. -/
  column : Nat := 0
  deriving DecidableEq, Repr

namespace Cursor

/-- Does a line end at this code point? -/
def isBreak (p : CodePoint) : Bool :=
  let n := p.value
  n == 0x0A || n == 0x0D || n == 0x85 || n == 0x2028 || n == 0x2029

/-- Is it the space? -/
def isSpace (p : CodePoint) : Bool :=
  p = .char ' '

/-- Is it a space or a tab? -/
def isSpaceOrTab (p : CodePoint) : Bool :=
  p = .char ' ' || p = .char '\t'

/-- Is it a space, a tab or a line break? -/
def isBlank (p : CodePoint) : Bool :=
  isSpaceOrTab p || isBreak p

/-- Is it a space or a line break? -/
def isSpaceOrBreak (p : CodePoint) : Bool :=
  isSpace p || isBreak p

/-- Is it one of some ASCII characters? -/
def isOneOf (chars : String) : CodePoint → Bool
  | .char c => chars.toList.contains c
  | .surrogate _ => false

/-- Can it stand in a name of an anchor, a handle or a directive? -/
def isWordPart (p : CodePoint) : Bool :=
  p.isNameContinue || p = .char '-'

/-- The code point at the place. -/
def peek (c : Cursor) : Option CodePoint :=
  c.rest.head?

/-- The code point some way on. -/
def peekAt (c : Cursor) (n : Nat) : Option CodePoint :=
  (c.rest.drop n).head?

/-- The code point at the place between quotes; the end of the document is shown as the null
    character. -/
def shown (c : Cursor) : Text :=
  Text.quoted [c.peek.getD '\x00']

/-- Is a code point of a class at the place? -/
def isAt (c : Cursor) (p : CodePoint → Bool) : Bool :=
  c.peek.any p

/-- Is this character at the place? -/
def isAtChar (c : Cursor) (x : Char) : Bool :=
  c.peek = some (.char x)

/-- Is a code point of a class, or the end of the document, some way on? -/
def endsAt (c : Cursor) (n : Nat) (p : CodePoint → Bool) : Bool :=
  (c.peekAt n).all p

/-- The next place. A carriage return ends a line unless a line feed follows it. -/
def step (c : Cursor) : Cursor :=
  match c.rest with
  | [] => c
  | p :: r =>
    if isBreak p ∧ ¬(p = .char '\r' ∧ r.head? = some (.char '\n')) then
      { rest := r, index := c.index + 1, line := c.line + 1, column := 0 }
    else
      { rest := r, index := c.index + 1, line := c.line
        column := if p = .char '\uFEFF' then c.column else c.column + 1 }

/-- The place some way on. -/
def forward : Nat → Cursor → Cursor
  | 0, c => c
  | n + 1, c => forward n c.step

/-- The run of a class at the place, and the place after it. -/
def takeWhile (c : Cursor) (p : CodePoint → Bool) : Text × Cursor :=
  let run := c.rest.takeWhile p
  (run, forward run.length c)

/-- The place after the run of a class. -/
def skipWhile (c : Cursor) (p : CodePoint → Bool) : Cursor :=
  (c.takeWhile p).2

/-- A line break and the place after it. All breaks but the line and paragraph separators count as
    line feeds. -/
def lineBreak (c : Cursor) : Text × Cursor :=
  match c.rest with
  | [] => ([], c)
  | p :: r =>
    if p = .char '\r' ∧ r.head? = some (.char '\n') then ([.char '\n'], forward 2 c)
    else if isBreak p then
      (if 0x2028 ≤ p.value then [p] else [.char '\n'], c.step)
    else ([], c)

/-- The place after the rest of a line that holds at most a comment. -/
def skipComment (c : Cursor) : Cursor :=
  let c := c.skipWhile isSpace
  if c.isAtChar '#' then c.skipWhile (!isBreak ·) else c

/-- Does a mark of three characters stand here, with a blank or the end after it? -/
def isAtMark (c : Cursor) (mark : String) : Bool :=
  c.rest.startsWith (Text.ofString mark) && c.endsAt 3 isBlank

/-- Does a document begin or end here, if this is the beginning of a line? -/
def isAtSeparator (c : Cursor) : Bool :=
  c.isAtMark "---" || c.isAtMark "..."

end Cursor

end Yaml

end ApprovedOps
