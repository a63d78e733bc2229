import ApprovedOps.Toml.Scalar
import ApprovedOps.Toml.Table

/-! # Reading TOML

A reader for TOML texts. Nesting and repetition are bounded by the length of what is left, which no
text exhausts, since every step takes a code point.
-/

namespace ApprovedOps

namespace Toml

/-! ## Keys -/

/-- Can the code point stand in a key without quotes? -/
def isBare (p : CodePoint) : Bool :=
  p.isNameContinue || p = .char '-'

/-- A part of a key. -/
def keyPart (s : Text) : Except Failure (Text × Text) :=
  match s with
  | [] => fail .invalidKey []
  | p :: r =>
    if isBare p then .ok (s.takeWhile isBare, s.dropWhile isBare)
    else if p = .char '\'' then lineString '\'' r
    else if p = .char '"' then lineString '"' r
    else fail .invalidKey s

/-- The parts of a key and the blanks after it, at most as many as the bound allows. -/
def keyParts : Nat → Text → Except Failure (Key × Text)
  | 0, s => fail .invalidKey s
  | bound + 1, s => do
    let (part, s) ← keyPart s
    match s.dropWhile isBlank with
    | [] => return ([part], [])
    | p :: r =>
      if p = .char '.' then
        let (parts, rest) ← keyParts bound (r.dropWhile isBlank)
        return (part :: parts, rest)
      else
        return ([part], p :: r)

/-- A key and the blanks after it. -/
def key (s : Text) : Except Failure (Key × Text) :=
  keyParts (s.length + 1) s

/-! ## Values -/

/-- What follows a comment, if one begins here. -/
def skipComment (s : Text) : Except Failure Text :=
  if s.head? = some (.char '#') then do
    let (comment, rest) := s.span (· ≠ .char '\n')
    refuseControls false rest comment.tail
    return rest
  else
    return s

/-- What follows blanks, line breaks and comments. -/
def skipSpace : Nat → Text → Except Failure Text
  | 0, s => .ok s
  | bound + 1, s => do
    let rest ← skipComment (s.dropWhile isBlankOrBreak)
    if rest.length = s.length then return rest else skipSpace bound rest

/-- What follows a mark, if it begins here. -/
def mark? (c : Char) (s : Text) : Option Text :=
  if s.head? = some (.char c) then some s.tail else none

/-- A key with its value. -/
def entry (value : Text → Except Failure (Value × Text)) (s : Text) :
    Except Failure (Key × Value × Text) := do
  let (k, s) ← key s
  match mark? '=' s with
  | none => fail .expectedEquals s
  | some s =>
    let (v, s) ← value (s.dropWhile isBlank)
    return (k, v, s)

/-- The elements of an array after its bracket or a comma, at most as many as the bound allows. -/
def elements (value : Text → Except Failure (Value × Text)) :
    Nat → Text → Except Failure (List Value × Text)
  | 0, s => fail .unclosedArray s
  | bound + 1, s => do
    let s ← skipSpace (s.length + 1) s
    match mark? ']' s with
    | some rest => return ([], rest)
    | none =>
      let (v, s) ← value s
      let s ← skipSpace (s.length + 1) s
      match mark? ']' s, mark? ',' s with
      | some rest, _ => return ([v], rest)
      | none, some s =>
        let (vs, rest) ← elements value bound s
        return (v :: vs, rest)
      | none, none => fail .unclosedArray s

/-- The entries of an inline table, at most as many as the bound allows. -/
def inlineEntries (value : Text → Except Failure (Value × Text)) :
    Nat → InlineBuilder → Text → Except Failure (InlineBuilder × Text)
  | 0, _, s => fail .unclosedInlineTable s
  | bound + 1, b, s => do
    let (k, v, s) ← entry value s
    match b.add k v with
    | .error cause => fail cause s
    | .ok b =>
      let s := s.dropWhile isBlank
      match mark? '}' s, mark? ',' s with
      | some rest, _ => return (b, rest)
      | none, some s => inlineEntries value bound b (s.dropWhile isBlank)
      | none, none => fail .unclosedInlineTable s

/-- An inline table after its brace. -/
def inlineTable (value : Text → Except Failure (Value × Text)) (s : Text) :
    Except Failure (Value × Text) := do
  let s := s.dropWhile isBlank
  match mark? '}' s with
  | some rest => return (.mapping [], rest)
  | none =>
    let (b, rest) ← inlineEntries value (s.length + 1) {} s
    return (.mapping b.table, rest)

/-- A string, on one line or several. -/
def string (quote : Char) (s : Text) : Except Failure (Value × Text) := do
  let (t, rest) ←
    if Text.startsWith s (List.replicate 3 (.char quote)) then multilineString quote (s.drop 3)
    else lineString quote (s.drop 1)
  return (.string t, rest)

/-- A value, nested at most as deep as the bound allows. -/
def value : Nat → Text → Except Failure (Value × Text)
  | 0, s => fail .invalidValue s
  | depth + 1, s =>
    match s with
    | [] => fail .invalidValue []
    | p :: r =>
      if p = .char '"' then string '"' s
      else if p = .char '\'' then string '\'' s
      else if p = .char '[' then do
        let (vs, rest) ← elements (value depth) (r.length + 1) r
        return (.list vs, rest)
      else if p = .char '{' then
        inlineTable (value depth) r
      else
        plain s

/-! ## Statements -/

/-- The result of a statement, whose failure is at the beginning of `rest`. -/
def built (b : Except Cause Builder) (rest : Text) : Except Failure Builder :=
  match b with
  | .ok b => .ok b
  | .error cause => fail cause rest

/-- The header of a table or of another table in an array of tables. -/
def header (b : Builder) (s : Text) : Except Failure (Builder × Text) := do
  let b := b.settle
  match mark? '[' s with
  | none =>
    let (k, s) ← key (s.dropWhile isBlank)
    let b ← built (b.openTable k) s
    match mark? ']' s with
    | some rest => return (b, rest)
    | none => fail .unclosedHeader s
  | some s =>
    let (k, s) ← key (s.dropWhile isBlank)
    let b ← built (b.openNext k) s
    match (mark? ']' s).bind (mark? ']') with
    | some rest => return (b, rest)
    | none => fail .unclosedArrayHeader s

/-- A statement, or nothing before a comment. -/
def statement (b : Builder) (p : CodePoint) (s : Text) : Except Failure (Builder × Text) := do
  if isBare p ∨ p = .char '"' ∨ p = .char '\'' then
    let (k, v, s) ← entry (value (s.length + 1)) s
    return (← built (b.add k v) s, s)
  else if p = .char '[' then
    header b s.tail
  else if p = .char '#' then
    return (b, s)
  else
    fail .invalidStatement s

/-- All statements, each on a line of its own, at most as many as the bound allows. -/
def statements : Nat → Builder → Text → Except Failure Builder
  | 0, b, _ => .ok b
  | bound + 1, b, s => do
    match s.dropWhile isBlank with
    | [] => return b
    | p :: r =>
      if p = .char '\n' then
        statements bound b r
      else
        let (b, s) ← statement b p (p :: r)
        let s ← skipComment (s.dropWhile isBlank)
        match s with
        | [] => return b
        | q :: rest =>
          if q = .char '\n' then statements bound b rest else fail .expectedLineEnd s

/-- A text where every carriage return before a line feed is left out. -/
def withLineFeeds : Text → Text
  | [] => []
  | p :: r =>
    if p = .char '\r' ∧ r.head? = some (.char '\n') then withLineFeeds r else p :: withLineFeeds r

/-- The entries of the outermost table of a text with line feeds. -/
def readLines (t : Text) : Except Failure Entries := do
  let b ← statements (t.length + 1) {} t
  return b.table

/-- The entries of the outermost table of a text, or the words for why it is no TOML. -/
def read (t : Text) : Except Failure Entries :=
  readLines (withLineFeeds t)

end Toml

end ApprovedOps
