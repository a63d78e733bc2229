import ApprovedOps.Yaml.Cursor
import ApprovedOps.Yaml.Failure

/-! # Scalars

Block scalars, scalars between quotes and plain scalars: what they say, and where they end. The
loops are bounded by the length of what is left of the document, which they never exhaust.
-/

namespace ApprovedOps

namespace Yaml

namespace Scalar

open Cursor

/-! ## Block scalars -/

/-- What happens to the line breaks at the end of a block. -/
inductive Chomping where
  /-- One is kept. -/
  | clip
  /-- None is kept. -/
  | strip
  /-- All are kept. -/
  | keep
  deriving DecidableEq, Repr

/-- A mark of what happens to the line breaks at the end. -/
def chomping? (p : CodePoint) : Option Chomping :=
  if p = .char '+' then some .keep
  else if p = .char '-' then some .strip
  else none

/-- A mark of the indentation, which is not zero. -/
def increment? (p : CodePoint) : Option Nat :=
  if p.isAsciiDigit then p.hexValue? else none

/-- The mark of what happens to the line breaks at the end, if it is at a place, and the place after
    it. -/
def takeChomping (c : Cursor) : Option Chomping × Cursor :=
  match c.peek.bind chomping? with
  | some chomping => (some chomping, c.step)
  | none => (none, c)

/-- The mark of the indentation, if it is at a place, and the place after it. -/
def takeIncrement (start : Nat) (c : Cursor) : Except Failure (Option Nat × Cursor) :=
  match c.peek.bind increment? with
  | some 0 => .error (.during .blockScalar start .zeroIndentation c)
  | some n => .ok (some n, c.step)
  | none => .ok (none, c)

/-- The header of a block after its bar or angle: both marks in either order. -/
def blockHeader (start : Nat) (c : Cursor) :
    Except Failure (Chomping × Option Nat × Cursor) := do
  let (first, c) := takeChomping c
  let (increment, c) ← takeIncrement start c
  let (second, c) := if first.isNone ∧ increment.isSome then takeChomping c else (none, c)
  if !c.endsAt 0 isSpaceOrBreak then
    throw (.unexpected .blockScalar start "chomping or indentation indicators" c)
  let c := c.skipComment
  if c.endsAt 0 isBreak then
    return ((first.or second).getD .clip, increment, c.lineBreak.2)
  else
    throw (.unexpected .blockScalar start "a comment or a line break" c)

/-- The line breaks before the first line with content, the greatest column that spaces reach on
    the way, and the place after them. -/
def blockIndentation : Nat → Cursor → Text × Nat × Cursor
  | 0, c => ([], 0, c)
  | bound + 1, c =>
    if c.isAt isSpace then
      let c := c.step
      let (breaks, column, stop) := blockIndentation bound c
      (breaks, max c.column column, stop)
    else if c.isAt isBreak then
      let (br, c) := c.lineBreak
      let (breaks, column, stop) := blockIndentation bound c
      (br ++ breaks, column, stop)
    else
      ([], 0, c)

/-- The place after spaces up to a column. -/
def skipIndentation (indent : Nat) (c : Cursor) : Cursor :=
  forward (((c.rest.take (indent - c.column)).takeWhile isSpace).length) c

/-- Blank lines, where spaces up to a column do not count. -/
def blockBreaks (indent : Nat) : Nat → Cursor → Text × Cursor
  | 0, c => ([], c)
  | bound + 1, c =>
    let c := skipIndentation indent c
    if c.isAt isBreak then
      let (br, c) := c.lineBreak
      let (breaks, stop) := blockBreaks indent bound c
      (br ++ breaks, stop)
    else
      ([], c)

/-- The body of a block: what it says, the last line break, the blank lines after it, and the place
    where the block ends. -/
structure BlockBody where
  /-- The text without the line breaks at its end. -/
  text : Text
  /-- The line break after the last line with content. -/
  ending : Text
  /-- The blank lines after it. -/
  breaks : Text
  /-- Where the block ends. -/
  stop : Cursor

/-- The lines of a block, given the blank lines before the next. When folding, a line break between
    two lines that begin with neither space nor tab becomes a space, or nothing if blank lines
    follow it. -/
def blockBody (folded : Bool) (indent : Nat) : Nat → Text → Cursor → BlockBody
  | 0, breaks, c => ⟨[], [], breaks, c⟩
  | bound + 1, breaks, c =>
    if c.column = indent ∧ c.rest ≠ [] then
      let plainStart := !c.isAt isSpaceOrTab
      let (line, c) := c.takeWhile (!isBreak ·)
      let (ending, c) := c.lineBreak
      let (after, c) := blockBreaks indent (c.rest.length + 1) c
      if c.column = indent ∧ c.rest ≠ [] then
        let joint :=
          if folded ∧ ending = [.char '\n'] ∧ plainStart ∧ !c.isAt isSpaceOrTab then
            if after = [] then [.char ' '] else []
          else
            ending
        let body := blockBody folded indent bound after c
        { body with text := breaks ++ line ++ joint ++ body.text }
      else
        ⟨breaks ++ line, ending, after, c⟩
    else
      ⟨[], [], breaks, c⟩

/-- A block after its bar or angle, inside a block that is indented by `parent`. -/
def block (folded : Bool) (parent : Int) (start : Nat) (c : Cursor) :
    Except Failure (Text × Cursor) := do
  let (chomping, increment, c) ← blockHeader start c
  let least := (max (parent + 1) 1).toNat
  let bound := c.rest.length + 1
  let (indent, breaks, c) :=
    match increment with
    | none =>
      let (breaks, column, c) := blockIndentation bound c
      (max least column, breaks, c)
    | some n =>
      let indent := least + n - 1
      let (breaks, c) := blockBreaks indent bound c
      (indent, breaks, c)
  let body := blockBody folded indent bound breaks c
  let ending :=
    match chomping with
    | .strip => []
    | .clip => body.ending
    | .keep => body.ending ++ body.breaks
  return (body.text ++ ending, body.stop)

/-! ## Scalars between quotes -/

/-- The code point of an escape letter. -/
def escapeLetter? (p : CodePoint) : Option CodePoint :=
  match p with
  | .surrogate _ => none
  | .char c =>
    match c with
    | '0' => some '\x00'
    | 'a' => some '\x07'
    | 'b' => some '\x08'
    | 't' => some '\t'
    | '\t' => some '\t'
    | 'n' => some '\n'
    | 'v' => some '\x0B'
    | 'f' => some '\x0C'
    | 'r' => some '\r'
    | 'e' => some '\x1B'
    | ' ' => some ' '
    | '"' => some '"'
    | '\\' => some '\\'
    | '/' => some '/'
    | 'N' => some (Char.ofNat 0x85)
    | '_' => some (Char.ofNat 0xA0)
    | 'L' => some (Char.ofNat 0x2028)
    | 'P' => some (Char.ofNat 0x2029)
    | _ => none

/-- How many digits the number of a code point has after an escape letter. -/
def escapeDigits? (p : CodePoint) : Option Nat :=
  if p = .char 'x' then some 2
  else if p = .char 'u' then some 4
  else if p = .char 'U' then some 8
  else none

/-- The number of exactly so many hexadecimal digits. -/
def hexNumber? (count : Nat) (s : Text) : Option Nat :=
  let digits := s.take count
  if digits.length = count then
    (digits.mapM CodePoint.hexValue?).map (·.foldl (fun n d => n * 16 + d) 0)
  else
    none

/-- The code point of a number. -/
def codePoint (n : Nat) : Except Failure CodePoint :=
  match CodePoint.ofNat? n with
  | some p => .ok p
  | none => .error (if n < 0x80000000 then .noSuchCodePoint else .codePointTooLarge)

/-- Line breaks with the spaces and tabs around them. No document may begin or end among them. -/
def quotedBreaks (start : Nat) : Nat → Cursor → Except Failure (Text × Cursor)
  | 0, c => .ok ([], c)
  | bound + 1, c =>
    if c.isAtSeparator then
      .error (.during .quoted start .separator c)
    else
      let c := c.skipWhile isSpaceOrTab
      if c.isAt isBreak then do
        let (br, c) := c.lineBreak
        let (breaks, stop) ← quotedBreaks start bound c
        return (br ++ breaks, stop)
      else
        return ([], c)

/-- The failure of an escape that lacks some of its digits; it shows the first that is none. -/
def noDigit (activity : Activity) (start : Nat) (expected : Text) (c : Cursor) : Failure :=
  let found := forward (c.rest.takeWhile fun p => p.hexValue?.isSome).length c
  .during activity start (.unexpected expected found.shown) c

/-- An escape after its backslash. -/
def escape (start : Nat) (c : Cursor) : Except Failure (Text × Cursor) := do
  let p := c.peek.getD '\x00'
  match escapeLetter? p with
  | some q => if c.rest = [] then throw (unknown p) else return ([q], c.step)
  | none =>
    match escapeDigits? p with
    | some count =>
      let c := c.step
      match hexNumber? count c.rest with
      | none =>
        throw (noDigit .doubleQuoted start
          (.concat ["escape sequence of ", .ofNat count, " hexadecimal numbers"]) c)
      | some n =>
        let q ← codePoint n
        return ([q], forward count c)
    | none =>
      if isBreak p then
        quotedBreaks start (c.rest.length + 1) c.lineBreak.2
      else
        throw (unknown p)
where
  /-- The failure of a code point that is no escape letter. -/
  unknown (p : CodePoint) : Failure :=
    .during .doubleQuoted start (.unknownEscape p) c

/-- Does a code point end a run of plain text between quotes? -/
def endsQuotedRun (p : CodePoint) : Bool :=
  isOneOf "'\"\\" p || isBlank p

/-- Text between quotes up to a blank, the closing quote or the end of the document. -/
def quotedText (double : Bool) (start : Nat) : Nat → Cursor → Except Failure (Text × Cursor)
  | 0, c => .ok ([], c)
  | bound + 1, c => do
    let (run, c) := c.takeWhile (!endsQuotedRun ·)
    if !double && c.isAtChar '\'' && c.peekAt 1 = some (.char '\'') then
      let (more, stop) ← quotedText double start bound (forward 2 c)
      return (run ++ .char '\'' :: more, stop)
    else if double && c.isAtChar '\'' then
      let (more, stop) ← quotedText double start bound c.step
      return (run ++ .char '\'' :: more, stop)
    else if !double && c.isAt (isOneOf "\"\\") then
      let (more, stop) ← quotedText double start bound c.step
      return (run ++ c.peek.toList ++ more, stop)
    else if double && c.isAtChar '\\' then
      let (escaped, c) ← escape start c.step
      let (more, stop) ← quotedText double start bound c
      return (run ++ escaped ++ more, stop)
    else
      return (run, c)

/-- Blanks between quotes: those before the end of a line are dropped, and a single line break
    becomes a space. -/
def quotedBlanks (start : Nat) (c : Cursor) : Except Failure (Text × Cursor) := do
  let (spaces, c) := c.takeWhile isSpaceOrTab
  if c.rest = [] then
    throw (.during .quoted start .endOfText c)
  else if c.isAt isBreak then
    let (br, c) := c.lineBreak
    let (breaks, c) ← quotedBreaks start (c.rest.length + 1) c
    let joint := if br ≠ [.char '\n'] then br else if breaks = [] then [.char ' '] else []
    return (joint ++ breaks, c)
  else
    return (spaces, c)

/-- Blanks and text in turn up to the closing quote. -/
def quotedRest (double : Bool) (quote : Char) (start : Nat) :
    Nat → Cursor → Except Failure (Text × Cursor)
  | 0, c => .error (.during .quoted start .endOfText c)
  | bound + 1, c => do
    if c.isAtChar quote then
      return ([], c.step)
    else
      let (blanks, c) ← quotedBlanks start c
      let (run, c) ← quotedText double start (c.rest.length + 1) c
      let (more, stop) ← quotedRest double quote start bound c
      return (blanks ++ run ++ more, stop)

/-- A scalar after its opening quote. -/
def quoted (double : Bool) (start : Nat) (c : Cursor) : Except Failure (Text × Cursor) := do
  let quote := if double then '"' else '\''
  let (run, c) ← quotedText double start (c.rest.length + 1) c
  let (more, stop) ← quotedRest double quote start (c.rest.length + 1) c
  return (run ++ more, stop)

/-! ## Plain scalars -/

/-- The length of a run of a plain scalar, which ends at a blank or at a mark; more marks count
    inside brackets. -/
def plainRun (inFlow : Bool) : Text → Nat
  | [] => 0
  | p :: r =>
    if isBlank p then 0
    else if p = .char ':' ∧
        r.head?.all (fun q => isBlank q || (inFlow && isOneOf ",[]\x7b\x7d" q)) then 0
    else if inFlow ∧ isOneOf ",?[]\x7b\x7d" p then 0
    else plainRun inFlow r + 1

/-- What stands between two runs of a plain scalar. -/
structure PlainGap where
  /-- What the gap says; empty if the scalar ends here. -/
  text : Text
  /-- Is there a line break in it? -/
  broken : Bool
  /-- Where it ends. -/
  stop : Cursor

/-- Blank lines in a plain scalar; none if a document begins or ends after one of them. -/
def plainBreaks : Nat → Cursor → Option Text × Cursor
  | 0, c => (some [], c)
  | bound + 1, c =>
    let c := c.skipWhile isSpace
    if c.isAt isBreak then
      let (br, c) := c.lineBreak
      if c.isAtSeparator then
        (none, c)
      else
        let (breaks, stop) := plainBreaks bound c
        (breaks.map (br ++ ·), stop)
    else
      (some [], c)

/-- A gap in a plain scalar: spaces, or a line break with blank lines. A single line break becomes
    a space. -/
def plainGap (c : Cursor) : PlainGap :=
  let (spaces, c) := c.takeWhile isSpace
  if c.isAt isBreak then
    let (br, c) := c.lineBreak
    if c.isAtSeparator then
      ⟨[], true, c⟩
    else
      match plainBreaks (c.rest.length + 1) c with
      | (none, c) => ⟨[], true, c⟩
      | (some breaks, c) =>
        let joint := if br ≠ [.char '\n'] then br else if breaks = [] then [.char ' '] else []
        ⟨joint ++ breaks, true, c⟩
  else
    ⟨spaces, false, c⟩

/-- A plain scalar with the gap before its next run, inside a block that is indented by `parent`.
    The flag tells whether the last gap had a line break. -/
def plainFrom (inFlow : Bool) (parent : Int) : Nat → Text → Bool → Cursor → Text × Bool × Cursor
  | 0, _, broken, c => ([], broken, c)
  | bound + 1, gap, broken, c =>
    let n := if c.isAtChar '#' then 0 else plainRun inFlow c.rest
    if n = 0 then
      ([], broken, c)
    else
      let run := c.rest.take n
      let next := plainGap (forward n c)
      let ends := next.text = [] || next.stop.isAtChar '#'
        || (!inFlow && next.stop.column < parent + 1)
      if ends then
        (gap ++ run, next.broken, next.stop)
      else
        let (more, broken, stop) := plainFrom inFlow parent bound next.text next.broken next.stop
        (gap ++ run ++ more, broken, stop)

/-- A plain scalar. -/
def plain (inFlow : Bool) (parent : Int) (c : Cursor) : Text × Bool × Cursor :=
  plainFrom inFlow parent (c.rest.length + 1) [] false c

end Scalar

end Yaml

end ApprovedOps
