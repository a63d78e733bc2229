import ApprovedOps.Document.Region

/-! # Parts of a submitted document

A document mixes, in any order, a leading comment, a variables block, one operation and fragment
definitions:

    # leading comment
    variables { "id": 1 }
    query GetUser($id: ID!) { user(id: $id) { ...UserFields } }
    fragment UserFields on User { name }

Blocks never nest at the top level, so the keywords seen outside all brackets find every boundary.
Comments and strings are single lexemes, so what they hold never splits a document.
-/

namespace ApprovedOps

/-- The parts of a document. -/
structure Parts where
  /-- What stands before the first block. -/
  comment : Text := []
  /-- The variables block, without its keyword. -/
  vars : Text := []
  /-- The operation. -/
  query : Text := []
  /-- The fragment definitions, in order. -/
  fragments : List Fragment := []
  deriving DecidableEq, Repr

namespace Parts

/-- How far the walk over the lexemes of a document has come. -/
structure Walk where
  /-- The parts that are complete. -/
  parts : Parts := {}
  /-- The region that is open. -/
  region : Region := .comment
  /-- The offset at which it starts. -/
  start : Nat := 0
  /-- The offset after its last closing brace. -/
  close : Option Nat := none
  /-- How many brackets are open. -/
  depth : Nat := 0
  /-- Was the last lexeme that is no comment a closing brace? -/
  afterBrace : Bool := false
  deriving DecidableEq, Repr

/-- The text between two offsets. -/
def slice (t : Text) (start stop : Nat) : Text :=
  (t.take stop).drop start

/-- Adds the open region of a text of which the first `stop` code points count. -/
def Walk.flush (w : Walk) (t : Text) (stop : Nat) : Except DocumentError Parts :=
  match w.region, w.close with
  | .comment, _ => .ok { w.parts with comment := (slice t w.start stop).trim }
  | region, none => .error (.unclosed region)
  | region, some close =>
    let value := (slice t w.start close).trim
    match region with
    | .comment => .ok w.parts
    | .vars => .ok { w.parts with vars := value }
    | .query =>
      if w.parts.query = [] then .ok { w.parts with query := value } else .error .secondOperation
    | .fragment => do
      let name ← Fragment.nameOf value
      return { w.parts with fragments := w.parts.fragments ++ [⟨name, value⟩] }

/-- The region that a lexeme opens here, if it opens one. An operation may also begin with its
    opening brace, but only as the first block. -/
def Walk.opened? (w : Walk) (l : Lexeme) : Option Region :=
  if w.depth ≠ 0 then
    none
  else if w.region = .comment then
    (Region.openedBy? l).or (if l.isMark '{' then some .query else none)
  else if w.afterBrace then
    Region.openedBy? l
  else
    none

/-- Closes the open region if the lexeme opens another. The keyword is part of operations and
    fragments, not of variables. -/
def Walk.enter (w : Walk) (t : Text) (l : Lexeme) : Except DocumentError Walk :=
  match w.opened? l with
  | none => .ok w
  | some region => do
    let parts ← w.flush t l.start
    return { w with
      parts, region
      start := if region = .vars then l.stop else l.start
      close := none }

/-- Is the lexeme an opening bracket? -/
def isOpening (l : Lexeme) : Bool :=
  l.isMark '{' || l.isMark '(' || l.isMark '['

/-- Is the lexeme a closing bracket? -/
def isClosing (l : Lexeme) : Bool :=
  l.isMark '}' || l.isMark ')' || l.isMark ']'

/-- Keeps count of brackets and closing braces. -/
def Walk.count (w : Walk) (l : Lexeme) : Walk :=
  { w with
    depth := if isOpening l then w.depth + 1 else if isClosing l then w.depth - 1 else w.depth
    close := if l.isMark '}' then some l.stop else w.close
    afterBrace := l.isMark '}' }

/-- The walk after one lexeme. Comments are passed over. -/
def Walk.step (t : Text) (w : Walk) (l : Lexeme) : Except DocumentError Walk :=
  if l.kind = .comment then
    .ok w
  else do
    let w ← w.enter t l
    return w.count l

/-- The parts of a document. -/
def ofText (t : Text) : Except DocumentError Parts := do
  let (lexemes, failure) := Lexeme.scan t
  let w ← lexemes.foldlM (Walk.step t) {}
  match failure with
  | some failure => .error (.unterminated failure)
  | none => w.flush t t.length

end Parts

end ApprovedOps
