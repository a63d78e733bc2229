import ApprovedOps.Yaml.Token

/-! # From text to tokens

Indentation opens and closes sequences and mappings. Whether a scalar or a bracket is a key shows
only at the colon after it, so the place where a key may begin is remembered for each level of
brackets, and the mark of the key is put there afterwards. A key is on one line and at most 1024
code points long.
-/

namespace ApprovedOps

namespace Yaml

namespace Token

open Cursor

/-- A place where a key may begin. -/
structure KeyPlace where
  /-- How many tokens come before it. -/
  number : Nat
  /-- Must a colon follow? -/
  required : Bool
  /-- How many code points come before it. -/
  index : Nat
  /-- Its line. -/
  line : Nat
  /-- Its column. -/
  column : Nat
  deriving DecidableEq, Repr

/-- How far the tokens of a document are found. -/
structure Progress where
  /-- The place in the document. -/
  place : Cursor
  /-- The tokens, the last one first. -/
  found : List Token := []
  /-- How many code points come before each of them. -/
  places : List Nat := []
  /-- The column of the innermost indented sequence or mapping, or -1. -/
  indent : Int := -1
  /-- The columns of those around it, the innermost first. -/
  outer : List Int := []
  /-- Where a key may begin, for the innermost brackets and those around them. -/
  keys : List (Option KeyPlace) := [none]
  /-- May a key begin here? -/
  allowsKey : Bool := true

namespace Progress

/-- Is the place between brackets? -/
def inFlow (s : Progress) : Bool :=
  1 < s.keys.length

/-- The column of the place. -/
def column (s : Progress) : Int :=
  s.place.column

/-- Adds a token that begins at the place. -/
def add (s : Progress) (t : Token) : Progress :=
  { s with found := t :: s.found, places := s.place.index :: s.places }

/-- Puts the token of a key, or of a mapping that begins with it, before the tokens of the key. -/
def addBefore (s : Progress) (k : KeyPlace) (t : Token) : Progress :=
  let after := s.found.length - k.number
  { s with
    found := s.found.take after ++ t :: s.found.drop after
    places := s.places.take after ++ k.index :: s.places.drop after }

/-- The column after the indented sequences and mappings that begin to the right of a column are
    closed, the columns around it, and how many are closed. -/
def unwindTo (column : Int) (indent : Int) : List Int → Int × List Int × Nat
  | [] => (indent, [], 0)
  | o :: outer =>
    if column < indent then
      let (indent, outer, closed) := unwindTo column o outer
      (indent, outer, closed + 1)
    else
      (indent, o :: outer, 0)

/-- Closes the indented sequences and mappings that begin to the right of a column; between
    brackets, indentation does not count. -/
def unwind (s : Progress) (column : Int) : Progress :=
  if s.inFlow then
    s
  else
    let (indent, outer, closed) := unwindTo column s.indent s.outer
    { s with
      indent, outer
      found := List.replicate closed .blockEnd ++ s.found
      places := List.replicate closed s.place.index ++ s.places }

/-- Indents further to a column, and tells whether it is further. -/
def deepen (s : Progress) (column : Int) : Bool × Progress :=
  if s.indent < column then
    (true, { s with indent := column, outer := s.indent :: s.outer })
  else
    (false, s)

/-- Indents further to the column of the place with the token that begins there. -/
def deepenHere (s : Progress) (t : Token) : Progress :=
  let (deeper, s) := s.deepen s.column
  if deeper then s.add t else s

/-- Forgets a place where a key may begin, unless a colon has to follow. -/
def forget (s : Progress) (spot : Option KeyPlace) : Except Failure (Option KeyPlace) :=
  match spot with
  | some k =>
    if k.required then .error (.during .simpleKey k.index .noColon s.place) else .ok none
  | none => .ok none

/-- Forgets where a key may begin between the innermost brackets. -/
def forgetKey (s : Progress) : Except Failure Progress :=
  match s.keys with
  | [] => .ok s
  | spot :: keys => do
    let spot ← s.forget spot
    return { s with keys := spot :: keys }

/-- Is the place too far from where a key may begin for the key to begin there? -/
def isStale (s : Progress) (spot : Option KeyPlace) : Bool :=
  spot.any fun k => k.line ≠ s.place.line ∨ k.index + 1024 < s.place.index

/-- Forgets the places that are too far back for a key to begin there. -/
def forgetStale (s : Progress) : Except Failure Progress := do
  let keys ← s.keys.mapM fun spot => if s.isStale spot then s.forget spot else .ok spot
  return { s with keys }

/-- Remembers that a key may begin here. -/
def rememberKey (s : Progress) : Except Failure Progress := do
  if s.allowsKey then
    let s ← s.forgetKey
    let spot : KeyPlace := {
      number := s.found.length
      required := !s.inFlow && s.indent == s.column
      index := s.place.index
      line := s.place.line
      column := s.place.column }
    return { s with keys := some spot :: s.keys.tail }
  else
    return s

/-- The number of the first token that a key may yet come before, if there is one. -/
def firstOpen (s : Progress) : Option Nat :=
  (s.keys.filterMap fun k => k.map KeyPlace.number).min?

/-- Takes a token of some characters, and tells whether a key may follow. -/
def take (s : Progress) (t : Token) (size : Nat) (allowsKey : Bool) : Progress :=
  { s.add t with place := forward size s.place, allowsKey }

/-- Goes past blanks, comments and line breaks. After a line break a key may begin, though not
    between brackets. -/
def skipBlanks : Nat → Progress → Progress
  | 0, s => s
  | bound + 1, s =>
    let c := s.place.skipComment
    if c.isAt isBreak then
      skipBlanks bound { s with place := c.lineBreak.2, allowsKey := s.allowsKey || !s.inFlow }
    else
      { s with place := c }

/-! ## Single tokens -/

/-- A directive. -/
def takeDirective (s : Progress) : Except Failure Progress := do
  let s ← (s.unwind (-1)).forgetKey
  let (t, place) ← directiveToken s.place
  return { s.add t with place, allowsKey := false }

/-- The mark of a document's beginning or end. -/
def takeSeparator (s : Progress) (t : Token) : Except Failure Progress := do
  let s ← (s.unwind (-1)).forgetKey
  return s.take t 3 false

/-- An opening bracket, which may be the beginning of a key. -/
def openFlow (s : Progress) (t : Token) : Except Failure Progress := do
  let s ← s.rememberKey
  return { s.take t 1 true with keys := none :: s.keys }

/-- A closing bracket. -/
def closeFlow (s : Progress) (t : Token) : Except Failure Progress := do
  let s ← s.forgetKey
  return { s.take t 1 false with keys := s.keys.tail }

/-- A comma. -/
def takeFlowEntry (s : Progress) : Except Failure Progress := do
  return (← s.forgetKey).take .flowEntry 1 true

/-- A dash, or a question mark before a key. -/
def takeIndicator (s : Progress) (opening t : Token) (allowsKey : Bool) (misplaced : Problem) :
    Except Failure Progress := do
  if s.inFlow then
    return (← s.forgetKey).take t 1 allowsKey
  else if s.allowsKey then
    return (← (s.deepenHere opening).forgetKey).take t 1 allowsKey
  else
    throw (.here misplaced s.place)

/-- A colon. If a key may have begun before it, then it has. -/
def takeValue (s : Progress) : Except Failure Progress := do
  match s.keys with
  | some spot :: keys =>
    let s := { s with keys := none :: keys }.addBefore spot .key
    let s :=
      if s.inFlow then
        s
      else
        let (deeper, s) := s.deepen spot.column
        if deeper then s.addBefore spot .blockMappingStart else s
    return s.take .value 1 false
  | _ =>
    if s.inFlow then
      return s.take .value 1 false
    else if s.allowsKey then
      return (s.deepenHere .blockMappingStart).take .value 1 true
    else
      throw (.here .misplacedValue s.place)

/-- An alias, an anchor or a tag, which may be the beginning of a key. -/
def takeProperty (s : Progress) (read : Cursor → Except Failure (Token × Cursor)) :
    Except Failure Progress := do
  let s ← s.rememberKey
  let (t, place) ← read s.place
  return { s.add t with place, allowsKey := false }

/-- A name after its mark. -/
def named (activity : Activity) (token : Text → Token) (c : Cursor) :
    Except Failure (Token × Cursor) := do
  let (name, stop) ← anchorName activity c.index c.step
  return (token name, stop)

/-- A block scalar. -/
def takeBlock (s : Progress) (folded : Bool) : Except Failure Progress := do
  let s ← s.forgetKey
  let (text, place) ← Scalar.block folded s.indent s.place.index s.place.step
  return { s.add (.scalar text false) with place, allowsKey := true }

/-- A scalar between quotes, which may be a key. -/
def takeQuoted (s : Progress) (double : Bool) : Except Failure Progress := do
  let s ← s.rememberKey
  let (text, place) ← Scalar.quoted double s.place.index s.place.step
  return { s.add (.scalar text false) with place, allowsKey := false }

/-- A plain scalar, which may be a key. After a line break at its end another key may begin. -/
def takePlain (s : Progress) : Except Failure Progress := do
  let s ← s.rememberKey
  let (text, broken, place) := Scalar.plain s.inFlow s.indent s.place
  return { s.add (.scalar text true) with place, allowsKey := broken }

/-- Can a plain scalar begin at the place? -/
def beginsPlain (s : Progress) : Bool :=
  s.place.isAt fun p =>
    if isBlank p then false
    else if isOneOf "-?:,[]\x7b\x7d#&*!|>'\"%@\x60" p then
      !s.place.endsAt 1 isBlank && (p = .char '-' || (!s.inFlow && isOneOf "?:" p))
    else true

/-- The next token, at a place where one begins with `c`. -/
def takeToken (s : Progress) (c : CodePoint) : Except Failure Progress :=
  let blankNext := s.place.endsAt 1 isBlank
  let atLineStart := s.place.column = 0
  if c = .char '%' ∧ atLineStart then s.takeDirective
  else if atLineStart ∧ s.place.isAtMark "---" then s.takeSeparator .documentStart
  else if atLineStart ∧ s.place.isAtMark "..." then s.takeSeparator .documentEnd
  else if c = .char '[' then s.openFlow .flowSequenceStart
  else if c = .char '{' then s.openFlow .flowMappingStart
  else if c = .char ']' then s.closeFlow .flowSequenceEnd
  else if c = .char '}' then s.closeFlow .flowMappingEnd
  else if c = .char ',' then s.takeFlowEntry
  else if c = .char '-' ∧ blankNext then
    s.takeIndicator .blockSequenceStart .blockEntry true .misplacedEntry
  else if c = .char '?' ∧ (s.inFlow ∨ blankNext) then
    s.takeIndicator .blockMappingStart .key (!s.inFlow) .misplacedKey
  else if c = .char ':' ∧ (s.inFlow ∨ blankNext) then s.takeValue
  else if c = .char '*' then s.takeProperty (named .reference .reference)
  else if c = .char '&' then s.takeProperty (named .anchor .anchor)
  else if c = .char '!' then s.takeProperty tagToken
  else if c = .char '|' ∧ !s.inFlow then s.takeBlock false
  else if c = .char '>' ∧ !s.inFlow then s.takeBlock true
  else if c = .char '\'' then s.takeQuoted false
  else if c = .char '"' then s.takeQuoted true
  else if s.beginsPlain then s.takePlain
  else
    .error (.malformed {
      activity := some .nextToken, problem := .noToken c, mark := .after s.place.index })

/-- What remains at the end of the document. -/
def finish (s : Progress) : Except Failure Progress :=
  (s.unwind (-1)).forgetKey

/-- Takes the next token, or closes what is open at the end, and tells whether there is more. -/
def takeNext (s : Progress) : Except Failure (Progress × Bool) := do
  let s ← (skipBlanks (s.place.rest.length + 1) s).forgetStale
  let s := s.unwind s.column
  match s.place.peek with
  | none => return (← s.finish, false)
  | some c => return (← (← s.takeToken c).forgetStale, true)

/-- All tokens from a place on; if the text is refused, those before the refusal. -/
def run : Nat → Progress → Progress × Option Failure
  | 0, s => (s, some (.here .endOfText s.place))
  | bound + 1, s =>
    match s.takeNext with
    | .error e => (s, some e)
    | .ok (next, true) => run bound next
    | .ok (done, false) => (done, none)

/-- How far the tokens of a text are found, and why no further. A byte order mark at the beginning
    does not count. -/
def ofText (t : Text) : Progress × Option Failure :=
  let start : Cursor := { rest := t }
  let start := if start.isAtChar '\uFEFF' then start.step else start
  run (t.length + 1) { place := start }

/-- The tokens before a refusal, and the refusal. It is noticed as soon as somebody asks for a token
    that a key may yet come before. -/
def refuse (s : Progress) (cause : Failure) : List Token :=
  let known := s.found.reverse
  (match s.firstOpen with
    | some n => known.take n
    | none => known) ++ [.fault cause]

end Progress

/-- Can the code point stand in a document? -/
def isAllowed (p : CodePoint) : Bool :=
  let n := p.value
  n == 0x09 || n == 0x0A || n == 0x0D || (0x20 ≤ n && n ≤ 0x7E) || n == 0x85
    || (0xA0 ≤ n && n < 0xD800) || (0xE000 ≤ n && n ≤ 0xFFFD) || 0x10000 ≤ n

/-- The tokens of a text. -/
def scan (t : Text) : List Token :=
  match t.dropWhile isAllowed with
  | [] =>
    match Progress.ofText t with
    | (s, none) => s.found.reverse
    | (s, some cause) => s.refuse cause
  | p :: r => [.fault (.notAllowed p (t.length - (r.length + 1)))]

/-- How many code points of a text come before each of its tokens, and before its end. -/
def places (t : Text) : List Nat :=
  (Progress.ofText t).1.places.reverse ++ [t.length]

end Token

end Yaml

end ApprovedOps
