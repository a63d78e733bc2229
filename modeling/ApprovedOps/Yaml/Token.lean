import ApprovedOps.Number.Numeral
import ApprovedOps.Text.Utf8
import ApprovedOps.Yaml.Scalar

/-! # Tokens of a document

The tokens of a YAML document, and how those that are not scalars are written: directives, anchors
and tags.
-/

namespace ApprovedOps

namespace Yaml

/-- A token of a document. -/
inductive Token where
  /-- The version of the language, of which the major number counts. -/
  | version (major : Nat)
  /-- What a handle of tags stands for. -/
  | handle (name stands : Text)
  /-- Another directive, which has no effect. -/
  | directive
  /-- The mark of a document's beginning. -/
  | documentStart
  /-- The mark of a document's end. -/
  | documentEnd
  /-- An indented sequence begins. -/
  | blockSequenceStart
  /-- An indented mapping begins. -/
  | blockMappingStart
  /-- An indented sequence or mapping ends. -/
  | blockEnd
  /-- A sequence in brackets begins. -/
  | flowSequenceStart
  /-- A sequence in brackets ends. -/
  | flowSequenceEnd
  /-- A mapping in braces begins. -/
  | flowMappingStart
  /-- A mapping in braces ends. -/
  | flowMappingEnd
  /-- The dash of a sequence's element. -/
  | blockEntry
  /-- The comma between elements. -/
  | flowEntry
  /-- A key of a mapping follows. -/
  | key
  /-- A value of a mapping follows. -/
  | value
  /-- A node from before, by its anchor. -/
  | reference (name : Text)
  /-- A name for the node that follows. -/
  | anchor (name : Text)
  /-- The tag of the node that follows. -/
  | tag (handle : Option Text) (suffix : Text)
  /-- A scalar. -/
  | scalar (text : Text) (plain : Bool)
  /-- The text is refused here. -/
  | fault (cause : Failure)
  deriving DecidableEq, Repr

namespace Token

open Cursor

/-- Gives up unless a code point of a class, or the end of the document, is at a place. -/
def endAt (activity : Activity) (start : Nat) (expected : String) (p : CodePoint → Bool)
    (c : Cursor) : Except Failure Unit :=
  if c.endsAt 0 p then .ok () else .error (.unexpected activity start expected c)

/-- What a name consists of. -/
def nameLetter : String :=
  "alphabetic or numeric character"

/-- A word of letters, digits, underscores and hyphens, which is not empty. -/
def word (activity : Activity) (start : Nat) (c : Cursor) : Except Failure (Text × Cursor) :=
  let (run, stop) := c.takeWhile isWordPart
  if run = [] then .error (.unexpected activity start nameLetter c) else .ok (run, stop)

/-- The name of an anchor or an alias after its mark. -/
def anchorName (activity : Activity) (start : Nat) (c : Cursor) :
    Except Failure (Text × Cursor) := do
  let (name, c) ← word activity start c
  endAt activity start nameLetter (fun p => isBlank p || isOneOf "?:,]\x7d%@\x60" p) c
  return (name, c)

/-! ## Tags -/

/-- Where a tag is written. -/
inductive TagPlace where
  /-- Before a node. -/
  | node
  /-- In a directive. -/
  | directive
  deriving DecidableEq, Repr

/-- What is being read there. -/
def TagPlace.activity : TagPlace → Activity
  | .node => .tag
  | .directive => .directive

/-- What is being read there inside the text of the tag. -/
def TagPlace.textActivity : TagPlace → Activity
  | .node => .tagText
  | .directive => .directiveText

/-- Can the code point stand in a tag? -/
def isTagPart (p : CodePoint) : Bool :=
  isWordPart p || isOneOf ";/?:@&=+$,.!~*'()[]%" p

/-- Bytes that are each written as a percent sign and two hexadecimal digits, and the place after
    them. -/
def escapedBytes (place : TagPlace) (start : Nat) :
    Nat → Cursor → Except Failure (List UInt8 × Cursor)
  | 0, c => .ok ([], c)
  | bound + 1, c =>
    if c.isAtChar '%' then
      let c := c.step
      match Scalar.hexNumber? 2 c.rest with
      | some n => do
        let (bytes, stop) ← escapedBytes place start bound (forward 2 c)
        return (n.toUInt8 :: bytes, stop)
      | none =>
        .error (Scalar.noDigit place.activity start
          (.ofString "URI escape sequence of 2 hexadecimal numbers") c)
    else
      .ok ([], c)

/-- Parts of a tag up to a code point that cannot stand in one. -/
def tagParts (place : TagPlace) (start : Nat) : Nat → Cursor → Except Failure (Text × Cursor)
  | 0, c => .ok ([], c)
  | bound + 1, c => do
    let (run, c) := c.takeWhile fun p => isTagPart p && p ≠ .char '%'
    if c.isAtChar '%' then
      let (bytes, stop) ← escapedBytes place start (c.rest.length + 1) c
      match Utf8.decode bytes with
      | .error e => throw (.during place.activity start (.notUtf8 e) c)
      | .ok escaped =>
        let (more, stop) ← tagParts place start bound stop
        return (run ++ escaped ++ more, stop)
    else
      return (run, c)

/-- The text of a tag, which is not empty. -/
def tagText (place : TagPlace) (start : Nat) (c : Cursor) : Except Failure (Text × Cursor) := do
  let (text, stop) ← tagParts place start (c.rest.length + 1) c
  if stop.index = c.index then
    throw (.unexpected place.textActivity start "URI" c)
  else
    return (text, stop)

/-- A handle: an exclamation mark, or a word between two. -/
def handleName (place : TagPlace) (start : Nat) (c : Cursor) : Except Failure (Text × Cursor) :=
  if c.isAtChar '!' then
    let mark := c.step
    if mark.isAtChar ' ' then
      .ok ([.char '!'], mark)
    else
      let (name, stop) := mark.takeWhile isWordPart
      if stop.isAtChar '!' then
        .ok (.char '!' :: name ++ [.char '!'], stop.step)
      else
        .error (.unexpected place.activity start "'!'" stop)
  else
    .error (.unexpected place.activity start "'!'" c)

/-- Is there a second exclamation mark in the tag at the place? -/
def hasHandle (c : Cursor) : Bool :=
  ((c.rest.drop 1).takeWhile (!isSpaceOrBreak ·)).contains (.char '!')

/-- A tag before a node: in angle brackets, a lone exclamation mark, or a handle and a text. -/
def tagToken (c : Cursor) : Except Failure (Token × Cursor) := do
  let start := c.index
  let (token, stop) ←
    if c.peekAt 1 = some (.char '<') then
      let (text, c) ← tagText .node start (forward 2 c)
      if c.isAtChar '>' then
        pure (Token.tag none text, c.step)
      else
        throw (.unexpected .tagText start "'>'" c)
    else if c.endsAt 1 isBlank then
      pure (Token.tag none [.char '!'], c.step)
    else
      let (mark, c) ←
        if hasHandle c then handleName .node start c else pure ([.char '!'], c.step)
      let (text, c) ← tagText .node start c
      pure (Token.tag (some mark) text, c)
  endAt .tag start "' '" isSpaceOrBreak stop
  return (token, stop)

/-! ## Directives -/

/-- A number of decimal digits. -/
def decimal (start : Nat) (c : Cursor) : Except Failure (Nat × Cursor) :=
  let (digits, stop) := c.takeWhile CodePoint.isAsciiDigit
  if digits = [] then
    .error (.unexpected .directive start "a digit" c)
  else if Numeral.maxDigits < digits.length then
    .error (.notInteger (.tooLong digits.length))
  else
    .ok (digits.foldl (fun n p => n * 10 + p.hexValue?.getD 0) 0, stop)

/-- The version of the language. -/
def versionToken (start : Nat) (c : Cursor) : Except Failure (Token × Cursor) := do
  let (major, c) ← decimal start (c.skipWhile isSpace)
  if c.isAtChar '.' then
    let (_, c) ← decimal start c.step
    endAt .directive start "a digit or ' '" isSpaceOrBreak c
    return (.version major, c)
  else
    throw (.unexpected .directive start "a digit or '.'" c)

/-- A handle and what it stands for. -/
def handleToken (start : Nat) (c : Cursor) : Except Failure (Token × Cursor) := do
  let (name, c) ← handleName .directive start (c.skipWhile isSpace)
  if c.isAtChar ' ' then
    let (stands, c) ← tagText .directive start (c.skipWhile isSpace)
    endAt .directive start "' '" isSpaceOrBreak c
    return (.handle name stands, c)
  else
    throw (.unexpected .directive start "' '" c)

/-- A directive, to the end of its line. -/
def directiveToken (c : Cursor) : Except Failure (Token × Cursor) := do
  let start := c.index
  let (name, c) ← word .directive start c.step
  endAt .directive start nameLetter isSpaceOrBreak c
  let (token, c) ←
    if name = Text.ofString "YAML" then versionToken start c
    else if name = Text.ofString "TAG" then handleToken start c
    else pure (.directive, c.skipWhile (!isBreak ·))
  let c := c.skipComment
  endAt .directive start "a comment or a line break" isBreak c
  return (token, c.lineBreak.2)

/-- The words for a token in messages. -/
def shown : Token → Text
  | .version _ | .handle _ _ | .directive => "'<directive>'"
  | .documentStart => "'<document start>'"
  | .documentEnd => "'<document end>'"
  | .blockSequenceStart => "'<block sequence start>'"
  | .blockMappingStart => "'<block mapping start>'"
  | .blockEnd => "'<block end>'"
  | .flowSequenceStart => "'['"
  | .flowSequenceEnd => "']'"
  | .flowMappingStart => "'\x7b'"
  | .flowMappingEnd => "'\x7d'"
  | .blockEntry => "'-'"
  | .flowEntry => "','"
  | .key => "'?'"
  | .value => "':'"
  | .reference _ => "'<alias>'"
  | .anchor _ => "'<anchor>'"
  | .tag _ _ => "'<tag>'"
  | .scalar _ _ => "'<scalar>'"
  | .fault _ => "'<fault>'"

end Token

end Yaml

end ApprovedOps
