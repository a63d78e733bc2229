import ApprovedOps.Number.Numeral
import ApprovedOps.Text.Utf8
import ApprovedOps.Yaml.Cursor

/-! # Refused documents

Why a text is no YAML document, or a scalar in it has no value: what was being read and since where,
what is wrong, and where that is.
-/

namespace ApprovedOps

namespace Yaml

/-- A point of a document. -/
inductive Mark where
  /-- After some code points. -/
  | after (count : Nat)
  /-- Where a token begins, by how many tokens are left there. -/
  | tokensLeft (count : Nat)
  /-- After a token of one code point, by how many tokens were left before it. -/
  | pastToken (count : Nat)
  deriving DecidableEq, Repr, Inhabited

/-- What was being read. -/
inductive Activity where
  /-- The next token. -/
  | nextToken
  /-- A key on one line. -/
  | simpleKey
  /-- A directive. -/
  | directive
  /-- The text of a tag in a directive. -/
  | directiveText
  /-- An alias. -/
  | reference
  /-- An anchor. -/
  | anchor
  /-- A tag. -/
  | tag
  /-- The text of a tag. -/
  | tagText
  /-- A block scalar. -/
  | blockScalar
  /-- A scalar between double quotes. -/
  | doubleQuoted
  /-- A scalar between quotes. -/
  | quoted
  /-- The properties of a node. -/
  | node
  /-- A node that may be indented. -/
  | blockNode
  /-- A node between brackets. -/
  | flowNode
  /-- An indented sequence. -/
  | blockSequence
  /-- An indented mapping. -/
  | blockMapping
  /-- A sequence in brackets. -/
  | flowSequence
  /-- A mapping in braces. -/
  | flowMapping
  /-- A node with an anchor. -/
  | anchored (name : Text)
  /-- The only document of a text. -/
  | document
  /-- The value of a mapping. -/
  | mappingValue
  /-- The value of an ordered mapping. -/
  | orderedValue
  /-- The value of a sequence of pairs. -/
  | pairsValue
  deriving DecidableEq, Repr

/-- The words for what was being read. -/
def Activity.message : Activity → Text
  | .nextToken => "while scanning for the next token"
  | .simpleKey => "while scanning a simple key"
  | .directive => "while scanning a directive"
  | .directiveText => "while parsing a directive"
  | .reference => "while scanning an alias"
  | .anchor => "while scanning an anchor"
  | .tag => "while scanning a tag"
  | .tagText => "while parsing a tag"
  | .blockScalar => "while scanning a block scalar"
  | .doubleQuoted => "while scanning a double-quoted scalar"
  | .quoted => "while scanning a quoted scalar"
  | .node => "while parsing a node"
  | .blockNode => "while parsing a block node"
  | .flowNode => "while parsing a flow node"
  | .blockSequence => "while parsing a block collection"
  | .blockMapping => "while parsing a block mapping"
  | .flowSequence => "while parsing a flow sequence"
  | .flowMapping => "while parsing a flow mapping"
  | .anchored name => .concat ["found duplicate anchor ", name.quoted, "; first occurrence"]
  | .document => "expected a single document in the stream"
  | .mappingValue => "while constructing a mapping"
  | .orderedValue => "while constructing an ordered map"
  | .pairsValue => "while constructing pairs"

/-- What is wrong. -/
inductive Problem where
  /-- No token begins with a code point. -/
  | noToken (p : CodePoint)
  /-- The colon after a key is missing. -/
  | noColon
  /-- An element of a sequence stands where none may. -/
  | misplacedEntry
  /-- A key stands where none may. -/
  | misplacedKey
  /-- A value stands where none may. -/
  | misplacedValue
  /-- Something else was expected than what was found. -/
  | unexpected (expected found : Text)
  /-- Something else was expected between brackets than the token that was found. -/
  | unexpectedInBrackets (expected token : Text)
  /-- The indentation of a block is zero. -/
  | zeroIndentation
  /-- A backslash is followed by no escape letter. -/
  | unknownEscape (p : CodePoint)
  /-- The text ends inside a scalar. -/
  | endOfText
  /-- A document begins or ends inside a scalar. -/
  | separator
  /-- The bytes in a tag are no UTF-8. -/
  | notUtf8 (e : Utf8.Failure)
  /-- A directive gives the version a second time. -/
  | secondVersion
  /-- The version is another one. -/
  | otherVersion
  /-- A directive sets a handle a second time. -/
  | secondHandle (name : Text)
  /-- A handle is not set. -/
  | unknownHandle (name : Text)
  /-- There is no node with an anchor. -/
  | unknownAlias (name : Text)
  /-- A second node has the same anchor. -/
  | secondAnchor
  /-- There is a second document. -/
  | secondDocument
  /-- No value has the tag of a node. -/
  | unknownTag (tag : Text)
  /-- A key is no scalar. -/
  | keyNotScalar
  /-- A mapping in a sequence of pairs has not one entry but another number of them. -/
  | notOneEntry (count : Nat)
  /-- Bytes to base 64 are written with another code point than the ASCII ones. -/
  | notAscii (first last : Nat) (p : CodePoint)
  /-- Bytes to base 64 end inside a group of letters. -/
  | incomplete (letters : Nat)
  deriving DecidableEq, Repr

/-- The words for what is wrong. -/
def Problem.message : Problem → Text
  | .noToken p => .concat ["found character ", Text.quoted [p], " that cannot start any token"]
  | .noColon => "could not find expected ':'"
  | .misplacedEntry => "sequence entries are not allowed here"
  | .misplacedKey => "mapping keys are not allowed here"
  | .misplacedValue => "mapping values are not allowed here"
  | .unexpected expected found => .concat ["expected ", expected, ", but found ", found]
  | .unexpectedInBrackets expected token => .concat ["expected ", expected, ", but got ", token]
  | .zeroIndentation => "expected indentation indicator in the range 1-9, but found 0"
  | .unknownEscape p => Text.ofString "found unknown escape character " ++ Text.quoted [p]
  | .endOfText => "found unexpected end of stream"
  | .separator => "found unexpected document separator"
  | .notUtf8 e => e.message
  | .secondVersion => "found duplicate YAML directive"
  | .otherVersion => "found incompatible YAML document (version 1.* is required)"
  | .secondHandle name => Text.ofString "duplicate tag handle " ++ name.quoted
  | .unknownHandle name => Text.ofString "found undefined tag handle " ++ name.quoted
  | .unknownAlias name => Text.ofString "found undefined alias " ++ name.quoted
  | .secondAnchor => "second occurrence"
  | .secondDocument => "but found another document"
  | .unknownTag tag => Text.ofString "could not determine a constructor for the tag " ++ tag.quoted
  | .keyNotScalar => "found unhashable key"
  | .notOneEntry count =>
    .concat ["expected a single mapping item, but found ", .ofNat count, " items"]
  | .notAscii first last p =>
    let start := "failed to convert base64 data into ascii: 'ascii' codec can't encode character"
    let place : Text :=
      if first = last then .concat [" '", escaped p, "' in position ", .ofNat first]
      else .concat ["s in position ", .ofNat first, "-", .ofNat last]
    .concat [start, place, ": ordinal not in range(128)"]
  | .incomplete letters =>
    if letters % 4 = 1 then
      .concat [
        "failed to decode base64 data: Invalid base64-encoded string: number of data characters (",
        .ofNat letters, ") cannot be 1 more than a multiple of 4" ]
    else
      "failed to decode base64 data: Incorrect padding"
where
  /-- A code point by its number. -/
  escaped (p : CodePoint) : Text :=
    if p.value < 0x100 then Text.ofString "\\x" ++ Text.hex 2 p.value
    else if p.value < 0x10000 then Text.ofString "\\u" ++ Text.hex 4 p.value
    else Text.ofString "\\U" ++ Text.hex 8 p.value

/-- What is said against a document. -/
structure Complaint where
  /-- What was being read. -/
  activity : Option Activity := none
  /-- Where that began. -/
  start : Option Mark := none
  /-- What is wrong. -/
  problem : Problem
  /-- Where that is. -/
  mark : Mark
  deriving DecidableEq, Repr

/-- What the calendar or the clock does not have. -/
inductive NoSuchInstant where
  /-- The year. -/
  | year (year : Nat)
  /-- The month. -/
  | month
  /-- The day. -/
  | day
  /-- The hour. -/
  | hour
  /-- The minute. -/
  | minute
  /-- The second. -/
  | second
  /-- The distance from universal time in minutes. -/
  | distance (minutes : Int)
  deriving DecidableEq, Repr

/-- Why a document is refused. -/
inductive Failure where
  /-- A code point cannot stand in a document. -/
  | notAllowed (p : CodePoint) (index : Nat)
  /-- The text is no document, or a node in it has no value of its kind. -/
  | malformed (c : Complaint)
  /-- A scalar that is marked as an integer is none. -/
  | notInteger (e : Numeral.Failure)
  /-- A scalar that is marked as a floating-point number is none. -/
  | notReal (t : Text)
  /-- A scalar that is marked as a number is empty. -/
  | emptyNumber
  /-- A number is too large for its arithmetic. -/
  | numberTooLarge
  /-- A scalar that is marked as a truth value is none. -/
  | notTruthValue (word : Text)
  /-- A scalar that is marked as an instant is none. -/
  | notInstant
  /-- A mapping is marked as an instant. -/
  | instantInMapping
  /-- The calendar or the clock does not have the instant. -/
  | noSuchInstant (what : NoSuchInstant)
  /-- An escape names a number beyond the last code point. -/
  | noSuchCodePoint
  /-- An escape names a number that is far too large. -/
  | codePointTooLarge
  deriving DecidableEq, Repr

namespace Failure

/-- The failure of a problem at a place, while something was being read that began elsewhere. -/
def during (activity : Activity) (start : Nat) (problem : Problem) (c : Cursor) : Failure :=
  .malformed {
    activity := some activity, start := some (.after start), problem, mark := .after c.index }

/-- The failure of something else than expected at a place. -/
def unexpected (activity : Activity) (start : Nat) (expected : String) (c : Cursor) : Failure :=
  during activity start (.unexpected (Text.ofString expected) c.shown) c

/-- The failure of a problem at a place. -/
def here (problem : Problem) (c : Cursor) : Failure :=
  .malformed { problem, mark := .after c.index }

end Failure

end Yaml

end ApprovedOps
