import ApprovedOps.Terminal.Emoji
import ApprovedOps.Terminal.Style

/-! # Markup

Texts for the terminal may hold tags in square brackets that open and close styles. Without colours
only the text between the tags is left, with emoji in place of their names. A tag that closes what
was never opened makes the whole text unusable; all other brackets are harmless.
-/

namespace ApprovedOps

namespace Markup

/-- A tag. -/
structure Tag where
  /-- What stands before the first equals sign. -/
  name : Text
  /-- What stands after it, if there is one. -/
  parameters : Option Text
  deriving DecidableEq, Repr

/-- A part of a text with markup. -/
inductive Part where
  /-- Plain text. -/
  | plain (t : Text)
  /-- A tag. -/
  | tag (t : Tag)
  deriving DecidableEq, Repr

/-- Why a text with markup cannot be used. -/
inductive Failure where
  /-- A tag closes a style that is not open. -/
  | notOpen (tag : Tag)
  /-- A tag closes the last style, but none is open. -/
  | nothingOpen
  deriving DecidableEq, Repr

/-- Can a tag begin with this code point? -/
def startsTag : CodePoint → Bool
  | .char c => c.isLower || c = '#' || c = '/' || c = '@'
  | .surrogate _ => false

/-- Does a code point end what may be inside a tag? -/
def endsTag (p : CodePoint) : Bool :=
  p = .char '[' || p = .char ']'

/-- What stands between the brackets of the tag at the beginning of a text, and what follows it. -/
def tagAt? (t : Text) : Option (Text × Text) :=
  match t with
  | .char '[' :: p :: r =>
    if startsTag p then
      match r.dropWhile (!endsTag ·) with
      | .char ']' :: rest => some (p :: r.takeWhile (!endsTag ·), rest)
      | _ => none
    else
      none
  | _ => none

/-- The backslashes at the beginning of a text, the inside of the tag after them, and the rest. -/
def escapedTagAt? (t : Text) : Option (Nat × Text × Text) :=
  let slashes := (t.takeWhile (· = .char '\\')).length
  (tagAt? (t.drop slashes)).map fun (inner, rest) => (slashes, inner, rest)

/-- The tag with a given inside. -/
def Tag.ofText (t : Text) : Tag :=
  { name := t.takeWhile (· ≠ .char '=')
    parameters := match t.dropWhile (· ≠ .char '=') with
      | [] => none
      | _ :: r => some r }

/-- The parts of a backslashed tag: two backslashes stand for one, and one that is left over makes
    the tag plain text. -/
def tagParts (slashes : Nat) (inner : Text) : List Part :=
  let literal := if slashes < 2 then [] else [.plain (List.replicate (slashes / 2) (.char '\\'))]
  literal ++
    [ if slashes % 2 = 1 then .plain (.char '[' :: inner ++ [.char ']'])
      else .tag (.ofText inner) ]

/-- A part of plain text, unless it is empty. -/
def plainPart (t : Text) : List Part :=
  if t = [] then [] else [.plain t]

/-- The parts of a text, where `before` is the reverse of the plain text read so far. The number of
    steps is that of the code points. -/
def partsAfter (before : Text) : Nat → Text → List Part
  | 0, t => plainPart (before.reverse ++ t)
  | steps + 1, t =>
    match escapedTagAt? t with
    | some (slashes, inner, rest) =>
      plainPart before.reverse ++ tagParts slashes inner ++ partsAfter [] steps rest
    | none =>
      match t with
      | [] => plainPart before.reverse
      | p :: r => partsAfter (p :: before) steps r

/-- The parts of a text. -/
def parts (t : Text) : List Part :=
  partsAfter [] t.length t

/-- A text in which a backslash before an opening bracket does not count. -/
def withoutBackslashes : Text → Text
  | [] => []
  | [p] => [p]
  | p :: q :: r =>
    if p = .char '\\' ∧ q = .char '[' then q :: withoutBackslashes r
    else p :: withoutBackslashes (q :: r)

/-- The names of open styles, the last one first, after a tag. -/
def afterTag (open_ : List Text) (t : Tag) : Except Failure (List Text) :=
  match t.name with
  | .char '/' :: r =>
    let inner := Text.trim r
    if inner = [] then
      match open_ with
      | [] => .error .nothingOpen
      | _ :: rest => .ok rest
    else
      let name := Style.canonical inner
      if open_.contains name then .ok (open_.erase name) else .error (.notOpen t)
  | name => .ok (Style.canonical name :: open_)

/-- The plain text of parts. -/
def plainOf (open_ : List Text) : List Part → Except Failure Text
  | [] => .ok []
  | .plain t :: rest => (plainOf open_ rest).map (Emoji.replace (withoutBackslashes t) ++ ·)
  | .tag t :: rest => do plainOf (← afterTag open_ t) rest

/-- The plain text of a text with markup. -/
def plain (t : Text) : Except Failure Text :=
  if t.contains (.char '[') then plainOf [] (parts t) else .ok (Emoji.replace t)

end Markup

end ApprovedOps
