import ApprovedOps.Terminal.EmojiTable
import ApprovedOps.Text.Blank
import ApprovedOps.Text.Case

/-! # Emoji by name

A name between colons stands for an emoji. An ending of the name can ask for its presentation as
text or as emoji. Colons around anything else stay.
-/

namespace ApprovedOps

namespace Emoji

/-- The entry that follows a name. -/
def entryAfter? (name : String) : List String → Option String
  | key :: entry :: rest => if key = name then some entry else entryAfter? name rest
  | _ => none

/-- The runs between spaces and line breaks. -/
def words (s : String) : List String :=
  ((s.splitOn "\n").flatMap (·.splitOn " ")).filter (· ≠ "")

/-- The code point of a number in base 16. -/
def codePoint? (digits : String) : Option CodePoint :=
  let n := digits.toList.foldl (fun n c => n * 16 + ((CodePoint.char c).hexValue?).getD 0) 0
  CodePoint.ofNat? n

/-- The emoji of a name in lower case. -/
def named? (name : Text) : Option Text :=
  (name.toString?.bind fun s => entryAfter? s (words table)).map fun entry =>
    (entry.splitOn "-").filterMap codePoint?

/-- The endings of names and the presentation that they ask for. -/
def endings : List (Text × Char) :=
  [("-emoji", '\uFE0F'), ("-text", '\uFE0E')]

/-- The emoji of what stands between two colons. -/
def between? (inner : Text) : Option Text :=
  match endings.find? fun (ending, _) => Text.endsWith inner ending with
  | some (ending, selector) =>
    (named? (Text.lower (inner.take (inner.length - ending.length)))).map
      (· ++ [.char selector])
  | none => named? inner.lower

/-- Can the code point be inside a name? -/
def isInside (p : CodePoint) : Bool :=
  !(p.isBlank || p = .char ':')

/-- A text with emoji in place of their names. The number of steps is that of the code points. -/
def replaceSteps : Nat → Text → Text
  | 0, t => t
  | _, [] => []
  | steps + 1, p :: r =>
    if p = .char ':' then
      let inner := r.takeWhile isInside
      match r.drop inner.length with
      | .char ':' :: rest =>
        (between? inner).getD (.char ':' :: inner ++ [.char ':']) ++ replaceSteps steps rest
      | _ => p :: replaceSteps steps r
    else
      p :: replaceSteps steps r

/-- A text with emoji in place of their names. -/
def replace (t : Text) : Text :=
  replaceSteps t.length t

end Emoji

end ApprovedOps
