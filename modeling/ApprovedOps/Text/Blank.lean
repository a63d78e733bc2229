import ApprovedOps.Text.CodePoint

/-! # Blanks and lines

Which code points are white space, trimming, and where a text breaks into lines.
-/

namespace ApprovedOps

/-- White space: the Unicode separators, the ASCII controls that move the cursor, the four
    information separators and the next-line control. -/
def CodePoint.isBlank (p : CodePoint) : Bool :=
  let n := p.value
  (9 ≤ n && n ≤ 13) || (0x1C ≤ n && n ≤ 0x20) || n == 0x85 || n == 0xA0 || n == 0x1680
    || (0x2000 ≤ n && n ≤ 0x200A) || n == 0x2028 || n == 0x2029 || n == 0x202F || n == 0x205F
    || n == 0x3000

/-- Does a line end at this code point? -/
def CodePoint.isLineBreak (p : CodePoint) : Bool :=
  let n := p.value
  (10 ≤ n && n ≤ 13) || (0x1C ≤ n && n ≤ 0x1E) || n == 0x85 || n == 0x2028 || n == 0x2029

namespace Text

/-- The text without the blanks at its beginning. -/
def trimLeft (t : Text) : Text :=
  t.dropWhile CodePoint.isBlank

/-- The text without the blanks at its end. -/
def trimRight (t : Text) : Text :=
  (t.reverse.dropWhile CodePoint.isBlank).reverse

/-- The text without the blanks at both ends. -/
def trim (t : Text) : Text :=
  t.trimLeft.trimRight

/-- The maximal runs between code points of a class; a text without any is one run. -/
def splitWhere (p : CodePoint → Bool) : Text → List Text
  | [] => [[]]
  | c :: r =>
    if p c then
      [] :: splitWhere p r
    else
      match splitWhere p r with
      | [] => [[c]]
      | run :: runs => (c :: run) :: runs

/-- The maximal runs without blanks. -/
def words (t : Text) : List Text :=
  (splitWhere CodePoint.isBlank t).filter (· ≠ [])

/-- The first line of a text, without its line break. -/
def firstLine (t : Text) : Text :=
  t.takeWhile (!·.isLineBreak)

end Text

end ApprovedOps
