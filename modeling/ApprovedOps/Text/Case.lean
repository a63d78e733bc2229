import ApprovedOps.Text.CaseTable

/-! # Case mappings of texts

Lower and upper case of whole texts. A capital sigma that ends a word has a lower-case form of
its own, and some letters have an upper case of several code points.
-/

namespace ApprovedOps

namespace CodePoint

/-- The code point moved to a number, or itself where that number is none. -/
def movedTo (p : CodePoint) (n : Nat) : CodePoint :=
  (ofNat? n).getD p

/-- Is it a cased letter that a search for one stops at? -/
def isCased (p : CodePoint) : Bool :=
  CaseTable.casedRanges.contains p.value

/-- Does a search for a cased letter pass over it? -/
def isCaseIgnorable (p : CodePoint) : Bool :=
  CaseTable.ignorableRanges.contains p.value

/-- The lower case of a code point that is no capital sigma. -/
def lower (p : CodePoint) : Text :=
  match p with
  | .surrogate _ => [p]
  | .char c =>
    if c.toNat < 0x80 then [.char c.toLower]
    else if c.toNat = 0x130 then [.char 'i', .char (Char.ofNat 0x307)]
    else [p.movedTo (CaseTable.move CaseTable.lowerRuns c.toNat)]

/-- The upper case of a code point. -/
def upper (p : CodePoint) : Text :=
  match p with
  | .surrogate _ => [p]
  | .char c =>
    if c.toNat < 0x80 then [.char c.toUpper]
    else
      match CaseTable.upperExpansions.lookup c.toNat with
      | some numbers => numbers.map p.movedTo
      | none => [p.movedTo (CaseTable.move CaseTable.upperRuns c.toNat)]

end CodePoint

namespace Text

/-- Is the first code point that is not passed over a cased letter? -/
def meetsCased (t : Text) : Bool :=
  match t.dropWhile CodePoint.isCaseIgnorable with
  | [] => false
  | p :: _ => p.isCased

/-- The lower case of a text, given the reverse of what stands before it. -/
def lowerAfter (before : Text) : Text → Text
  | [] => []
  | p :: r =>
    let image :=
      if p.value = 0x3A3 then
        if meetsCased before && !meetsCased r then [p.movedTo 0x3C2] else [p.movedTo 0x3C3]
      else
        p.lower
    image ++ lowerAfter (p :: before) r

/-- The lower case of a text. -/
def lower (t : Text) : Text :=
  lowerAfter [] t

/-- The upper case of a text. -/
def upper (t : Text) : Text :=
  t.flatMap CodePoint.upper

end Text

end ApprovedOps
