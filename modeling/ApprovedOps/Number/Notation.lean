import ApprovedOps.Number.Shortest

/-! # Written floating-point numbers

The decimal text of a floating-point number: the shortest digits that read back, in positional
notation where the decimal point is near them and in scientific notation elsewhere.
-/

namespace ApprovedOps

namespace Binary64

/-- The words for what has no digits. -/
structure Words where
  /-- Infinity, without a sign. -/
  infinity : String
  /-- What is no number. -/
  nan : String

/-- The words in JSON texts. -/
def Words.json : Words := ⟨"Infinity", "NaN"⟩

/-- The words in plain texts. -/
def Words.plain : Words := ⟨"inf", "nan"⟩

/-- The digits without zeros at the end, and how many digits stand before the decimal point. -/
def pointed (digits : Nat) (power : Int) : List Char × Int :=
  let all := Nat.toDigits 10 digits
  ((all.reverse.dropWhile (· == '0')).reverse, all.length + power)

/-- The scientific exponent: a sign and at least two digits. -/
def exponentChars (e : Int) : List Char :=
  let digits := Nat.toDigits 10 e.natAbs
  'e' :: (if e < 0 then '-' else '+') :: (List.replicate (2 - digits.length) '0' ++ digits)

/-- Digits with the decimal point after the first `point` of them. From `10 ^ 16` on and below
    `10 ^ -4` the notation is scientific. -/
def place (digits : List Char) (point : Int) : List Char :=
  if point ≤ -4 ∨ 16 < point then
    match digits with
    | [] => []
    | d :: [] => d :: exponentChars (point - 1)
    | d :: r => d :: '.' :: r ++ exponentChars (point - 1)
  else if point ≤ 0 then
    '0' :: '.' :: List.replicate (-point).toNat '0' ++ digits
  else if digits.length ≤ point.toNat then
    digits ++ List.replicate (point.toNat - digits.length) '0' ++ ['.', '0']
  else
    digits.take point.toNat ++ '.' :: digits.drop point.toNat

/-- The written number, with the given words for what has no digits. -/
def render (words : Words) : Binary64 → Text
  | .nan => words.nan
  | .infinite negative => (if negative then [.char '-'] else []) ++ Text.ofString words.infinity
  | .finite negative m e =>
    let magnitude :=
      if m = 0 then
        ['0', '.', '0']
      else
        let (digits, power) := Shortest.decimal m e
        let (digits, point) := pointed digits power
        place digits point
    (if negative then [.char '-'] else []) ++ magnitude.map .char

/-- The number rounded to one digit after the decimal point; a half goes to the even neighbour. -/
def oneDecimal : Binary64 → Text
  | .finite negative m e =>
    let (n, d) := scale m 1 e
    let tenths := roundHalfEven (10 * n) d
    (if negative then [.char '-'] else [])
      ++ Text.ofNat (tenths / 10) ++ .char '.' :: Text.ofNat (tenths % 10)
  | x => x.render .plain

end Binary64

end ApprovedOps
