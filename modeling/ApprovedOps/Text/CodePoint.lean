/-! # Code points and texts

A text is a list of Unicode code points. Submitted documents hold scalar values only, but a
variables block may spell a lone surrogate as an escape (`"\ud800"`), and from there it travels
through cleaned variables and stored records. So a position of a text is either a scalar value or
a surrogate that stands alone.
-/

namespace ApprovedOps

/-- One position of a text. -/
inductive CodePoint where
  /-- A Unicode scalar value. -/
  | char (c : Char)
  /-- A surrogate that stands alone; `offset` counts from `0xD800`. -/
  | surrogate (offset : Fin 0x800)
  deriving DecidableEq, Repr, Inhabited

/-- A text, one element for each code point. -/
abbrev Text := List CodePoint

instance : Coe Char CodePoint := ⟨.char⟩

namespace CodePoint

/-- The number of a code point. -/
def value : CodePoint → Nat
  | .char c => c.toNat
  | .surrogate offset => 0xD800 + offset.val

/-- The code point of a number, if it is one. -/
def ofNat? (n : Nat) : Option CodePoint :=
  if h : n.isValidChar then
    some (.char (Char.ofNatAux n h))
  else if h : 0xD800 ≤ n ∧ n < 0xE000 then
    some (.surrogate ⟨n - 0xD800, by omega⟩)
  else
    none

/-- Is it an ASCII letter or an underscore? -/
def isNameStart : CodePoint → Bool
  | .char c => c.isAlpha || c == '_'
  | .surrogate _ => false

/-- Is it an ASCII letter, an ASCII digit or an underscore? -/
def isNameContinue : CodePoint → Bool
  | .char c => c.isAlphanum || c == '_'
  | .surrogate _ => false

/-- Is it one of `0` to `9`? -/
def isAsciiDigit : CodePoint → Bool
  | .char c => c.isDigit
  | .surrogate _ => false

/-- The value of a hexadecimal digit of either case. -/
def hexValue? : CodePoint → Option Nat
  | .char c =>
    if c.isDigit then some (c.toNat - '0'.toNat)
    else if 'a' ≤ c ∧ c ≤ 'f' then some (c.toNat - 'a'.toNat + 10)
    else if 'A' ≤ c ∧ c ≤ 'F' then some (c.toNat - 'A'.toNat + 10)
    else none
  | .surrogate _ => none

end CodePoint

namespace Text

/-- The text of a string. -/
def ofString (s : String) : Text :=
  s.toList.map .char

instance : Coe String Text := ⟨ofString⟩

/-- The scalar values of a text, unless it holds a lone surrogate. -/
def chars? : Text → Option (List Char)
  | [] => some []
  | .char c :: r => (chars? r).map (c :: ·)
  | .surrogate _ :: _ => none

/-- The string of a text, unless it holds a lone surrogate. -/
def toString? (t : Text) : Option String :=
  t.chars?.map String.ofList

/-- A number in decimal digits. -/
def ofNat (n : Nat) : Text :=
  ofString (toString n)

/-- An integer in decimal digits, with a minus sign if it is negative. -/
def ofInt : Int → Text
  | .ofNat n => ofNat n
  | .negSucc n => .char '-' :: ofNat (n + 1)

/-- The digits of a number in base 16, lower case, padded with zeros to a width. -/
def hex (width n : Nat) : Text :=
  let digits := Nat.toDigits 16 n
  (List.replicate (width - digits.length) '0' ++ digits).map .char

/-- The digits of a number in base 16, upper case, padded with zeros to a width. -/
def hexUpper (width n : Nat) : Text :=
  let digits := (Nat.toDigits 16 n).map Char.toUpper
  (List.replicate (width - digits.length) '0' ++ digits).map .char

/-- What follows `start`, if the text begins with it. -/
def dropPrefix? (t start : Text) : Option Text :=
  start.isPrefixOf? t

/-- Does the text begin with `start`? -/
def startsWith (t start : Text) : Bool :=
  start.isPrefixOf t

/-- Does the text end with `tail`? -/
def endsWith (t tail : Text) : Bool :=
  tail.isSuffixOf t

/-- Does the text hold `part` anywhere? -/
def hasInfix (t part : Text) : Bool :=
  match t with
  | [] => part.isEmpty
  | c :: r => part.isPrefixOf (c :: r) || hasInfix r part

/-- The maximal runs between occurrences of `sep`; a text without it is one run. -/
def splitOn (sep : CodePoint) : Text → List Text
  | [] => [[]]
  | c :: r =>
    if c = sep then
      [] :: splitOn sep r
    else
      match splitOn sep r with
      | [] => [[c]]
      | run :: runs => (c :: run) :: runs

/-- The texts in order, with `sep` between each two. -/
def join (sep : Text) : List Text → Text
  | [] => []
  | [t] => t
  | t :: ts => t ++ sep ++ join sep ts

/-- The parts one after the other. -/
def concat (parts : List Text) : Text :=
  parts.flatten

/-- Lexicographic order by the numbers of the code points. -/
def lt : Text → Text → Bool
  | _, [] => false
  | [], _ :: _ => true
  | a :: s, b :: t => a.value < b.value || (a.value == b.value && lt s t)

end Text

end ApprovedOps
