import ApprovedOps.Text.CodePoint

/-! # Bytes to base 64

Bytes written with sixty-four letters, six bits each. Other code points are passed over, and
reading stops where padding completes a group of four.
-/

namespace ApprovedOps

namespace Base64

/-- The six bits of a letter. -/
def bits? (c : Char) : Option Nat :=
  if c.isUpper then some (c.toNat - 'A'.toNat)
  else if c.isLower then some (c.toNat - 'a'.toNat + 26)
  else if c.isDigit then some (c.toNat - '0'.toNat + 52)
  else if c = '+' then some 62
  else if c = '/' then some 63
  else none

/-- The bytes of letters; `count` letters of a group and `pads` marks of padding have come, and
    `held` are the bits of the last letter that are not in a byte yet. None if the letters end
    inside a group. -/
def decodeFrom (count pads held : Nat) : List Char → Option (List UInt8)
  | [] => if count = 0 then some [] else none
  | c :: r =>
    if c = '=' then
      if 2 ≤ count ∧ 4 ≤ count + pads + 1 then some []
      else decodeFrom count (if 2 ≤ count then pads + 1 else pads) held r
    else
      match bits? c with
      | none => decodeFrom count pads held r
      | some b =>
        match count with
        | 0 => decodeFrom 1 0 b r
        | 1 => (decodeFrom 2 0 (b % 16) r).map (.ofNat (held * 4 + b / 16) :: ·)
        | 2 => (decodeFrom 3 0 (b % 4) r).map (.ofNat (held * 16 + b / 4) :: ·)
        | _ => (decodeFrom 0 0 0 r).map (.ofNat (held * 64 + b) :: ·)

/-- The bytes that ASCII letters stand for. -/
def decode (cs : List Char) : Option (List UInt8) :=
  decodeFrom 0 0 0 cs

/-- How many letters there are. -/
def letters (cs : List Char) : Nat :=
  cs.countP fun c => (bits? c).isSome

/-- The letter of six bits. -/
def letter (n : Nat) : Char :=
  if n < 26 then Char.ofNat ('A'.toNat + n)
  else if n < 52 then Char.ofNat ('a'.toNat + (n - 26))
  else if n < 62 then Char.ofNat ('0'.toNat + (n - 52))
  else if n = 62 then '+'
  else '/'

/-- The letters of bytes, with padding to groups of four. -/
def encode : List UInt8 → List Char
  | [] => []
  | [a] => [letter (a.toNat / 4), letter (a.toNat % 4 * 16), '=', '=']
  | [a, b] =>
    [ letter (a.toNat / 4), letter (a.toNat % 4 * 16 + b.toNat / 16), letter (b.toNat % 16 * 4),
      '=' ]
  | a :: b :: c :: r =>
    letter (a.toNat / 4) :: letter (a.toNat % 4 * 16 + b.toNat / 16)
      :: letter (b.toNat % 16 * 4 + c.toNat / 64) :: letter (c.toNat % 64) :: encode r

end Base64

end ApprovedOps
