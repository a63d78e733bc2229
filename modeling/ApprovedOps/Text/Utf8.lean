import ApprovedOps.Text.CodePoint

/-! # UTF-8

Texts as bytes. Reading refuses overlong forms, surrogates and numbers beyond the last code point,
and says where and why; writing refuses lone surrogates.
-/

namespace ApprovedOps

namespace Utf8

/-- Why a run of bytes is no UTF-8. -/
inductive Reason where
  /-- The byte cannot begin a code point. -/
  | invalidStart
  /-- A byte that should continue a code point does not. -/
  | invalidContinuation
  /-- The bytes end inside a code point. -/
  | unexpectedEnd
  deriving DecidableEq, Repr

/-- A run of bytes that is no UTF-8. -/
structure Failure where
  /-- Offset of the first offending byte. -/
  start : Nat
  /-- The offending bytes. -/
  bytes : List UInt8
  /-- Why they are refused. -/
  reason : Reason
  deriving DecidableEq, Repr

/-- The words for a reason. -/
def Reason.message : Reason → Text
  | .invalidStart => "invalid start byte"
  | .invalidContinuation => "invalid continuation byte"
  | .unexpectedEnd => "unexpected end of data"

/-- The words for a failure: one byte is shown, of several only the positions. -/
def Failure.message (f : Failure) : Text :=
  match f.bytes with
  | [b] =>
    "'utf-8' codec can't decode byte 0x" ++ Text.hex 2 b.toNat ++ " in position "
      ++ Text.ofNat f.start ++ ": " ++ f.reason.message
  | bytes =>
    "'utf-8' codec can't decode bytes in position " ++ Text.ofNat f.start ++ "-"
      ++ Text.ofNat (f.start + bytes.length - 1) ++ ": " ++ f.reason.message

/-- Is it a byte that continues a code point? -/
def isContinuation (b : UInt8) : Bool :=
  0x80 ≤ b && b < 0xC0

/-- May `second` follow `first` in a code point of three bytes? -/
def isSecondOfThree (first second : UInt8) : Bool :=
  isContinuation second && !(first == 0xE0 && second < 0xA0) && !(first == 0xED && 0xA0 ≤ second)

/-- May `second` follow `first` in a code point of four bytes? -/
def isSecondOfFour (first second : UInt8) : Bool :=
  isContinuation second && !(first == 0xF0 && second < 0x90) && !(first == 0xF4 && 0x90 ≤ second)

/-- The low six bits of a continuation byte. -/
def payload (b : UInt8) : Nat :=
  b.toNat % 0x40

/-- The scalar value with a number that the byte tests have made one. -/
def scalar (n : Nat) : CodePoint :=
  .char (Char.ofNat n)

/-- The text of bytes that start at offset `offset`. -/
def decodeFrom (offset : Nat) : List UInt8 → Except Failure Text
  | [] => .ok []
  | a :: r =>
    let refuse (bytes : List UInt8) (reason : Reason) : Except Failure Text :=
      .error ⟨offset, bytes, reason⟩
    if a < 0x80 then
      (scalar a.toNat :: ·) <$> decodeFrom (offset + 1) r
    else if a < 0xC2 then
      refuse [a] .invalidStart
    else if a < 0xE0 then
      match r with
      | [] => refuse [a] .unexpectedEnd
      | b :: r =>
        if isContinuation b then
          (scalar ((a.toNat - 0xC0) * 0x40 + payload b) :: ·) <$> decodeFrom (offset + 2) r
        else
          refuse [a] .invalidContinuation
    else if a < 0xF0 then
      match r with
      | [] => refuse [a] .unexpectedEnd
      | [b] =>
        if isSecondOfThree a b then refuse [a, b] .unexpectedEnd
        else refuse [a] .invalidContinuation
      | b :: c :: r =>
        if !isSecondOfThree a b then
          refuse [a] .invalidContinuation
        else if !isContinuation c then
          refuse [a, b] .invalidContinuation
        else
          (scalar (((a.toNat - 0xE0) * 0x40 + payload b) * 0x40 + payload c) :: ·)
            <$> decodeFrom (offset + 3) r
    else if a < 0xF5 then
      match r with
      | [] => refuse [a] .unexpectedEnd
      | [b] =>
        if isSecondOfFour a b then refuse [a, b] .unexpectedEnd else refuse [a] .invalidContinuation
      | [b, c] =>
        if !isSecondOfFour a b then refuse [a] .invalidContinuation
        else if !isContinuation c then refuse [a, b] .invalidContinuation
        else refuse [a, b, c] .unexpectedEnd
      | b :: c :: d :: r =>
        if !isSecondOfFour a b then
          refuse [a] .invalidContinuation
        else if !isContinuation c then
          refuse [a, b] .invalidContinuation
        else if !isContinuation d then
          refuse [a, b, c] .invalidContinuation
        else
          (scalar ((((a.toNat - 0xF0) * 0x40 + payload b) * 0x40 + payload c) * 0x40 + payload d)
            :: ·) <$> decodeFrom (offset + 4) r
    else
      refuse [a] .invalidStart

/-- The text that bytes stand for, or the first run that stands for none. -/
def decode (bytes : List UInt8) : Except Failure Text :=
  decodeFrom 0 bytes

/-- The bytes of a scalar value. -/
def encodeChar (c : Char) : List UInt8 :=
  let n := c.toNat
  let tail (shift : Nat) : UInt8 := .ofNat (0x80 + n / shift % 0x40)
  if n < 0x80 then [.ofNat n]
  else if n < 0x800 then [.ofNat (0xC0 + n / 0x40), tail 1]
  else if n < 0x10000 then [.ofNat (0xE0 + n / 0x1000), tail 0x40, tail 1]
  else [.ofNat (0xF0 + n / 0x40000), tail 0x1000, tail 0x40, tail 1]

/-- The bytes of a text, unless it holds a lone surrogate. -/
def encode? (t : Text) : Option (List UInt8) :=
  t.chars?.map (·.flatMap encodeChar)

end Utf8

end ApprovedOps
