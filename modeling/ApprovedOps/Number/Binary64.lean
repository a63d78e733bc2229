import ApprovedOps.Text.CodePoint

/-! # Binary floating-point numbers

The numbers of the 64-bit binary format, as a mantissa and a power of two in exact integers, and
the rounding of a ratio to the nearest of them.
-/

namespace ApprovedOps

/-- A number of the 64-bit binary format. A finite one is `± mantissa · 2 ^ exponent`, where the
    mantissa has 53 bits, or fewer at the least exponent. -/
inductive Binary64 where
  /-- A finite number. -/
  | finite (negative : Bool) (mantissa : Nat) (exponent : Int)
  /-- An infinity. -/
  | infinite (negative : Bool)
  /-- No number. -/
  | nan
  deriving DecidableEq, Repr

namespace Binary64

/-- The least exponent of a finite number. -/
def leastExponent : Int := -1074

/-- The greatest exponent of a finite number. -/
def greatestExponent : Int := 971

/-- The value of the topmost bit of a mantissa of full width, which has 53 bits. -/
def hidden : Nat := 0x10000000000000

/-- Zero with a sign. -/
def zero (negative : Bool) : Binary64 :=
  .finite negative 0 leastExponent

/-- The integer nearest to `num / den`; a half goes to the even neighbour. -/
def roundHalfEven (num den : Nat) : Nat :=
  let whole := num / den
  let rest := 2 * (num % den)
  if rest < den ∨ (rest = den ∧ whole % 2 = 0) then whole else whole + 1

/-- The numerator and denominator of `num / den · 2 ^ shift`. -/
def scale (num den : Nat) (shift : Int) : Nat × Nat :=
  if 0 ≤ shift then (num * Nat.pow 2 shift.toNat, den)
  else (num, den * Nat.pow 2 (-shift).toNat)

/-- The greatest `k` with `2 ^ k ≤ num / den`, for positive numbers. -/
def floorLog2 (num den : Nat) : Int :=
  let k : Int := (num.log2 : Int) - den.log2
  let (n, d) := scale num den (-k)
  if d ≤ n then k else k - 1

/-- The number nearest to `num / den`; of two, the one with the even mantissa. -/
def ofRatio (negative : Bool) (num den : Nat) : Binary64 :=
  if num = 0 then
    zero negative
  else
    let exponent := max (floorLog2 num den - 52) leastExponent
    let (n, d) := scale num den (-exponent)
    let mantissa := roundHalfEven n d
    let (mantissa, exponent) :=
      if mantissa = 2 * hidden then (hidden, exponent + 1) else (mantissa, exponent)
    if greatestExponent < exponent then .infinite negative else .finite negative mantissa exponent

/-- How many decimal digits a number is written with. -/
def decimalLength (n : Nat) : Nat :=
  (Nat.toDigits 10 n).length

/-- The number nearest to `digits · 10 ^ power`. Far outside the range of the format only the sign
    matters. -/
def ofDecimal (negative : Bool) (digits : Nat) (power : Int) : Binary64 :=
  if digits = 0 then
    zero negative
  else
    let magnitude := (decimalLength digits : Int) + power
    if 320 < magnitude then .infinite negative
    else if magnitude < -340 then zero negative
    else if 0 ≤ power then ofRatio negative (digits * Nat.pow 10 power.toNat) 1
    else ofRatio negative digits (Nat.pow 10 (-power).toNat)

/-- The number with the opposite sign. -/
def neg : Binary64 → Binary64
  | .finite negative m e => .finite (!negative) m e
  | .infinite negative => .infinite (!negative)
  | .nan => .nan

/-- A finite number as a signed numerator over a denominator. -/
def ratio (negative : Bool) (mantissa : Nat) (exponent : Int) : Int × Nat :=
  let (n, d) := scale mantissa 1 exponent
  (if negative then -(n : Int) else n, d)

/-- The rounded sum. -/
def add : Binary64 → Binary64 → Binary64
  | .nan, _ | _, .nan => .nan
  | .infinite a, .infinite b => if a = b then .infinite a else .nan
  | .infinite a, _ => .infinite a
  | _, .infinite b => .infinite b
  | .finite na ma ea, .finite nb mb eb =>
    let (pa, qa) := ratio na ma ea
    let (pb, qb) := ratio nb mb eb
    let sum := pa * qb + pb * qa
    if sum = 0 then zero (na && nb) else ofRatio (sum < 0) sum.natAbs (qa * qb)

/-- The rounded product. -/
def mul : Binary64 → Binary64 → Binary64
  | .nan, _ | _, .nan => .nan
  | .infinite a, .infinite b => .infinite (a != b)
  | .infinite a, .finite b m _ => if m = 0 then .nan else .infinite (a != b)
  | .finite a m _, .infinite b => if m = 0 then .nan else .infinite (a != b)
  | .finite na ma ea, .finite nb mb eb =>
    let (pa, qa) := ratio na ma ea
    let (pb, qb) := ratio nb mb eb
    ofRatio (na != nb) (pa.natAbs * pb.natAbs) (qa * qb)

/-- The number nearest to a natural number. -/
def ofNat (n : Nat) : Binary64 :=
  ofRatio false n 1

/-- Is it a zero of either sign? -/
def isZero : Binary64 → Bool
  | .finite _ m _ => m == 0
  | _ => false

/-- The integer part of a finite number. -/
def truncate? : Binary64 → Option Int
  | .finite negative m e =>
    let (n, d) := ratio negative m e
    some (n.tdiv d)
  | _ => none

end Binary64

end ApprovedOps
