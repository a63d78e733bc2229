import ApprovedOps.Number.Binary64

/-! # Shortest decimal digits

The decimal with the fewest digits that rounds to a given floating-point number, and among those
the nearest to it; of two equally near ones, the one whose last digit is even.
-/

namespace ApprovedOps

namespace Shortest

/-- A ratio of natural numbers. -/
structure Ratio where
  /-- The numerator. -/
  num : Nat
  /-- The denominator. -/
  den : Nat

/-- `a ≤ b` for ratios. -/
def Ratio.le (a b : Ratio) : Bool :=
  a.num * b.den ≤ b.num * a.den

/-- `a < b` for ratios. -/
def Ratio.lt (a b : Ratio) : Bool :=
  a.num * b.den < b.num * a.den

/-- `n · 10 ^ power` as a ratio. -/
def Ratio.decimal (n : Nat) (power : Int) : Ratio :=
  if 0 ≤ power then ⟨n * Nat.pow 10 power.toNat, 1⟩ else ⟨n, Nat.pow 10 (-power).toNat⟩

/-- `n · 2 ^ power` as a ratio. -/
def Ratio.binary (n : Nat) (power : Int) : Ratio :=
  if 0 ≤ power then ⟨n * Nat.pow 2 power.toNat, 1⟩ else ⟨n, Nat.pow 2 (-power).toNat⟩

/-- The reals that round to `mantissa · 2 ^ exponent`: up to half the distance to either
    neighbour, ends included exactly when the mantissa is even. Below a power of two the
    neighbours are twice as dense. -/
def roundsTo (mantissa : Nat) (exponent : Int) (r : Ratio) : Bool :=
  let below :=
    if mantissa = Binary64.hidden ∧ Binary64.leastExponent < exponent then 4 * mantissa - 1
    else 4 * mantissa - 2
  let low := Ratio.binary below (exponent - 2)
  let high := Ratio.binary (4 * mantissa + 2) (exponent - 2)
  if mantissa % 2 = 0 then low.le r && r.le high else low.lt r && r.lt high

/-- The `k` with `10 ^ (k - 1) ≤ v < 10 ^ k`, for a positive `v = mantissa · 2 ^ exponent`. -/
def decimalPoint (mantissa : Nat) (exponent : Int) : Int :=
  let v := Ratio.binary mantissa exponent
  let guess := (((mantissa.log2 : Int) + exponent) * 1233).fdiv 4096 + 1
  if v.lt (.decimal 1 (guess - 1)) then guess - 1
  else if (Ratio.decimal 1 guess).le v then guess + 1
  else guess

/-- The greatest `d` with `d · 10 ^ power ≤ v`. -/
def gridFloor (v : Ratio) (power : Int) : Nat :=
  let unit := Ratio.decimal 1 power
  v.num * unit.den / (v.den * unit.num)

/-- Of two neighbours on the grid of `10 ^ power`, `d` and `d + 1`, the one nearer to `v`. -/
def nearer (v : Ratio) (d : Nat) (power : Int) : Nat :=
  let middle := Ratio.decimal (2 * d + 1) power
  let twice : Ratio := ⟨2 * v.num, v.den⟩
  if twice.lt middle then d
  else if middle.lt twice then d + 1
  else if d % 2 = 0 then d else d + 1

/-- The point of the grid of `10 ^ power` that rounds to the number, if there is one. -/
def onGrid? (mantissa : Nat) (exponent power : Int) : Option Nat :=
  let v := Ratio.binary mantissa exponent
  let d := gridFloor v power
  let fits (d : Nat) := roundsTo mantissa exponent (.decimal d power)
  match fits d, fits (d + 1) with
  | true, true => some (nearer v d power)
  | true, false => some d
  | false, true => some (d + 1)
  | false, false => none

/-- The shortest decimal of a positive number, as digits and a power of ten. Seventeen digits
    always suffice. -/
def decimal (mantissa : Nat) (exponent : Int) : Nat × Int :=
  let point := decimalPoint mantissa exponent
  let powers := (List.range 17).map fun i => point - ((i + 1 : Nat) : Int)
  let hit := powers.findSome? fun power =>
    (onGrid? mantissa exponent power).map fun d => (d, power)
  hit.getD (gridFloor (.binary mantissa exponent) (point - 17), point - 17)

end Shortest

end ApprovedOps
