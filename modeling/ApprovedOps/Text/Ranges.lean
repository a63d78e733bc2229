import ApprovedOps.Text.CodePoint

/-! # Ranges of code points

A property of code points, written as the closed ranges that have it.
-/

namespace ApprovedOps

/-- Closed ranges of numbers. -/
abbrev Ranges := List (Nat × Nat)

/-- Is the number in one of the ranges? -/
def Ranges.contains (ranges : Ranges) (n : Nat) : Bool :=
  ranges.any fun (lo, hi) => lo ≤ n && n ≤ hi

end ApprovedOps
