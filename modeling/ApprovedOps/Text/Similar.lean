import ApprovedOps.Text.CodePoint

/-! # Similar texts

How much two texts have in common: the longest run that is in both, and then what the parts before
it and the parts after it have in common.
-/

namespace ApprovedOps

namespace Text

/-- A run that two texts share: where it begins in each of them, and its length. -/
structure SharedRun where
  /-- Its beginning in the first text. -/
  inFirst : Nat := 0
  /-- Its beginning in the second text. -/
  inSecond : Nat := 0
  /-- Its length. -/
  length : Nat := 0
  deriving DecidableEq, Repr

/-- The length of the common beginning of two texts. -/
def commonStart : Text → Text → Nat
  | p :: s, q :: t => if p = q then commonStart s t + 1 else 0
  | _, _ => 0

/-- The longest run in both texts; of several the first one in the first text, and of those the
    first one in the second. -/
def longestRun (s t : Text) : SharedRun :=
  (List.range s.length).foldl
    (fun best i =>
      (List.range t.length).foldl
        (fun best j =>
          let length := commonStart (s.drop i) (t.drop j)
          if best.length < length then ⟨i, j, length⟩ else best)
        best)
    {}

/-- How many code points two texts share in runs. Every step takes a run of the first text, so its
    length bounds the depth. -/
def shared : Nat → Text → Text → Nat
  | 0, _, _ => 0
  | depth + 1, s, t =>
    let run := longestRun s t
    if run.length = 0 then 0
    else
      shared depth (s.take run.inFirst) (t.take run.inSecond) + run.length
        + shared depth (s.drop (run.inFirst + run.length)) (t.drop (run.inSecond + run.length))

/-- Is at least three fifths of both texts shared? -/
def isCloseTo (s t : Text) : Bool :=
  3 * (s.length + t.length) ≤ 10 * shared s.length s t

/-- At most three of some texts that are close to a text, the closest first. -/
def closest (t : Text) (others : List Text) : List Text :=
  let rated := (others.filter (isCloseTo · t)).map fun s => (shared s.length s t, s)
  let closer := fun ((m, s) : Nat × Text) ((n, u) : Nat × Text) =>
    let left := m * (u.length + t.length)
    let right := n * (s.length + t.length)
    right < left || (left == right && !lt s u)
  ((rated.mergeSort closer).take 3).map (·.2)

end Text

end ApprovedOps
