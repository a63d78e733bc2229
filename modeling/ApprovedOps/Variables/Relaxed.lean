import ApprovedOps.Text.Blank

/-! # Relaxed variables

Variables pasted next to a query may carry comments, commas after a last element and `$name`
placeholders in place of values. Outside strings the first two are dropped and the last becomes
`null`; what is left should be JSON.
-/

namespace ApprovedOps

namespace Variables

/-- How many code points a string takes after its opening quote, if it is closed. -/
def stringTail : Text → Option Nat
  | [] => none
  | .char '"' :: _ => some 1
  | .char '\\' :: _ :: r => (stringTail r).map (· + 2)
  | .char '\\' :: [] => none
  | _ :: r => (stringTail r).map (· + 1)

/-- How many code points there are up to and with the next `*/`. -/
def commentTail : Text → Option Nat
  | [] => none
  | .char '*' :: .char '/' :: _ => some 2
  | _ :: r => (commentTail r).map (· + 1)

/-- How many code points the line takes. -/
def lineTail (s : Text) : Nat :=
  (s.takeWhile (· ≠ .char '\n')).length

/-- What begins at a place of the text, with the code points it takes after the first. -/
inductive Decoration where
  /-- A string, which stays as it is. -/
  | string (tail : Nat)
  /-- A comment. -/
  | comment (tail : Nat)
  /-- A placeholder. -/
  | placeholder (tail : Nat)
  /-- Nothing of these. -/
  | plain
  deriving DecidableEq, Repr

/-- What a code point and the text after it begin with. -/
def Decoration.of (c : CodePoint) (r : Text) : Decoration :=
  if c = .char '"' then
    match stringTail r with
    | some n => .string n
    | none => .plain
  else if c = .char '#' then
    .comment (lineTail r)
  else if c = .char '/' then
    match r with
    | [] => .plain
    | d :: r' =>
      if d = .char '/' then .comment (1 + lineTail r')
      else if d = .char '*' then
        match commentTail r' with
        | some n => .comment (1 + n)
        | none => .plain
      else .plain
  else if c = .char '$' then
    match r with
    | [] => .plain
    | d :: r' =>
      if d.isNameStart then .placeholder (1 + (r'.takeWhile CodePoint.isNameContinue).length)
      else .plain
  else
    .plain

/-- The text without comments and with `null` for placeholders. -/
def dropComments (s : Text) : Text :=
  match s with
  | [] => []
  | c :: r =>
    match Decoration.of c r with
    | .string n => c :: r.take n ++ dropComments (r.drop n)
    | .comment n => dropComments (r.drop n)
    | .placeholder n => Text.ofString "null" ++ dropComments (r.drop n)
    | .plain => c :: dropComments r
termination_by s.length
decreasing_by all_goals simp only [List.length_cons, List.length_drop]; omega

/-- Is the next code point that is no blank a closing bracket? -/
def closesNext (s : Text) : Bool :=
  match s.dropWhile CodePoint.isBlank with
  | [] => false
  | c :: _ => c = .char '}' || c = .char ']'

/-- The text without the commas outside strings that stand before a closing bracket. -/
def dropCommas (s : Text) : Text :=
  match s with
  | [] => []
  | c :: r =>
    if c = .char '"' then
      match stringTail r with
      | some n => c :: r.take n ++ dropCommas (r.drop n)
      | none => c :: dropCommas r
    else if c = .char ',' && closesNext r then
      dropCommas r
    else
      c :: dropCommas r
termination_by s.length
decreasing_by all_goals simp only [List.length_cons, List.length_drop]; omega

/-- The text without comments and trailing commas and with `null` for placeholders. -/
def strip (t : Text) : Text :=
  dropCommas (dropComments t)

end Variables

end ApprovedOps
