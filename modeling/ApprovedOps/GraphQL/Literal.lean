import ApprovedOps.GraphQL.Token
import ApprovedOps.GraphQL.BlockString

/-! # Literals of operation texts

Strings, block strings and numbers: what they stand for, how many code points they take, and what
can be wrong in them. Problems are placed relative to where the literal's remaining text starts.
-/

namespace ApprovedOps

namespace GraphQL

/-- A problem, and how many code points further on it lies. -/
structure Misread where
  /-- The distance. -/
  distance : Nat
  /-- The problem. -/
  problem : Problem
  deriving DecidableEq, Repr

/-- The problem seen from `n` code points before. -/
def Misread.from (n : Nat) (m : Misread) : Misread :=
  { m with distance := m.distance + n }

namespace Literal

/-- Is the number that of a scalar value? -/
def isScalar (n : Nat) : Bool :=
  n < 0xD800 || (0xE000 ≤ n && n < 0x110000)

/-- The scalar value with a number. -/
def scalar (n : Nat) : CodePoint :=
  (CodePoint.ofNat? n).getD default

/-- The number of the four hexadecimal digits that a text begins with. -/
def fourDigits? (s : Text) : Option Nat :=
  match s with
  | a :: b :: c :: d :: _ => do
    let a ← a.hexValue?
    let b ← b.hexValue?
    let c ← c.hexValue?
    let d ← d.hexValue?
    return ((a * 16 + b) * 16 + c) * 16 + d
  | _ => none

/-- The most digits and closing braces of an escape `\u{…}` that are looked at. -/
def maxBraced : Nat := 9

/-- Digits up to a closing brace, with the number of those before them. A failure tells how many
    code points were looked at. -/
def braced (digits number : Nat) : Text → Except Nat (CodePoint × Nat)
  | [] => .error digits
  | c :: r =>
    if c = .char '}' then
      if digits = 0 ∨ !isScalar number then .error (digits + 1) else .ok (scalar number, digits + 1)
    else
      match c.hexValue? with
      | some d => braced (digits + 1) (number * 16 + d) r
      | none => .error (digits + 1)

/-- What four digits after `\u` stand for, and how many code points the escape takes after its
    backslash. A high surrogate needs the escape of a low one after it. -/
def fourDigitEscape (r : Text) : Option (CodePoint × Nat) := do
  let high ← fourDigits? r
  if isScalar high then
    return (scalar high, 5)
  else if high < 0xDC00 ∧ Text.startsWith (r.drop 4) [.char '\\', .char 'u'] then
    let low ← fourDigits? (r.drop 6)
    if 0xDC00 ≤ low ∧ low < 0xE000 then
      return (scalar (0x10000 + (high - 0xD800) * 0x400 + (low - 0xDC00)), 11)
    else
      none
  else
    none

/-- The code point of an escape letter. -/
def escapeLetter? (c : CodePoint) : Option CodePoint :=
  if c = .char '"' ∨ c = .char '/' ∨ c = .char '\\' then some c
  else if c = .char 'b' then some '\x08'
  else if c = .char 'f' then some '\x0c'
  else if c = .char 'n' then some '\n'
  else if c = .char 'r' then some '\r'
  else if c = .char 't' then some '\t'
  else none

/-- What an escape stands for, given what follows its backslash, and how many code points it takes
    after it. -/
def escape (s : Text) : Except Problem (CodePoint × Nat) :=
  match s with
  | [] => .error (.invalidEscape [.char '\\'])
  | c :: r =>
    if c = .char 'u' then
      if r.head? = some (.char '{') then
        match braced 0 0 ((r.drop 1).take maxBraced) with
        | .ok (p, n) => .ok (p, n + 2)
        | .error n => .error (.invalidUnicodeEscape (.char '\\' :: s.take (n + 2)))
      else
        match fourDigitEscape r with
        | some found => .ok found
        | none => .error (.invalidUnicodeEscape (.char '\\' :: s.take 5))
    else
      match escapeLetter? c with
      | some p => .ok (p, 1)
      | none => .error (.invalidEscape [.char '\\', c])

/-- Is it a line feed or a carriage return? -/
def isNewline (p : CodePoint) : Bool :=
  p = .char '\n' || p = .char '\r'

/-- The content of a string after its opening quote, and how many code points it takes with its
    closing one. -/
def string (s : Text) : Except Misread (Text × Nat) :=
  match s with
  | [] => .error ⟨0, .unterminatedString⟩
  | c :: r =>
    if c = .char '"' then
      .ok ([], 1)
    else if c = .char '\\' then
      match escape r with
      | .error problem => .error ⟨0, problem⟩
      | .ok (p, n) =>
        match string (r.drop n) with
        | .ok (value, m) => .ok (p :: value, n + m + 1)
        | .error e => .error (e.from (n + 1))
    else if isNewline c then
      .error ⟨0, .unterminatedString⟩
    else
      match c with
      | .surrogate _ => .error ⟨0, .invalidInString c⟩
      | .char _ =>
        match string r with
        | .ok (value, m) => .ok (c :: value, m + 1)
        | .error e => .error (e.from 1)
termination_by s.length
decreasing_by all_goals simp only [List.length_cons, List.length_drop]; omega

/-- Three double quotes. -/
def tripleQuote : Text :=
  [.char '"', .char '"', .char '"']

/-- The raw lines of a block string after its opening quotes, the first one apart, and how many
    code points it takes with its closing ones. -/
def blockLines (s : Text) : Except Misread (Text × List Text × Nat) :=
  match s with
  | [] => .error ⟨0, .unterminatedString⟩
  | c :: r =>
    if tripleQuote.isPrefixOf (c :: r) then
      .ok ([], [], 3)
    else if c = .char '\\' ∧ tripleQuote.isPrefixOf r then
      match blockLines (r.drop 3) with
      | .ok (line, rest, n) => .ok (tripleQuote ++ line, rest, n + 4)
      | .error e => .error (e.from 4)
    else if c = .char '\r' ∧ r.head? = some (.char '\n') then
      match blockLines (r.drop 1) with
      | .ok (line, rest, n) => .ok ([], line :: rest, n + 2)
      | .error e => .error (e.from 2)
    else if isNewline c then
      match blockLines r with
      | .ok (line, rest, n) => .ok ([], line :: rest, n + 1)
      | .error e => .error (e.from 1)
    else
      match c with
      | .surrogate _ => .error ⟨0, .invalidInString c⟩
      | .char _ =>
        match blockLines r with
        | .ok (line, rest, n) => .ok (c :: line, rest, n + 1)
        | .error e => .error (e.from 1)
termination_by s.length
decreasing_by all_goals simp only [List.length_cons, List.length_drop]; omega

/-- The content of a block string after its opening quotes, and how many code points it takes with
    its closing ones. -/
def blockString (s : Text) : Except Misread (Text × Nat) :=
  match blockLines s with
  | .ok (first, rest, n) =>
    .ok (Text.join [.char '\n'] (BlockString.dedent (first :: rest)), n)
  | .error e => .error e

/-- How many digits a text begins with; there must be one. -/
def digits (s : Text) : Except Misread Nat :=
  let n := (s.takeWhile CodePoint.isAsciiDigit).length
  if n = 0 then .error ⟨0, .expectedDigit s.head?⟩ else .ok n

/-- Adds what comes `n` code points further on. -/
def after {α : Type} (n : Nat) (x : Except Misread α) : Except Misread α :=
  match x with
  | .ok a => .ok a
  | .error e => .error (e.from n)

/-- How many code points the digits before the point take. A zero stands alone. -/
def whole (s : Text) : Except Misread Nat :=
  if s.head? = some (.char '0') then
    let next := (s.drop 1).head?
    if next.any CodePoint.isAsciiDigit then .error ⟨1, .digitAfterZero next⟩ else .ok 1
  else
    digits s

/-- How many code points a fraction takes, if a point comes first. -/
def fraction (s : Text) : Except Misread Nat :=
  if s.head? = some (.char '.') then do
    let n ← after 1 (digits (s.drop 1))
    return n + 1
  else
    return 0

/-- How many code points an exponent takes, if its letter comes first. -/
def exponent (s : Text) : Except Misread Nat :=
  if s.head? = some (.char 'e') ∨ s.head? = some (.char 'E') then
    let next := (s.drop 1).head?
    let sign := if next = some (.char '+') ∨ next = some (.char '-') then 2 else 1
    do
      let n ← after sign (digits (s.drop sign))
      return n + sign
  else
    return 0

/-- How many code points a number takes, and whether it has a fraction or an exponent. Neither a
    point nor a name may follow it. -/
def number (s : Text) : Except Misread (Bool × Nat) := do
  let sign := if s.head? = some (.char '-') then 1 else 0
  let n₁ ← after sign (whole (s.drop sign))
  let n₁ := n₁ + sign
  let n₂ ← after n₁ (fraction (s.drop n₁))
  let n₃ ← after (n₁ + n₂) (exponent (s.drop (n₁ + n₂)))
  let n := n₁ + n₂ + n₃
  let next := (s.drop n).head?
  if next.any fun p => p = .char '.' || p.isNameStart then
    throw ⟨n, .expectedDigit next⟩
  return (n₂ + n₃ ≠ 0, n)

end Literal

end GraphQL

end ApprovedOps
