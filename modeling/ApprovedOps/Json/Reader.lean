import ApprovedOps.Json.Value
import ApprovedOps.Json.Failure

/-! # Reading JSON

A reader for JSON texts that also takes the words `NaN`, `Infinity` and `-Infinity`. Every step
returns what is left of the text together with the fact that it is shorter, so reading ends.
-/

namespace ApprovedOps

namespace Json.Reader

/-- What reading a piece of `s` gives: a result and the shorter rest, or a failure. -/
abbrev Step (α : Type) (s : Text) :=
  Except Failure (α × { r : Text // r.length < s.length })

/-- JSON white space. -/
def isBlank (p : CodePoint) : Bool :=
  p = .char ' ' || p = .char '\t' || p = .char '\n' || p = .char '\r'

/-- What follows a code point is shorter. -/
theorem length_lt_cons (c : CodePoint) (r : Text) : r.length < (c :: r).length :=
  Nat.lt_succ_self r.length

/-- What follows a code point is not longer. -/
theorem length_le_cons (c : CodePoint) (r : Text) : r.length ≤ (c :: r).length :=
  Nat.le_succ r.length

/-- What is not longer than what follows a code point is shorter than all. -/
theorem length_lt_cons_of_le (c : CodePoint) {s r : Text} (h : s.length ≤ r.length) :
    s.length < (c :: r).length :=
  Nat.lt_succ_of_le h

/-- What is shorter than what follows a code point is shorter than all. -/
theorem length_lt_cons_of_lt (c : CodePoint) {s r : Text} (h : s.length < r.length) :
    s.length < (c :: r).length :=
  Nat.lt_succ_of_lt h

/-- A text without the white space at its beginning. -/
def skipBlanks (s : Text) : { r : Text // r.length ≤ s.length } :=
  ⟨s.dropWhile isBlank, (List.dropWhile_suffix isBlank).length_le⟩

/-- The number of four hexadecimal digits and the rest. More must follow them. -/
def fourDigits? : (s : Text) → Option (Nat × { r : Text // r.length + 4 = s.length ∧ r ≠ [] })
  | a :: b :: c :: d :: e :: r =>
    match a.hexValue?, b.hexValue?, c.hexValue?, d.hexValue? with
    | some a, some b, some c, some d =>
      some (((a * 16 + b) * 16 + c) * 16 + d, ⟨e :: r, rfl, List.cons_ne_nil e r⟩)
    | _, _, _, _ => none
  | _ => none

/-- The code point of an escape letter. -/
def escapeLetter? : CodePoint → Option CodePoint
  | .char '"' => some '"'
  | .char '\\' => some '\\'
  | .char '/' => some '/'
  | .char 'b' => some '\x08'
  | .char 'f' => some '\x0c'
  | .char 'n' => some '\n'
  | .char 'r' => some '\r'
  | .char 't' => some '\t'
  | _ => none

/-- The code point of a number below `0x10000`. -/
def unit (n : Nat) : CodePoint :=
  (CodePoint.ofNat? n).getD default

/-- What follows the backslash and the `u` of an escape, if these come next. -/
def afterEscapeU? : (s : Text) → Option { r : Text // r.length + 2 = s.length }
  | c :: d :: r => if c = .char '\\' ∧ d = .char 'u' then some ⟨r, rfl⟩ else none
  | _ => none

/-- What follows the `u` of an escape: one code point, where a high surrogate and an escaped low
    one that follows it make one together. -/
def numericEscape (s : Text) : Step CodePoint s :=
  match fourDigits? s with
  | none => .error (.malformed .invalidNumericEscape (s.length + 1))
  | some (high, ⟨r, hr⟩) =>
    let alone : Step CodePoint s := .ok (unit high, ⟨r, by omega⟩)
    if 0xD800 ≤ high ∧ high < 0xDC00 then
      match afterEscapeU? r with
      | none => alone
      | some ⟨t, ht⟩ =>
        if t.length < 5 then
          alone
        else
          match fourDigits? t with
          | none => .error (.malformed .invalidNumericEscape (t.length + 1))
          | some (low, ⟨r₁, hr₁⟩) =>
            if 0xDC00 ≤ low ∧ low < 0xE000 then
              .ok (unit (0x10000 + (high - 0xD800) * 0x400 + (low - 0xDC00)), ⟨r₁, by omega⟩)
            else
              alone
    else
      alone

/-- The rest of a string after its opening quote, with which `opening` code points are left. -/
def string (opening : Nat) (s : Text) : Step Text s :=
  match s with
  | [] => .error (.malformed .unterminatedString opening)
  | c :: r =>
    if c = .char '"' then
      .ok ([], ⟨r, length_lt_cons c r⟩)
    else if c = .char '\\' then
      match r with
      | [] => .error (.malformed .unterminatedString opening)
      | d :: t =>
        if d = .char 'u' then do
          let (p, ⟨r₁, h₁⟩) ← numericEscape t
          let (tail, ⟨r₂, h₂⟩) ← string opening r₁
          have h := length_lt_cons_of_lt d (Nat.lt_trans h₂ h₁)
          return (p :: tail, ⟨r₂, length_lt_cons_of_lt c h⟩)
        else
          match escapeLetter? d with
          | none => .error (.malformed .invalidEscape (t.length + 2))
          | some p => do
            let (tail, ⟨r₁, h₁⟩) ← string opening t
            return (p :: tail, ⟨r₁, length_lt_cons_of_lt c (length_lt_cons_of_lt d h₁)⟩)
    else if c.value < 0x20 then
      .error (.malformed .controlCharacter (r.length + 1))
    else do
      let (tail, ⟨r₁, h₁⟩) ← string opening r
      return (c :: tail, ⟨r₁, length_lt_cons_of_lt c h₁⟩)
termination_by s.length
decreasing_by all_goals simp only [List.length_cons]; omega

/-- The number that decimal digits stand for. -/
def digitsValue (digits : Text) : Nat :=
  digits.foldl (fun n p => n * 10 + p.hexValue?.getD 0) 0

/-- The run of digits at the beginning of a text, and the rest. -/
def digits (s : Text) : Text × { r : Text // r.length ≤ s.length } :=
  (s.takeWhile CodePoint.isAsciiDigit,
    ⟨s.dropWhile CodePoint.isAsciiDigit, (List.dropWhile_suffix _).length_le⟩)

/-- A minus sign, if there is one. -/
def sign (s : Text) : Bool × { r : Text // r.length ≤ s.length } :=
  match s with
  | [] => (false, ⟨[], Nat.le_refl _⟩)
  | c :: r =>
    if c = .char '-' then (true, ⟨r, length_le_cons c r⟩) else (false, ⟨c :: r, Nat.le_refl _⟩)

/-- The digits before the point: a zero alone, or a run that does not begin with one. -/
def whole? (s : Text) : Option (Text × { r : Text // r.length < s.length }) :=
  match s with
  | [] => none
  | d :: r =>
    if d = .char '0' then
      some ([d], ⟨r, length_lt_cons d r⟩)
    else if d.isAsciiDigit then
      let (ds, ⟨r', hr'⟩) := digits r
      some (d :: ds, ⟨r', length_lt_cons_of_le d hr'⟩)
    else
      none

/-- A point and the digits after it, if there are any. -/
def fraction (s : Text) : Option Text × { r : Text // r.length ≤ s.length } :=
  match s with
  | [] => (none, ⟨[], Nat.le_refl _⟩)
  | c :: r =>
    let (ds, ⟨r₁, h₁⟩) := digits r
    if c = .char '.' ∧ ds ≠ [] then
      (some ds, ⟨r₁, Nat.le_of_lt (length_lt_cons_of_le c h₁)⟩)
    else
      (none, ⟨c :: r, Nat.le_refl _⟩)

/-- The sign of an exponent, if there is one. -/
def exponentSign (s : Text) : Bool × { r : Text // r.length ≤ s.length } :=
  match s with
  | [] => (false, ⟨[], Nat.le_refl _⟩)
  | c :: r =>
    if c = .char '-' then (true, ⟨r, length_le_cons c r⟩)
    else if c = .char '+' then (false, ⟨r, length_le_cons c r⟩)
    else (false, ⟨c :: r, Nat.le_refl _⟩)

/-- An exponent, if there are digits in it. -/
def exponent (s : Text) : Option Int × { r : Text // r.length ≤ s.length } :=
  match s with
  | [] => (none, ⟨[], Nat.le_refl _⟩)
  | e :: r =>
    let (negative, ⟨r₁, h₁⟩) := exponentSign r
    let (ds, ⟨r₂, h₂⟩) := digits r₁
    if (e = .char 'e' ∨ e = .char 'E') ∧ ds ≠ [] then
      let n : Int := digitsValue ds
      have h := length_lt_cons_of_le e (Nat.le_trans h₂ h₁)
      (some (if negative then -n else n), ⟨r₂, Nat.le_of_lt h⟩)
    else
      (none, ⟨e :: r, Nat.le_refl _⟩)

/-- A number. -/
def number (s : Text) : Step Json s :=
  let (negative, ⟨r₀, h₀⟩) := sign s
  match whole? r₀ with
  | none => .error (.malformed .expectingValue s.length)
  | some (ds, ⟨r₁, h₁⟩) =>
    let (fractionDigits, ⟨r₂, h₂⟩) := fraction r₁
    let (power, ⟨r₃, h₃⟩) := exponent r₂
    if fractionDigits.isNone ∧ power.isNone then
      if maxIntegerDigits < ds.length then
        .error (.integerTooLong ds.length)
      else
        let n : Int := digitsValue ds
        .ok (.integer (if negative then -n else n), ⟨r₃, by omega⟩)
    else
      let fs := fractionDigits.getD []
      .ok (.real (.ofDecimal negative (digitsValue (ds ++ fs)) (power.getD 0 - fs.length)),
        ⟨r₃, by omega⟩)

/-- The words that are values. -/
def words : List (Text × Json) :=
  [ ("null", .null), ("true", .bool true), ("false", .bool false), ("NaN", .real .nan),
    ("Infinity", .real (.infinite false)), ("-Infinity", .real (.infinite true)) ]

/-- The first of some words that the text begins with, its value, and the rest. -/
def word? (s : Text) : List (Text × Json) → Option (Json × { r : Text // r.length < s.length })
  | [] => none
  | ([], _) :: rest => word? s rest
  | (c :: w, v) :: rest =>
    if h : (c :: w).isPrefixOf s then
      some (v, ⟨s.drop (w.length + 1), by
        have := (List.isPrefixOf_iff_prefix.1 h).length_le
        simp only [List.length_cons, List.length_drop] at this ⊢
        omega⟩)
    else
      word? s rest

/-- What follows the bracket `close` and the white space before it, if these come next. -/
def closing? (close : Char) (s : Text) : Option { r : Text // r.length < s.length } :=
  match skipBlanks s with
  | ⟨[], _⟩ => none
  | ⟨c :: r, h⟩ =>
    if c = .char close then some ⟨r, by simp only [List.length_cons] at h; omega⟩ else none

/-- What follows the separator `c`, with the white space around it. -/
def separator (c : Char) (cause : Cause) (s : Text) :
    Except Failure { r : Text // r.length < s.length } :=
  match skipBlanks s with
  | ⟨[], _⟩ => .error (.malformed cause 0)
  | ⟨d :: r, h⟩ =>
    if d = .char c then
      let ⟨r₁, h₁⟩ := skipBlanks r
      .ok ⟨r₁, by simp only [List.length_cons] at h; omega⟩
    else
      .error (.malformed cause (r.length + 1))

/-- The name of a member. -/
def memberName (s : Text) : Step Text s :=
  match s with
  | [] => .error (.malformed .expectingName 0)
  | c :: r =>
    if c = .char '"' then do
      let (key, ⟨r₁, h₁⟩) ← string (r.length + 1) r
      return (key, ⟨r₁, length_lt_cons_of_lt c h₁⟩)
    else
      .error (.malformed .expectingName (r.length + 1))

mutual

/-- A value. -/
def value (s : Text) : Step Json s :=
  match s with
  | [] => .error (.malformed .expectingValue 0)
  | c :: r =>
    if c = .char '"' then do
      let (t, ⟨r₁, h₁⟩) ← string (r.length + 1) r
      return (.string t, ⟨r₁, length_lt_cons_of_lt c h₁⟩)
    else if c = .char '{' then
      match closing? '}' r with
      | some ⟨r₁, h₁⟩ => .ok (.object [], ⟨r₁, length_lt_cons_of_lt c h₁⟩)
      | none => do
        let ⟨r₁, h₁⟩ := skipBlanks r
        let (fields, ⟨r₂, h₂⟩) ← members [] r₁
        return (.object fields, ⟨r₂, length_lt_cons_of_lt c (Nat.lt_of_lt_of_le h₂ h₁)⟩)
    else if c = .char '[' then
      match closing? ']' r with
      | some ⟨r₁, h₁⟩ => .ok (.array [], ⟨r₁, length_lt_cons_of_lt c h₁⟩)
      | none => do
        let ⟨r₁, h₁⟩ := skipBlanks r
        let (items, ⟨r₂, h₂⟩) ← elements r₁
        return (.array items, ⟨r₂, length_lt_cons_of_lt c (Nat.lt_of_lt_of_le h₂ h₁)⟩)
    else
      match word? (c :: r) words with
      | some (v, ⟨r₁, h₁⟩) => .ok (v, ⟨r₁, h₁⟩)
      | none => number (c :: r)
termination_by (s.length, 0)
decreasing_by all_goals exact Prod.Lex.left _ _ (by simp only [List.length_cons]; omega)

/-- The elements of an array after its opening bracket, to the closing one. -/
def elements (s : Text) : Step (List Json) s := do
  let (v, ⟨r, hr⟩) ← value s
  match closing? ']' r with
  | some ⟨r₁, h₁⟩ => return ([v], ⟨r₁, by omega⟩)
  | none =>
    let ⟨r₁, h₁⟩ ← separator ',' .expectingComma r
    let (vs, ⟨r₂, h₂⟩) ← elements r₁
    return (v :: vs, ⟨r₂, by omega⟩)
termination_by (s.length, 1)
decreasing_by
  · exact Prod.Lex.right _ Nat.zero_lt_one
  · exact Prod.Lex.left _ _ (by omega)

/-- The members of an object after its opening bracket, to the closing one, added to the
    dictionary of those before them. -/
def members (before : Dictionary Json) (s : Text) : Step (Dictionary Json) s := do
  let (key, ⟨r₁, h₁⟩) ← memberName s
  let ⟨r₂, h₂⟩ ← separator ':' .expectingColon r₁
  let (v, ⟨r₃, h₃⟩) ← value r₂
  let fields := before.insert key v
  match closing? '}' r₃ with
  | some ⟨r₄, h₄⟩ => return (fields, ⟨r₄, by omega⟩)
  | none =>
    let ⟨r₄, h₄⟩ ← separator ',' .expectingComma r₃
    let (all, ⟨r₅, h₅⟩) ← members fields r₄
    return (all, ⟨r₅, by omega⟩)
termination_by (s.length, 1)
decreasing_by all_goals exact Prod.Lex.left _ _ (by omega)

end

end Json.Reader

/-- The value that a text stands for. -/
def Json.read (t : Text) : Except Json.Failure Json :=
  if t.head? = some (.char '\uFEFF') then
    .error (.malformed .byteOrderMark t.length)
  else do
    let ⟨start, _⟩ := Reader.skipBlanks t
    let (v, ⟨r, _⟩) ← Reader.value start
    let ⟨rest, _⟩ := Reader.skipBlanks r
    if rest = [] then return v else .error (.malformed .extraData rest.length)

end ApprovedOps
