import ApprovedOps.GraphQL.Literal

/-! # The tokens of a text

An operation text as its tokens. White space, commas, byte order marks and comments separate tokens
and are dropped. The list ends with the end of the text, or with the first place where no token
begins; a reader notices the latter when it gets there, and not before.
-/

namespace ApprovedOps

namespace GraphQL

/-- A token, or a place where none begins. -/
inductive Lexed where
  /-- A token. -/
  | token (t : Token)
  /-- A place where no token begins. -/
  | broken (e : SyntaxError)
  deriving DecidableEq, Repr

namespace Lexed

/-- Is it dropped between tokens? -/
def isIgnored (p : CodePoint) : Bool :=
  p = .char '\uFEFF' || p = .char '\t' || p = .char ' ' || p = .char ',' || p = .char '\n'
    || p = .char '\r'

/-- Is it a mark of one code point? -/
def isMark : CodePoint → Bool
  | .char c => "!$&():=@[]\x7b|\x7d".toList.contains c
  | .surrogate _ => false

/-- How many code points of a comment follow its hash. -/
def commentTail (r : Text) : Nat :=
  (r.takeWhile fun p =>
    match p with
    | .char c => c != '\n' && c != '\r'
    | .surrogate _ => false).length

/-- What begins with a dot: the mark of three dots, or a problem. -/
def dots (r : Text) : Except Problem (TokenKind × Text × Nat) :=
  if r.startsWith [.char '.', .char '.'] then
    .ok (.mark (Text.ofString "..."), [], 2)
  else if r.head? = some (.char '.') then
    .error .twoDots
  else
    let digits := r.takeWhile CodePoint.isAsciiDigit
    if digits = [] then .error (.unexpectedCharacter (.char '.')) else .error (.pointFirst digits)

/-- The kind and value of the token that begins with `c` and continues in `r`, and how many code
    points of `r` it takes. -/
def tokenAt (c : CodePoint) (r : Text) : Except Misread (TokenKind × Text × Nat) :=
  if c = .char '"' then
    if r.startsWith [.char '"', .char '"'] then do
      let (value, n) ← Literal.after 3 (Literal.blockString (r.drop 2))
      return (.blockString, value, n + 2)
    else do
      let (value, n) ← Literal.after 1 (Literal.string r)
      return (.string, value, n)
  else if isMark c then
    .ok (.mark [c], [], 0)
  else if c.isAsciiDigit || c = .char '-' then do
    let (isFloat, n) ← Literal.number (c :: r)
    return (if isFloat then .float else .int, (c :: r).take n, n - 1)
  else if c.isNameStart then
    let tail := r.takeWhile CodePoint.isNameContinue
    .ok (.name, c :: tail, tail.length)
  else if c = .char '.' then
    match dots r with
    | .ok found => .ok found
    | .error problem => .error ⟨0, problem⟩
  else if c = .char '\'' then
    .error ⟨0, .singleQuote⟩
  else
    match c with
    | .char _ => .error ⟨0, .unexpectedCharacter c⟩
    | .surrogate _ => .error ⟨0, .invalidCharacter c⟩

/-- The tokens of a text that starts at an offset. -/
def scanFrom (position : Nat) (s : Text) : List Lexed :=
  match s with
  | [] => [.token ⟨.eof, position, []⟩]
  | c :: r =>
    if isIgnored c then
      scanFrom (position + 1) r
    else if c = .char '#' then
      let n := commentTail r
      scanFrom (position + n + 1) (r.drop n)
    else
      match tokenAt c r with
      | .ok (kind, value, n) =>
        .token ⟨kind, position, value⟩ :: scanFrom (position + n + 1) (r.drop n)
      | .error e => [.broken ⟨position + e.distance, e.problem⟩]
termination_by s.length
decreasing_by all_goals simp only [List.length_cons, List.length_drop]; omega

/-- The tokens of a text. -/
def scan (t : Text) : List Lexed :=
  scanFrom 0 t

end Lexed

end GraphQL

end ApprovedOps
