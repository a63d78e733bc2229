import ApprovedOps.Text.Blank

/-! # Block strings

The content of a string between triple quotes: the indentation that all lines but the first share
is dropped, and so are blank lines at both ends. Written out again, the content goes on lines of
its own where that helps reading or is needed to keep it.
-/

namespace ApprovedOps

namespace GraphQL

namespace BlockString

/-- Is it a space or a tab? -/
def isSpace (p : CodePoint) : Bool :=
  p = .char ' ' || p = .char '\t'

/-- How many spaces and tabs a line begins with. -/
def indentation (line : Text) : Nat :=
  (line.takeWhile isSpace).length

/-- Does the line hold spaces and tabs only? -/
def isBlankLine (line : Text) : Bool :=
  line.all isSpace

/-- The indentation that the lines with content share. -/
def sharedIndentation (lines : List Text) : Option Nat :=
  ((lines.filter (!isBlankLine ·)).map indentation).min?

/-- The lines of the content, given the raw lines. -/
def dedent (lines : List Text) : List Text :=
  let dedented :=
    match lines with
    | [] => []
    | first :: rest =>
      match sharedIndentation rest with
      | some n => first :: rest.map (List.drop n)
      | none => first :: rest
  let kept := (lines.zip dedented).dropWhile (isBlankLine ·.1)
  (kept.reverse.dropWhile (isBlankLine ·.1)).reverse.map (·.2)

/-- The lines of a content for the purpose of its layout. -/
def lines (t : Text) : List Text :=
  match t with
  | [] => []
  | c :: r =>
    if c.isLineBreak then
      if c = .char '\r' ∧ r.head? = some (.char '\n') then [] :: lines (r.drop 1)
      else [] :: lines r
    else
      match lines r with
      | [] => [[c]]
      | line :: rest => (c :: line) :: rest
termination_by t.length
decreasing_by all_goals simp only [List.length_cons, List.length_drop]; omega

/-- A text with a backslash before every three double quotes. -/
def escapeQuotes (t : Text) : Text :=
  match t with
  | [] => []
  | c :: r =>
    if [.char '"', .char '"', .char '"'].isPrefixOf (c :: r) then
      Text.ofString "\\\"\"\"" ++ escapeQuotes (r.drop 2)
    else
      c :: escapeQuotes r
termination_by t.length
decreasing_by all_goals simp only [List.length_cons, List.length_drop]; omega

/-- Longer contents go on lines of their own. -/
def maxInline : Nat := 70

/-- A content between triple quotes. -/
def render (value : Text) : Text :=
  let escaped := escapeQuotes value
  let all := match lines escaped with
    | [] => [[]]
    | ls => ls
  let single := all.length == 1
  let indented := 1 < all.length && (all.drop 1).all fun line =>
    match line with
    | [] => true
    | c :: _ => isSpace c
  let endsInTriple := escaped.endsWith (Text.ofString "\\\"\"\"")
  let endsInQuote := value.getLast? = some (.char '"') && !endsInTriple
  let endsInSlash := value.getLast? = some (.char '\\')
  let closeBelow := endsInQuote || endsInSlash
  let spread := !single || maxInline < value.length || closeBelow || indented || endsInTriple
  let keepsFirst := single && (value.head?.any isSpace)
  let before := if (spread && !keepsFirst) || indented then [.char '\n'] else []
  let after := if spread || closeBelow then [.char '\n'] else []
  Text.ofString "\"\"\"" ++ before ++ escaped ++ after ++ Text.ofString "\"\"\""

end BlockString

end GraphQL

end ApprovedOps
