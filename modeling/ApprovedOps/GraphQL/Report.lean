import ApprovedOps.GraphQL.Token

/-! # Reports of syntax errors

What is wrong with an operation text, where, and the lines around the place with a caret under it.
Lines that are too long are shown in pieces.
-/

namespace ApprovedOps

namespace GraphQL

namespace Report

/-- Longer lines are shown in pieces. -/
def maxLine : Nat := 120

/-- The length of a piece. -/
def pieceLength : Nat := 80

/-- The lines of a text; a carriage return with a line feed after it ends one line. -/
def lines (t : Text) : List Text :=
  match t with
  | [] => [[]]
  | c :: r =>
    if c = .char '\r' ∧ r.head? = some (.char '\n') then
      [] :: lines (r.drop 1)
    else if c = .char '\n' ∨ c = .char '\r' then
      [] :: lines r
    else
      match lines r with
      | [] => [[c]]
      | line :: rest => (c :: line) :: rest
termination_by t.length
decreasing_by all_goals simp only [List.length_cons, List.length_drop]; omega

/-- The line and column of an offset, counted from zero, given those of the beginning. -/
def locate (line column : Nat) (t : Text) (offset : Nat) : Nat × Nat :=
  match t, offset with
  | _, 0 => (line, column)
  | [], _ => (line, column + offset)
  | c :: r, offset + 1 =>
    if c = .char '\n' ∨ (c = .char '\r' ∧ r.head? ≠ some (.char '\n')) then
      locate (line + 1) 0 r offset
    else
      locate line (column + 1) r offset

/-- A line of a report: what stands in the margin, and what is shown. -/
abbrev Row := Text × Text

/-- The text with spaces before it, up to a width. -/
def padLeft (width : Nat) (t : Text) : Text :=
  List.replicate (width - t.length) (.char ' ') ++ t

/-- The rows below each other, with their margins aligned. -/
def rows (rs : List Row) : Text :=
  let width := (rs.map (·.1.length)).foldl max 0
  Text.join [.char '\n'] (rs.map fun (margin, shown) =>
    padLeft width margin ++ (if shown = [] then [] else .char ' ' :: shown))

/-- The margin of a numbered line. -/
def numbered (line : Nat) : Text :=
  Text.ofNat line ++ Text.ofString " |"

/-- The margin of a line without a number. -/
def unnumbered : Text := "|"

/-- A caret in a column, counted from one. -/
def caret (column : Nat) : Row :=
  (unnumbered, padLeft column [.char '^'])

/-- The pieces of a long line. -/
def pieces (line : Text) : List Text :=
  (List.range ((line.length + pieceLength - 1) / pieceLength)).map fun i =>
    (line.drop (i * pieceLength)).take pieceLength

/-- The rows for a place on a long line: all pieces up to the one with the place, the caret, and
    the piece after it. -/
def longRows (line : Text) (number column : Nat) : List Row :=
  let index := column / pieceLength
  match pieces line with
  | [] => []
  | first :: rest =>
    (numbered number, first) :: ((rest.take index).map fun p => (unnumbered, p))
      ++ [caret (column % pieceLength)] ++ ((rest.drop index).take 1).map fun p => (unnumbered, p)

/-- The rows for a place: the line before, the line, the caret, and the line after. -/
def shortRows (all : List Text) (index column : Nat) : List Row :=
  let before := if index = 0 then [] else [(numbered index, all.getD (index - 1) [])]
  let after := match all[index + 1]? with
    | some line => [(numbered (index + 2), line)]
    | none => []
  before ++ [(numbered (index + 1), all.getD index []), caret column] ++ after

/-- The place of an offset in a text and the lines around it. -/
def excerpt (t : Text) (offset : Nat) : Text :=
  let (index, column) := locate 0 0 t offset
  let all := lines t
  let line := all.getD index []
  let shown :=
    if maxLine < line.length then longRows line (index + 1) (column + 1)
    else shortRows all index (column + 1)
  .concat ["GraphQL request:", Text.ofNat (index + 1), ":", Text.ofNat (column + 1), "\n",
    rows shown]

end Report

/-- The words for a syntax error of a text. -/
def SyntaxError.report (e : SyntaxError) (t : Text) : Text :=
  .concat ["Syntax Error: ", e.problem.message, "\n\n", Report.excerpt t e.position]

end GraphQL

end ApprovedOps
