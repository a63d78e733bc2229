import ApprovedOps.Terminal.Cells
import ApprovedOps.Text.Blank

/-! # Lines of cells

Texts laid out in lines of a given number of cells: wrapped between words, cut, and padded.
-/

namespace ApprovedOps

/-- What becomes of what does not fit into a line. -/
inductive Overflow where
  /-- It goes on in the next line. -/
  | fold
  /-- It is cut, and a mark shows it. -/
  | ellipsis
  deriving DecidableEq, Repr

/-- Where a line stands in its cells. -/
inductive Alignment where
  /-- At the left end. -/
  | left
  /-- In the middle. -/
  | center
  deriving DecidableEq, Repr

namespace Lines

/-- A number of spaces. -/
def spaces (n : Nat) : Text :=
  List.replicate n (.char ' ')

/-- The text padded to a width. -/
def padded (width : Nat) (t : Text) : Text :=
  t ++ spaces (width - t.cells)

/-- The longest beginning with at most `room` cells. -/
def take (room : Nat) : Text → Text
  | [] => []
  | p :: r =>
    let cells := Cells.ofCodePoint p
    if cells ≤ room then p :: take (room - cells) r else []

/-- The text cut or padded to a width. A wide letter that would stick out becomes a space. -/
def sized (width : Nat) (t : Text) : Text :=
  if t.cells ≤ width then padded width t else padded width (take width t)

/-- The text cut to a width, if it is wider. -/
def cut (width : Nat) (o : Overflow) (t : Text) : Text :=
  if t.cells ≤ width then t
  else
    match o with
    | .fold => sized width t
    | .ellipsis => sized (width - 1) t ++ [.char '…']

/-- The text at its place in a line of a width. -/
def aligned (width : Nat) (o : Overflow) (a : Alignment) (t : Text) : Text :=
  match a with
  | .left => padded width (cut width o t)
  | .center =>
    let t := cut width o t.trimRight
    padded width (spaces ((width - t.cells) / 2) ++ t)

/-! ## Wrapping -/

/-- The words of a text with the blanks around them: those in front of the first word, and those
    after every word. A text of blanks has no words. -/
def blankedWords (t : Text) : List Text :=
  let (front, rest) := t.span CodePoint.isBlank
  match split rest with
  | [] => []
  | w :: ws => (front ++ w) :: ws
where
  /-- Splits a text before every word but the first. -/
  split : Text → List Text
    | [] => []
    | [p] => [[p]]
    | p :: q :: r =>
      match split (q :: r) with
      | [] => [[p]]
      | w :: ws => if p.isBlank ∧ !q.isBlank then [p] :: w :: ws else (p :: w) :: ws

/-- Pieces of at most `width` cells, given the reverse of the piece so far and its cells. A letter
    that is wider has a piece of its own. -/
def chopAfter (width : Nat) (before : Text) (used : Nat) : Text → List Text
  | [] => [before.reverse]
  | p :: r =>
    let cells := Cells.ofCodePoint p
    if width < used + cells then before.reverse :: chopAfter width [p] cells r
    else chopAfter width (p :: before) (used + cells) r

/-- The pieces of a word that is wider than a line. -/
def chop (width : Nat) (t : Text) : List Text :=
  chopAfter width [] 0 t

/-- A line, unless it is empty. -/
def finished (line : Text) : List Text :=
  if line = [] then [] else [line]

/-- Puts words into lines of a width, given the line so far and its cells. A word that does not fit
    begins a new line. -/
def fill (width : Nat) (o : Overflow) (line : Text) (used : Nat) : List Text → List Text
  | [] => [line]
  | word :: rest =>
    let needed := word.trimRight.cells
    if used + needed ≤ width then
      fill width o (line ++ word) (used + word.cells) rest
    else if width < needed ∧ o = .fold then
      let pieces := chop width word
      let last := pieces.getLastD []
      finished line ++ pieces.dropLast ++ fill width o last last.cells rest
    else
      finished line ++ fill width o word word.cells rest

/-- A line without the blanks at its end that stand beyond a number of code points. -/
def withoutExcess (size : Nat) (line : Text) : Text :=
  let blanks := line.length - line.trimRight.length
  line.take (line.length - min blanks (line.length - size))

/-- The tabs of a line as spaces up to the next multiple of eight cells. -/
def withoutTabs (column : Nat) (part : Text) : Text → Text
  | [] => part.reverse
  | p :: r =>
    if p = .char '\t' then
      let column := column + Text.cells part.reverse
      let stop := (column / 8 + 1) * 8
      part.reverse ++ spaces (stop - column) ++ withoutTabs stop [] r
    else
      withoutTabs column (p :: part) r

/-- The lines of one line of text. -/
def wrapLine (width : Nat) (wraps : Bool) (o : Overflow) (t : Text) : List Text :=
  let t := withoutTabs 0 [] t
  let words := if wraps then blankedWords t else []
  let lines := if words = [] then [t] else fill width o [] 0 words
  lines.map (withoutExcess width)

/-- A text in lines of a width. -/
def wrap (width : Nat) (wraps : Bool) (o : Overflow) (a : Alignment) (t : Text) : List Text :=
  ((Text.splitOn (.char '\n') t).flatMap (wrapLine width wraps o)).map (aligned width o a)

/-! ## Measures -/

/-- The cells of the widest line of a text. -/
def widest (t : Text) : Nat :=
  (((Text.splitWhere CodePoint.isLineBreak t).map Text.cells).max?).getD 0

/-- The text without the controls that a terminal would act on. -/
def withoutControls (t : Text) : Text :=
  t.filter fun p => !([7, 8, 11, 12, 13] : List Nat).contains p.value

end Lines

end ApprovedOps
