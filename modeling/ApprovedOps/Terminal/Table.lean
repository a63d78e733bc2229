import ApprovedOps.Terminal.Lines
import ApprovedOps.Terminal.Markup

/-! # Tables

A table with a title and a header, drawn with box characters in a terminal of some width. All texts
in it may have markup. Columns that can wrap give up room first when the table is too wide.
-/

namespace ApprovedOps

/-- A column of a table. -/
structure Column where
  /-- Its header. -/
  header : Text
  /-- Can its cells take several lines? -/
  wraps : Bool := true
  /-- Where its texts stand. -/
  alignment : Alignment := .left
  deriving DecidableEq, Repr

/-- A table. -/
structure Table where
  /-- The title. -/
  title : Text
  /-- The columns. -/
  columns : List Column
  /-- The rows, with a text for every column. -/
  rows : List (List Text)
  deriving DecidableEq, Repr

namespace Table

/-- The cells around every text. -/
def padding : Nat := 2

/-! ## Widths -/

/-- The quotient of two numbers, rounded to the nearest integer, from halfway to the even one. -/
def rounded (n d : Nat) : Nat :=
  let q := n / d
  let twice := 2 * (n % d)
  if twice < d then q
  else if d < twice then q + 1
  else q + q % 2

/-- The total of some widths. -/
def total (widths : List Nat) : Nat :=
  widths.foldl (· + ·) 0

/-- Takes an amount from widths in equal shares. A width may lose no more than a limit, and only some
    of them lose anything. -/
def reduceAfter (limit : Nat → Nat) : (amount shares : Nat) → List (Nat × Bool) → List Nat
  | _, _, [] => []
  | amount, shares, (width, loses) :: rest =>
    if loses ∧ 0 < shares then
      let loss := min (limit width) (rounded amount shares)
      (width - loss) :: reduceAfter limit (amount - loss) (shares - 1) rest
    else
      width :: reduceAfter limit amount shares rest

/-- Takes an amount from some of the widths in equal shares. -/
def reduce (limit : Nat → Nat) (amount : Nat) (widths : List (Nat × Bool)) : List Nat :=
  let widths := widths.map fun (w, loses) => (w, loses && limit w ≠ 0)
  reduceAfter limit amount (widths.countP (·.2)) widths

/-- Takes what is beyond `available` from the widest columns that wrap, down to the width of the
    next widest, and so on. Each step makes one width fewer, so their number bounds the steps. -/
def collapse (available : Nat) (wraps : List Bool) : Nat → List Nat → List Nat
  | 0, widths => widths
  | steps + 1, widths =>
    let excess := total widths - available
    let wrapping := (widths.zip wraps).filterMap fun (w, b) => if b then some w else none
    let widest := (wrapping.max?).getD 0
    let second := ((wrapping.filter (· ≠ widest)).max?).getD 0
    let difference := widest - second
    if excess = 0 ∨ difference = 0 then widths
    else
      collapse available wraps steps
        (reduce (fun _ => min excess difference) excess
          ((widths.zip wraps).map fun (w, b) => (w, b && w == widest)))

/-- The widths of columns, given those that their texts ask for. -/
def fit (available : Nat) (wraps : List Bool) (widths : List Nat) : List Nat :=
  let widths :=
    if available < total widths then collapse available wraps widths.length widths else widths
  reduce id (total widths - available) (widths.map (·, true))

/-! ## Drawing -/

/-- The lines of a text in a column of a width. A column without room for text has none. -/
def cellLines (width : Nat) (c : Column) (t : Text) : List Text :=
  if width ≤ padding then []
  else
    (Lines.wrap (width - padding) c.wraps .ellipsis c.alignment t).map fun line =>
      .char ' ' :: line ++ [.char ' ']

/-- A line of a row: a border, the texts with a border between each two, and a border. -/
def line (left between right : Char) (parts : List Text) : Text :=
  .char left :: Text.join [.char between] parts ++ [.char right, .char '\n']

/-- A line without texts. -/
def rule (left fill between right : Char) (widths : List Nat) : Text :=
  line left between right (widths.map fun w => List.replicate w (.char fill))

/-- The lines of a row. A column whose text has fewer lines than others is filled up with blanks. -/
def row (border : Char) (columns : List (Nat × Column)) (texts : List Text) : Text :=
  let cells := (columns.zip texts).map fun ((w, c), t) => (w, cellLines w c t)
  let height := max 1 (((cells.map (·.2.length)).max?).getD 1)
  (List.range height).flatMap fun i =>
    line border border border (cells.map fun (w, lines) => (lines[i]?).getD (Lines.spaces w))

/-- The width that the texts of a column ask for. -/
def asked (available : Nat) (texts : List Text) : Nat :=
  min available ((((texts.map Lines.widest).max?).getD 0) + padding)

/-- The text of a table whose texts have no markup. -/
def draw (room : Nat) (t : Table) : Text :=
  let borders := t.columns.length + 1
  let available := room - borders
  let contents := t.columns.zipIdx.map fun (c, i) =>
    c.header :: t.rows.map fun texts => texts.getD i []
  let widths := fit available (t.columns.map (·.wraps)) (contents.map (asked available))
  let columns := widths.zip t.columns
  let title := Lines.wrap (total widths + borders) true .fold .center t.title
  .concat [
    title.flatMap (· ++ [.char '\n']),
    rule '┏' '━' '┳' '┓' widths,
    row '┃' columns (t.columns.map (·.header)),
    rule '┡' '━' '╇' '┩' widths,
    t.rows.flatMap (row '│' columns),
    rule '└' '─' '┴' '┘' widths ]

/-- A text without markup and controls. -/
def plain (t : Text) : Except Markup.Failure Text :=
  (Markup.plain t).map Lines.withoutControls

/-- The table without markup. -/
def withoutMarkup (t : Table) : Except Markup.Failure Table := do
  let title ← plain t.title
  let rows ← t.rows.mapM (·.mapM plain)
  return { t with title, rows }

/-- The text of a table in a terminal that is `room` cells wide. -/
def render (room : Nat) (t : Table) : Except Markup.Failure Text :=
  t.withoutMarkup.map (draw room)

end Table

end ApprovedOps
