import ApprovedOps.Record.Fields
import ApprovedOps.Yaml.Schema

/-! # The layout of record files

A record as a YAML document: one entry a line, scalars without quotes where their form allows it,
texts of several lines as literal blocks, and long scalars folded at spaces.
-/

namespace ApprovedOps

namespace Yaml

namespace Layout

/-- Lines are folded at the first space after this column. -/
def width : Nat := 80

/-- Every level is indented by so many spaces. -/
def step : Nat := 2

/-- Does a line break here? -/
def isBreak (p : CodePoint) : Bool :=
  p = .char '\n' || p.value == 0x85 || p.value == 0x2028 || p.value == 0x2029

/-- Is it the space? -/
def isSpace (p : CodePoint) : Bool :=
  p = .char ' '

/-- Does a word end here? -/
def endsWord (p : CodePoint) : Bool :=
  isSpace p || isBreak p || p = .char '\t' || p = .char '\r' || p.value == 0

/-- Can the code point stand in a document as itself? -/
def isWritable (p : CodePoint) : Bool :=
  let n := p.value
  n == 0x0A || (0x20 ≤ n && n ≤ 0x7E) || n == 0x85
    || (0xA0 ≤ n && n ≤ 0xD7FF) || (0xE000 ≤ n && n ≤ 0xFFFD && n != 0xFEFF)
    || (0x10000 ≤ n && n < 0x10FFFF)

/-- Is it one of some ASCII characters? -/
def isOneOf (chars : String) : CodePoint → Bool
  | .char c => chars.toList.contains c
  | .surrogate _ => false

/-- Can a scalar that begins with `p` and continues with `rest` not be plain for that reason? -/
def startsIndicator (p : CodePoint) (rest : Text) : Bool :=
  isOneOf "#,[]\x7b\x7d&*!|>'\"%@\x60" p
    || (isOneOf "?:-" p && rest.head?.all endsWord)

/-- Is there a mark of a comment or of a mapping entry among the code points after the first, which
    is `previous`? -/
def hasInnerIndicator (previous : CodePoint) : Text → Bool
  | [] => false
  | p :: r =>
    (p = .char ':' && r.head?.all endsWord) || (p = .char '#' && endsWord previous)
      || hasInnerIndicator p r

/-- Can the scalar not be plain because of the marks in it? -/
def hasIndicator : Text → Bool
  | [] => false
  | p :: r =>
    startsIndicator p r || hasInnerIndicator p r
      || Text.startsWith (p :: r) (Text.ofString "---")
      || Text.startsWith (p :: r) (Text.ofString "...")

/-- Does a code point of one class stand directly before one of another? -/
def hasPair (first second : CodePoint → Bool) : Text → Bool
  | p :: q :: r => (first p && second q) || hasPair first second (q :: r)
  | _ => false

/-- The ways to write a scalar. -/
inductive Style where
  /-- Without quotes. -/
  | plain
  /-- Between single quotes. -/
  | single
  /-- Between double quotes, with escapes. -/
  | double
  /-- As a literal block. -/
  | literal
  deriving DecidableEq, Repr

/-- Is a code point in the scalar that must be escaped, or a space before a line break? -/
def needsEscapes (t : Text) : Bool :=
  t.any (!isWritable ·) || hasPair isSpace isBreak t

/-- May the scalar be plain? -/
def allowsPlain (t : Text) : Bool :=
  !t.isEmpty && !needsEscapes t && !t.any isBreak && !t.head?.any isSpace && !t.getLast?.any isSpace
    && !hasIndicator t && ScalarKind.ofPlain t = .string

/-- May the scalar be between single quotes? -/
def allowsSingle (t : Text) : Bool :=
  !needsEscapes t && !hasPair isBreak isSpace t

/-- May the scalar be a literal block? -/
def allowsLiteral (t : Text) : Bool :=
  !t.isEmpty && !needsEscapes t && !t.getLast?.any isSpace

/-- How a scalar is written. -/
def styleOf (t : Text) : Style :=
  if t.contains (.char '\n') then
    if allowsLiteral t then .literal else .double
  else if allowsPlain t then .plain
  else if allowsSingle t then .single
  else .double

/-- A line break and an indentation. -/
def newline (indent : Nat) : Text :=
  .char '\n' :: List.replicate indent (.char ' ')

/-- The runs of a text in which all or no code points are in a class. -/
def runs (p : CodePoint → Bool) : Text → List Text
  | [] => []
  | c :: r =>
    match runs p r with
    | [] => [[c]]
    | [] :: rest => [c] :: rest
    | (d :: run) :: rest => if p c = p d then (c :: d :: run) :: rest else [c] :: (d :: run) :: rest

/-- Runs of a plain scalar, of which the first starts in a column. A single space beyond the width
    becomes a line break. -/
def foldPlain (indent column : Nat) : List Text → Text
  | [] => []
  | run :: rest =>
    if run = [.char ' '] ∧ width < column then
      newline indent ++ foldPlain indent indent rest
    else
      run ++ foldPlain indent (column + run.length) rest

/-- The kinds of pieces of a scalar between single quotes. -/
def pieceKind (p : CodePoint) : Nat :=
  if isSpace p then 0 else if isBreak p then 1 else 2

/-- The runs of a text of code points of one kind. -/
def pieces : Text → List Text
  | [] => []
  | c :: r =>
    match pieces r with
    | [] => [[c]]
    | [] :: rest => [c] :: rest
    | (d :: run) :: rest =>
      if pieceKind c = pieceKind d then (c :: d :: run) :: rest else [c] :: (d :: run) :: rest

/-- The text with every single quote twice. -/
def doubleQuotes (t : Text) : Text :=
  t.flatMap fun p => if p = .char '\'' then [p, p] else [p]

/-- Pieces of a scalar between single quotes, of which the first starts in a column. A single space
    beyond the width becomes a line break, unless it is the first or last piece; line breaks are
    followed by the indentation. -/
def foldSingle (indent column : Nat) (first : Bool) : List Text → Text
  | [] => []
  | piece :: rest =>
    if piece.any isBreak then
      piece ++ List.replicate indent (.char ' ') ++ foldSingle indent indent false rest
    else if piece = [.char ' '] ∧ width < column ∧ !first ∧ !rest.isEmpty then
      newline indent ++ foldSingle indent indent false rest
    else
      let written := doubleQuotes piece
      written ++ foldSingle indent (column + written.length) false rest

/-- The letter of an escape. -/
def escapeLetter? (p : CodePoint) : Option Char :=
  match p.value with
  | 0x00 => some '0'
  | 0x07 => some 'a'
  | 0x08 => some 'b'
  | 0x09 => some 't'
  | 0x0A => some 'n'
  | 0x0B => some 'v'
  | 0x0C => some 'f'
  | 0x0D => some 'r'
  | 0x1B => some 'e'
  | 0x22 => some '"'
  | 0x5C => some '\\'
  | 0x85 => some 'N'
  | 0xA0 => some '_'
  | 0x2028 => some 'L'
  | 0x2029 => some 'P'
  | _ => none

/-- Does the code point stand for itself between double quotes? -/
def isBare (p : CodePoint) : Bool :=
  let n := p.value
  (0x20 ≤ n && n ≤ 0x7E && n != 0x22 && n != 0x5C)
    || (0xA0 ≤ n && n ≤ 0xD7FF && n != 0x2028 && n != 0x2029)
    || (0xE000 ≤ n && n ≤ 0xFFFD && n != 0xFEFF)

/-- How a code point is written between double quotes. -/
def escape (p : CodePoint) : Text :=
  if isBare p then [p]
  else
    match escapeLetter? p with
    | some c => [.char '\\', .char c]
    | none =>
      if p.value ≤ 0xFF then Text.ofString "\\x" ++ Text.hexUpper 2 p.value
      else if p.value ≤ 0xFFFF then Text.ofString "\\u" ++ Text.hexUpper 4 p.value
      else Text.ofString "\\U" ++ Text.hexUpper 8 p.value

/-- A backslash, which ends a folded line and keeps a space at the beginning of the next. -/
def backslash : Text := [.char '\\']

/-- A scalar between double quotes from a place on. The code points of `pending` are passed but not
    yet written, and what is written ends in a column. Beyond the width the line is folded before a
    space, and before or after an escape, with a backslash at its end. -/
def foldDouble (indent column : Nat) (first : Bool) (pending : Text) : Text → Text
  | [] => pending
  | p :: rest =>
    let inner := !first && !rest.isEmpty
    if isBare p then
      if (isSpace p || pending.isEmpty) && inner && width < column + pending.length then
        let kept := if isSpace p then backslash else []
        pending ++ backslash ++ newline indent ++ kept
          ++ foldDouble indent (indent + kept.length) false [p] rest
      else
        foldDouble indent column false (pending ++ [p]) rest
    else
      let written := pending ++ escape p
      let column := column + written.length
      if inner && width + 1 < column then
        let kept := if rest.head?.any isSpace then backslash else []
        written ++ backslash ++ newline indent ++ kept
          ++ foldDouble indent (indent + kept.length) false [] rest
      else
        written ++ foldDouble indent column false [] rest

/-- The header of a literal block after its bar: the indentation, if the first line would hide it,
    and what happens to the line breaks at the end. -/
def blockHeader (t : Text) : Text :=
  let indentation := if t.head?.any fun p => isSpace p || isBreak p then Text.ofNat step else []
  let ending : Text :=
    match t.reverse with
    | [] => []
    | last :: before =>
      if !isBreak last then [.char '-']
      else if before.head?.all isBreak then [.char '+']
      else []
  indentation ++ ending

/-- Does the block keep all line breaks at its end? -/
def keepsEnd (t : Text) : Bool :=
  (blockHeader t).getLast? = some (.char '+')

/-- The lines of a literal block; `atStart` tells that a line begins. -/
def blockLines (indent : Nat) (atStart : Bool) : Text → Text
  | [] => if atStart then [] else [.char '\n']
  | p :: r =>
    if isBreak p then
      p :: blockLines indent true r
    else if atStart then
      List.replicate indent (.char ' ') ++ p :: blockLines indent false r
    else
      p :: blockLines indent false r

/-- A scalar after what stands before it on its line, up to the end of its last line. Content lines
    are indented by `indent`; `column` is where the line has come. -/
def scalar (indent column : Nat) (t : Text) : Text :=
  match styleOf t with
  | .plain => [.char ' '] ++ foldPlain indent (column + 1) (runs isSpace t) ++ [.char '\n']
  | .single =>
    Text.ofString " '" ++ foldSingle indent (column + 2) true (pieces t) ++ Text.ofString "'\n"
  | .double =>
    Text.ofString " \"" ++ foldDouble indent (column + 2) true [] t ++ Text.ofString "\"\n"
  | .literal =>
    Text.ofString " |" ++ blockHeader t ++ [.char '\n'] ++ blockLines indent true t

/-- The items of a list, each on a line of its own after a dash. -/
def items (indent : Nat) : List Text → Text
  | [] => []
  | t :: ts =>
    List.replicate indent (.char ' ') ++ [.char '-'] ++ scalar (indent + step) (indent + 1) t
      ++ items indent ts

mutual

/-- A field after its key, whose line has come to a column. -/
def field (indent column : Nat) : WrittenField → Text
  | .text t => scalar (indent + step) column t
  | .texts ts => .char '\n' :: items indent ts
  | .fields fs => .char '\n' :: fields (indent + step) fs

/-- Fields, each on lines of its own. -/
def fields (indent : Nat) : List (Text × WrittenField) → Text
  | [] => []
  | (key, f) :: rest =>
    List.replicate indent (.char ' ') ++ key ++ [.char ':']
      ++ field indent (indent + key.length + 1) f ++ fields indent rest

end

/-- The last text of a field. -/
def lastText : WrittenField → Text
  | .text t => t
  | .texts ts => ts.getLast?.getD []
  | .fields fs => lastOf fs
where
  /-- The last text of the last field. -/
  lastOf : List (Text × WrittenField) → Text
    | [] => []
    | [(_, f)] => lastText f
    | _ :: f :: rest => lastOf (f :: rest)

/-- Does the scalar leave the end of the document open, so that a mark has to close it? -/
def leavesOpen (t : Text) : Bool :=
  styleOf t = .literal && keepsEnd t

/-- The document of fields. -/
def document (fs : List (Text × WrittenField)) : Text :=
  fields 0 fs ++ (if leavesOpen (lastText (.fields fs)) then Text.ofString "...\n" else [])

end Layout

end Yaml

/-- The record as a YAML document. -/
def Record.yaml (r : Record) : Text :=
  Yaml.Layout.document r.written

end ApprovedOps
