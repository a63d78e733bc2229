import ApprovedOps.GraphQL.Syntax
import ApprovedOps.GraphQL.BlockString

/-! # The layout of operation documents

A document as text in its one normal layout: definitions are separated by blank lines, selections
stand on lines of their own, and arguments that do not fit one line do so too.
-/

namespace ApprovedOps

namespace GraphQL

namespace Layout

/-- Lines that are longer are broken where they can be. -/
def maxLine : Nat := 80

/-- The parts that are not empty, with `sep` between each two. -/
def join (sep : String) (parts : List Text) : Text :=
  Text.join (Text.ofString sep) (parts.filter (· ≠ []))

/-- A text between two others, or nothing if it is empty. -/
def wrap (before : String) (t : Text) (after : String) : Text :=
  if t = [] then [] else Text.ofString before ++ t ++ Text.ofString after

/-- The text with two spaces at the beginning of every line. -/
def indent (t : Text) : Text :=
  wrap "  " (t.flatMap fun p => if p = .char '\n' then [p, .char ' ', .char ' '] else [p]) ""

/-- Lines between braces, or nothing if there are none. -/
def block (lines : List Text) : Text :=
  wrap "\x7b\n" (indent (join "\n" lines)) "\n\x7d"

/-- Does one of the texts take several lines? -/
def anyMultiline (parts : List Text) : Bool :=
  parts.any (·.contains (.char '\n'))

/-- Definitions between parentheses, on lines of their own if one of them takes several. -/
def definitionList (parts : List Text) : Text :=
  if anyMultiline parts then wrap "(\n" (indent (join "\n" parts)) "\n)"
  else wrap "(" (join ", " parts) ")"

/-- How a code point is written inside a string. -/
def escape (p : CodePoint) : Text :=
  if p = '"' then "\\\""
  else if p = '\\' then "\\\\"
  else if p = '\x08' then "\\b"
  else if p = '\t' then "\\t"
  else if p = '\n' then "\\n"
  else if p = '\x0c' then "\\f"
  else if p = '\r' then "\\r"
  else if p.value < 0x20 ∨ (0x7F ≤ p.value ∧ p.value < 0xA0) then
    "\\u" ++ Text.hexUpper 4 p.value
  else [p]

/-- A string, between triple quotes if `isBlock`. -/
def string (isBlock : Bool) (content : Text) : Text :=
  if isBlock then BlockString.render content
  else .char '"' :: content.flatMap escape ++ [.char '"']

/-- Elements on one line, or on lines of their own if that is too long. -/
def spread (line : Text) (opening close : String) (parts : List Text) : Text :=
  if maxLine < line.length then
    Text.concat [opening, "\n", indent (join "\n" parts), "\n", close]
  else
    line

mutual

/-- A value. -/
def value : Value → Text
  | .variable name => .char '$' :: name
  | .int digits => digits
  | .float digits => digits
  | .string isBlock content => string isBlock content
  | .boolean true => "true"
  | .boolean false => "false"
  | .null => "null"
  | .enum name => name
  | .list items =>
    let parts := values items
    spread (.concat ["[", join ", " parts, "]"]) "[" "]" parts
  | .object fields =>
    let parts := entries fields
    spread (.concat ["\x7b ", join ", " parts, " \x7d"]) "\x7b" "\x7d" parts

/-- The values of a list. -/
def values : List Value → List Text
  | [] => []
  | v :: vs => value v :: values vs

/-- Named values. -/
def entries : List (Text × Value) → List Text
  | [] => []
  | (name, v) :: fields => .concat [name, ": ", value v] :: entries fields

end

/-- A directive. -/
def directive (d : Directive) : Text :=
  .concat ["@", d.name, wrap "(" (join ", " (entries d.arguments)) ")"]

/-- Directives. -/
def directives (ds : List Directive) : Text :=
  join " " (ds.map directive)

/-- A name with arguments, which go on lines of their own if one line is too long. -/
def call (name : Text) (args : List Argument) : Text :=
  let parts := entries args
  let line := name ++ wrap "(" (join ", " parts) ")"
  if maxLine < line.length then name ++ wrap "(\n" (indent (join "\n" parts)) "\n)" else line

/-- Selections between braces. -/
def selectionBlock (parts : List Text) : Text :=
  if parts = [] then "\x7b\x7d" else block parts

mutual

/-- A selection. -/
def selection : Selection → Text
  | .field label name args ds inner =>
    let title := wrap "" (label.getD []) ": " ++ name
    join " " [call title args, directives ds, optionalSelections inner]
  | .spread name ds => .concat ["...", name, wrap " " (directives ds) ""]
  | .inline type ds inner =>
    join " " ["...", wrap "on " (type.getD []) "", directives ds,
      selectionBlock (selections inner)]

/-- Selections between braces, if there are braces. -/
def optionalSelections : Option (List Selection) → Text
  | none => []
  | some inner => selectionBlock (selections inner)

/-- Selections. -/
def selections : List Selection → List Text
  | [] => []
  | s :: rest => selection s :: selections rest

end

/-- A reference to a type. -/
def typeRef : TypeRef → Text
  | .named name => name
  | .list inner => .concat ["[", typeRef inner, "]"]
  | .nonNull inner => .concat [typeRef inner, "!"]

/-- A description on lines of its own. -/
def description : Option Description → Text
  | none => []
  | some d => wrap "" (string d.block d.content) "\n"

/-- A default value. -/
def default (v : Option Value) : Text :=
  wrap "= " (match v with | some v => value v | none => []) ""

/-- The definition of a variable. -/
def variableDefinition (v : VariableDefinition) : Text :=
  .concat [description v.description, "$", v.name, ": ", typeRef v.type,
    wrap " " (default v.default) "", wrap " " (directives v.directives) ""]

/-- The word for a kind of operation. -/
def operationKind : OperationKind → Text
  | .query => "query"
  | .mutation => "mutation"
  | .subscription => "subscription"

/-- An operation. A query that has selections only is written without its keyword. -/
def operation (o : Operation) : Text :=
  let title := o.name.getD [] ++ definitionList (o.variableDefinitions.map variableDefinition)
  let head := description o.description
    ++ join " " [operationKind o.kind, title, directives o.directives]
  let body := selectionBlock (selections o.selections)
  if head = Text.ofString "query" then body else .concat [head, " ", body]

/-- The definition of an argument or of a field of an input object. -/
def inputValue (v : InputValue) : Text :=
  description v.description
    ++ join " " [.concat [v.name, ": ", typeRef v.type], default v.default,
      directives v.directives]

/-- The definition of a field. -/
def fieldDefinition (f : FieldDefinition) : Text :=
  .concat [description f.description, f.name, definitionList (f.arguments.map inputValue), ": ",
    typeRef f.type, wrap " " (directives f.directives) ""]

/-- The definition of a value of an enumeration. -/
def enumValue (v : EnumValue) : Text :=
  description v.description ++ join " " [v.name, directives v.directives]

/-- The type of a kind of operation. -/
def operationType (t : OperationKind × Text) : Text :=
  .concat [operationKind t.1, ": ", t.2]

/-- The parts of a type: its introducing word, its name, and what it is made of. -/
def typeParts (name : Text) (ds : List Directive) : TypeBody → List Text
  | .scalar => ["scalar", name, directives ds]
  | .object interfaces fields =>
    ["type", name, wrap "implements " (join " & " interfaces) "", directives ds,
      block (fields.map fieldDefinition)]
  | .interface interfaces fields =>
    ["interface", name, wrap "implements " (join " & " interfaces) "", directives ds,
      block (fields.map fieldDefinition)]
  | .union members => ["union", name, directives ds, wrap "= " (join " | " members) ""]
  | .enum values => ["enum", name, directives ds, block (values.map enumValue)]
  | .input fields => ["input", name, directives ds, block (fields.map inputValue)]

/-- A definition. -/
def definition : Definition → Text
  | .operation o => operation o
  | .fragment desc name type ds inner =>
    .concat [description desc, "fragment ", name, " on ", type, " ", wrap "" (directives ds) " ",
      selectionBlock (selections inner)]
  | .schema desc ds types =>
    description desc ++ join " " ["schema", directives ds, block (types.map operationType)]
  | .type desc name ds body => description desc ++ join " " (typeParts name ds body)
  | .directive desc name args repeatable locations =>
    .concat [description desc, "directive @", name, definitionList (args.map inputValue),
      (if repeatable then Text.ofString " repeatable" else []), " on ", join " | " locations]
  | .extendSchema ds types =>
    join " " ["extend schema", directives ds, block (types.map operationType)]
  | .extendType name ds body => join " " ("extend" :: typeParts name ds body)

end Layout

/-- The text of a document in its normal layout. -/
def Document.render (d : Document) : Text :=
  Layout.join "\n\n" (d.map Layout.definition)

end GraphQL

end ApprovedOps
