import ApprovedOps.GraphQL.Grammar
import ApprovedOps.GraphQL.Layout

/-! # Documents as words

A document as the words that it is written with, whatever stands between them. A reader sees words
only: the kinds and the values of tokens, without their places.
-/

namespace ApprovedOps

namespace GraphQL

/-- What a reader sees of a token. -/
abbrev Word := TokenKind × Text

namespace Word

/-- A mark of one code point. -/
def mark (c : Char) : Word :=
  (Reader.mark c, [])

/-- The mark of three dots. -/
def dots : Word :=
  (.mark (Text.ofString "..."), [])

/-- A name. -/
def name (n : Text) : Word :=
  (.name, n)

/-- A string. -/
def string (isBlock : Bool) (content : Text) : Word :=
  (if isBlock then .blockString else .string, content)

/-- The end of a text. -/
def eof : Word :=
  (.eof, [])

end Word

/-- Words between two marks. -/
def enclosed (opening close : Char) (ws : List Word) : List Word :=
  .mark opening :: (ws ++ [.mark close])

/-- Words between two marks, if there are any. -/
def optionally (opening close : Char) (ws : List Word) : List Word :=
  if ws = [] then [] else enclosed opening close ws

/-! ## Values and types -/

mutual

/-- The words of a value. -/
def Value.words : Value → List Word
  | .variable n => [.mark '$', .name n]
  | .int digits => [(.int, digits)]
  | .float digits => [(.float, digits)]
  | .string isBlock content => [.string isBlock content]
  | .boolean true => [.name "true"]
  | .boolean false => [.name "false"]
  | .null => [.name "null"]
  | .enum n => [.name n]
  | .list items => enclosed '[' ']' (valueWords items)
  | .object fields => enclosed '\x7b' '\x7d' (entryWords fields)

/-- The words of values. -/
def valueWords : List Value → List Word
  | [] => []
  | v :: vs => v.words ++ valueWords vs

/-- The words of named values. -/
def entryWords : List (Text × Value) → List Word
  | [] => []
  | (n, v) :: fields => .name n :: .mark ':' :: (v.words ++ entryWords fields)

end

/-- The words of a directive. -/
def Directive.words (d : Directive) : List Word :=
  .mark '@' :: .name d.name :: optionally '(' ')' (entryWords d.arguments)

/-- The words of directives. -/
def directiveWords (ds : List Directive) : List Word :=
  ds.flatMap Directive.words

/-- The words of a reference to a type. -/
def TypeRef.words : TypeRef → List Word
  | .named n => [.name n]
  | .list inner => enclosed '[' ']' inner.words
  | .nonNull inner => inner.words ++ [.mark '!']

/-- The words of a default value. -/
def defaultWords : Option Value → List Word
  | none => []
  | some v => .mark '=' :: v.words

/-- The words of a description. -/
def descriptionWords : Option Description → List Word
  | none => []
  | some d => [.string d.block d.content]

/-! ## Operations and fragments -/

/-- The words of the definition of a variable. -/
def VariableDefinition.words (v : VariableDefinition) : List Word :=
  descriptionWords v.description ++ .mark '$' :: .name v.name :: .mark ':' ::
    (v.type.words ++ (defaultWords v.default ++ directiveWords v.directives))

/-- The words of the name of a field, with its label. -/
def titleWords : Option Text → Text → List Word
  | none, n => [.name n]
  | some label, n => [.name label, .mark ':', .name n]

/-- The words of a type condition. -/
def conditionWords : Option Text → List Word
  | none => []
  | some n => [.name "on", .name n]

mutual

/-- The words of a selection. -/
def Selection.words : Selection → List Word
  | .field label n args ds inner =>
    titleWords label n ++ (optionally '(' ')' (entryWords args) ++
      (directiveWords ds ++ innerWords inner))
  | .spread n ds => .dots :: .name n :: directiveWords ds
  | .inline type ds inner =>
    .dots :: (conditionWords type ++
      (directiveWords ds ++ enclosed '\x7b' '\x7d' (selectionWords inner)))

/-- The words of selections between braces, if there are braces. -/
def innerWords : Option (List Selection) → List Word
  | none => []
  | some inner => enclosed '\x7b' '\x7d' (selectionWords inner)

/-- The words of selections. -/
def selectionWords : List Selection → List Word
  | [] => []
  | s :: rest => s.words ++ selectionWords rest

end

/-- The words of selections between braces. -/
def blockWords (inner : List Selection) : List Word :=
  enclosed '\x7b' '\x7d' (selectionWords inner)

/-- Is the operation a query with nothing but selections? -/
def Operation.isBare (o : Operation) : Bool :=
  o.kind = .query && o.description.isNone && o.name.isNone && o.variableDefinitions.isEmpty
    && o.directives.isEmpty

/-- The words of an operation. -/
def Operation.words (o : Operation) : List Word :=
  if o.isBare then blockWords o.selections
  else
    descriptionWords o.description ++ .name (Layout.operationKind o.kind) ::
      ((o.name.map Word.name).toList ++
        (optionally '(' ')' (o.variableDefinitions.flatMap VariableDefinition.words) ++
          (directiveWords o.directives ++ blockWords o.selections)))

/-! ## Type systems -/

/-- The words of the definition of an argument or of a field of an input object. -/
def InputValue.words (v : InputValue) : List Word :=
  descriptionWords v.description ++ .name v.name :: .mark ':' ::
    (v.type.words ++ (defaultWords v.default ++ directiveWords v.directives))

/-- The words of the definition of a field. -/
def FieldDefinition.words (f : FieldDefinition) : List Word :=
  descriptionWords f.description ++ .name f.name ::
    (optionally '(' ')' (f.arguments.flatMap InputValue.words) ++ .mark ':' ::
      (f.type.words ++ directiveWords f.directives))

/-- The words of the definition of a value of an enumeration. -/
def EnumValue.words (v : EnumValue) : List Word :=
  descriptionWords v.description ++ .name v.name :: directiveWords v.directives

/-- The words of the type of a kind of operation. -/
def typeWords (t : OperationKind × Text) : List Word :=
  [.name (Layout.operationKind t.1), .mark ':', .name t.2]

/-- Names with a mark between each two. -/
def delimitedWords (delimiter : Char) : List Text → List Word
  | [] => []
  | n :: ns => .name n :: ns.flatMap fun n => [.mark delimiter, .name n]

/-- Names with a mark between each two after a first word, if there are names. -/
def listWords (first : Word) (delimiter : Char) (names : List Text) : List Word :=
  if names = [] then [] else first :: delimitedWords delimiter names

namespace TypeBody

/-- The word that introduces a type. -/
def word : TypeBody → String
  | .scalar => "scalar"
  | .object _ _ => "type"
  | .interface _ _ => "interface"
  | .union _ => "union"
  | .enum _ => "enum"
  | .input _ => "input"

/-- The words of a type after its name. -/
def words (ds : List Directive) : TypeBody → List Word
  | .scalar => directiveWords ds
  | .object interfaces fields | .interface interfaces fields =>
    listWords (.name "implements") '&' interfaces ++
      (directiveWords ds ++ optionally '\x7b' '\x7d' (fields.flatMap FieldDefinition.words))
  | .union members => directiveWords ds ++ listWords (.mark '=') '|' members
  | .enum values =>
    directiveWords ds ++ optionally '\x7b' '\x7d' (values.flatMap EnumValue.words)
  | .input fields =>
    directiveWords ds ++ optionally '\x7b' '\x7d' (fields.flatMap InputValue.words)

/-- Would braces after the type belong to it? -/
def isOpen : TypeBody → Bool
  | .scalar | .union _ => false
  | .object _ fields | .interface _ fields => fields.isEmpty
  | .enum values => values.isEmpty
  | .input fields => fields.isEmpty

end TypeBody

/-! ## Documents -/

/-- The words of a definition. -/
def Definition.words : Definition → List Word
  | .operation o => o.words
  | .fragment desc n on_ ds inner =>
    descriptionWords desc ++ .name "fragment" :: .name n :: .name "on" :: .name on_ ::
      (directiveWords ds ++ blockWords inner)
  | .schema desc ds types =>
    descriptionWords desc ++ .name "schema" ::
      (directiveWords ds ++ enclosed '\x7b' '\x7d' (types.flatMap typeWords))
  | .type desc n ds body =>
    descriptionWords desc ++ .name body.word :: .name n :: body.words ds
  | .directive desc n args repeatable locations =>
    descriptionWords desc ++ .name "directive" :: .mark '@' :: .name n ::
      (optionally '(' ')' (args.flatMap InputValue.words) ++
        ((if repeatable then [.name "repeatable"] else []) ++
          .name "on" :: delimitedWords '|' locations))
  | .extendSchema ds types =>
    .name "extend" :: .name "schema" ::
      (directiveWords ds ++ optionally '\x7b' '\x7d' (types.flatMap typeWords))
  | .extendType n ds body =>
    .name "extend" :: .name body.word :: .name n :: body.words ds

/-- The words of a document. -/
def Document.words (d : Document) : List Word :=
  d.flatMap Definition.words

namespace Definition

/-- Would braces after the definition belong to it? -/
def isOpen : Definition → Bool
  | .extendSchema _ types => types.isEmpty
  | .type _ _ _ body => body.isOpen
  | .extendType _ _ body => body.isOpen
  | _ => false

/-- Is the definition written with braces alone? -/
def isBare : Definition → Bool
  | .operation o => o.isBare
  | _ => false

end Definition

end GraphQL

end ApprovedOps
