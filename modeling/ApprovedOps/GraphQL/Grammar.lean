import ApprovedOps.GraphQL.Tokens
import ApprovedOps.GraphQL.Syntax

/-! # The grammar of operation documents

A recursive-descent reader from tokens to documents. It looks at one token at a time, and at the
token after a description. Nesting and repetition are bounded by the number of tokens, which no
document exhausts, since every step takes a token.
-/

namespace ApprovedOps

namespace GraphQL

/-- The token that a reader looks at, and what comes after it. -/
structure Stream where
  /-- The token that is looked at. -/
  current : Token
  /-- What comes after it. -/
  rest : List Lexed
  deriving Repr

/-- A reader of part of a document. -/
abbrev Reader := StateT Stream (Except SyntaxError)

namespace Reader

/-- The first token of a text and what comes after it. -/
def start (t : Text) : Except SyntaxError Stream :=
  match Lexed.scan t with
  | [] => .ok ⟨⟨.eof, 0, []⟩, []⟩
  | .token first :: rest => .ok ⟨first, rest⟩
  | .broken e :: _ => .error e

/-- The token that is looked at. -/
def current : Reader Token := do
  return (← get).current

/-- Moves on to the next token. -/
def advance : Reader Unit := fun s =>
  match s.rest with
  | [] => .ok ((), s)
  | .token t :: rest => .ok ((), ⟨t, rest⟩)
  | .broken e :: _ => .error e

/-- The token after the one that is looked at. -/
def lookahead : Reader Token := fun s =>
  match s.rest with
  | [] => .ok (s.current, s)
  | .token t :: _ => .ok (t, s)
  | .broken e :: _ => .error e

/-- Gives up at a token. -/
def fail {α : Type} (t : Token) (problem : Problem) : Reader α :=
  throw ⟨t.start, problem⟩

/-- Gives up at a token that fits nowhere. -/
def unexpected {α : Type} (t : Token) : Reader α :=
  fail t (.unexpected t)

/-- Is a token of this kind looked at? -/
def isAt (kind : TokenKind) : Reader Bool := do
  return (← current).kind = kind

/-- A mark of one code point. -/
def mark (c : Char) : TokenKind :=
  .mark [.char c]

/-- Takes a token of this kind. -/
def expect (kind : TokenKind) : Reader Token := do
  let t ← current
  if t.kind = kind then
    advance
    return t
  else
    fail t (.expectedKind kind t)

/-- Takes a token of this kind if one is looked at. -/
def takes (kind : TokenKind) : Reader Bool := do
  if (← current).kind = kind then
    advance
    return true
  else
    return false

/-- Is this word looked at? -/
def isWord (word : String) (t : Token) : Bool :=
  t.kind = .name && t.value = Text.ofString word

/-- Takes a certain word. -/
def expectWord (word : String) : Reader Unit := do
  let t ← current
  if isWord word t then advance else fail t (.expectedWord (Text.ofString word) t)

/-- Takes a certain word if it is looked at. -/
def takesWord (word : String) : Reader Bool := do
  if isWord word (← current) then
    advance
    return true
  else
    return false

/-- Items up to a closing mark, at most as many as the bound allows. -/
def itemsUntil {α : Type} (close : Char) (item : Reader α) : Nat → Reader (List α)
  | 0 => do unexpected (← current)
  | bound + 1 => do
    if ← takes (mark close) then
      return []
    else
      let x ← item
      return x :: (← itemsUntil close item bound)

/-- A bound on the number of items that may follow. -/
def bound : Reader Nat := do
  return (← get).rest.length + 1

/-- Items between two marks, possibly none. -/
def any {α : Type} (opening close : Char) (item : Reader α) : Reader (List α) := do
  let _ ← expect (mark opening)
  itemsUntil close item (← bound)

/-- Items between two marks, at least one. -/
def many {α : Type} (opening close : Char) (item : Reader α) : Reader (List α) := do
  let _ ← expect (mark opening)
  let x ← item
  return x :: (← itemsUntil close item (← bound))

/-- Items between two marks, at least one if the opening mark is there. -/
def optionalMany {α : Type} (opening close : Char) (item : Reader α) : Reader (List α) := do
  if ← isAt (mark opening) then many opening close item else return []

/-- Further items, each after a mark, at most as many as the bound allows. -/
def furtherItems {α : Type} (delimiter : Char) (item : Reader α) : Nat → Reader (List α)
  | 0 => return []
  | bound + 1 => do
    if ← takes (mark delimiter) then
      let x ← item
      return x :: (← furtherItems delimiter item bound)
    else
      return []

/-- Items with a mark between each two and optionally before the first. -/
def delimited {α : Type} (delimiter : Char) (item : Reader α) : Reader (List α) := do
  let _ ← takes (mark delimiter)
  let x ← item
  return x :: (← furtherItems delimiter item (← bound))

/-- Items while a mark is looked at, at most as many as the bound allows. -/
def itemsWhile {α : Type} (opening : Char) (item : Reader α) : Nat → Reader (List α)
  | 0 => return []
  | bound + 1 => do
    if ← isAt (mark opening) then
      let x ← item
      return x :: (← itemsWhile opening item bound)
    else
      return []

/-! ## Names, values and types -/

/-- A name. -/
def name : Reader Text := do
  return (← expect .name).value

/-- A variable. -/
def variableName : Reader Text := do
  let _ ← expect (mark '$')
  name

/-- The value that a name stands for. -/
def namedValue (word : Text) : Value :=
  if word = Text.ofString "true" then .boolean true
  else if word = Text.ofString "false" then .boolean false
  else if word = Text.ofString "null" then .null
  else .enum word

/-- A named value: of an argument, or of a field of an input object. -/
def entry (value : Reader Value) : Reader (Text × Value) := do
  let key ← name
  let _ ← expect (mark ':')
  return (key, ← value)

/-- A variable in a constant value, which is an error. -/
def constantVariable : Reader Value := do
  let dollar ← expect (mark '$')
  let t ← current
  if t.kind = .name then fail dollar (.variableInConstant t.value) else unexpected dollar

/-- A value, constant or not, nested at most as deep as the bound allows. -/
def value (isConst : Bool) : Nat → Reader Value
  | 0 => do unexpected (← current)
  | bound + 1 => do
    let t ← current
    match t.kind with
    | .int => do advance; return .int t.value
    | .float => do advance; return .float t.value
    | .string => do advance; return .string false t.value
    | .blockString => do advance; return .string true t.value
    | .name => do advance; return namedValue t.value
    | .eof => unexpected t
    | .mark _ =>
      if t.kind = mark '[' then
        return .list (← any '[' ']' (value isConst bound))
      else if t.kind = mark '{' then
        return .object (← any '{' '}' (entry (value isConst bound)))
      else if t.kind = mark '$' then
        if isConst then constantVariable else return .variable (← variableName)
      else
        unexpected t

/-- The arguments of a field or directive. -/
def arguments (isConst : Bool) : Reader (List Argument) := do
  let n ← bound
  optionalMany '(' ')' (entry (value isConst n))

/-- A directive. -/
def directive (isConst : Bool) : Reader Directive := do
  let _ ← expect (mark '@')
  let word ← name
  return { name := word, arguments := ← arguments isConst }

/-- Directives, possibly none. -/
def directives (isConst : Bool) : Reader (List Directive) := do
  itemsWhile '@' (directive isConst) (← bound)

/-- A reference to a type, nested at most as deep as the bound allows. -/
def typeRef : Nat → Reader TypeRef
  | 0 => do unexpected (← current)
  | bound + 1 => do
    let inner ←
      if ← takes (mark '[') then
        let inner ← typeRef bound
        let _ ← expect (mark ']')
        pure (TypeRef.list inner)
      else
        pure (TypeRef.named (← name))
    if ← takes (mark '!') then return .nonNull inner else return inner

/-- A reference to a type. -/
def type : Reader TypeRef := do
  typeRef (← bound)

/-- A default value, if an equals sign announces one. -/
def defaultValue : Reader (Option Value) := do
  if ← takes (mark '=') then
    return some (← value true (← bound))
  else
    return none

/-- Is the token a string? -/
def isString (t : Token) : Bool :=
  t.kind = .string || t.kind = .blockString

/-- A description, if there is one. -/
def description : Reader (Option Description) := do
  let t ← current
  if isString t then
    advance
    return some ⟨t.kind = .blockString, t.value⟩
  else
    return none

/-! ## Operations and fragments -/

/-- The name of a fragment, which is not `on`. -/
def fragmentName : Reader Text := do
  let t ← current
  if t.value = Text.ofString "on" then unexpected t else name

/-- A selection after its dots: a fragment by its name, or selections under a type condition. -/
def spread (selections : Reader (List Selection)) : Reader Selection := do
  let _ ← expect (.mark (Text.ofString "..."))
  if ← takesWord "on" then
    let type ← name
    let ds ← directives false
    return .inline (some type) ds (← selections)
  else if ← isAt .name then
    let word ← fragmentName
    return .spread word (← directives false)
  else
    let ds ← directives false
    return .inline none ds (← selections)

/-- A field. -/
def field (selections : Reader (List Selection)) : Reader Selection := do
  let first ← name
  let (label, word) ←
    if ← takes (mark ':') then
      pure (some first, ← name)
    else
      pure (none, first)
  let args ← arguments false
  let ds ← directives false
  if ← isAt (mark '{') then
    return .field label word args ds (some (← selections))
  else
    return .field label word args ds none

/-- Selections between braces, possibly none, nested at most as deep as the bound allows. -/
def selectionSet : Nat → Reader (List Selection)
  | 0 => do unexpected (← current)
  | bound + 1 =>
    any '{' '}' do
      if ← isAt (.mark (Text.ofString "...")) then
        spread (selectionSet bound)
      else
        field (selectionSet bound)

/-- Selections between braces. -/
def selections : Reader (List Selection) := do
  selectionSet (← bound)

/-- The kind of operation that a word names. -/
def operationKind? (word : Text) : Option OperationKind :=
  if word = Text.ofString "query" then some .query
  else if word = Text.ofString "mutation" then some .mutation
  else if word = Text.ofString "subscription" then some .subscription
  else none

/-- A kind of operation. -/
def operationKind : Reader OperationKind := do
  let t ← expect .name
  match operationKind? t.value with
  | some kind => return kind
  | none => unexpected t

/-- The definition of a variable. -/
def variableDefinition : Reader VariableDefinition := do
  let description ← description
  let word ← variableName
  let _ ← expect (mark ':')
  let type ← type
  let default ← defaultValue
  return { description, name := word, type, default, directives := ← directives true }

/-- An operation. Without a keyword it is a query that has selections only. -/
def operation : Reader Operation := do
  if ← isAt (mark '{') then
    return {
      description := none, kind := .query, name := none, variableDefinitions := [], directives := []
      selections := ← selections }
  else
    let description ← description
    let kind ← operationKind
    let word ← if ← isAt .name then pure (some (← name)) else pure none
    let variableDefinitions ← optionalMany '(' ')' variableDefinition
    let ds ← directives false
    return { description, kind, name := word, variableDefinitions, directives := ds,
             selections := ← selections }

/-- A fragment. -/
def fragment : Reader Definition := do
  let description ← description
  expectWord "fragment"
  let word ← fragmentName
  expectWord "on"
  let type ← name
  let ds ← directives false
  return .fragment description word type ds (← selections)

/-! ## Type systems -/

/-- The type of a kind of operation. -/
def operationType : Reader (OperationKind × Text) := do
  let kind ← operationKind
  let _ ← expect (mark ':')
  return (kind, ← name)

/-- The definition of an argument or of a field of an input object. -/
def inputValue : Reader InputValue := do
  let description ← description
  let word ← name
  let _ ← expect (mark ':')
  let type ← type
  let default ← defaultValue
  return { description, name := word, type, default, directives := ← directives true }

/-- The definition of a field. -/
def fieldDefinition : Reader FieldDefinition := do
  let description ← description
  let word ← name
  let args ← optionalMany '(' ')' inputValue
  let _ ← expect (mark ':')
  let type ← type
  return { description, name := word, arguments := args, type, directives := ← directives true }

/-- The words that no value of an enumeration is named by. -/
def isReserved (word : Text) : Bool :=
  word = Text.ofString "true" || word = Text.ofString "false" || word = Text.ofString "null"

/-- The definition of a value of an enumeration. -/
def enumValue : Reader EnumValue := do
  let description ← description
  let t ← current
  if isReserved t.value then
    fail t (.reservedEnumValue t)
  else
    let word ← name
    return { description, name := word, directives := ← directives true }

/-- The interfaces of a type. -/
def interfaces : Reader (List Text) := do
  if ← takesWord "implements" then delimited '&' name else return []

/-- The words that introduce types. -/
inductive TypeWord where
  /-- A scalar type. -/
  | scalar
  /-- An object type. -/
  | object
  /-- An interface type. -/
  | interface
  /-- A union. -/
  | union
  /-- An enumeration. -/
  | enum
  /-- An input object type. -/
  | input
  deriving DecidableEq, Repr

/-- The type that a word introduces. -/
def typeWord? (word : Text) : Option TypeWord :=
  if word = Text.ofString "scalar" then some .scalar
  else if word = Text.ofString "type" then some .object
  else if word = Text.ofString "interface" then some .interface
  else if word = Text.ofString "union" then some .union
  else if word = Text.ofString "enum" then some .enum
  else if word = Text.ofString "input" then some .input
  else none

/-- A type after its introducing word: its name, its directives and what it is made of. -/
def typeRest (kind : TypeWord) : Reader (Text × List Directive × TypeBody) := do
  let word ← name
  match kind with
  | .scalar => return (word, ← directives true, .scalar)
  | .object =>
    let is ← interfaces
    let ds ← directives true
    return (word, ds, .object is (← optionalMany '{' '}' fieldDefinition))
  | .interface =>
    let is ← interfaces
    let ds ← directives true
    return (word, ds, .interface is (← optionalMany '{' '}' fieldDefinition))
  | .union =>
    let ds ← directives true
    let members ← if ← takes (mark '=') then delimited '|' name else pure []
    return (word, ds, .union members)
  | .enum =>
    let ds ← directives true
    return (word, ds, .enum (← optionalMany '{' '}' enumValue))
  | .input =>
    let ds ← directives true
    return (word, ds, .input (← optionalMany '{' '}' inputValue))

/-- The places where directives may be used. -/
def locations : List String :=
  [ "QUERY", "MUTATION", "SUBSCRIPTION", "FIELD", "FRAGMENT_DEFINITION", "FRAGMENT_SPREAD",
    "INLINE_FRAGMENT", "VARIABLE_DEFINITION", "SCHEMA", "SCALAR", "OBJECT", "FIELD_DEFINITION",
    "ARGUMENT_DEFINITION", "INTERFACE", "UNION", "ENUM", "ENUM_VALUE", "INPUT_OBJECT",
    "INPUT_FIELD_DEFINITION" ]

/-- A place where a directive may be used. -/
def location : Reader Text := do
  let t ← current
  let word ← name
  if locations.any fun l => Text.ofString l = word then return word else unexpected t

/-- The definition of a directive. -/
def directiveDefinition : Reader Definition := do
  let description ← description
  expectWord "directive"
  let _ ← expect (mark '@')
  let word ← name
  let args ← optionalMany '(' ')' inputValue
  let repeatable ← takesWord "repeatable"
  expectWord "on"
  return .directive description word args repeatable (← delimited '|' location)

/-- The definition of a schema. -/
def schema : Reader Definition := do
  let description ← description
  expectWord "schema"
  let ds ← directives true
  return .schema description ds (← many '{' '}' operationType)

/-- Does an extension say nothing about what a type is made of? -/
def isEmptyBody : TypeBody → Bool
  | .scalar => true
  | .object is fs | .interface is fs => is.isEmpty && fs.isEmpty
  | .union members => members.isEmpty
  | .enum values => values.isEmpty
  | .input fs => fs.isEmpty

/-- An extension, which must say something. -/
def extension : Reader Definition := do
  let t ← lookahead
  if isWord "schema" t then
    advance
    advance
    let ds ← directives true
    let types ← optionalMany '{' '}' operationType
    if ds.isEmpty && types.isEmpty then unexpected (← current) else return .extendSchema ds types
  else
    match if t.kind = .name then typeWord? t.value else none with
    | none => unexpected t
    | some kind =>
      advance
      advance
      let (word, ds, body) ← typeRest kind
      if ds.isEmpty && isEmptyBody body then unexpected (← current)
      else return .extendType word ds body

/-! ## Documents -/

/-- A definition that a word introduces, which may come after a description. -/
def described (t : Token) (isDescribed : Bool) : Reader Definition := do
  if t.kind ≠ .name then
    unexpected t
  else if isWord "schema" t then
    schema
  else if isWord "directive" t then
    directiveDefinition
  else
    match typeWord? t.value with
    | some kind =>
      let description ← description
      advance
      let (word, ds, body) ← typeRest kind
      return .type description word ds body
    | none =>
      if (operationKind? t.value).isSome then
        return .operation (← operation)
      else if isWord "fragment" t then
        fragment
      else if isDescribed then
        fail (← current) .describedOther
      else if isWord "extend" t then
        extension
      else
        unexpected t

/-- A definition. -/
def definition : Reader Definition := do
  let t ← current
  if t.kind = mark '{' then
    return .operation (← operation)
  else if isString t then
    let word ← lookahead
    if word.kind = mark '{' then fail t .describedShorthand else described word true
  else
    described t false

/-- Definitions to the end of the text, at most as many as the bound allows. -/
def definitions : Nat → Reader Document
  | 0 => do unexpected (← current)
  | bound + 1 => do
    if ← isAt .eof then
      return []
    else
      let d ← definition
      return d :: (← definitions bound)

/-- A document: at least one definition. -/
def document : Reader Document := do
  let d ← definition
  return d :: (← definitions (← bound))

end Reader

/-- The document of a text. -/
def Document.ofText (t : Text) : Except SyntaxError Document := do
  let s ← Reader.start t
  let (d, _) ← Reader.document.run s
  return d

end GraphQL

end ApprovedOps
