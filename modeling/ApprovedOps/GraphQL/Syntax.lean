import ApprovedOps.Text.CodePoint

/-! # Operation documents

The documents of the GraphQL language: operations and fragments, and the definitions and extensions
of type systems.
-/

namespace ApprovedOps

namespace GraphQL

/-- A value. -/
inductive Value where
  /-- A variable. -/
  | variable (name : Text)
  /-- A number without fraction and exponent, as it is written. -/
  | int (digits : Text)
  /-- Any other number, as it is written. -/
  | float (digits : Text)
  /-- A string, between triple quotes if `block`. -/
  | string (block : Bool) (content : Text)
  /-- A truth value. -/
  | boolean (b : Bool)
  /-- The null value. -/
  | null
  /-- A value of an enumeration. -/
  | enum (name : Text)
  /-- A list. -/
  | list (items : List Value)
  /-- An input object. -/
  | object (fields : List (Text × Value))
  deriving Repr, Inhabited

/-- A description: a string, between triple quotes if `block`. -/
structure Description where
  /-- Is it between triple quotes? -/
  block : Bool
  /-- Its text. -/
  content : Text
  deriving DecidableEq, Repr

/-- An argument. -/
abbrev Argument := Text × Value

/-- A directive with its arguments. -/
structure Directive where
  /-- Its name. -/
  name : Text
  /-- Its arguments. -/
  arguments : List Argument
  deriving Repr

/-- A reference to a type. -/
inductive TypeRef where
  /-- A type by its name. -/
  | named (name : Text)
  /-- A list of values of a type. -/
  | list (inner : TypeRef)
  /-- A type without null. -/
  | nonNull (inner : TypeRef)
  deriving DecidableEq, Repr

/-- The definition of a variable. -/
structure VariableDefinition where
  /-- Its description. -/
  description : Option Description
  /-- Its name. -/
  name : Text
  /-- Its type. -/
  type : TypeRef
  /-- Its default value. -/
  default : Option Value
  /-- Its directives. -/
  directives : List Directive
  deriving Repr

/-- A selection. -/
inductive Selection where
  /-- A field, with an alias, arguments, directives and the selections in it. -/
  | field (label : Option Text) (name : Text) (arguments : List Argument)
      (directives : List Directive) (selections : Option (List Selection))
  /-- The use of a fragment. -/
  | spread (name : Text) (directives : List Directive)
  /-- Selections under a type condition or directives. -/
  | inline (type : Option Text) (directives : List Directive) (selections : List Selection)
  deriving Repr

/-- The kinds of operations. -/
inductive OperationKind where
  /-- A query. -/
  | query
  /-- A mutation. -/
  | mutation
  /-- A subscription. -/
  | subscription
  deriving DecidableEq, Repr

/-- An operation. -/
structure Operation where
  /-- Its description. -/
  description : Option Description
  /-- Its kind. -/
  kind : OperationKind
  /-- Its name. -/
  name : Option Text
  /-- Its variables. -/
  variableDefinitions : List VariableDefinition
  /-- Its directives. -/
  directives : List Directive
  /-- What it selects. -/
  selections : List Selection
  deriving Repr

/-- The definition of an argument or of a field of an input object. -/
structure InputValue where
  /-- Its description. -/
  description : Option Description
  /-- Its name. -/
  name : Text
  /-- Its type. -/
  type : TypeRef
  /-- Its default value. -/
  default : Option Value
  /-- Its directives. -/
  directives : List Directive
  deriving Repr

/-- The definition of a field. -/
structure FieldDefinition where
  /-- Its description. -/
  description : Option Description
  /-- Its name. -/
  name : Text
  /-- Its arguments. -/
  arguments : List InputValue
  /-- Its type. -/
  type : TypeRef
  /-- Its directives. -/
  directives : List Directive
  deriving Repr

/-- The definition of a value of an enumeration. -/
structure EnumValue where
  /-- Its description. -/
  description : Option Description
  /-- Its name. -/
  name : Text
  /-- Its directives. -/
  directives : List Directive
  deriving Repr

/-- What a type is made of. -/
inductive TypeBody where
  /-- A scalar type. -/
  | scalar
  /-- An object type. -/
  | object (interfaces : List Text) (fields : List FieldDefinition)
  /-- An interface type. -/
  | interface (interfaces : List Text) (fields : List FieldDefinition)
  /-- A union of object types. -/
  | union (members : List Text)
  /-- An enumeration. -/
  | enum (values : List EnumValue)
  /-- An input object type. -/
  | input (fields : List InputValue)
  deriving Repr

/-- A definition at the top level of a document. -/
inductive Definition where
  /-- An operation. -/
  | operation (o : Operation)
  /-- A fragment on a type. -/
  | fragment (description : Option Description) (name type : Text) (directives : List Directive)
      (selections : List Selection)
  /-- A schema, with the type of each kind of operation. -/
  | schema (description : Option Description) (directives : List Directive)
      (types : List (OperationKind × Text))
  /-- A type. -/
  | type (description : Option Description) (name : Text) (directives : List Directive)
      (body : TypeBody)
  /-- A directive. -/
  | directive (description : Option Description) (name : Text) (arguments : List InputValue)
      (repeatable : Bool) (locations : List Text)
  /-- An extension of the schema. -/
  | extendSchema (directives : List Directive) (types : List (OperationKind × Text))
  /-- An extension of a type. -/
  | extendType (name : Text) (directives : List Directive) (body : TypeBody)
  deriving Repr

/-- A document. -/
abbrev Document := List Definition

end GraphQL

end ApprovedOps
