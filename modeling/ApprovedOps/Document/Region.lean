import ApprovedOps.Document.Lexeme
import ApprovedOps.Text.Quoted

/-! # Regions of a submitted document

A document is a leading comment followed by blocks: variables, an operation, and fragments. The
names that open a block, and what can be wrong with one.
-/

namespace ApprovedOps

/-- The regions of a document. -/
inductive Region where
  /-- What stands before the first block. -/
  | comment
  /-- A variables block. -/
  | vars
  /-- An operation. -/
  | query
  /-- A fragment definition. -/
  | fragment
  deriving DecidableEq, Repr

namespace Region

/-- The name of a region. -/
def name : Region → Text
  | .comment => "comment"
  | .vars => "variables"
  | .query => "query"
  | .fragment => "fragment"

/-- The region that a keyword opens. -/
def ofKeyword? (word : Text) : Option Region :=
  if word = Text.ofString "variables" then some .vars
  else if word = Text.ofString "query" then some .query
  else if word = Text.ofString "mutation" then some .query
  else if word = Text.ofString "subscription" then some .query
  else if word = Text.ofString "fragment" then some .fragment
  else none

/-- The region that a lexeme at the top level opens. -/
def openedBy? (l : Lexeme) : Option Region :=
  if l.kind = .name then ofKeyword? l.text else none

end Region

/-- Why a document is refused. -/
inductive DocumentError where
  /-- A comment or string does not end. -/
  | unterminated (open_ : Lexeme.Unterminated)
  /-- A block has no closing brace. -/
  | unclosed (region : Region)
  /-- There is a second operation. -/
  | secondOperation
  /-- A fragment has no name; `head` is the beginning of its text. -/
  | unnamedFragment (head : Text)
  deriving DecidableEq, Repr

namespace DocumentError

/-- The words for what is wrong with a document. -/
def message : DocumentError → Text
  | .unterminated ⟨.comment, start⟩ => "unterminated comment at offset " ++ Text.ofNat start
  | .unterminated ⟨.string, start⟩ => "unterminated string at offset " ++ Text.ofNat start
  | .unclosed region => region.name ++ Text.ofString " block has no closing brace"
  | .secondOperation => "document contains more than one operation"
  | .unnamedFragment head => "fragment has no name: " ++ head.quoted

end DocumentError

/-- A named fragment definition. -/
structure Fragment where
  /-- The declared name. -/
  name : Text
  /-- The text of the whole definition. -/
  value : Text
  deriving DecidableEq, Repr

namespace Fragment

/-- How much of an unnamed fragment its error shows. -/
def shownHead : Nat := 40

/-- The name after the keyword, if there is one. -/
def declaredName? (value : Text) : Option Text :=
  match value.trimLeft.dropPrefix? (Text.ofString "fragment") with
  | none => none
  | some r =>
    match r.trimLeft with
    | [] => none
    | c :: r' =>
      if r.head?.any CodePoint.isBlank && c.isNameStart then
        some (c :: r'.takeWhile CodePoint.isNameContinue)
      else
        none

/-- The name that a definition `fragment Name on …` declares. -/
def nameOf (value : Text) : Except DocumentError Text :=
  match declaredName? value with
  | some name =>
    if name = Text.ofString "on" then .error (.unnamedFragment (value.take shownHead)) else .ok name
  | none => .error (.unnamedFragment (value.take shownHead))

end Fragment

end ApprovedOps
