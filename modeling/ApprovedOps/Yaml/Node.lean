import ApprovedOps.Dictionary
import ApprovedOps.Yaml.Schema
import ApprovedOps.Yaml.Tokens

/-! # The nodes of a document

A document is a graph: scalars, sequences and mappings with tags, where an alias makes a node come
again. Nodes are known by their numbers. The graph is read from the tokens by recursive descent;
nesting and repetition are bounded by the number of tokens, which no document exhausts.
-/

namespace ApprovedOps

namespace Yaml

/-- What a node is to be. -/
inductive Tag where
  /-- The null value. -/
  | null
  /-- A truth value. -/
  | bool
  /-- An integer. -/
  | int
  /-- A floating-point number. -/
  | float
  /-- Bytes. -/
  | binary
  /-- A date or moment. -/
  | timestamp
  /-- A sequence of pairs, with keys that come once. -/
  | omap
  /-- A sequence of pairs. -/
  | pairs
  /-- A set. -/
  | set
  /-- A text. -/
  | str
  /-- A sequence. -/
  | seq
  /-- A mapping. -/
  | map
  /-- The key of entries to be merged. -/
  | merge
  /-- The key of a default value. -/
  | value
  /-- Anything else, which has no value. -/
  | other (name : Text)
  deriving DecidableEq, Repr, Inhabited

namespace Tag

/-- What the tags of this schema begin with. -/
def schema : Text :=
  "tag:yaml.org,2002:"

/-- The names of the tags of this schema that are for nodes with values. -/
def names : List (String × Tag) :=
  [ ("null", .null), ("bool", .bool), ("int", .int), ("float", .float), ("binary", .binary),
    ("timestamp", .timestamp), ("omap", .omap), ("pairs", .pairs), ("set", .set), ("str", .str),
    ("seq", .seq), ("map", .map), ("merge", .merge), ("value", .value) ]

/-- The tag that a whole text names. -/
def ofText (t : Text) : Tag :=
  match names.find? fun (name, _) => schema ++ Text.ofString name = t with
  | some (_, tag) => tag
  | none => .other t

/-- The tag of what a plain scalar stands for. -/
def ofKind : ScalarKind → Tag
  | .bool => .bool
  | .float => .float
  | .int => .int
  | .merge => .merge
  | .null => .null
  | .timestamp => .timestamp
  | .value => .value
  | .indicator => .other (schema ++ Text.ofString "yaml")
  | .string => .str

/-- The whole text of a tag. -/
def text : Tag → Text
  | .other name => name
  | tag =>
    match names.find? fun (_, named) => named = tag with
    | some (name, _) => schema ++ Text.ofString name
    | none => schema

end Tag

/-- What a node holds. -/
inductive Content where
  /-- The text of a scalar. -/
  | scalar (t : Text)
  /-- The nodes of a sequence. -/
  | sequence (items : List Nat)
  /-- The keys and values of a mapping. -/
  | mapping (entries : List (Nat × Nat))
  deriving DecidableEq, Repr, Inhabited

/-- A node of a document. -/
structure Node where
  /-- What it is to be. -/
  tag : Tag
  /-- What it holds. -/
  content : Content
  /-- Where it begins. -/
  start : Mark
  deriving DecidableEq, Repr, Inhabited

/-- The kind of a node's content. -/
def Content.kindName : Content → Text
  | .scalar _ => "scalar"
  | .sequence _ => "sequence"
  | .mapping _ => "mapping"

/-- The handles that are always there. -/
def Tag.usualHandles : Dictionary Text :=
  [("!", "!"), ("!!", schema)]

/-- How far the nodes of a document are read. -/
structure Reading where
  /-- The tokens that are left. -/
  tokens : List Token
  /-- What the handles of tags stand for. -/
  handles : Dictionary Text := Tag.usualHandles
  /-- The nodes with anchors. -/
  anchors : Dictionary Nat := []
  /-- The nodes so far. -/
  nodes : Array Node := #[]

/-- A reader of part of a document. -/
abbrev NodeReader := StateT Reading (Except Failure)

namespace NodeReader

/-- The token that is looked at. -/
def peek : NodeReader (Option Token) := do
  match (← get).tokens with
  | [] => return none
  | .fault cause :: _ => throw cause
  | t :: _ => return some t

/-- Moves on to the next token. -/
def advance : NodeReader Unit :=
  modify fun s => { s with tokens := s.tokens.tail }

/-- Is one of some tokens looked at? -/
def isAtOneOf (ts : List Token) : NodeReader Bool := do
  return (← peek).any fun t => ts.contains t

/-- Takes a token if it is looked at. -/
def takes (t : Token) : NodeReader Bool := do
  if (← peek) = some t then
    advance
    return true
  else
    return false

/-- Where the token that is looked at begins. -/
def mark : NodeReader Mark := do
  return .tokensLeft (← get).tokens.length

/-- Where the token that has just been taken ends, if it is of one code point. -/
def pastMark : NodeReader Mark := do
  return .pastToken ((← get).tokens.length + 1)

/-- Gives up because of a problem somewhere. -/
def complain {α : Type} (problem : Problem) (mark : Mark) (during : Option (Activity × Mark)) :
    NodeReader α :=
  throw (.malformed {
    activity := during.map (·.1), start := during.map (·.2), problem, mark })

/-- The words for the token that is looked at. -/
def shown : NodeReader Text := do
  return (← peek).elim (.ofString "'<stream end>'") Token.shown

/-- Gives up because something else is expected than the token that is looked at. -/
def unexpected {α : Type} (expected : String) (during : Option (Activity × Mark)) :
    NodeReader α := do
  complain (.unexpected (.ofString expected) (← shown)) (← mark) during

/-- Gives up where a bound is exhausted, which no document does. -/
def exhausted {α : Type} : NodeReader α := do
  complain .endOfText (← mark) none

/-- Takes the end of an indented sequence or mapping that began somewhere. -/
def blockEnd (activity : Activity) (start : Mark) : NodeReader Unit := do
  if !(← takes .blockEnd) then
    unexpected "<block end>" (some (activity, start))

/-- A bound on the number of nodes that may follow. -/
def bound : NodeReader Nat := do
  return (← get).tokens.length + 1

/-! ## Single nodes -/

/-- Adds a node, and gives it an anchor if there is one. -/
def addNode (anchor : Option Text) (n : Node) : NodeReader Nat := do
  let s ← get
  let id := s.nodes.size
  let anchors := match anchor with
    | some name => Dictionary.insert name id s.anchors
    | none => s.anchors
  set { s with nodes := s.nodes.push n, anchors }
  return id

/-- Gives a node its content. -/
def fill (id : Nat) (content : Content) : NodeReader Unit :=
  modify fun s => { s with nodes := s.nodes.modify id fun n => { n with content } }

/-- A node that is left out somewhere. -/
def absent (start : Mark) : NodeReader Nat :=
  addNode none ⟨.null, .scalar [], start⟩

/-- The anchor and the tag before a node. -/
structure Properties where
  /-- Where the node begins. -/
  start : Mark
  /-- The anchor. -/
  anchor : Option Text := none
  /-- The tag, with its handle replaced. -/
  tag : Option Text := none

namespace Properties

/-- Does the tag, if there is one, leave the kind of the node open? -/
def isOpen (p : Properties) : Bool :=
  p.tag.all fun t => t = [.char '!']

/-- The tag of a node that has another one if the tag is left open. -/
def tagOr (p : Properties) (usual : Tag) : Tag :=
  if p.isOpen then usual else p.tag.elim usual Tag.ofText

/-- The tag of a scalar. Only a scalar without quotes or with an open tag stands for what its form
    says. -/
def scalarTag (p : Properties) (text : Text) (plain : Bool) : Tag :=
  if p.tag.isSome || plain then p.tagOr (.ofKind (.ofPlain text)) else .str

end Properties

/-- An anchor, if one is looked at. -/
def anchor? : NodeReader (Option Text) := do
  match ← peek with
  | some (.anchor name) =>
    advance
    return some name
  | _ => return none

/-- A tag and where it is, if one is looked at. -/
def tag? : NodeReader (Option (Option Text × Text × Mark)) := do
  match ← peek with
  | some (.tag handle suffix) =>
    let place ← mark
    advance
    return some (handle, suffix, place)
  | _ => return none

/-- A tag, with its handle replaced by what it stands for, of a node that begins somewhere. -/
def wholeTag (start : Mark) (tag : Option Text × Text × Mark) : NodeReader Text := do
  match tag with
  | (none, suffix, _) => return suffix
  | (some handle, suffix, place) =>
    match Dictionary.get? handle (← get).handles with
    | some stands => return stands ++ suffix
    | none => complain (.unknownHandle handle) place (some (.node, start))

/-- An anchor and a tag in either order. -/
def properties : NodeReader Properties := do
  let start ← mark
  let first ← anchor?
  let tag ← tag?
  let anchor ← match first, tag with
    | none, some _ => anchor?
    | _, _ => pure first
  let tag ← match tag with
    | some t => pure (some (← wholeTag start t))
    | none => pure none
  return { start, anchor, tag }

/-- A node after an indicator, unless one of some tokens is looked at. -/
def nodeUnless (ends : List Token) (node : NodeReader Nat) : NodeReader Nat := do
  if ← isAtOneOf ends then absent (← pastMark) else node

/-! ## Sequences and mappings -/

/-- The elements of an indented sequence, each after a dash, at most as many as the bound allows. -/
def blockItems (ends : List Token) (node : NodeReader Nat) : Nat → NodeReader (List Nat)
  | 0 => exhausted
  | bound + 1 => do
    if ← takes .blockEntry then
      let item ← nodeUnless (.blockEntry :: ends) node
      return item :: (← blockItems ends node bound)
    else
      return []

/-- The value of a key that has just been read. -/
def valueOf (ends : List Token) (node : NodeReader Nat) : NodeReader Nat := do
  if ← takes .value then nodeUnless ends node else absent (← mark)

/-- The entries of an indented mapping, at most as many as the bound allows. -/
def blockEntries (node : NodeReader Nat) : Nat → NodeReader (List (Nat × Nat))
  | 0 => exhausted
  | bound + 1 => do
    if ← takes .key then
      let ends := [Token.key, .value, .blockEnd]
      let key ← nodeUnless ends node
      let value ← valueOf ends node
      return (key, value) :: (← blockEntries node bound)
    else
      return []

/-- A pair of brackets. -/
structure Brackets where
  /-- The token at the end. -/
  close : Token
  /-- What is read between them. -/
  activity : Activity
  /-- The tokens that are expected after an element. -/
  expected : String

/-- The brackets of a sequence. -/
def Brackets.sequence : Brackets :=
  ⟨.flowSequenceEnd, .flowSequence, "',' or ']'"⟩

/-- The braces of a mapping. -/
def Brackets.mapping : Brackets :=
  ⟨.flowMappingEnd, .flowMapping, "',' or '\x7d'"⟩

/-- An entry after the mark of its key. -/
def flowEntry (brackets : Brackets) (node : NodeReader Nat) : NodeReader (Nat × Nat) := do
  let ends := [Token.flowEntry, brackets.close]
  let key ← nodeUnless (.value :: ends) node
  let value ← valueOf ends node
  return (key, value)

/-- An element of a sequence in brackets: a node, or a mapping with a single entry. -/
def flowItem (node : NodeReader Nat) : NodeReader Nat := do
  let start ← mark
  if ← takes .key then
    let entry ← flowEntry .sequence node
    addNode none ⟨.map, .mapping [entry], start⟩
  else
    node

/-- An entry of a mapping in braces. -/
def flowPair (node : NodeReader Nat) : NodeReader (Nat × Nat) := do
  if ← takes .key then
    flowEntry .mapping node
  else
    let key ← node
    return (key, ← absent (← mark))

/-- Takes the comma after an element between brackets that began somewhere. -/
def comma (brackets : Brackets) (start : Mark) : NodeReader Unit := do
  if !(← takes .flowEntry) then
    complain (.unexpectedInBrackets (.ofString brackets.expected) (← shown)) (← mark)
      (some (brackets.activity, start))

/-- What stands between brackets that began somewhere, with commas between the elements and
    possibly after the last one, at most as many as the bound allows. -/
def flowItems {α : Type} (brackets : Brackets) (start : Mark) (item : NodeReader α) (first : Bool) :
    Nat → NodeReader (List α)
  | 0 => exhausted
  | bound + 1 => do
    if ← takes brackets.close then
      return []
    else
      if !first then
        comma brackets start
      if ← takes brackets.close then
        return []
      else
        let element ← item
        return element :: (← flowItems brackets start item false bound)

/-- Where a node stands, which decides how it may be written. -/
inductive Position where
  /-- Between brackets. -/
  | flow
  /-- In an indented sequence or at the beginning. -/
  | block
  /-- In an indented mapping, where a sequence need not be indented further. -/
  | entry
  deriving DecidableEq, Repr

/-- A sequence, whose elements are read once it has a number. -/
def sequence (p : Properties) (items : NodeReader (List Nat)) : NodeReader Nat := do
  let id ← addNode p.anchor ⟨p.tagOr .seq, .sequence [], p.start⟩
  fill id (.sequence (← items))
  return id

/-- A mapping, whose entries are read once it has a number. -/
def mapping (p : Properties) (entries : NodeReader (List (Nat × Nat))) : NodeReader Nat := do
  let id ← addNode p.anchor ⟨p.tagOr .map, .mapping [], p.start⟩
  fill id (.mapping (← entries))
  return id

/-- The node with a number from before. -/
def aliased (name : Text) : NodeReader Nat := do
  let place ← mark
  match Dictionary.get? name (← get).anchors with
  | some id =>
    advance
    return id
  | none => complain (.unknownAlias name) place none

/-- Gives up if there is another node with the same anchor. -/
def checkAnchor (p : Properties) : NodeReader Unit := do
  let s ← get
  match p.anchor with
  | none => return ()
  | some name =>
    match Dictionary.get? name s.anchors with
    | none => return ()
    | some id =>
      complain .secondAnchor p.start (some (.anchored name, (s.nodes.getD id default).start))

/-- A node with nothing but an anchor or a tag, in a block or between brackets. -/
def empty (inFlow : Bool) (p : Properties) : NodeReader Nat :=
  if p.anchor.isSome ∨ p.tag.isSome then
    addNode p.anchor ⟨p.tagOr .null, .scalar [], p.start⟩
  else
    unexpected "the node content" (some (if inFlow then .flowNode else .blockNode, p.start))

/-- A node, nested at most as deep as the bound allows. -/
def node : Nat → Position → NodeReader Nat
  | 0, _ => exhausted
  | depth + 1, position => do
    match ← peek with
    | some (.reference name) => aliased name
    | _ =>
      let p ← properties
      let start ← mark
      let n ← bound
      let next ← peek
      checkAnchor p
      match next with
      | some (.scalar text plain) =>
        advance
        addNode p.anchor ⟨p.scalarTag text plain, .scalar text, p.start⟩
      | some .flowSequenceStart =>
        advance
        sequence p (flowItems .sequence start (flowItem (node depth .flow)) true n)
      | some .flowMappingStart =>
        advance
        mapping p (flowItems .mapping start (flowPair (node depth .flow)) true n)
      | some t =>
        if position = .entry ∧ t = .blockEntry then
          sequence p (blockItems [.key, .value, .blockEnd] (node depth .block) n)
        else if position ≠ .flow ∧ t = .blockSequenceStart then
          advance
          sequence p (do
            let items ← blockItems [.blockEnd] (node depth .block) n
            blockEnd .blockSequence start
            return items)
        else if position ≠ .flow ∧ t = .blockMappingStart then
          advance
          mapping p (do
            let entries ← blockEntries (node depth .entry) n
            blockEnd .blockMapping start
            return entries)
        else
          empty (position = .flow) p
      | none => empty (position = .flow) p

/-! ## Documents -/

/-- Adds the handles that are always there, unless they have been set. -/
def withUsual (handles : Dictionary Text) : Dictionary Text :=
  handles ++ Tag.usualHandles.filter fun (name, _) => (Dictionary.get? name handles).isNone

/-- Directives, of which the version comes at most once and each handle is set at most once. -/
def directives : Nat → Bool → Dictionary Text → NodeReader (Dictionary Text)
  | 0, _, _ => exhausted
  | bound + 1, versioned, handles => do
    let place ← mark
    match ← peek with
    | some .directive =>
      advance
      directives bound versioned handles
    | some (.version major) =>
      advance
      if versioned then
        complain .secondVersion place none
      else if major ≠ 1 then
        complain .otherVersion place none
      else
        directives bound true handles
    | some (.handle name stands) =>
      advance
      if (Dictionary.get? name handles).isSome then
        complain (.secondHandle name) place none
      else
        directives bound versioned (handles ++ [(name, stands)])
    | _ => return handles

/-- Takes all marks of a document's end. -/
def skipEnds : Nat → NodeReader Unit
  | 0 => return ()
  | bound + 1 => do
    if ← takes .documentEnd then
      skipEnds bound

/-- Is a directive looked at? -/
def isAtDirective : NodeReader Bool := do
  match ← peek with
  | some .directive | some (.version _) | some (.handle _ _) => return true
  | _ => return false

/-- The handles that directives set, up to the mark of the document's beginning. -/
def prologue : NodeReader (Dictionary Text) := do
  let handles ← directives (← bound) false []
  if !(← takes .documentStart) then
    unexpected "'<document start>'" none
  return handles

/-- The root of a document that begins with directives or a mark. -/
def marked : NodeReader Nat := do
  let handles ← prologue
  modify fun s => { s with handles := withUsual handles }
  let ended ← isAtOneOf [.documentStart, .documentEnd]
  if ended || (← isAtDirective) || (← peek).isNone then
    absent (← mark)
  else
    node (← bound) .block

/-- Gives up because there is a second document beside that of a root. -/
def secondDocument {α : Type} (root : Nat) : NodeReader α := do
  let place ← mark
  let _ ← prologue
  complain .secondDocument place
    (some (.document, ((← get).nodes.getD root default).start))

/-- The root of the only document of a text, if there is one. -/
def onlyDocument : NodeReader (Option Nat) := do
  match ← peek with
  | none => return none
  | some t =>
    let root ←
      if t = .documentStart || (← isAtDirective) then marked else node (← bound) .block
    skipEnds (← bound)
    if (← peek).isSome then
      secondDocument root
    else
      return some root

end NodeReader

/-- The nodes of a document and the number of its root. -/
structure Graph where
  /-- The nodes by their numbers. -/
  nodes : Array Node
  /-- The number of the root. -/
  root : Nat
  deriving Repr

namespace Graph

/-- The graph of a text, unless the text has no document in it. -/
def ofText (t : Text) : Except Failure (Option Graph) := do
  let (root, s) ← NodeReader.onlyDocument.run { tokens := Token.scan t }
  return root.map fun root => { nodes := s.nodes, root }

end Graph

end Yaml

end ApprovedOps
