import ApprovedOps.Yaml.ScalarValue

/-! # From nodes to values

Values are assembled breadth first: a container exists before its contents are read, so that it may
hold itself, and the containers wait for their contents in the order in which they were met. Keys
are scalars. Merged entries come before a mapping's own, which win.
-/

namespace ApprovedOps

namespace Yaml

/-- What a node has been read as. The nodes inside are known by their numbers. -/
inductive Built where
  /-- A scalar. -/
  | scalar (v : Value)
  /-- A list. -/
  | list (items : List Nat)
  /-- A list of pairs. -/
  | pairs (items : List (Nat × Nat))
  /-- A mapping, in order of insertion. -/
  | mapping (entries : List (Value × Nat))
  /-- A set. -/
  | set (members : List Value)
  deriving Repr, Inhabited

/-- The nodes inside. -/
def Built.inside : Built → List Nat
  | .scalar _ => []
  | .list items => items
  | .pairs items => items.flatMap fun (a, b) => [a, b]
  | .mapping entries => entries.map (·.2)
  | .set _ => []

/-- How far the values of a document are assembled. -/
structure Assembly where
  /-- The nodes by their numbers. -/
  nodes : Array Node
  /-- What they have been read as. -/
  built : Array (Option Built)
  /-- The containers whose contents have not been read, in order. -/
  waiting : List Nat := []

/-- A step of the assembly. -/
abbrev Builder := StateT Assembly (Except Failure)

namespace Builder

/-- The node with a number. -/
def nodeOf (id : Nat) : Builder Node := do
  return (← get).nodes.getD id default

/-- Reads a node as something. -/
def build (id : Nat) (b : Built) : Builder Unit :=
  modify fun s => { s with built := s.built.setIfInBounds id (some b) }

/-- Lets a container wait for its contents. -/
def postpone (id : Nat) (b : Built) : Builder Unit := do
  build id b
  modify fun s => { s with waiting := s.waiting ++ [id] }

/-- The failure of a node that is of another kind than expected. -/
def otherKind (expected : String) (n : Node) (during : Option (Activity × Mark)) : Failure :=
  .malformed {
    activity := during.map (·.1)
    start := during.map (·.2)
    problem := .unexpected (.ofString expected) n.content.kindName
    mark := n.start }

/-- The text of a node that is to be a scalar. A mapping stands for its default value. -/
def scalarText (nodes : Array Node) : Nat → Nat → Except Failure Text
  | 0, id => .error (otherKind "a scalar node" (nodes.getD id default) none)
  | bound + 1, id =>
    let n := nodes.getD id default
    match n.content with
    | .scalar t => .ok t
    | .sequence _ => .error (otherKind "a scalar node" n none)
    | .mapping entries =>
      match entries.find? fun (key, _) => (nodes.getD key default).tag = .value with
      | some (_, v) => scalarText nodes bound v
      | none => .error (otherKind "a scalar node" n none)

/-- The value of a node that is to be a scalar. -/
def scalar (nodes : Array Node) (id : Nat) : Except Failure Value := do
  let n := nodes.getD id default
  let unknown : Failure := .malformed { problem := .unknownTag n.tag.text, mark := n.start }
  match n.tag, n.content with
  | .timestamp, .mapping _ =>
    let _ ← scalarText nodes (nodes.size + 1) id
    throw .instantInMapping
  | tag, _ =>
    match ScalarValue.ofText? tag n.start [] with
    | none => throw unknown
    | some _ =>
      let t ← scalarText nodes (nodes.size + 1) id
      (ScalarValue.ofText? tag n.start t).getD (.error unknown)

/-- Reads a node, if it has not been read. -/
def visit (id : Nat) : Builder Unit := do
  let s ← get
  if (s.built.getD id none).isNone then
    match (s.nodes.getD id default).tag with
    | .seq => postpone id (.list [])
    | .omap | .pairs => postpone id (.pairs [])
    | .map => postpone id (.mapping [])
    | .set => postpone id (.set [])
    | _ => build id (.scalar (← scalar s.nodes id))

/-- The value of a node that is to be a key of a mapping. -/
def keyOf (mapping key : Nat) : Builder Value := do
  visit key
  match (← get).built.getD key none with
  | some (.scalar v) => return v
  | _ =>
    throw (.malformed {
      activity := some .mappingValue
      start := some (← nodeOf mapping).start
      problem := .keyNotScalar
      mark := (← nodeOf key).start })

/-! ## Merged entries -/

/-- Makes the mark of a default value an ordinary key. -/
def plainKey (id : Nat) : Builder Unit := do
  if (← nodeOf id).tag = .value then
    modify fun s => { s with nodes := s.nodes.modify id fun n => { n with tag := .str } }

/-- The entries of a mapping. Any other node is refused. -/
def entriesOf (expected : String) (during : Option (Activity × Mark)) (id : Nat) :
    Builder (List (Nat × Nat)) := do
  let n ← nodeOf id
  match n.content with
  | .mapping entries => return entries
  | _ => throw (otherKind expected n during)

/-- The entries of a node that is to be a mapping. -/
def ownEntries (id : Nat) : Builder (List (Nat × Nat)) :=
  entriesOf "a mapping node" none id

/-- Gives a mapping other entries. -/
def setEntries (id : Nat) (entries : List (Nat × Nat)) : Builder Unit :=
  modify fun s =>
    { s with nodes := s.nodes.modify id fun n => { n with content := .mapping entries } }

/-- Replaces the entries of a mapping that are to be merged by what they merge, where `merged` is
    what has come so far. At most as many as the bound allows. -/
def flatten : Nat → Nat → List (Nat × Nat) → Builder Unit
  | 0, _, _ => return ()
  | bound + 1, id, merged => do
    let entries ← ownEntries id
    let nodes := (← get).nodes
    let isMerge := fun (e : Nat × Nat) => (nodes.getD e.1 default).tag = .merge
    let before := entries.takeWhile (!isMerge ·)
    match entries.dropWhile (!isMerge ·) with
    | [] => setEntries id (merged ++ entries)
    | (_, source) :: after =>
      setEntries id (before ++ after)
      let during := some (Activity.mappingValue, (← nodeOf id).start)
      let n ← nodeOf source
      match n.content with
      | .scalar _ => throw (otherKind "a mapping or list of mappings for merging" n during)
      | .mapping _ =>
        flatten bound source []
        flatten bound id (merged ++ (← ownEntries source))
      | .sequence sources =>
        let parts ← sources.mapM fun source => do
          let _ ← entriesOf "a mapping for merging" during source
          flatten bound source []
          ownEntries source
        flatten bound id (merged ++ parts.reverse.flatten)

/-- How many entries all mappings have together. -/
def size (nodes : Array Node) : Nat :=
  nodes.foldl (fun n node => match node.content with
    | .mapping entries => n + entries.length
    | _ => n) 0

/-- The entries of a mapping after merging. -/
def mergedEntries (id : Nat) : Builder (List (Nat × Nat)) := do
  let entries ← ownEntries id
  flatten (size (← get).nodes + 1) id []
  let merged ← ownEntries id
  merged.forM fun (key, _) => plainKey key
  entries.forM fun (key, _) => plainKey key
  return merged

/-! ## Contents -/

/-- The entries of a mapping with their keys' values. Of two entries with the same key the later
    one wins, at the place of the earlier one. -/
def mappingEntries (id : Nat) : Builder (List (Value × Nat)) := do
  (← mergedEntries id).foldlM
    (fun built (key, value) => do
      let k ← keyOf id key
      visit value
      return insertKey k value built)
    []
where
  /-- Gives a key a value, at the key's old place or else at the end. -/
  insertKey (key : Value) (value : Nat) : List (Value × Nat) → List (Value × Nat)
    | [] => [(key, value)]
    | (k, v) :: rest =>
      if k.sameKey key then (k, value) :: rest else (k, v) :: insertKey key value rest

/-- The elements of a sequence of mappings with a single entry each. -/
def pairsOf (activity : Activity) (id : Nat) : Builder (List (Nat × Nat)) := do
  let n ← nodeOf id
  let during := some (activity, n.start)
  match n.content with
  | .sequence items =>
    items.mapM fun item => do
      match ← entriesOf "a mapping of length 1" during item with
      | [(key, value)] =>
        visit key
        visit value
        return (key, value)
      | entries =>
        throw (.malformed {
          activity := some activity
          start := some n.start
          problem := .notOneEntry entries.length
          mark := (← nodeOf item).start })
  | _ => throw (otherKind "a sequence" n during)

/-- Reads the contents of a container. -/
def fill (id : Nat) : Builder Unit := do
  let n ← nodeOf id
  match n.tag with
  | .seq =>
    match n.content with
    | .sequence items =>
      items.forM visit
      build id (.list items)
    | _ => throw (otherKind "a sequence node" n none)
  | .omap => build id (.pairs (← pairsOf .orderedValue id))
  | .pairs => build id (.pairs (← pairsOf .pairsValue id))
  | .set => build id (.set ((← mappingEntries id).map (·.1)))
  | _ => build id (.mapping (← mappingEntries id))

/-- Reads the contents of all containers that wait, at most as many as the bound allows. -/
def fillAll : Nat → Builder Unit
  | 0 => return ()
  | bound + 1 => do
    match (← get).waiting with
    | [] => return ()
    | id :: waiting =>
      modify fun s => { s with waiting }
      fill id
      fillAll bound

/-- Reads a node with all its contents. -/
def all (root : Nat) : Builder Unit := do
  visit root
  fillAll ((← get).nodes.size + 1)

end Builder

namespace Built

/-- Marks the nodes of a list and all inside them. -/
def mark (built : Array (Option Built)) : Nat → List Nat → Array Bool → Array Bool
  | 0, _, seen => seen
  | _, [], seen => seen
  | bound + 1, id :: todo, seen =>
    if seen.getD id true then
      mark built bound todo seen
    else
      let inside := ((built.getD id none).elim [] inside)
      mark built bound (inside ++ todo) (seen.setIfInBounds id true)

/-- How many places for nodes there are inside all nodes together. -/
def places (built : Array (Option Built)) : Nat :=
  built.foldl (fun n b => n + (b.elim [] inside).length) 0

/-- Does the node hold itself? -/
def holdsItself (built : Array (Option Built)) (id : Nat) : Bool :=
  let inside := (built.getD id none).elim [] inside
  let seen := mark built (places built + inside.length + 1) inside
    (Array.replicate built.size false)
  seen.getD id false

/-- The numbers of the nodes that hold themselves. -/
def knots (built : Array (Option Built)) : List Nat :=
  (List.range built.size).filter (holdsItself built)

/-- The value of a node, given the values of the nodes inside it. -/
def shell (built : Array (Option Built)) (value : Nat → Value) (id : Nat) : Value :=
  match built.getD id none with
  | none => .null
  | some (.scalar v) => v
  | some (.list items) => .list (items.map value)
  | some (.pairs items) => .list (items.map fun (a, b) => .pair (value a) (value b))
  | some (.mapping entries) => .mapping (entries.map fun (key, v) => (key, value v))
  | some (.set members) => .set members

/-- The value of a node; nodes that hold themselves are named by their rows. -/
def value (built : Array (Option Built)) (knots : List Nat) : Nat → Nat → Value
  | 0, _ => .null
  | depth + 1, id =>
    if knots.contains id then .knot (knots.idxOf id)
    else shell built (value built knots depth) id

/-- The value of a node with all that is inside it. -/
def knotted (built : Array (Option Built)) (root : Nat) : Knotted :=
  let knots := knots built
  let depth := built.size + 1
  { value := value built knots depth root
    table := knots.map (shell built (value built knots depth)) }

end Built

/-- The value of a text; null if there is no document in it. -/
def read (t : Text) : Except Failure Knotted := do
  match ← Graph.ofText t with
  | none => return { value := .null }
  | some g =>
    let start : Assembly := { nodes := g.nodes, built := Array.replicate g.nodes.size none }
    let (_, s) ← (Builder.all g.root).run start
    return Built.knotted s.built g.root

end Yaml

end ApprovedOps
