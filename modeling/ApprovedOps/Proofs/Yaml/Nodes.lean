import ApprovedOps.Proofs.Yaml.Scanned
import ApprovedOps.Yaml.Node

/-! # Written fields as nodes

The tokens of written fields are read as a tree: a node comes before the nodes inside it, and nodes
that are read later leave those before them as they are.
-/

namespace ApprovedOps.Yaml

open Token Layout

/-- The nodes at and under a number say what has been written, as it is read again. -/
inductive Holds (A : Array Node) : Nat → WrittenField → Prop
  /-- A text. -/
  | text {id : Nat} {t : Text} {start : Mark} :
      A[id]? = some ⟨.str, .scalar (reread t), start⟩ → Holds A id (.text t)
  /-- Texts, which come after the sequence of them. -/
  | texts {id : Nat} {ts : List Text} {ids : List Nat} {start : Mark} :
      A[id]? = some ⟨.seq, .sequence ids, start⟩ → ids.length = ts.length →
      (∀ q ∈ ids.zip ts, id < q.1) → (∀ q ∈ ids.zip ts, Holds A q.1 (.text q.2)) →
      Holds A id (.texts ts)
  /-- Fields, whose keys and values come after the mapping of them. -/
  | fields {id : Nat} {fs : List (Text × WrittenField)} {es : List (Nat × Nat)} {start : Mark} :
      A[id]? = some ⟨.map, .mapping es, start⟩ → es.length = fs.length →
      (∀ q ∈ es.zip fs, id < q.1.1 ∧ id < q.1.2) →
      (∀ q ∈ es.zip fs, ∃ start, A[q.1.1]? = some ⟨.str, .scalar q.2.1, start⟩) →
      (∀ q ∈ es.zip fs, Holds A q.1.2 q.2.2) → Holds A id (.fields fs)

namespace NodeReader

variable {α β : Type} {s s' d : Reading} {t : Token} {ts rest : List Token} {A : Array Node}
  {depth n : Nat} {position : Position} {f : WrittenField}

/-! ## Single tokens -/

/-- A token that is no refusal and brings no name or tag for a node. -/
def Quiet : Token → Prop
  | .fault _ | .anchor _ | .tag _ _ | .reference _ => False
  | _ => True

theorem bind_ok {x : NodeReader α} {a : α} {g : α → NodeReader β} (h : x s = .ok (a, d)) :
    (x >>= g) s = g a d := by
  simp only [bind, StateT.bind, h, Except.bind]

theorem peek_some (here : s.tokens = t :: ts) (quiet : Quiet t) : peek s = .ok (some t, s) := by
  obtain ⟨tokens, handles, anchors, nodes⟩ := s
  obtain rfl : tokens = t :: ts := here
  cases t <;> first | rfl | exact absurd quiet id

theorem peek_none (here : s.tokens = []) : peek s = .ok (none, s) := by
  obtain ⟨tokens, handles, anchors, nodes⟩ := s
  obtain rfl : tokens = [] := here
  rfl

theorem takes_same (here : s.tokens = t :: ts) (quiet : Quiet t) :
    takes t s = .ok (true, { s with tokens := ts }) := by
  rw [takes, bind_ok (peek_some here quiet)]
  simp [advance, modify, modifyGet, MonadStateOf.modifyGet, StateT.modifyGet, bind, StateT.bind,
    pure, Except.pure, Except.bind, here]
  rfl

theorem takes_other (others : ∀ u ∈ s.tokens.head?, Quiet u ∧ u ≠ t) :
    takes t s = .ok (false, s) := by
  cases here : s.tokens with
  | nil =>
      rw [takes, bind_ok (peek_none here)]
      rfl
  | cons u us =>
      have other := others u (by rw [here]; rfl)
      rw [takes, bind_ok (peek_some here other.1)]
      simp [other.2]
      rfl

theorem nodeUnless_node {ends : List Token} {node : NodeReader Nat} (here : s.tokens = t :: ts)
    (quiet : Quiet t) (other : t ∉ ends) : nodeUnless ends node s = node s := by
  have look : isAtOneOf ends s = .ok (false, s) := by
    rw [isAtOneOf, bind_ok (peek_some here quiet)]
    simp [other]
    rfl
  rw [nodeUnless, bind_ok look]
  rfl

/-- A node without an anchor and a tag, by the token at its beginning. -/
theorem node_scalar {text : Text} {plain : Bool} (here : s.tokens = .scalar text plain :: ts) :
    node (depth + 1) position s = .ok (s.nodes.size,
      { s with
        tokens := ts
        nodes := s.nodes.push ⟨if plain then .ofKind (.ofPlain text) else .str, .scalar text,
          .tokensLeft s.tokens.length⟩ }) := by
  obtain ⟨tokens, handles, anchors, nodes⟩ := s
  obtain rfl : tokens = .scalar text plain :: ts := here
  cases plain <;> rfl

theorem node_items (here : s.tokens = .blockEntry :: ts) :
    node (depth + 1) .entry s = sequence { start := .tokensLeft s.tokens.length }
      (blockItems [.key, .value, .blockEnd] (node depth .block) (s.tokens.length + 1)) s := by
  obtain ⟨tokens, handles, anchors, nodes⟩ := s
  obtain rfl : tokens = .blockEntry :: ts := here
  rfl

theorem node_mapping (here : s.tokens = .blockMappingStart :: ts) (block : position ≠ .flow) :
    node (depth + 1) position s = mapping { start := .tokensLeft s.tokens.length }
      (do
        let entries ← blockEntries (node depth .entry) (s.tokens.length + 1)
        blockEnd .blockMapping (.tokensLeft s.tokens.length)
        return entries) { s with tokens := ts } := by
  obtain ⟨tokens, handles, anchors, nodes⟩ := s
  obtain rfl : tokens = .blockMappingStart :: ts := here
  cases position with
  | flow => exact absurd rfl block
  | block => rfl
  | entry => rfl

/-! ## What is added -/

/-- Nodes are added, and those from before stay as they are. -/
def Grows (s d : Reading) : Prop :=
  s.nodes.size ≤ d.nodes.size ∧ ∀ i < s.nodes.size, d.nodes[i]? = s.nodes[i]?

/-- An array has the nodes that have been added. -/
def Has (A : Array Node) (s d : Reading) : Prop :=
  ∀ i, s.nodes.size ≤ i → i < d.nodes.size → A[i]? = d.nodes[i]?

theorem Grows.trans {e : Reading} (h : Grows s d) (more : Grows d e) : Grows s e :=
  ⟨Nat.le_trans h.1 more.1, fun i below =>
    (more.2 i (Nat.lt_of_lt_of_le below h.1)).trans (h.2 i below)⟩

theorem Has.first {e : Reading} (h : Has A s e) (more : Grows d e) : Has A s d :=
  fun i from_ below => (h i from_ (Nat.lt_of_lt_of_le below more.1)).trans (more.2 i below)

theorem Has.second {e : Reading} (h : Has A s e) (before : Grows s d) : Has A d e :=
  fun i from_ below => h i (Nat.le_trans before.1 from_) below

/-- A reader adds a node with all that is in it, of which `meaning` is true, and leaves `rest`. -/
def Adds (reader : NodeReader Nat) (s : Reading) (rest : List Token)
    (meaning : Array Node → Nat → Prop) : Prop :=
  ∃ d, reader s = .ok (s.nodes.size, d) ∧ d.tokens = rest ∧ Grows s d ∧
    s.nodes.size < d.nodes.size ∧ ∀ A, Has A s d → meaning A s.nodes.size

/-- A field is read as one node with all that is in it, before what is not an element. -/
def Parses (f : WrittenField) : Prop :=
  ∀ {depth : Nat} {s : Reading} {rest : List Token}, (fieldTokens f).length < depth →
    s.tokens = fieldTokens f ++ rest → (∀ u ∈ rest.head?, Quiet u ∧ u ≠ .blockEntry) →
    Adds (node depth .entry) s rest fun A id => Holds A id f

/-- A written text is a text for the reader, in whatever style it is. -/
theorem scalarTag_written (text : Text) :
    (if decide (styleOf text = .plain) then Tag.ofKind (.ofPlain (reread text)) else .str) =
      Tag.str := by
  by_cases style : styleOf text = .plain
  · have plain := allowsPlain_of_style style
    simp only [allowsPlain, Bool.and_eq_true, decide_eq_true_eq] at plain
    have same : reread text = text := by rw [reread, style]
    rw [same, plain.2, style]
    rfl
  · simp [style]

/-- A node is added at the end. -/
theorem grows_push (s : Reading) (ts : List Token) (n : Node) :
    Grows s { s with tokens := ts, nodes := s.nodes.push n } := by
  refine ⟨by simp, fun i below => ?_⟩
  rw [Array.getElem?_push, if_neg (Nat.ne_of_lt below)]

theorem node_text {text : Text} (here : s.tokens = scalarToken text :: rest) :
    Adds (node (depth + 1) position) s rest fun A id => Holds A id (.text text) := by
  rw [scalarToken] at here
  have read : node (depth + 1) position s = _ := node_scalar here
  rw [scalarTag_written] at read
  refine ⟨_, read, rfl, grows_push s _ _, by simp, fun A has => ?_⟩
  have here : A[s.nodes.size]? =
      some ⟨.str, .scalar (reread text), .tokensLeft s.tokens.length⟩ := by
    rw [has _ (Nat.le_refl _) (by simp)]
    simp
  exact .text here

theorem node_key {key : Text} (valid : Key key) (here : s.tokens = .scalar key true :: rest) :
    Adds (node (depth + 1) position) s rest
      fun A id => ∃ start, A[id]? = some ⟨.str, .scalar key, start⟩ := by
  have plain := valid.plain
  simp only [allowsPlain, Bool.and_eq_true, decide_eq_true_eq] at plain
  have read : node (depth + 1) position s = _ := node_scalar here
  rw [if_pos rfl, plain.2] at read
  refine ⟨_, read, rfl, grows_push s _ _, by simp, fun A has => ⟨.tokensLeft s.tokens.length, ?_⟩⟩
  rw [has _ (Nat.le_refl _) (by simp)]
  simp [Tag.ofKind]

/-! ## Sequences and mappings -/

theorem sequence_ok {items : NodeReader (List Nat)} {ids : List Nat} {start : Mark}
    (read : items { s with nodes := s.nodes.push ⟨.seq, .sequence [], start⟩ } = .ok (ids, d)) :
    sequence { start } items s = .ok (s.nodes.size,
      { d with nodes := d.nodes.modify s.nodes.size fun n => { n with content := .sequence ids } }) := by
  have added : addNode none ⟨.seq, .sequence [], start⟩ s =
      .ok (s.nodes.size, { s with nodes := s.nodes.push ⟨.seq, .sequence [], start⟩ }) := rfl
  rw [sequence]
  refine (bind_ok added).trans ?_
  rw [bind_ok read]
  rfl

theorem mapping_ok {entries : NodeReader (List (Nat × Nat))} {es : List (Nat × Nat)} {start : Mark}
    (read : entries { s with nodes := s.nodes.push ⟨.map, .mapping [], start⟩ } = .ok (es, d)) :
    mapping { start } entries s = .ok (s.nodes.size,
      { d with nodes := d.nodes.modify s.nodes.size fun n => { n with content := .mapping es } }) := by
  have added : addNode none ⟨.map, .mapping [], start⟩ s =
      .ok (s.nodes.size, { s with nodes := s.nodes.push ⟨.map, .mapping [], start⟩ }) := rfl
  rw [mapping]
  refine (bind_ok added).trans ?_
  rw [bind_ok read]
  rfl

/-- A container that was added first gets its content after what is in it has been read. -/
theorem filled {n : Node} (content : Content)
    (grows : Grows { s with nodes := s.nodes.push n } d) :
    let e : Reading :=
      { d with nodes := d.nodes.modify s.nodes.size fun n => { n with content } }
    Grows s e ∧ s.nodes.size < e.nodes.size ∧
      e.nodes[s.nodes.size]? = some { n with content } ∧
      ∀ A, Has A s e → Has A { s with nodes := s.nodes.push n } d := by
  intro e
  have size : e.nodes.size = d.nodes.size := Array.size_modify
  have long : s.nodes.size < d.nodes.size := by
    have := grows.1
    simp only [Array.size_push] at this
    omega
  have others (i : Nat) (other : i ≠ s.nodes.size) : e.nodes[i]? = d.nodes[i]? := by
    rw [Array.getElem?_modify, if_neg (Ne.symm other)]
  refine ⟨⟨by omega, fun i below => ?_⟩, by omega, ?_, fun A has i from_ below => ?_⟩
  · have kept := grows.2 i (by simp; omega)
    rw [others i (Nat.ne_of_lt below), kept, Array.getElem?_push, if_neg (Nat.ne_of_lt below)]
  · have kept := grows.2 s.nodes.size (by simp)
    rw [Array.getElem?_modify, if_pos rfl, kept]
    simp
  · simp only [Array.size_push] at from_
    rw [has i (by omega) (by omega), others i (by omega)]

/-- The elements of an indented list. -/
theorem blockItems_texts {texts : List Text} (deep : 0 < depth) (enough : texts.length < n)
    (here : s.tokens = fieldTokens (.texts texts) ++ rest)
    (follows : ∀ u ∈ rest.head?, Quiet u ∧ u ≠ .blockEntry) :
    ∃ ids d, blockItems [.key, .value, .blockEnd] (node depth .block) n s = .ok (ids, d) ∧
      d.tokens = rest ∧ Grows s d ∧ ids.length = texts.length ∧
      (∀ q ∈ ids.zip texts, s.nodes.size ≤ q.1) ∧
      ∀ A, Has A s d → ∀ q ∈ ids.zip texts, Holds A q.1 (.text q.2) := by
  induction texts generalizing s n with
  | nil =>
      cases n with
      | zero => cases enough
      | succ n =>
          have here : s.tokens = rest := here
          have none_ : takes .blockEntry s = .ok (false, s) := takes_other (by rw [here]; exact follows)
          refine ⟨[], s, ?_, here, ⟨Nat.le_refl _, fun i _ => rfl⟩, rfl, by simp, by simp⟩
          rw [blockItems, bind_ok none_]
          rfl
  | cons text texts ih =>
      cases n with
      | zero => cases enough
      | succ n =>
          obtain ⟨depth, rfl⟩ := Nat.exists_eq_succ_of_ne_zero (Nat.ne_of_gt deep)
          have taken : takes .blockEntry s = .ok (true, _) := takes_same here trivial
          let next : Reading :=
            { s with tokens := scalarToken text :: (fieldTokens (.texts texts) ++ rest) }
          obtain ⟨d, read, left, grows, long, holds⟩ : Adds (node (depth + 1) .block) next
            (fieldTokens (.texts texts) ++ rest) fun A id => Holds A id (.text text) :=
            node_text rfl
          have element : nodeUnless [.blockEntry, .key, .value, .blockEnd]
              (node (depth + 1) .block) next = .ok (next.nodes.size, d) := by
            rw [nodeUnless_node (t := scalarToken text) rfl trivial (by simp [scalarToken]), read]
          obtain ⟨ids, e, more, left', grows', lengths, after, holds'⟩ :=
            ih (s := d) (n := n) (Nat.lt_of_succ_lt_succ enough) left
          refine ⟨s.nodes.size :: ids, e, ?_, left', grows.trans grows', by simp [lengths], ?_, ?_⟩
          · rw [blockItems]
            refine (bind_ok taken).trans ?_
            refine (bind_ok element).trans ?_
            rw [bind_ok more]
            rfl
          · rw [List.zip_cons_cons, List.forall_mem_cons]
            exact ⟨Nat.le_refl _, fun q among => Nat.le_trans grows.1 (after q among)⟩
          · intro A has
            rw [List.zip_cons_cons, List.forall_mem_cons]
            exact ⟨holds A (has.first grows'), holds' A (has.second grows)⟩

theorem parses_texts {texts : List Text} (some_ : texts ≠ []) : Parses (.texts texts) := by
  intro depth s rest deep here follows
  obtain ⟨text, more, rfl⟩ := List.exists_cons_of_ne_nil some_
  obtain ⟨depth, rfl⟩ := Nat.exists_eq_succ_of_ne_zero (Nat.ne_zero_of_lt deep)
  have inner : 0 < depth := by
    simp only [fieldTokens, List.flatMap_cons, List.length_append, List.length_cons] at deep
    omega
  let opened : Reading :=
    { s with nodes := s.nodes.push ⟨.seq, .sequence [], .tokensLeft s.tokens.length⟩ }
  have enough : (text :: more).length < s.tokens.length + 1 := by
    rw [here]
    simp only [fieldTokens, List.length_append, List.length_flatMap, List.length_cons,
      List.length_nil]
    simp
    omega
  obtain ⟨ids, d, read, left, grows, lengths, after, holds⟩ :=
    blockItems_texts (s := opened) inner enough here follows
  obtain ⟨grown, long, content, has⟩ := filled (.sequence ids) grows
  refine ⟨_, (node_items (by rw [here]; rfl)).trans (sequence_ok read), left, grown, long,
    fun A all => ?_⟩
  have top := (all _ (Nat.le_refl _) long).trans content
  refine .texts top lengths (fun q among => ?_) (holds A (has A all))
  have behind := after q among
  simp only [opened, Array.size_push] at behind
  omega

/-- The tokens of a field begin with what is none of the tokens around it. -/
def Begins (f : WrittenField) : Prop :=
  ∃ t ts, fieldTokens f = t :: ts ∧ Quiet t ∧ t ∉ [Token.key, .value, .blockEnd]

/-- The entries of an indented mapping, in front of its end. -/
theorem blockEntries_fields {fs : List (Text × WrittenField)} (keys : ∀ e ∈ fs, Key e.1)
    (each : ∀ e ∈ fs, Begins e.2 ∧ Parses e.2) (deep : (entryTokens fs).length < depth)
    (enough : fs.length < n)
    (here : s.tokens = entryTokens fs ++ .blockEnd :: rest) :
    ∃ es d, blockEntries (node depth .entry) n s = .ok (es, d) ∧
      d.tokens = .blockEnd :: rest ∧ Grows s d ∧ es.length = fs.length ∧
      (∀ q ∈ es.zip fs, s.nodes.size ≤ q.1.1 ∧ s.nodes.size ≤ q.1.2) ∧
      ∀ A, Has A s d →
        (∀ q ∈ es.zip fs, ∃ start, A[q.1.1]? = some ⟨.str, .scalar q.2.1, start⟩) ∧
        ∀ q ∈ es.zip fs, Holds A q.1.2 q.2.2 := by
  induction fs generalizing s n with
  | nil =>
      cases n with
      | zero => cases enough
      | succ n =>
          have here : s.tokens = .blockEnd :: rest := here
          have none_ : takes .key s = .ok (false, s) := takes_other (by
            rw [here]
            simp [Quiet])
          refine ⟨[], s, ?_, here, ⟨Nat.le_refl _, fun i _ => rfl⟩, rfl, by simp, by simp⟩
          rw [blockEntries, bind_ok none_]
          rfl
  | cons e fs ih =>
      obtain ⟨key, f⟩ := e
      obtain ⟨valid, keys⟩ := List.forall_mem_cons.mp keys
      obtain ⟨⟨begins, parses⟩, each⟩ := List.forall_mem_cons.mp each
      cases n with
      | zero => cases enough
      | succ n =>
          obtain ⟨t, ts, front, quiet, other⟩ := begins
          simp only [entryTokens, List.length_append, List.length_cons] at deep
          obtain ⟨depth, rfl⟩ := Nat.exists_eq_succ_of_ne_zero (Nat.ne_zero_of_lt deep)
          let after := entryTokens fs ++ .blockEnd :: rest
          let named : Reading :=
            { s with tokens := .scalar key true :: .value :: (fieldTokens f ++ after) }
          have taken : takes .key s = .ok (true, named) := takes_same (by
            rw [here]
            simp [entryTokens, after]) trivial
          obtain ⟨d, read, left, grows, long, holds⟩ : Adds (node (depth + 1) .entry) named
            (.value :: (fieldTokens f ++ after))
            fun A id => ∃ start, A[id]? = some ⟨.str, .scalar key, start⟩ := node_key valid rfl
          have keyNode : nodeUnless [.key, .value, .blockEnd] (node (depth + 1) .entry) named =
              .ok (named.nodes.size, d) := by
            rw [nodeUnless_node (t := .scalar key true) rfl trivial (by simp), read]
          let valued : Reading := { d with tokens := fieldTokens f ++ after }
          have colon : takes .value d = .ok (true, valued) := takes_same left trivial
          have follows : ∀ u ∈ after.head?, Quiet u ∧ u ≠ .blockEntry := by
            cases fs with
            | nil =>
                rintro u ⟨⟩
                exact ⟨trivial, by simp⟩
            | cons e fs =>
                rintro u ⟨⟩
                exact ⟨trivial, by simp⟩
          have room : (fieldTokens f).length < depth + 1 := by omega
          obtain ⟨e, read', left', grows', long', holds'⟩ : Adds (node (depth + 1) .entry) valued
            after fun A id => Holds A id f := parses room rfl follows
          have valueNode : valueOf [.key, .value, .blockEnd] (node (depth + 1) .entry) d =
              .ok (d.nodes.size, e) := by
            rw [valueOf]
            refine (bind_ok colon).trans ?_
            have first : valued.tokens = t :: (ts ++ after) := by
              simp only [valued, front, List.cons_append]
            exact (nodeUnless_node first quiet other).trans read'
          have whole : Grows named e := grows.trans grows'
          obtain ⟨es, z, more, left'', grows'', lengths, behind, holds''⟩ :=
            ih (s := e) (n := n) keys each (by omega) (Nat.lt_of_succ_lt_succ enough) left'
          refine ⟨(s.nodes.size, d.nodes.size) :: es, z, ?_, left'', whole.trans grows'',
            by simp [lengths], ?_, ?_⟩
          · rw [blockEntries]
            refine (bind_ok taken).trans ?_
            refine (bind_ok keyNode).trans ?_
            refine (bind_ok valueNode).trans ?_
            rw [bind_ok more]
            rfl
          · rw [List.zip_cons_cons, List.forall_mem_cons]
            refine ⟨⟨Nat.le_refl _, grows.1⟩, fun q among => ?_⟩
            obtain ⟨first, second⟩ := behind q among
            exact ⟨Nat.le_trans whole.1 first, Nat.le_trans whole.1 second⟩
          · intro A has
            have before : Has A named e := has.first grows''
            obtain ⟨names, values⟩ := holds'' A (has.second whole)
            rw [List.zip_cons_cons, List.forall_mem_cons, List.forall_mem_cons]
            exact ⟨⟨holds A (before.first grows'), names⟩,
              ⟨holds' A (before.second grows), values⟩⟩

theorem entryTokens_length (fs : List (Text × WrittenField)) :
    fs.length ≤ (entryTokens fs).length := by
  induction fs with
  | nil => exact Nat.le_refl _
  | cons e fs ih =>
      simp only [entryTokens, List.length_append, List.length_cons]
      omega

/-- Fields are read where a mapping may begin. -/
theorem node_fields {fs : List (Text × WrittenField)} (keys : ∀ e ∈ fs, Key e.1)
    (each : ∀ e ∈ fs, Begins e.2 ∧ Parses e.2) (deep : (fieldTokens (.fields fs)).length ≤ depth)
    (block : position ≠ .flow) (here : s.tokens = fieldTokens (.fields fs) ++ rest) :
    Adds (node (depth + 1) position) s rest fun A id => Holds A id (.fields fs) := by
  simp only [fieldTokens, List.length_append, List.length_cons] at deep
  let start : Mark := .tokensLeft s.tokens.length
  let opened : Reading :=
    { s with
      tokens := entryTokens fs ++ .blockEnd :: rest
      nodes := s.nodes.push ⟨.map, .mapping [], start⟩ }
  have first : s.tokens = .blockMappingStart :: (entryTokens fs ++ .blockEnd :: rest) := by
    rw [here]
    simp [fieldTokens]
  have enough : fs.length < s.tokens.length + 1 := by
    have long : fs.length ≤ (entryTokens fs).length := entryTokens_length fs
    rw [first, List.length_cons, List.length_append]
    omega
  have room : (entryTokens fs).length < depth := by omega
  obtain ⟨es, d, read, left, grows, lengths, after, holds⟩ :=
    blockEntries_fields (s := opened) keys each room enough rfl
  let closed : Reading := { d with tokens := rest }
  have ends : blockEnd .blockMapping start d = .ok ((), closed) := by
    rw [blockEnd]
    refine (bind_ok (takes_same left trivial)).trans ?_
    rfl
  have entries : (do
      let entries ← blockEntries (node depth .entry) (s.tokens.length + 1)
      blockEnd .blockMapping start
      return entries) opened = .ok (es, closed) := by
    refine (bind_ok read).trans ?_
    refine (bind_ok ends).trans ?_
    rfl
  have grows : Grows opened closed := grows
  obtain ⟨grown, long, content, has⟩ := filled (.mapping es) grows
  refine ⟨_, (node_mapping first block).trans (mapping_ok entries), rfl, grown, long,
    fun A all => ?_⟩
  have top := (all _ (Nat.le_refl _) long).trans content
  obtain ⟨names, values⟩ := holds A (has A all)
  refine .fields top lengths (fun q among => ?_) names values
  have behind := after q among
  simp only [opened, Array.size_push] at behind
  omega

/-- Fields that can be written are read. -/
theorem parses_sound {m : Nat} (sound : Sound m f) : Begins f ∧ Parses f := by
  induction sound with
  | text _ =>
      refine ⟨⟨_, _, rfl, trivial, by simp [scalarToken]⟩, ?_⟩
      intro depth s rest deep here follows
      obtain ⟨depth, rfl⟩ := Nat.exists_eq_succ_of_ne_zero (Nat.ne_zero_of_lt deep)
      exact node_text here
  | texts some_ _ _ =>
      obtain ⟨text, more, rfl⟩ := List.exists_cons_of_ne_nil some_
      exact ⟨⟨_, _, rfl, trivial, by simp⟩, parses_texts some_⟩
  | fields _ keys _ _ ih =>
      refine ⟨⟨_, _, rfl, trivial, by simp⟩, ?_⟩
      intro depth s rest deep here follows
      obtain ⟨depth, rfl⟩ := Nat.exists_eq_succ_of_ne_zero (Nat.ne_zero_of_lt deep)
      exact node_fields keys ih (Nat.le_of_lt_succ deep) (by simp) here

/-! ## Documents -/

/-- At most one mark of the document's end is passed. -/
theorem skipEnds_all (ends : rest = [] ∨ rest = [.documentEnd]) (here : s.tokens = rest) :
    skipEnds (rest.length + 1) s = .ok ((), { s with tokens := [] }) := by
  have none_ (d : Reading) (here : d.tokens = []) (n : Nat) :
      skipEnds (n + 1) d = .ok ((), { d with tokens := [] }) := by
    rw [skipEnds, bind_ok (takes_other (by rw [here]; simp)), ← here]
    rfl
  obtain rfl | rfl := ends
  · exact none_ s here _
  · rw [List.length_singleton, skipEnds]
    refine (bind_ok (takes_same here trivial)).trans ?_
    exact none_ { s with tokens := [] } rfl 0

/-- The only document of a text is the written fields. -/
theorem onlyDocument_fields {fs : List (Text × WrittenField)} (keys : ∀ e ∈ fs, Key e.1)
    (sound : ∀ e ∈ fs, Sound 0 e.2) (here : s.tokens = Progress.documentTokens fs) :
    ∃ d, onlyDocument s = .ok (some s.nodes.size, d) ∧
      ∀ A, Has A s d → Holds A s.nodes.size (.fields fs) := by
  obtain ⟨rest, whole, ends⟩ : ∃ rest, s.tokens = fieldTokens (.fields fs) ++ rest ∧
      (rest = [] ∨ rest = [.documentEnd]) := by
    refine ⟨_, here, ?_⟩
    split
    · exact .inr rfl
    · exact .inl rfl
  obtain ⟨ts, first⟩ : ∃ ts, s.tokens = .blockMappingStart :: ts := ⟨_, whole⟩
  have long : (fieldTokens (.fields fs)).length ≤ s.tokens.length := by
    rw [whole, List.length_append]
    exact Nat.le_add_right _ _
  obtain ⟨d, read, left, -, -, holds⟩ : Adds (node (s.tokens.length + 1) .block) s rest
      fun A id => Holds A id (.fields fs) :=
    node_fields keys (fun e among => parses_sound (sound e among)) long (by simp) whole
  have seen : peek s = .ok (some .blockMappingStart, s) := peek_some first trivial
  have counted (s : Reading) : bound s = .ok (s.tokens.length + 1, s) := rfl
  have undirected : isAtDirective s = .ok (false, s) := by
    rw [isAtDirective, bind_ok seen]
    rfl
  have closed : skipEnds (d.tokens.length + 1) d = .ok ((), { d with tokens := [] }) := by
    rw [left]
    exact skipEnds_all ends left
  refine ⟨{ d with tokens := [] }, ?_, holds⟩
  rw [onlyDocument, bind_ok seen]
  refine (bind_ok undirected).trans ?_
  rw [if_neg (by decide)]
  refine (bind_ok (counted s)).trans ?_
  refine (bind_ok read).trans ?_
  refine (bind_ok (counted d)).trans ?_
  refine (bind_ok closed).trans ?_
  rfl

end NodeReader

/-- The graph of a written document. -/
theorem Graph.ofText_document {fs : List (Text × WrittenField)} (some_ : fs ≠ [])
    (keys : ∀ e ∈ fs, Key e.1) (sound : ∀ e ∈ fs, Sound 0 e.2) :
    ∃ nodes, Graph.ofText (document fs) = .ok (some { nodes, root := 0 }) ∧
      Holds nodes 0 (.fields fs) := by
  obtain ⟨d, read, holds⟩ := NodeReader.onlyDocument_fields
    (s := { tokens := Token.scan (document fs) }) keys sound
    (Token.scan_document some_ keys sound)
  refine ⟨d.nodes, ?_, holds d.nodes fun _ _ _ => rfl⟩
  rw [Graph.ofText]
  simp only [StateT.run, read]
  rfl

end ApprovedOps.Yaml
