import ApprovedOps.Proofs.Record.Respelled
import ApprovedOps.Proofs.Yaml.Nodes
import ApprovedOps.Record.Format
import ApprovedOps.Yaml.Assembly

/-! # Written records are read again

The nodes of written fields are assembled breadth first. What has been built is complete but for the
containers that wait, and none of them holds itself, so that the value is that of the fields with
their texts as they are read again. A record is read back unchanged exactly if its styles keep its
texts.
-/

namespace ApprovedOps.Yaml

open Layout

mutual

/-- The value of a written field as it is read again. -/
def rereadValue : WrittenField → Value
  | .text t => .string (reread t)
  | .texts ts => .list (ts.map fun t => .string (reread t))
  | .fields fs => .mapping (rereadEntries fs)

/-- The entries of written fields as they are read again. -/
def rereadEntries : List (Text × WrittenField) → List (Value × Value)
  | [] => []
  | (key, f) :: fs => (.string key, rereadValue f) :: rereadEntries fs

end

/-- Fields with different keys that stand for themselves. -/
inductive Proper : WrittenField → Prop
  /-- A text. -/
  | text (t : Text) : Proper (.text t)
  /-- Texts. -/
  | texts (ts : List Text) : Proper (.texts ts)
  /-- Fields. -/
  | fields {fs : List (Text × WrittenField)} : (∀ e ∈ fs, Key e.1) → (fs.map Prod.fst).Nodup →
      (∀ e ∈ fs, Proper e.2) → Proper (.fields fs)

theorem Layout.Sound.proper {m : Nat} {f : WrittenField} (sound : Sound m f) : Proper f := by
  induction sound with
  | text _ => exact .text _
  | texts _ _ _ => exact .texts _
  | fields _ keys distinct _ ih => exact .fields keys distinct ih

/-- The node is that of a proper field. -/
def Sane (A : Array Node) (id : Nat) : Prop :=
  ∃ f, Proper f ∧ Holds A id f

/-- What a node is to be read as. -/
inductive Complete (A : Array Node) (id : Nat) : Built → Prop
  /-- A text. -/
  | text {t : Text} {start : Mark} : A[id]? = some ⟨.str, .scalar t, start⟩ →
      Complete A id (.scalar (.string t))
  /-- A list. -/
  | list {ids : List Nat} {start : Mark} : A[id]? = some ⟨.seq, .sequence ids, start⟩ →
      Complete A id (.list ids)
  /-- A mapping, with the texts of its keys. -/
  | mapping {es : List (Nat × Nat)} {names : List Text} {start : Mark} :
      A[id]? = some ⟨.map, .mapping es, start⟩ → es.length = names.length →
      (∀ q ∈ es.zip names, ∃ start, A[q.1.1]? = some ⟨.str, .scalar q.2, start⟩) →
      Complete A id (.mapping ((es.zip names).map fun q => (.string q.2, q.1.2)))

namespace Builder

variable {α β : Type} {A : Array Node} {s d e : Assembly} {id : Nat} {extra : List Nat}

theorem bind_ok {x : Builder α} {a : α} {g : α → Builder β} (h : x s = .ok (a, d)) :
    (x >>= g) s = g a d := by
  simp only [bind, StateT.bind, h, Except.bind]

/-- The node has been read, or waits for its contents. -/
def IsBuilt (s : Assembly) (id : Nat) : Prop :=
  ∃ b, s.built[id]? = some (some b)

/-- How much there is to do at most: nodes to be read, and containers that wait. -/
def left (s : Assembly) : Nat :=
  s.waiting.length + s.built.toList.countP Option.isNone

/-- What has been built is complete, but for the containers that wait and those that are being
    read. -/
structure Inv (A : Array Node) (extra : List Nat) (s : Assembly) : Prop where
  /-- The nodes are as they were. -/
  nodes : s.nodes = A
  /-- There is a place for each of them. -/
  size : s.built.size = A.size
  /-- What is built is a field, and complete unless it waits. -/
  built : ∀ id b, s.built[id]? = some (some b) → Sane A id ∧
    (id ∈ extra ∨ id ∈ s.waiting ∨ (Complete A id b ∧ ∀ j ∈ b.inside, IsBuilt s j))
  /-- Containers wait, and they have been met. -/
  waits : ∀ id, id ∈ extra ∨ id ∈ s.waiting → IsBuilt s id ∧
    ∀ t start, A[id]? ≠ some ⟨.str, .scalar t, start⟩

/-- Nothing built is lost, and there is no more to do. -/
def Goes (s d : Assembly) : Prop :=
  (∀ j, IsBuilt s j → IsBuilt d j) ∧ left d ≤ left s

theorem Goes.refl (s : Assembly) : Goes s s :=
  ⟨fun _ h => h, Nat.le_refl _⟩

theorem Goes.trans (h : Goes s d) (more : Goes d e) : Goes s e :=
  ⟨fun j built => more.1 j (h.1 j built), Nat.le_trans more.2 h.2⟩

theorem isBuilt_set {b : Built} {w : List Nat} (inside : id < s.built.size) (j : Nat) :
    IsBuilt { s with built := s.built.setIfInBounds id (some b), waiting := w } j ↔
      j = id ∨ IsBuilt s j := by
  simp only [IsBuilt, Array.getElem?_setIfInBounds]
  by_cases same : id = j
  · subst same
    simp [inside]
  · simp [same, Ne.symm same]

/-- Where a node has its place in a list of what is built, the number of the places that are empty
    falls by one when it is filled, and stays when it is filled again. -/
theorem countP_set {l : List (Option Built)} {b : Built} {x : Option Built} (here : l[id]? = some x) :
    (l.set id (some b)).countP Option.isNone + [x].countP Option.isNone =
      l.countP Option.isNone := by
  induction l generalizing id with
  | nil => simp at here
  | cons y l ih =>
      cases id with
      | zero =>
          obtain rfl : y = x := by simpa using here
          simp only [List.set_cons_zero, List.countP_cons, List.countP_nil, Option.isNone_some,
            Bool.false_eq_true, if_false]
          omega
      | succ id =>
          have counted := ih (by simpa using here)
          simp only [List.set_cons_succ, List.countP_cons] at counted ⊢
          omega

/-- A node is read as something, and a container waits. -/
theorem Inv.set {b : Built} {w : List Nat} (inv : Inv A extra s) (sane : Sane A id)
    (inside : id < A.size) (empty : s.built[id]? = some none)
    (after : w = s.waiting ∧ Complete A id b ∧ b.inside = [] ∨
      w = s.waiting ++ [id] ∧ ∀ t start, A[id]? ≠ some ⟨.str, .scalar t, start⟩) :
    let d : Assembly := { s with built := s.built.setIfInBounds id (some b), waiting := w }
    Inv A extra d ∧ IsBuilt d id ∧ Goes s d := by
  intro d
  have room : id < s.built.size := inv.size ▸ inside
  have more (j : Nat) : IsBuilt d j ↔ j = id ∨ IsBuilt s j := isBuilt_set room j
  have kept (j : Nat) (h : j ∈ s.waiting) : j ∈ w := by
    obtain ⟨rfl, -⟩ | ⟨rfl, -⟩ := after
    · exact h
    · exact List.mem_append_left _ h
  have counted : (s.built.toList.set id (some b)).countP Option.isNone + 1 =
      s.built.toList.countP Option.isNone := countP_set (x := none) (by simpa using empty)
  refine ⟨⟨inv.nodes, by simpa [d] using inv.size, fun j c here => ?_, fun j waits => ?_⟩,
    (more id).mpr (.inl rfl), fun j built => (more j).mpr (.inr built), ?_⟩
  · by_cases same : id = j
    · subst same
      obtain rfl : b = c := by simpa [d, room] using here
      refine ⟨sane, ?_⟩
      obtain ⟨-, complete, none_⟩ | ⟨rfl, -⟩ := after
      · exact .inr (.inr ⟨complete, by simp [none_]⟩)
      · exact .inr (.inl (by simp [d]))
    · have here : s.built[j]? = some (some c) := by
        simpa [d, Array.getElem?_setIfInBounds, same] using here
      obtain ⟨sane, found⟩ := inv.built j c here
      refine ⟨sane, ?_⟩
      obtain out | waits | ⟨complete, all⟩ := found
      · exact .inl out
      · exact .inr (.inl (kept j waits))
      · exact .inr (.inr ⟨complete, fun i among => (more i).mpr (.inr (all i among))⟩)
  · have known : (j ∈ extra ∨ j ∈ s.waiting) ∨
        (j = id ∧ ∀ t start, A[id]? ≠ some ⟨.str, .scalar t, start⟩) := by
      obtain out | waits := waits
      · exact .inl (.inl out)
      · obtain ⟨rfl, -⟩ | ⟨rfl, container⟩ := after
        · exact .inl (.inr waits)
        · obtain before | last := List.mem_append.mp waits
          · exact .inl (.inr before)
          · exact .inr ⟨List.mem_singleton.mp last, container⟩
    obtain before | ⟨rfl, container⟩ := known
    · obtain ⟨built, container⟩ := inv.waits j before
      exact ⟨(more j).mpr (.inr built), container⟩
    · exact ⟨(more j).mpr (.inl rfl), container⟩
  · simp only [left, d, Array.toList_setIfInBounds]
    obtain ⟨rfl, -⟩ | ⟨rfl, -⟩ := after
    · omega
    · rw [List.length_append, List.length_singleton]
      omega

theorem getD_some {γ : Type} {xs : Array γ} {x y : γ} (here : xs[id]? = some x) :
    xs.getD id y = x := by
  rw [Array.getD_eq_getD_getElem?, here]
  rfl

theorem nodeOf_some {n : Node} (nodes : s.nodes = A) (here : A[id]? = some n) :
    nodeOf id s = .ok (n, s) := by
  have node : s.nodes.getD id default = n := by
    rw [nodes]
    exact getD_some here
  simp only [nodeOf, bind, StateT.bind, get, getThe, MonadStateOf.get, StateT.get, pure,
    Except.pure, Except.bind, node]
  rfl

theorem scalar_text {t : Text} {start : Mark} (here : A[id]? = some ⟨.str, .scalar t, start⟩) :
    scalar A id = .ok (.string t) := by
  have node : A.getD id default = ⟨.str, .scalar t, start⟩ := getD_some here
  have text : scalarText A (A.size + 1) id = .ok t := by
    simp only [scalarText, node]
  simp only [scalar, node, text]
  rfl

/-- A node that has not been read is read, or waits. -/
theorem visit_sane (inv : Inv A extra s) (sane : Sane A id) :
    ∃ d, visit id s = .ok ((), d) ∧ Inv A extra d ∧ IsBuilt d id ∧ Goes s d := by
  by_cases known : IsBuilt s id
  · obtain ⟨b, here⟩ := known
    refine ⟨s, ?_, inv, ⟨b, here⟩, .refl s⟩
    have seen : s.built.getD id none = some b := getD_some here
    simp only [visit, bind, StateT.bind, get, getThe, MonadStateOf.get, StateT.get, pure,
      Except.pure, Except.bind, seen]
    rfl
  · have whole := sane
    obtain ⟨f, -, holds⟩ := whole
    have inside : id < A.size := by
      cases holds with
      | text here => exact (Array.getElem?_eq_some_iff.mp here).1
      | texts here => exact (Array.getElem?_eq_some_iff.mp here).1
      | fields here => exact (Array.getElem?_eq_some_iff.mp here).1
    have room : id < s.built.size := inv.size ▸ inside
    have empty : s.built[id]? = some none := by
      cases here : s.built[id] with
      | none => rw [Array.getElem?_eq_getElem room, here]
      | some b => exact absurd ⟨b, by rw [Array.getElem?_eq_getElem room, here]⟩ known
    have unseen : s.built.getD id none = none := getD_some empty
    cases holds with
    | @text _ t start here =>
        have node : s.nodes.getD id default = ⟨.str, .scalar (reread t), start⟩ := by
          rw [inv.nodes]
          exact getD_some here
        have read : scalar s.nodes id = .ok (.string (reread t)) := by
          rw [inv.nodes]
          exact scalar_text here
        refine ⟨_, ?_, inv.set sane inside empty (.inl ⟨rfl, .text here, rfl⟩)⟩
        simp only [visit, bind, StateT.bind, get, getThe, MonadStateOf.get, StateT.get, pure,
          Except.pure, Except.bind, unseen, node, read]
        rfl
    | @texts _ ts ids start here =>
        have node : s.nodes.getD id default = ⟨.seq, .sequence ids, start⟩ := by
          rw [inv.nodes]
          exact getD_some here
        refine ⟨_, ?_, inv.set (b := .list []) sane inside empty
          (.inr ⟨rfl, fun t start' => by rw [here]; simp⟩)⟩
        simp only [visit, bind, StateT.bind, get, getThe, MonadStateOf.get, StateT.get, pure,
          Except.pure, Except.bind, unseen, node]
        rfl
    | @fields _ fs es start here =>
        have node : s.nodes.getD id default = ⟨.map, .mapping es, start⟩ := by
          rw [inv.nodes]
          exact getD_some here
        refine ⟨_, ?_, inv.set (b := .mapping []) sane inside empty
          (.inr ⟨rfl, fun t start' => by rw [here]; simp⟩)⟩
        simp only [visit, bind, StateT.bind, get, getThe, MonadStateOf.get, StateT.get, pure,
          Except.pure, Except.bind, unseen, node]
        rfl

/-- Nodes are read one after the other. -/
theorem forM_visit {ids : List Nat} (inv : Inv A extra s) (sane : ∀ id ∈ ids, Sane A id) :
    ∃ d, ids.forM visit s = .ok ((), d) ∧ Inv A extra d ∧ (∀ id ∈ ids, IsBuilt d id) ∧ Goes s d := by
  induction ids generalizing s with
  | nil => exact ⟨s, rfl, inv, by simp, .refl s⟩
  | cons id ids ih =>
      obtain ⟨first, rest⟩ := List.forall_mem_cons.mp sane
      obtain ⟨d, read, inv', built, goes⟩ := visit_sane inv first
      obtain ⟨e, more, inv'', others, goes'⟩ := ih inv' rest
      refine ⟨e, (bind_ok read).trans more, inv'', ?_, goes.trans goes'⟩
      exact List.forall_mem_cons.mpr ⟨goes'.1 id built, others⟩

/-! ## Mappings -/

/-- A key is read as its text. -/
theorem keyOf_text {map key : Nat} {t : Text} {start : Mark} (inv : Inv A extra s)
    (sane : Sane A key) (here : A[key]? = some ⟨.str, .scalar t, start⟩) :
    ∃ d, keyOf map key s = .ok (.string t, d) ∧ Inv A extra d ∧ Goes s d := by
  obtain ⟨d, read, inv', ⟨b, built⟩, goes⟩ := visit_sane inv sane
  obtain rfl : b = .scalar (.string t) := by
    have container (h : key ∈ extra ∨ key ∈ d.waiting) : False :=
      (inv'.waits key h).2 t start here
    obtain ⟨-, out | waits | ⟨complete, -⟩⟩ := inv'.built key b built
    · exact (container (.inl out)).elim
    · exact (container (.inr waits)).elim
    · cases complete with
      | text there =>
          rw [here] at there
          cases there
          rfl
      | list there =>
          rw [here] at there
          cases there
      | mapping there =>
          rw [here] at there
          cases there
  have seen : d.built.getD key none = some (.scalar (.string t)) := getD_some built
  refine ⟨d, ?_, inv', goes⟩
  rw [keyOf]
  refine (bind_ok read).trans ?_
  simp only [bind, StateT.bind, get, getThe, MonadStateOf.get, StateT.get, pure, Except.pure,
    Except.bind, seen]
  rfl

/-- The texts of the keys of a mapping. -/
def Named (A : Array Node) (es : List (Nat × Nat)) (names : List Text) : Prop :=
  es.length = names.length ∧
    ∀ q ∈ es.zip names, ∃ start, A[q.1.1]? = some ⟨.str, .scalar q.2, start⟩

theorem mem_zip_of_length {γ δ : Type} {x : γ} {xs : List γ} {ys : List δ}
    (lengths : xs.length = ys.length) (among : x ∈ xs) : ∃ y, (x, y) ∈ xs.zip ys := by
  obtain ⟨i, inside, rfl⟩ := List.getElem_of_mem among
  have inside' : i < ys.length := lengths ▸ inside
  refine ⟨ys[i], ?_⟩
  rw [← List.getElem_zip (h := by simp [inside, inside'])]
  exact List.getElem_mem _

theorem Named.key {es : List (Nat × Nat)} {names : List Text} (named : Named A es names) :
    ∀ e ∈ es, ∃ t start, A[e.1]? = some ⟨.str, .scalar t, start⟩ := by
  intro e among
  obtain ⟨name, member⟩ := mem_zip_of_length named.1 among
  exact ⟨name, named.2 _ member⟩

/-- There is nothing to merge. -/
theorem mergedEntries_same {es : List (Nat × Nat)} {start : Mark} (nodes : s.nodes = A)
    (here : A[id]? = some ⟨.map, .mapping es, start⟩)
    (keys : ∀ e ∈ es, ∃ t start, A[e.1]? = some ⟨.str, .scalar t, start⟩) :
    mergedEntries id s = .ok (es, s) := by
  have own : ownEntries id s = .ok (es, s) := by
    rw [ownEntries, entriesOf]
    exact (bind_ok (nodeOf_some nodes here)).trans rfl
  have plain : ∀ l : List (Nat × Nat), (∀ e ∈ l, e ∈ es) →
      (l.forM fun e => plainKey e.1) s = .ok ((), s) := by
    intro l sub
    induction l with
    | nil => rfl
    | cons e l ih =>
        obtain ⟨first, rest⟩ := List.forall_mem_cons.mp sub
        obtain ⟨t, start, there⟩ := keys e first
        have key : plainKey e.1 s = .ok ((), s) := by
          rw [plainKey]
          exact (bind_ok (nodeOf_some nodes there)).trans rfl
        exact (bind_ok key).trans (ih rest)
  have same : s.nodes.modify id (fun n => { n with content := .mapping es }) = s.nodes := by
    refine Array.ext_getElem? fun i => ?_
    rw [Array.getElem?_modify]
    split
    · next this =>
        rw [← this, nodes, here]
        rfl
    · rfl
  have unmerged : es.dropWhile (fun e => !decide ((A.getD e.1 default).tag = .merge)) = [] := by
    refine List.dropWhile_eq_nil_iff.mpr fun e among => ?_
    obtain ⟨t, start, there⟩ := keys e among
    have node : A.getD e.1 default = ⟨.str, .scalar t, start⟩ := getD_some there
    simp [node]
  have flat (n : Nat) : flatten (n + 1) id [] s = .ok ((), s) := by
    rw [flatten]
    refine (bind_ok own).trans ?_
    simp only [bind, StateT.bind, get, getThe, MonadStateOf.get, StateT.get, pure, Except.pure,
      Except.bind, nodes, unmerged]
    rw [setEntries, List.nil_append]
    simp only [modify, modifyGet, MonadStateOf.modifyGet, StateT.modifyGet, same]
    rfl
  rw [mergedEntries]
  refine (bind_ok own).trans ?_
  have current : (get : Builder Assembly) s = .ok (s, s) := rfl
  refine (bind_ok current).trans ?_
  refine (bind_ok (flat _)).trans ?_
  refine (bind_ok own).trans ?_
  refine (bind_ok (plain es fun e among => among)).trans ?_
  refine (bind_ok (plain es fun e among => among)).trans ?_
  rfl

/-- Another key comes after those that are there. -/
theorem insertKey_new {key : Text} {v : Nat} {bs : List (Value × Nat)}
    (new : ∀ b ∈ bs, ∃ t : Text, b.1 = .string t ∧ t ≠ key) :
    mappingEntries.insertKey (.string key) v bs = bs ++ [(.string key, v)] := by
  induction bs with
  | nil => rfl
  | cons b bs ih =>
      obtain ⟨first, rest⟩ := List.forall_mem_cons.mp new
      obtain ⟨k, w⟩ := b
      obtain ⟨t, rfl, other⟩ := first
      have apart : (Value.string t).sameKey (.string key) = false := by
        simp [Value.sameKey, Value.number?, other]
      rw [mappingEntries.insertKey, apart, if_neg Bool.false_ne_true, ih rest]
      rfl

/-- An entry of a mapping is added to those before it. -/
def addEntry (id : Nat) (built : List (Value × Nat)) (e : Nat × Nat) :
    Builder (List (Value × Nat)) := do
  let k ← keyOf id e.1
  visit e.2
  return mappingEntries.insertKey k e.2 built

theorem foldlM_addEntry {es : List (Nat × Nat)} {names : List Text} {bs : List (Value × Nat)}
    (inv : Inv A extra s) (named : Named A es names) (distinct : names.Nodup)
    (new : ∀ b ∈ bs, ∃ t : Text, b.1 = .string t ∧ t ∉ names)
    (keys : ∀ e ∈ es, Sane A e.1) (values : ∀ e ∈ es, Sane A e.2) :
    ∃ d, es.foldlM (addEntry id) bs s =
        .ok (bs ++ (es.zip names).map (fun q => (.string q.2, q.1.2)), d) ∧
      Inv A extra d ∧ (∀ e ∈ es, IsBuilt d e.2) ∧ Goes s d := by
  induction es generalizing names bs s with
  | nil => exact ⟨s, by simp; rfl, inv, by simp, .refl s⟩
  | cons e es ih =>
      obtain ⟨lengths, named⟩ := named
      obtain ⟨name, names, rfl⟩ : ∃ name more, names = name :: more :=
        List.exists_cons_of_ne_nil (by rintro rfl; cases lengths)
      rw [List.zip_cons_cons, List.forall_mem_cons] at named
      obtain ⟨⟨start, here⟩, named⟩ := named
      obtain ⟨key, keys⟩ := List.forall_mem_cons.mp keys
      obtain ⟨value, values⟩ := List.forall_mem_cons.mp values
      obtain ⟨other, distinct⟩ := List.nodup_cons.mp distinct
      obtain ⟨d, read, inv', goes⟩ : ∃ d, keyOf id e.1 s = .ok (.string name, d) ∧
          Inv A extra d ∧ Goes s d := keyOf_text inv key here
      obtain ⟨e', visited, inv'', built, goes'⟩ := visit_sane inv' value
      have added : addEntry id bs e s = .ok (bs ++ [(.string name, e.2)], e') := by
        rw [addEntry]
        refine (bind_ok read).trans ((bind_ok visited).trans ?_)
        rw [insertKey_new fun b among => ?_]
        · rfl
        · obtain ⟨t, same, absent⟩ := new b among
          exact ⟨t, same, fun h => absent (h ▸ List.mem_cons_self)⟩
      have new' : ∀ b ∈ bs ++ [(Value.string name, e.2)],
          ∃ t : Text, b.1 = .string t ∧ t ∉ names := by
        intro b among
        obtain before | last := List.mem_append.mp among
        · obtain ⟨t, same, absent⟩ := new b before
          exact ⟨t, same, fun h => absent (List.mem_cons_of_mem _ h)⟩
        · rw [List.mem_singleton.mp last]
          exact ⟨name, rfl, other⟩
      obtain ⟨z, more, inv₃, rest, goes₃⟩ :=
        ih inv'' ⟨Nat.succ.inj lengths, named⟩ distinct new' keys values
      refine ⟨z, ?_, inv₃, List.forall_mem_cons.mpr ⟨goes₃.1 _ built, rest⟩,
        (goes.trans goes').trans goes₃⟩
      rw [List.foldlM_cons]
      refine (bind_ok added).trans ?_
      rw [more, List.append_assoc]
      rfl

/-- The entries of a mapping with different keys are read in their order. -/
theorem mappingEntries_named {es : List (Nat × Nat)} {names : List Text} {start : Mark}
    (inv : Inv A extra s) (here : A[id]? = some ⟨.map, .mapping es, start⟩)
    (named : Named A es names) (distinct : names.Nodup)
    (keys : ∀ e ∈ es, Sane A e.1) (values : ∀ e ∈ es, Sane A e.2) :
    ∃ d, mappingEntries id s = .ok ((es.zip names).map (fun q => (.string q.2, q.1.2)), d) ∧
      Inv A extra d ∧ (∀ e ∈ es, IsBuilt d e.2) ∧ Goes s d := by
  obtain ⟨d, read, rest⟩ : ∃ d, es.foldlM (addEntry id) [] s =
      .ok ([] ++ (es.zip names).map (fun q => (.string q.2, q.1.2)), d) ∧
        Inv A extra d ∧ (∀ e ∈ es, IsBuilt d e.2) ∧ Goes s d :=
    foldlM_addEntry inv named distinct (by simp) keys values
  refine ⟨d, ?_, rest⟩
  rw [mappingEntries]
  exact (bind_ok (mergedEntries_same inv.nodes here named.key)).trans read

/-! ## Contents -/

/-- A container whose contents have been read is complete. -/
theorem Inv.finish {b : Built} (inv : Inv A [id] s) (complete : Complete A id b)
    (inside : ∀ j ∈ b.inside, IsBuilt s j) :
    let d : Assembly := { s with built := s.built.setIfInBounds id (some b) }
    Inv A [] d ∧ (∀ j, IsBuilt s j → IsBuilt d j) ∧ left d = left s := by
  intro d
  obtain ⟨⟨c, here⟩, -⟩ := inv.waits id (.inl (List.mem_singleton.mpr rfl))
  have room : id < s.built.size := (Array.getElem?_eq_some_iff.mp here).1
  have more (j : Nat) (h : IsBuilt s j) : IsBuilt d j := (isBuilt_set room j).mpr (.inr h)
  refine ⟨⟨inv.nodes, by simpa [d] using inv.size, fun j c' there => ?_, fun j waits => ?_⟩, more, ?_⟩
  · by_cases same : id = j
    · subst same
      obtain rfl : b = c' := by simpa [d, room] using there
      exact ⟨(inv.built id c here).1, .inr (.inr ⟨complete, fun j among => more j (inside j among)⟩)⟩
    · have there : s.built[j]? = some (some c') := by
        simpa [d, Array.getElem?_setIfInBounds, same] using there
      obtain ⟨sane, out | waits | ⟨complete', all⟩⟩ := inv.built j c' there
      · exact absurd (List.mem_singleton.mp out).symm same
      · exact ⟨sane, .inr (.inl waits)⟩
      · exact ⟨sane, .inr (.inr ⟨complete', fun i among => more i (all i among)⟩)⟩
  · obtain out | waits := waits
    · cases out
    · obtain ⟨built, container⟩ := inv.waits j (.inr waits)
      exact ⟨more j built, container⟩
  · have counted : (s.built.toList.set id (some b)).countP Option.isNone =
        s.built.toList.countP Option.isNone := countP_set (x := some c) (by simpa using here)
    simp only [left, d, Array.toList_setIfInBounds, counted]

/-- A key stands for itself. -/
theorem sane_key {key : Text} {start : Mark} (valid : Key key)
    (here : A[id]? = some ⟨.str, .scalar key, start⟩) : Sane A id := by
  have plain : styleOf key = .plain := by
    have unbroken := unbroken_of_plain valid.plain
    have feedless : key.contains (.char '\n') = false := by
      simp only [List.contains_eq_mem, decide_eq_false_iff_not]
      exact fun among => absurd (unbroken _ among) (by decide)
    rw [styleOf, feedless, valid.plain]
    rfl
  have same : reread key = key := by rw [reread, plain]
  exact ⟨.text key, .text key, .text (by rw [same]; exact here)⟩

/-- A container that waits first gets its contents. -/
theorem fill_sane {waiting : List Nat} (inv : Inv A [] s) (first : s.waiting = id :: waiting) :
    ∃ d, fill id { s with waiting } = .ok ((), d) ∧ Inv A [] d ∧
      (∀ j, IsBuilt s j → IsBuilt d j) ∧ left d < left s := by
  let opened : Assembly := { s with waiting }
  have moved (j : Nat) : j ∈ [id] ∨ j ∈ waiting ↔ j ∈ s.waiting := by
    simp [first]
  have opened_inv : Inv A [id] opened := by
    refine ⟨inv.nodes, inv.size, fun j b here => ?_, fun j waits => ?_⟩
    · obtain ⟨sane, out | waits | complete⟩ := inv.built j b here
      · cases out
      · exact ⟨sane, or_assoc.mp (.inl ((moved j).mpr waits))⟩
      · exact ⟨sane, .inr (.inr complete)⟩
    · exact inv.waits j (.inr ((moved j).mp waits))
  have less : left opened + 1 = left s := by
    simp only [left, opened, first, List.length_cons]
    omega
  obtain ⟨⟨b, built⟩, container⟩ := opened_inv.waits id (.inl (List.mem_singleton.mpr rfl))
  obtain ⟨f, proper, holds⟩ := (opened_inv.built id b built).1
  cases holds with
  | text here => exact absurd here (container _ _)
  | @texts _ ts ids start here lengths after holds =>
      have sane : ∀ j ∈ ids, Sane A j := by
        intro j among
        obtain ⟨t, member⟩ := mem_zip_of_length lengths among
        exact ⟨.text t, .text t, holds _ member⟩
      obtain ⟨d, read, inv', built', goes⟩ := forM_visit opened_inv sane
      obtain ⟨inv'', more, same⟩ := inv'.finish (b := .list ids) (.list here) built'
      refine ⟨_, ?_, inv'', fun j h => more j (goes.1 j h), ?_⟩
      · rw [fill]
        refine (bind_ok (nodeOf_some opened_inv.nodes here)).trans ?_
        exact (bind_ok read).trans rfl
      · have := goes.2
        omega
  | @fields _ fs es start here lengths after names values =>
      cases proper with
      | fields keys distinct sub =>
          have named : Named A es (fs.map Prod.fst) := by
            refine ⟨by rw [List.length_map, lengths], fun q among => ?_⟩
            rw [List.zip_map_right] at among
            obtain ⟨q, member, rfl⟩ := List.mem_map.mp among
            exact names q member
          have saneKeys : ∀ e ∈ es, Sane A e.1 := by
            intro e among
            obtain ⟨x, member⟩ := mem_zip_of_length lengths among
            obtain ⟨start, there⟩ := names _ member
            exact sane_key (keys x (List.of_mem_zip member).2) there
          have saneValues : ∀ e ∈ es, Sane A e.2 := by
            intro e among
            obtain ⟨x, member⟩ := mem_zip_of_length lengths among
            exact ⟨x.2, sub x (List.of_mem_zip member).2, values _ member⟩
          obtain ⟨d, read, inv', built', goes⟩ :=
            mappingEntries_named opened_inv here named distinct saneKeys saneValues
          have inside : ∀ j ∈ (Built.mapping ((es.zip (fs.map Prod.fst)).map
              fun q => (.string q.2, q.1.2))).inside, IsBuilt d j := by
            intro j among
            simp only [Built.inside, List.map_map, List.mem_map, Function.comp_apply] at among
            obtain ⟨q, member, rfl⟩ := among
            exact built' _ (List.of_mem_zip member).1
          obtain ⟨inv'', more, same⟩ := inv'.finish (.mapping here named.1 named.2) inside
          refine ⟨_, ?_, inv'', fun j h => more j (goes.1 j h), ?_⟩
          · rw [fill]
            refine (bind_ok (nodeOf_some opened_inv.nodes here)).trans ?_
            exact (bind_ok read).trans rfl
          · have := goes.2
            omega

/-- All containers get their contents. -/
theorem fillAll_sane {n : Nat} (inv : Inv A [] s) (enough : left s < n) :
    ∃ d, fillAll n s = .ok ((), d) ∧ Inv A [] d ∧ d.waiting = [] ∧ ∀ j, IsBuilt s j → IsBuilt d j := by
  induction n generalizing s with
  | zero => cases enough
  | succ n ih =>
      have current : (get : Builder Assembly) s = .ok (s, s) := rfl
      cases first : s.waiting with
      | nil =>
          refine ⟨s, ?_, inv, first, fun _ h => h⟩
          rw [fillAll]
          refine (bind_ok current).trans ?_
          rw [first]
          rfl
      | cons id waiting =>
          obtain ⟨d, read, inv', kept, less⟩ := fill_sane inv first
          obtain ⟨e, more, inv'', done, kept'⟩ := ih inv' (by omega)
          refine ⟨e, ?_, inv'', done, fun j h => kept' j (kept j h)⟩
          rw [fillAll]
          refine (bind_ok current).trans ?_
          rw [first]
          have taken : (modify fun s => { s with waiting } : Builder Unit) s =
              .ok ((), { s with waiting }) := rfl
          refine (bind_ok taken).trans ?_
          exact (bind_ok read).trans more

/-- In the end all that is built is complete. -/
theorem all_sane (sane : Sane A id) :
    ∃ d, all id { nodes := A, built := Array.replicate A.size none } = .ok ((), d) ∧
      Inv A [] d ∧ d.waiting = [] ∧ IsBuilt d id := by
  let start : Assembly := { nodes := A, built := Array.replicate A.size none }
  have unbuilt (j : Nat) (b : Built) : start.built[j]? ≠ some (some b) := by
    simp [start, Array.getElem?_replicate]
  have inv : Inv A [] start := by
    refine ⟨rfl, by simp [start], fun j b here => absurd here (unbuilt j b), fun j waits => ?_⟩
    simp [start] at waits
  have total : left start = A.size := by
    simp [left, start, List.countP_replicate]
  obtain ⟨d, read, inv', built, goes⟩ := visit_sane inv sane
  obtain ⟨e, more, inv'', done, kept⟩ := fillAll_sane (n := d.nodes.size + 1) inv' (by
    have := goes.2
    rw [inv'.nodes]
    omega)
  refine ⟨e, ?_, inv'', done, kept id built⟩
  have current : (get : Builder Assembly) d = .ok (d, d) := rfl
  rw [all]
  refine (bind_ok read).trans ?_
  exact (bind_ok current).trans more

end Builder

/-! ## Values -/

namespace Built

variable {A : Array Node} {B : Array (Option Built)} {id k : Nat}

/-- What is inside a node comes after it. -/
def Ordered (B : Array (Option Built)) : Prop :=
  ∀ id, ∀ j ∈ (B.getD id none).elim [] inside, id < j

/-- From later nodes no earlier one is reached. -/
theorem mark_later (ordered : Ordered B) (n : Nat) (todo : List Nat) (seen : Array Bool)
    (later : ∀ j ∈ todo, k < j) : (mark B n todo seen).getD k false = seen.getD k false := by
  induction n generalizing todo seen with
  | zero => rfl
  | succ n ih =>
      cases todo with
      | nil => rfl
      | cons id todo =>
          obtain ⟨first, rest⟩ := List.forall_mem_cons.mp later
          rw [mark]
          split
          · exact ih todo seen rest
          · rw [ih _ _ fun j among => ?_]
            · simp [Array.getD_eq_getD_getElem?, Nat.ne_of_gt first]
            · obtain inner | outer := List.mem_append.mp among
              · exact Nat.lt_trans first (ordered id j inner)
              · exact rest j outer

theorem knots_nil (ordered : Ordered B) : knots B = [] := by
  refine List.filter_eq_nil_iff.mpr fun id _ => ?_
  rw [holdsItself, mark_later ordered _ _ _ (ordered id)]
  simp only [Array.getD_eq_getD_getElem?, Array.getElem?_replicate]
  split <;> simp

/-- What is inside a node of a field comes after it. -/
theorem inside_later {b : Built} (sane : Sane A id) (complete : Complete A id b) :
    ∀ j ∈ b.inside, id < j := by
  obtain ⟨f, -, holds⟩ := sane
  cases complete with
  | text _ => simp [inside]
  | list here =>
      cases holds with
      | text there =>
          rw [here] at there
          cases there
      | texts there lengths after _ =>
          rw [here] at there
          cases there
          intro j among
          obtain ⟨t, member⟩ := Builder.mem_zip_of_length lengths among
          exact after _ member
      | fields there =>
          rw [here] at there
          cases there
  | mapping here _ _ =>
      cases holds with
      | text there =>
          rw [here] at there
          cases there
      | texts there =>
          rw [here] at there
          cases there
      | fields there lengths after _ _ =>
          rw [here] at there
          cases there
          intro j among
          simp only [inside, List.map_map, List.mem_map, Function.comp_apply] at among
          obtain ⟨q, member, rfl⟩ := among
          obtain ⟨x, member⟩ := Builder.mem_zip_of_length lengths (List.of_mem_zip member).1
          exact (after _ member).2

variable {s : Assembly}

/-- Once nothing waits, all that is built is complete. -/
theorem complete_of_inv {b : Built} (inv : Builder.Inv A [] s) (done : s.waiting = [])
    (here : s.built[id]? = some (some b)) :
    Sane A id ∧ Complete A id b ∧ ∀ j ∈ b.inside, Builder.IsBuilt s j := by
  obtain ⟨sane, out | waits | complete⟩ := inv.built id b here
  · cases out
  · rw [done] at waits
    cases waits
  · exact ⟨sane, complete⟩

theorem ordered_of_inv (inv : Builder.Inv A [] s) (done : s.waiting = []) : Ordered s.built := by
  intro id j among
  rw [Array.getD_eq_getD_getElem?] at among
  cases here : s.built[id]? with
  | none =>
      rw [here] at among
      cases among
  | some known =>
      rw [here] at among
      cases known with
      | none => cases among
      | some b =>
          obtain ⟨sane, complete, -⟩ := complete_of_inv inv done here
          exact inside_later sane complete j among

theorem map_eq_of_zip {γ δ ε : Type} {xs : List γ} {ys : List δ} {g : γ → ε} {h : δ → ε}
    (lengths : xs.length = ys.length) (same : ∀ q ∈ xs.zip ys, g q.1 = h q.2) :
    xs.map g = ys.map h := by
  induction xs generalizing ys with
  | nil =>
      cases ys with
      | nil => rfl
      | cons y ys => cases lengths
  | cons x xs ih =>
      cases ys with
      | nil => cases lengths
      | cons y ys =>
          rw [List.zip_cons_cons, List.forall_mem_cons] at same
          rw [List.map_cons, List.map_cons, same.1, ih (Nat.succ.inj lengths) same.2]

/-- Entries whose keys are found in two ways are the same. -/
theorem entries_eq {es : List (Nat × Nat)} {names : List Text} {fs : List (Text × WrittenField)}
    {g : Nat → Value} (lengths : es.length = names.length) (lengths' : es.length = fs.length)
    (found : ∀ q ∈ es.zip names, ∃ start, A[q.1.1]? = some ⟨.str, .scalar q.2, start⟩)
    (found' : ∀ q ∈ es.zip fs, ∃ start, A[q.1.1]? = some ⟨.str, .scalar q.2.1, start⟩)
    (values : ∀ q ∈ es.zip fs, g q.1.2 = rereadValue q.2.2) :
    (es.zip names).map (fun q => (Value.string q.2, g q.1.2)) = rereadEntries fs := by
  induction es generalizing names fs with
  | nil =>
      cases fs with
      | nil => rfl
      | cons f fs => cases lengths'
  | cons e es ih =>
      cases names with
      | nil => cases lengths
      | cons name names =>
          cases fs with
          | nil => cases lengths'
          | cons f fs =>
              rw [List.zip_cons_cons, List.forall_mem_cons] at found found' values
              obtain ⟨start, here⟩ := found.1
              obtain ⟨start', there⟩ := found'.1
              obtain rfl : name = f.1 := by
                rw [here] at there
                cases there
                rfl
              rw [List.zip_cons_cons, List.map_cons, values.1, rereadEntries,
                ih (Nat.succ.inj lengths) (Nat.succ.inj lengths') found.2 found'.2 values.2]

/-- The value of a node is that of the field it holds. -/
theorem value_holds {f : WrittenField} {n : Nat} (inv : Builder.Inv A [] s)
    (done : s.waiting = []) (holds : Holds A id f) (built : Builder.IsBuilt s id)
    (deep : A.size ≤ n + id) : value s.built [] n id = rereadValue f := by
  induction holds generalizing n with
  | @text id t start here =>
      obtain ⟨b, there⟩ := built
      have inside := (Array.getElem?_eq_some_iff.mp here).1
      obtain ⟨n, rfl⟩ : ∃ m, n = m + 1 := ⟨n - 1, by omega⟩
      obtain ⟨-, complete, -⟩ := complete_of_inv inv done there
      cases complete with
      | text again =>
          rw [here] at again
          cases again
          simp [value, shell, Builder.getD_some there, rereadValue]
      | list again =>
          rw [here] at again
          cases again
      | mapping again =>
          rw [here] at again
          cases again
  | @texts id ts ids start here lengths after holds ih =>
      obtain ⟨b, there⟩ := built
      have inside := (Array.getElem?_eq_some_iff.mp here).1
      obtain ⟨n, rfl⟩ : ∃ m, n = m + 1 := ⟨n - 1, by omega⟩
      obtain ⟨-, complete, all⟩ := complete_of_inv inv done there
      cases complete with
      | text again =>
          rw [here] at again
          cases again
      | list again =>
          rw [here] at again
          cases again
          have values : ids.map (value s.built [] n) = ts.map fun t => .string (reread t) := by
            refine map_eq_of_zip lengths fun q among => ?_
            have := after q among
            exact ih q among (all _ (List.of_mem_zip among).1) (by omega)
          simp [value, shell, Builder.getD_some there, rereadValue, values]
      | mapping again =>
          rw [here] at again
          cases again
  | @fields id fs es start here lengths after names holds ih =>
      obtain ⟨b, there⟩ := built
      have inside := (Array.getElem?_eq_some_iff.mp here).1
      obtain ⟨n, rfl⟩ : ∃ m, n = m + 1 := ⟨n - 1, by omega⟩
      obtain ⟨-, complete, all⟩ := complete_of_inv inv done there
      cases complete with
      | text again =>
          rw [here] at again
          cases again
      | list again =>
          rw [here] at again
          cases again
      | @mapping es' keys _ again lengths' found =>
          rw [here] at again
          cases again
          have values : ∀ q ∈ es.zip fs, value s.built [] n q.1.2 = rereadValue q.2.2 := by
            intro q among
            obtain ⟨key, member⟩ :=
              Builder.mem_zip_of_length lengths' (List.of_mem_zip among).1
            have inner : q.1.2 ∈ (Built.mapping ((es.zip keys).map
                fun q => (.string q.2, q.1.2))).inside := by
              simp only [Built.inside, List.map_map, List.mem_map, Function.comp_apply]
              exact ⟨_, member, rfl⟩
            have := (after q among).2
            exact ih q among (all _ inner) (by omega)
          have entries := entries_eq lengths' lengths found names values
          simp [value, shell, Builder.getD_some there, rereadValue, ← entries]

end Built

/-- A written document is read as the value of its fields, with their texts as they are read
    again. -/
theorem read_document {fs : List (Text × WrittenField)} (some_ : fs ≠ [])
    (keys : ∀ e ∈ fs, Key e.1) (distinct : (fs.map Prod.fst).Nodup)
    (sound : ∀ e ∈ fs, Sound 0 e.2) :
    read (document fs) = .ok { value := .mapping (rereadEntries fs), table := [] } := by
  obtain ⟨nodes, graph, holds⟩ := Graph.ofText_document some_ keys sound
  have sane : Sane nodes 0 :=
    ⟨.fields fs, .fields keys distinct fun e among => (sound e among).proper, holds⟩
  obtain ⟨d, built, inv, done, root⟩ := Builder.all_sane sane
  have knots := Built.knots_nil (Built.ordered_of_inv inv done)
  have value := Built.value_holds (n := d.built.size + 1) inv done holds root (by
    rw [inv.size]
    omega)
  have run : (Builder.all 0).run { nodes, built := Array.replicate nodes.size none } =
      .ok ((), d) := built
  rw [read, graph]
  simp only [bind, Except.bind, run, Built.knotted, knots, value]
  rfl

theorem entries_append (fs gs : List (Text × WrittenField)) :
    WrittenField.entries (fs ++ gs) = WrittenField.entries fs ++ WrittenField.entries gs := by
  induction fs with
  | nil => rfl
  | cons e fs ih =>
      rw [List.cons_append, WrittenField.entries, ih, WrittenField.entries, List.cons_append]

theorem rereadEntries_append (fs gs : List (Text × WrittenField)) :
    rereadEntries (fs ++ gs) = rereadEntries fs ++ rereadEntries gs := by
  induction fs with
  | nil => rfl
  | cons e fs ih => rw [List.cons_append, rereadEntries, ih, rereadEntries, List.cons_append]

end ApprovedOps.Yaml

namespace ApprovedOps

open Yaml Layout

/-- The hint with its texts as they are read again. -/
def Order.reread (o : Order) : Order :=
  { target := Layout.reread o.target, values := o.values.map Layout.reread }

/-- The record with its texts as they are read again. -/
def Record.reread (r : Record) : Record :=
  { r with
    name := Layout.reread r.name
    query := Layout.reread r.query
    ns := Layout.reread r.ns
    comment := Layout.reread r.comment
    vars := Layout.reread r.vars
    order := r.order.reread }

/-- The texts of a record that its file keeps. -/
def Record.texts (r : Record) : List Text :=
  [r.ns, r.name, r.comment, r.query, r.vars, r.order.target] ++ r.order.values

theorem keys_valid {keys : List Text} (plain : ∀ key ∈ keys, allowsPlain key = true)
    (spaceless : ∀ key ∈ keys, ∀ p ∈ key, Layout.isSpace p = false)
    (short : ∀ key ∈ keys, key.length ≤ 1024)
    (apart : ∀ key ∈ keys, ∀ p ∈ key.head?, p ≠ .char '-' ∧ p ≠ .char '.') :
    ∀ key ∈ keys, Key key :=
  fun key among => ⟨plain key among, spaceless key among, short key among, apart key among⟩

theorem Order.fieldKeys_valid : ∀ key ∈ Order.fieldKeys, Key key :=
  keys_valid (by decide) (by decide) (by decide) (by decide)

theorem Record.fieldKeys_valid : ∀ key ∈ Record.fieldKeys, Key key :=
  keys_valid (by decide) (by decide) (by decide) (by decide)

theorem Order.written_sound (o : Order) : ∀ e ∈ o.written, Sound 2 e.2 := by
  intro e among
  rw [Order.written, List.mem_append] at among
  obtain target | values := among
  · split at target
    · cases target
    · rw [List.mem_singleton.mp target]
      exact .text (by decide)
  · split at values
    · cases values
    · next some_ =>
        rw [List.mem_singleton.mp values]
        exact .texts some_ (by decide) (by decide)

theorem Order.field_sound (o : Order) : ∀ e ∈ o.writtenFields, Sound 0 e.2 := by
  intro e among
  rw [Order.writtenFields] at among
  split at among
  · cases among
  · next some_ =>
      rw [List.mem_singleton.mp among]
      have nonempty : o.written ≠ [] := by
        intro none_
        have said := o.written_said some_
        rw [none_] at said
        cases said
      exact .fields nonempty
        (fun e member => Order.fieldKeys_valid e.1
          (o.written_keys.subset (List.mem_map_of_mem member)))
        (o.written_keys.nodup (by decide)) o.written_sound

theorem Record.optionalField_sound (key : String) (t : Text) :
    ∀ e ∈ optionalField key t, Sound 0 e.2 := by
  intro e among
  rw [optionalField] at among
  split at among
  · cases among
  · rw [List.mem_singleton.mp among]
    exact .text (by decide)

theorem Record.written_sound (r : Record) : ∀ e ∈ r.written, Sound 0 e.2 := by
  have text (key : String) (t : Text) :
      ∀ e ∈ [(Text.ofString key, WrittenField.text t)], Sound 0 e.2 := by
    simp only [List.mem_singleton, forall_eq]
    exact .text (by decide)
  simp only [written, List.forall_mem_append]
  exact ⟨⟨⟨⟨⟨optionalField_sound _ _, text _ _⟩, optionalField_sound _ _⟩, text _ _⟩,
    optionalField_sound _ _⟩, r.order.field_sound⟩

/-! ## What a record is read as -/

theorem Record.reread_optional (key : String) (t : Text) :
    rereadEntries (optionalField key t) =
      WrittenField.entries (optionalField key (Layout.reread t)) := by
  simp only [optionalField, reread_eq_nil_iff]
  split <;> rfl

theorem Order.reread_written (o : Order) :
    rereadEntries o.written = WrittenField.entries o.reread.written := by
  simp only [written, reread, reread_eq_nil_iff, List.map_eq_nil_iff, rereadEntries_append,
    entries_append]
  congr 1
  · split <;> rfl
  · split
    · rfl
    · simp [rereadEntries, WrittenField.entries, rereadValue, WrittenField.value,
        Function.comp_def]

theorem Order.reread_writtenFields (o : Order) :
    rereadEntries o.writtenFields = WrittenField.entries o.reread.writtenFields := by
  have same : o.reread.isEmpty = o.isEmpty := by
    rw [Bool.eq_iff_iff]
    simp [isEmpty, reread, reread_eq_nil_iff]
  rw [writtenFields, writtenFields, same]
  split
  · rfl
  · simp only [rereadEntries, WrittenField.entries, rereadValue, WrittenField.value, reread_written]

theorem Record.reread_written (r : Record) :
    rereadEntries r.written = WrittenField.entries r.reread.written := by
  simp only [written, rereadEntries_append, entries_append, reread_optional,
    Order.reread_writtenFields, reread]
  rfl

/-- A written record is read as itself with its texts as they are read again, without its
    fragments. -/
theorem Record.ofYaml_written (path : Text) (r : Record) :
    ofYaml path r.yaml = .ok r.reread.bare := by
  have some_ : r.written ≠ [] := by simp [written]
  have read := read_document some_
    (fun e member => Record.fieldKeys_valid e.1
      (r.written_keys.subset (List.mem_map_of_mem member)))
    (r.written_keys.nodup (by decide)) r.written_sound
  have said : (Value.mapping (rereadEntries r.written)).isBlank = false := by
    simp [Value.isBlank, written, rereadEntries_append, rereadEntries]
  rw [reread_written] at read said
  rw [ofYaml, yaml, read]
  simp only [Value.resolve, said, Bool.false_eq_true, if_false, bind, Except.bind, pure, Except.pure,
    ofEntries_written]

theorem Record.reread_bare_iff (r : Record) :
    r.reread.bare = r.bare ↔ ∀ t ∈ r.texts, Layout.reread t = t := by
  obtain ⟨name, query, ns, comment, vars, ⟨target, values⟩, fragments⟩ := r
  have each : values.map Layout.reread = values ↔ ∀ t ∈ values, Layout.reread t = t := by
    simpa using List.map_inj_left (l := values) (f := Layout.reread) (g := id)
  simp only [bare, reread, Order.reread, texts, Record.mk.injEq, Order.mk.injEq, each,
    List.forall_mem_append, List.forall_mem_cons]
  simp
  tauto

/-- What is read back is the record with its texts as they are read again. That is the record itself
    exactly if every text is between double quotes or has no next-line control. -/
theorem Record.read_back_iff (path : Text) (r : Record) :
    ofYaml path r.yaml = .ok r.reread.bare ∧
      (ofYaml path r.yaml = .ok r.bare ↔
        ∀ t ∈ r.texts, styleOf t = .double ∨ nextLine ∉ t) := by
  refine ⟨r.ofYaml_written path, ?_⟩
  rw [ofYaml_written, Except.ok.injEq, reread_bare_iff]
  simp only [reread_eq_self_iff]

/-- A record with a next-line control in its comment. -/
def Record.ofTwoLines : Record :=
  { name := "A", query := "query A \x7b a \x7d", comment := "a\u0085b" }

/-- It is lost: what is read back is a space. -/
theorem Record.nextLine_lost :
    ofYaml [] ofTwoLines.yaml = .ok { ofTwoLines with comment := "a b" } ∧
      ofYaml [] ofTwoLines.yaml ≠ .ok ofTwoLines := by
  have said : ofTwoLines.reread.bare = { ofTwoLines with comment := "a b" } := by decide +kernel
  have other : ({ ofTwoLines with comment := "a b" } : Record) ≠ ofTwoLines := by decide
  rw [ofYaml_written, said]
  exact ⟨rfl, fun same => other (Except.ok.inj same)⟩

end ApprovedOps
