import ApprovedOps.Proofs.Files.Tree
import ApprovedOps.Proofs.Store.Paths

/-! # Writing the files of a namespace again

Where a file of a namespace can be written, it can still be written when others of the namespace were.
Whatever the namespace and the directory of the store are, no file of a record or a fragment lies
above another one: the tree knows those in one directory by a common beginning, nothing above a file
is longer than what is in front of its name, and the two beginnings are hardly of different length.
-/

namespace ApprovedOps

/-! ## Texts one behind the other -/

namespace Text

/-- A part that shares nothing with the beginning of a text is found behind it. -/
theorem infix_behind {d u v : Text} (others : ∀ c ∈ u, c ∉ d) (some_ : d ≠ []) :
    d <:+: u ++ v ↔ d <:+: v := by
  induction u with
  | nil => rfl
  | cons c u ih =>
      obtain ⟨other, others⟩ := List.forall_mem_cons.mp others
      rw [List.cons_append, List.infix_cons_iff, ih others]
      refine or_iff_right fun here => ?_
      cases d with
      | nil => exact some_ rfl
      | cons e d => exact other ((List.cons_prefix_cons.mp here).1 ▸ List.mem_cons_self)

/-- A part is not found across a place if what follows there is not in it. -/
theorem infix_apart {d u v : Text} (head : ∀ c, v.head? = some c → c ∉ d) :
    d <:+: u ++ v ↔ d <:+: u ∨ d <:+: v := by
  constructor
  · intro inside
    obtain front | back | ⟨a, b, rfl, before, after⟩ := List.infix_append_iff.mp inside
    · exact .inl front
    · exact .inr back
    · cases b with
      | nil => exact .inl (by simpa using before.isInfix)
      | cons c b =>
          obtain ⟨r, rfl⟩ := after
          exact absurd (List.mem_append_right a List.mem_cons_self) (head c rfl)
  · rintro (front | back)
    · exact front.trans (List.prefix_append u v).isInfix
    · exact back.trans (List.suffix_append u v).isInfix

theorem dropPrefix_apart {d u v : Text} (head : ∀ c, v.head? = some c → c ∉ d) :
    dropPrefix? (u ++ v) d = (dropPrefix? u d).map (· ++ v) := by
  unfold dropPrefix?
  induction d generalizing u with
  | nil => rfl
  | cons e d ih =>
      cases u with
      | nil =>
          cases v with
          | nil => rfl
          | cons c v =>
              have other : (e == c) = false := by
                refine beq_eq_false_iff_ne.mpr fun same => head c rfl (same ▸ List.mem_cons_self)
              simp [List.isPrefixOf?, other]
      | cons c u =>
          simp only [List.cons_append, List.isPrefixOf?]
          split
          · exact ih fun c first among => head c first (List.mem_cons_of_mem e among)
          · rfl

end Text

namespace FileTree

/-! ## How the tree knows paths with the same beginning -/

/-- Does the tree keep the path as an address? -/
def IsAddress (p : Text) : Prop :=
  Text.ofString "::" <:+: p ∨ Text.ofString "://" <:+: p

theorem isAddress_behind {u v : Text} (slash : .char '/' ∉ u) (colon : .char ':' ∉ u) :
    IsAddress (u ++ v) ↔ IsAddress v := by
  have others (d : Text) (letters : ∀ c ∈ d, c = .char ':' ∨ c = .char '/') : ∀ c ∈ u, c ∉ d := by
    intro c among inside
    obtain rfl | rfl := letters c inside
    · exact colon among
    · exact slash among
  rw [IsAddress, Text.infix_behind (others _ (by decide)) (by decide),
    Text.infix_behind (others _ (by decide)) (by decide), IsAddress]

theorem isAddress_apart {u v : Text}
    (head : ∀ c, v.head? = some c → c ≠ .char ':' ∧ c ≠ .char '/') :
    IsAddress (u ++ v) ↔ IsAddress u ∨ IsAddress v := by
  have others (d : Text) (letters : ∀ c ∈ d, c = .char ':' ∨ c = .char '/') (c : CodePoint)
      (first : v.head? = some c) : c ∉ d := by
    intro inside
    exact (letters c inside).elim (head c first).1 (head c first).2
  rw [IsAddress, Text.infix_apart (others _ (by decide)), Text.infix_apart (others _ (by decide)),
    IsAddress, IsAddress]
  tauto

theorem not_isAddress {u : Text} (colon : .char ':' ∉ u) : ¬IsAddress u := by
  rintro (inside | inside)
  · exact colon (inside.mem (by decide))
  · exact colon (inside.mem (by decide))

/-- May the text be the end of a path that begins with another one? -/
structure Ends (front rest : Text) : Prop where
  head : ∃ c r, rest = c :: r ∧ c ≠ .char ':' ∧ c ≠ .char '/'
  last : ∃ c, rest.getLast? = some c ∧ c ≠ .char '/'
  local_ : Text.dropPrefix? (front ++ rest) "memory://" =
    (Text.dropPrefix? front "memory://").map (· ++ rest)

/-- Paths with the same beginning, and ends that are both addresses or both none, are known by the
    same beginning. -/
theorem normal_ends (front : Text) (address : Prop) : ∃ known : Text, (¬address → known ≠ []) ∧
    ∀ rest, Ends front rest → (IsAddress rest ↔ address) → normal (front ++ rest) = known ++ rest := by
  obtain ⟨inner, given⟩ : ∃ inner, (Text.dropPrefix? front "memory://").getD front = inner := ⟨_, rfl⟩
  have stripped {rest : Text} (ends : Ends front rest) :
      (Text.dropPrefix? (front ++ rest) "memory://").getD (front ++ rest) = inner ++ rest := by
    rw [ends.local_, ← given]
    cases Text.dropPrefix? front "memory://" <;> rfl
  have whole {rest : Text} (ends : Ends front rest) (x : Text) :
      Path.withoutSlashes (x ++ rest) = x ++ rest := by
    obtain ⟨c, last, other⟩ := ends.last
    obtain ⟨d, r, text, -⟩ := ends.head
    refine withoutSlashes_eq ?_ other
    rw [List.getLast?_append_of_ne_nil _ (by simp [text]), last]
  have kept {rest : Text} (ends : Ends front rest) :
      IsAddress (inner ++ rest) ↔ IsAddress inner ∨ IsAddress rest := by
    obtain ⟨c, r, rfl, colon, slash⟩ := ends.head
    refine isAddress_apart fun d first => ?_
    cases first
    exact ⟨colon, slash⟩
  by_cases isAddress : IsAddress inner ∨ address
  · refine ⟨inner, fun none_ => ?_, fun rest ends same => ?_⟩
    · rintro rfl
      obtain inside | there := isAddress
      · simp [IsAddress, Text.ofString] at inside
      · exact none_ there
    · have inside : Text.hasInfix (inner ++ rest) "::" = true ∨
          Text.hasInfix (inner ++ rest) "://" = true := by
        rw [Text.hasInfix_iff, Text.hasInfix_iff]
        exact (kept ends).mpr (isAddress.imp_right same.mpr)
      rw [normal, stripped ends]
      dsimp only
      rw [if_pos inside, whole ends]
  · refine ⟨.char '/' :: inner.dropWhile (· = .char '/'), fun _ => List.cons_ne_nil _ _,
      fun rest ends same => ?_⟩
    have outside : ¬(Text.hasInfix (inner ++ rest) "::" = true ∨
        Text.hasInfix (inner ++ rest) "://" = true) := by
      rw [Text.hasInfix_iff, Text.hasInfix_iff]
      exact fun inside => isAddress (((kept ends).mp inside).imp_right same.mp)
    have skipped : (inner ++ rest).dropWhile (· = .char '/') =
        inner.dropWhile (· = .char '/') ++ rest := by
      obtain ⟨c, r, rfl, -, slash⟩ := ends.head
      rw [List.dropWhile_append]
      split
      next empty =>
        rw [List.isEmpty_iff.mp empty, List.dropWhile_cons_of_neg (by simpa using slash)]
        rfl
      next => rfl
    have some_ : inner.dropWhile (· = .char '/') ++ rest ≠ [] := by
      obtain ⟨c, r, rfl, -⟩ := ends.head
      simp
    rw [normal, stripped ends]
    dsimp only
    rw [if_neg outside, skipped, whole ends, if_neg some_]
    rfl

/-- A last name is behind the last slash. -/
theorem parent_length {known file path : Text} (slashless : .char '/' ∉ file)
    (same : normal path = known ++ file) : (parent path).length ≤ max 1 known.length := by
  have skipped : file.reverse.dropWhile (· ≠ CodePoint.char '/') = [] :=
    List.dropWhile_eq_nil_iff.mpr fun c among => decide_eq_true fun slash =>
      slashless (slash ▸ List.mem_reverse.mp among)
  have before : beforeLastSlash (known ++ file) = beforeLastSlash known := by
    rw [beforeLastSlash, List.reverse_append, List.dropWhile_append, skipped]
    rfl
  have short := beforeLastSlash_length known
  have inner := (List.dropWhile_suffix (l := beforeLastSlash known)
    (· = CodePoint.char '/')).length_le
  rw [parent, same, before, List.length_cons]
  omega

end FileTree

/-! ## The files of a record -/

namespace FileName

/-- What the name stands behind in a file name. -/
def space (ns : Text) : Text :=
  if ns = [] then [] else ns ++ [.char '.']

theorem compose_space (ns name ext : Text) : compose ns name ext = space ns ++ (name ++ ext) := by
  unfold compose space
  split
  · rfl
  · simp

/-- A name and an extension without slashes and colons. -/
structure Tail (tail : Text) : Prop where
  slash : .char '/' ∉ tail
  colon : .char ':' ∉ tail
  some_ : tail ≠ []

theorem tail_name {name : Text} (ext : Text) (h : name.isName = true) (slash : .char '/' ∉ ext)
    (colon : .char ':' ∉ ext) : Tail (name ++ ext) := by
  have outside {c : CodePoint} (other : c.isNameContinue = false) (behind : c ∉ ext) :
      c ∉ name ++ ext := by
    rw [List.mem_append, not_or]
    exact ⟨Text.isName_notMem h other, behind⟩
  refine ⟨outside rfl slash, outside rfl colon, ?_⟩
  simp [Text.isName_ne_nil h]

theorem Tail.last {tail : Text} (h : Tail tail) (front : Text) :
    ∃ c, (front ++ tail).getLast? = some c ∧ c ≠ .char '/' := by
  refine ⟨tail.getLast h.some_, ?_, fun same => h.slash (same ▸ List.getLast_mem h.some_)⟩
  rw [List.getLast?_append_of_ne_nil _ h.some_, List.getLast?_eq_getLast_of_ne_nil h.some_]

theorem Tail.head {tail : Text} (h : Tail tail) :
    ∃ c r, tail = c :: r ∧ c ≠ .char ':' ∧ c ≠ .char '/' := by
  obtain ⟨c, r, rfl⟩ := List.exists_cons_of_ne_nil h.some_
  refine ⟨c, r, rfl, ?_, ?_⟩
  · rintro rfl
    exact h.colon List.mem_cons_self
  · rintro rfl
    exact h.slash List.mem_cons_self

end FileName

namespace Shelf

open FileName (space Tail)
open FileTree (normal parent ancestors)

/-- What stands in front of the directories of a store. -/
theorem join_root (root : Text) : ∃ front : Text, ∀ word : Text, word.isName = true →
    Path.join root word = front ++ word := by
  have relative {word : Text} (h : word.isName = true) : word.head? ≠ some (.char '/') :=
    head?_slashless (Text.isName_notMem h rfl)
  by_cases closed : root = [] ∨ Text.endsWith root [.char '/'] = true
  · exact ⟨root, fun word h => by rw [Path.join_relative root (relative h), if_pos closed]⟩
  · refine ⟨root ++ [.char '/'], fun word h => ?_⟩
    rw [Path.join_relative root (relative h), if_neg closed]
    simp

/-- The path of a directory of the store does not end in a slash. -/
theorem directory_last (root : Text) {word : Text} (h : word.isName = true) :
    ∃ c, (Path.join root word).getLast? = some c ∧ c ≠ .char '/' := by
  have some_ := Text.isName_ne_nil h
  obtain ⟨front, joined⟩ := join_root root
  rw [joined word h, List.getLast?_append_of_ne_nil _ some_,
    List.getLast?_eq_getLast_of_ne_nil some_]
  refine ⟨_, rfl, fun slash => ?_⟩
  exact Text.isName_notMem h (c := .char '/') rfl (slash ▸ List.getLast_mem some_)

/-- A relative path is put behind a slash. -/
theorem directory_join (root : Text) {word file : Text} (h : word.isName = true)
    (relative : file.head? ≠ some (.char '/')) :
    Path.join (Path.join root word) file = Path.join root word ++ .char '/' :: file := by
  obtain ⟨c, last, other⟩ := directory_last root h
  have open_ : ¬(Path.join root word = [] ∨
      Text.endsWith (Path.join root word) [.char '/'] = true) := by
    rw [Text.endsWith_iff]
    rintro (none_ | ⟨front, closed⟩)
    · simp [none_] at last
    · rw [← closed, List.getLast?_append_of_ne_nil _ (by simp)] at last
      cases last
      exact other rfl
  rw [Path.join_relative _ relative, if_neg open_]

theorem join_below {root front word ns tail : Text}
    (joined : ∀ word : Text, word.isName = true → Path.join root word = front ++ word)
    (h : word.isName = true) (relative : (space ns).head? ≠ some (.char '/')) (ending : Tail tail) :
    Path.join (Path.join root word) (space ns ++ tail) =
      front ++ ((word ++ .char '/' :: space ns) ++ tail) := by
  have relative' : (space ns ++ tail).head? ≠ some (.char '/') := by
    cases found : space ns with
    | nil => exact fun first => ending.slash (List.mem_of_head? first)
    | cons c u => rwa [found] at relative
  rw [directory_join root h relative', joined word h]
  simp

/-- The tree knows the files of a namespace in both directories by what is in front of their names,
    which is not shorter for fragments, and not much longer. -/
theorem composed_known (s : Shelf) (ns : Text) : ∃ queries fragments : Text, queries ≠ [] ∧
    queries.length ≤ fragments.length ∧ fragments.length ≤ queries.length + 2 ∧
    ∀ tail, Tail tail →
      normal (Path.join s.queries (space ns ++ tail)) = queries ++ tail ∧
      normal (Path.join s.fragments (space ns ++ tail)) = fragments ++ tail := by
  by_cases absolute : (space ns).head? = some (.char '/')
  · obtain ⟨r, begins⟩ : ∃ r, space ns = .char '/' :: r := by
      cases found : space ns with
      | nil => simp [found] at absolute
      | cons c r => exact ⟨r, by rw [found] at absolute; rw [Option.some.inj absolute]⟩
    obtain ⟨known, some_, same⟩ := FileTree.normal_ends (space ns) False
    have itself (dir tail : Text) : Path.join dir (space ns ++ tail) = space ns ++ tail := by
      rw [Path.join, if_pos (by rw [begins]; rfl)]
    refine ⟨known, known, some_ not_false, Nat.le_refl _, Nat.le_add_right _ _, fun tail h => ?_⟩
    have ends : FileTree.Ends (space ns) tail :=
      ⟨h.head, by simpa using h.last [], by rw [begins]; rfl⟩
    rw [itself, itself]
    have plain := iff_false_intro (FileTree.not_isAddress h.colon)
    exact ⟨same tail ends plain, same tail ends plain⟩
  · obtain ⟨front, joined⟩ := join_root s.root
    obtain ⟨known, -, same⟩ := FileTree.normal_ends front (FileTree.IsAddress (.char '/' :: space ns))
    have below {word : Text} (h : word.isName = true)
        (foreign : ∀ c, word.head? = some c → c ∉ Text.ofString "memory://") {tail : Text}
        (ending : Tail tail) : normal (Path.join (Path.join s.root word) (space ns ++ tail)) =
          known ++ (word ++ .char '/' :: space ns) ++ tail := by
      have inDirectory := join_below joined h absolute ending
      obtain ⟨c, r, rfl⟩ := List.exists_cons_of_ne_nil (Text.isName_ne_nil h)
      have plain := Text.isName_notMem h (c := .char ':') rfl
      have slashless := Text.isName_notMem h (c := .char '/') rfl
      obtain ⟨d, t, text, colon, slash⟩ := ending.head
      have ends : FileTree.Ends front ((c :: r ++ .char '/' :: space ns) ++ tail) := by
        refine ⟨⟨c, _, rfl, ?_, ?_⟩, ending.last _, Text.dropPrefix_apart ?_⟩
        · rintro rfl
          exact plain List.mem_cons_self
        · rintro rfl
          exact slashless List.mem_cons_self
        · rintro e ⟨⟩
          exact foreign c rfl
      have address : FileTree.IsAddress ((c :: r ++ .char '/' :: space ns) ++ tail) ↔
          FileTree.IsAddress (.char '/' :: space ns) := by
        rw [FileTree.isAddress_apart (by rw [text]; rintro e ⟨⟩; exact ⟨colon, slash⟩),
          FileTree.isAddress_behind slashless plain]
        exact or_iff_left (FileTree.not_isAddress ending.colon)
      rw [inDirectory, List.append_assoc known, ← same _ ends address]
    have lengths : (Text.ofString "fragments").length = (Text.ofString "queries").length + 2 := rfl
    refine ⟨_, _, ?_, ?_, ?_, fun tail ending => ⟨below queries_isName (by decide) ending,
      below fragments_isName (by decide) ending⟩⟩
    · simp
    · simp only [List.length_append]
      omega
    · simp only [List.length_append]
      omega

/-- Is it the path of a file of the namespace, that of a record or of a fragment? -/
def IsFile (s : Shelf) (ns path : Text) : Prop :=
  ∃ name : Text, name.isName = true ∧
    (path = Path.join s.queries (FileName.compose ns name Record.fileExtension) ∨
      path = s.fragmentPath ns name)

theorem IsFile.tail {s : Shelf} {ns path : Text} (file : s.IsFile ns path) : ∃ tail, Tail tail ∧
    (path = Path.join s.queries (space ns ++ tail) ∧ 5 ≤ tail.length ∨
      path = Path.join s.fragments (space ns ++ tail)) := by
  obtain ⟨name, named, rfl | rfl⟩ := file
  · refine ⟨_, FileName.tail_name Record.fileExtension named (by decide) (by decide), .inl ?_⟩
    rw [FileName.compose_space, List.length_append]
    exact ⟨rfl, Nat.le_add_left 5 _⟩
  · refine ⟨_, FileName.tail_name [] named List.not_mem_nil List.not_mem_nil, .inr ?_⟩
    rw [fragmentPath, FileName.compose_space]

/-- No file of a namespace has a path as short as something above another one. -/
theorem IsFile.highest {s : Shelf} {ns path other : Text} (file : s.IsFile ns path)
    (file' : s.IsFile ns other) : (parent path).length < (normal other).length := by
  obtain ⟨queries, fragments, some_, least, most, known⟩ := composed_known s ns
  have long := List.length_pos_iff.mpr some_
  have above : (parent path).length ≤ fragments.length := by
    obtain ⟨tail, ending, ⟨rfl, -⟩ | rfl⟩ := file.tail
    · have up := FileTree.parent_length ending.slash (known tail ending).1
      omega
    · have up := FileTree.parent_length ending.slash (known tail ending).2
      omega
  obtain ⟨tail, ending, ⟨rfl, room⟩ | rfl⟩ := file'.tail
  · rw [(known tail ending).1, List.length_append]
    omega
  · have room := List.length_pos_iff.mpr ending.some_
    rw [(known tail ending).2, List.length_append]
    omega

end Shelf

/-! ## Writing again -/

/-- Can a file be written at the path, whatever is in it? -/
def Files.Writable {σ : Type} [Files σ] (fs : σ) (path : Text) : Prop :=
  ∀ bytes, ∃ fs', Files.write fs path bytes = .ok fs'

/-- A file system in which the files of a record and of its fragments are not in the way of the
    record's file. -/
class Rewritable (σ : Type) [Files σ] : Prop where
  /-- Whether a file can be written does not depend on what is in it. -/
  writable {fs fs' : σ} {path : Text} {bytes : List UInt8} :
    Files.write fs path bytes = .ok fs' → Files.Writable fs path
  /-- Where the file of a record can be written, it still can when it or that of a fragment was. -/
  record {fs fs' : σ} {s : Shelf} {r : Record} {path : Text} {bytes : List UInt8} :
    r.name.isName = true →
    path = s.recordPath r ∨ (∃ f : Text, f.isName = true ∧ path = s.fragmentPath r.ns f) →
    Files.write fs path bytes = .ok fs' → Files.Writable fs (s.recordPath r) →
    Files.Writable fs' (s.recordPath r)

namespace FileTree

theorem free_of_write {t t' : FileTree} {path : Text} {bytes : List UInt8}
    (written : Files.write t path bytes = .ok t') :
    ¬t.isMade path = true ∧ (ancestors path).find? t.isFile = none := by
  change t.write path bytes = .ok t' at written
  rw [write] at written
  split at written
  · cases written
  next free =>
    split at written
    · cases written
    next none_ => exact ⟨free, none_⟩

theorem writable_iff {t : FileTree} {path : Text} :
    Files.Writable t path ↔ ¬t.isMade path = true ∧ (ancestors path).find? t.isFile = none := by
  constructor
  · intro writable
    obtain ⟨t', written⟩ := writable []
    exact free_of_write written
  · rintro ⟨free, none_⟩ bytes
    refine ⟨{ t with files := Dictionary.insert (normal path) bytes t.files }, ?_⟩
    change t.write path bytes = _
    rw [write, if_neg free, none_]

/-- A file of the namespace is not in the way of another one. -/
theorem stays_writable {t t' : FileTree} {s : Shelf} {ns path other : Text} {bytes : List UInt8}
    (file : s.IsFile ns path) (file' : s.IsFile ns other)
    (written : Files.write t other bytes = .ok t') (writable : Files.Writable t path) :
    Files.Writable t' path := by
  obtain ⟨free, none_⟩ := writable_iff.mp writable
  obtain rfl := write_eq written
  refine writable_iff.mpr ⟨free, List.find?_eq_none.mpr fun a among => ?_⟩
  have before := List.find?_eq_none.mp none_ a among
  have low := ancestorsFrom_length among
  have high := file.highest file'
  have apart : normal other ≠ normal a := by
    intro same
    rw [same] at high
    omega
  rw [isFile, file?] at before ⊢
  rwa [Dictionary.get?_insert, if_neg apart]

end FileTree

instance : Rewritable FileTree where
  writable written := FileTree.writable_iff.mpr (FileTree.free_of_write written)
  record {t t' s r path bytes} name file written writable := by
    have own : s.IsFile r.ns (s.recordPath r) := ⟨r.name, name, .inl rfl⟩
    refine FileTree.stays_writable own ?_ written writable
    obtain rfl | ⟨f, named, rfl⟩ := file
    · exact own
    · exact ⟨f, named, .inr rfl⟩

namespace Disk

theorem located_of_write {d d' : Disk} {path : Text} {bytes : List UInt8}
    (written : Files.write d path bytes = .ok d') :
    ∃ place, d.locate (d.address path) = .ok place ∧ ¬d.isDirectoryAt place = true := by
  change d.write (d.address path) bytes = .ok d' at written
  rw [write] at written
  split at written
  · cases written
  next place located =>
    split at written
    · cases written
    next free => exact ⟨place, located, free⟩

theorem writable_iff {d : Disk} {path : Text} :
    Files.Writable d path ↔
      ∃ place, d.locate (d.address path) = .ok place ∧ ¬d.isDirectoryAt place = true := by
  constructor
  · intro writable
    obtain ⟨d', written⟩ := writable []
    exact located_of_write written
  · rintro ⟨place, located, free⟩ bytes
    refine ⟨{ d with files := d.files.filter (·.1 ≠ place) ++ [(place, bytes)] }, ?_⟩
    change d.write (d.address path) bytes = _
    simp only [write, located, if_neg free]

/-- No file is in the way of another one. -/
theorem stays_writable {d d' : Disk} {path other : Text} {bytes : List UInt8}
    (written : Files.write d other bytes = .ok d') (writable : Files.Writable d path) :
    Files.Writable d' path := by
  obtain ⟨place, located, free⟩ := writable_iff.mp writable
  obtain ⟨place', -, rfl⟩ := write_eq written
  exact writable_iff.mpr ⟨place, locate_files _ _ located, free⟩

end Disk

instance : Rewritable Disk where
  writable written := Disk.writable_iff.mpr (Disk.located_of_write written)
  record _ _ written writable := Disk.stays_writable written writable

end ApprovedOps
