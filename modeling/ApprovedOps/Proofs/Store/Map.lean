import ApprovedOps.Proofs.Store.Contents
import ApprovedOps.Proofs.Store.Unfinished
import ApprovedOps.Proofs.Text.Order
import ApprovedOps.Proofs.Text.Utf8

/-! # A store is a map

When everything is done, a store in a tree holds, for each namespace and name, the record that was
written last, and so it is for fragments. All records are found in one way by loading them and by
looking one up. What the text of a record is read as is assumed to be the record.
-/

namespace ApprovedOps

open FileTree (normal Ordinary)
open Dictionary (insertAll)
open Store (lastRecord? lastFragment?)

/-! ## Reading a record's text -/

/-- The path has a part in failures only. -/
theorem Record.ofYaml_path {t : Text} {r : Record} (path path' : Text) (h : ofYaml path t = .ok r) :
    ofYaml path' t = .ok r := by
  rw [ofYaml] at h ⊢
  cases read : Yaml.read t with
  | error e =>
      rw [read] at h
      cases h
  | ok k =>
      rw [read] at h
      dsimp only at h ⊢
      generalize k.value.resolve k.table = v at h ⊢
      split at h
      next blank =>
        rw [if_pos blank]
        exact h
      next full =>
        rw [if_neg full]
        cases v with
        | mapping entries => exact h
        | _ => cases h

/-- A file with the extension of records is read as the mapping in it. -/
theorem Record.ofFile_text {dir ns name text : Text} {bytes : List UInt8} (below : .char '/' ∉ ns)
    (h : name.isName = true) (encoded : Utf8.encode? text = some bytes) :
    let path := dir ++ .char '/' :: FileName.compose ns name fileExtension
    ofFile .standard path (.ok bytes) = ofYaml path text := by
  intro path
  have slashless := FileName.slashless_compose below (Text.isName_notMem h (c := .char '/') rfl)
    (by decide : .char '/' ∉ fileExtension)
  have extension : FileName.extension path = fileExtension := by
    rw [FileName.extension, FileName.base_append slashless]
    exact congrArg Prod.snd (FileName.splitBaseExtension_compose ns h (by decide))
  have format : Formats.ofPath .standard path = .ok .mapping := by
    rw [Formats.ofPath, extension]
    rfl
  rw [ofFile, format]
  simp only [FileText.ofContent, Utf8.decode_encode encoded]
  rfl

theorem Record.agrees_bare {r c : Record} (h : r.agrees c = true) :
    r.bare = c.bare ∧ r.ns = c.ns ∧ r.name = c.name := by
  have same : r.bare = c.bare := of_decide_eq_true h
  have ns := congrArg Record.ns same
  have name := congrArg Record.name same
  exact ⟨same, ns, name⟩

/-- Is the text of the record read as the record? -/
def Record.ReadsBack (c : Record) : Prop :=
  ∃ r, Record.ofYaml [] c.yaml = .ok r ∧ r.agrees c = true

/-- Is the record what the last one under its namespace and name is read as? -/
def Record.IsLast (rs : List Record) (r : Record) : Prop :=
  ∃ c, lastRecord? rs r.ns r.name = some c ∧ r.bare = c.bare ∧ Record.ofYaml [] c.yaml = .ok r

theorem Record.ReadsBack.isLast {rs : List Record} {ns name : Text} {c : Record}
    (back : c.ReadsBack) (last : lastRecord? rs ns name = some c) :
    ∃ r : Record, r.ns = ns ∧ r.name = name ∧ r.IsLast rs := by
  obtain ⟨-, rfl, rfl, -⟩ := Store.lastRecord?_some last
  obtain ⟨r, read, agrees⟩ := back
  obtain ⟨bare, ns, name⟩ := Record.agrees_bare agrees
  exact ⟨r, ns, name, c, ns ▸ name ▸ last, bare, read⟩

namespace Shelf

/-- A tree that has what saving records leaves. -/
structure Holds (s : Shelf) (t : FileTree) (rs : List Record) : Prop where
  rooted : s.Rooted
  filed : ∀ r ∈ rs, ∀ c, r.completed = .ok c → c.Filed
  files : t.files = insertAll [] (rs.flatMap s.entries)
  short : ∀ p ∈ t.made, p.length ≤ s.depth
  made : t.isMade s.queries = true

variable {s : Shelf} {t : FileTree} {rs : List Record} {ns name : Text} {r : Record}

/-! ## What there is -/

/-- The tree has a file for each record and each fragment that was written, and no others. -/
theorem Holds.mem_files (holds : s.Holds t rs) {k : Text} (key : k ∈ t.files.map Prod.fst) :
    (∃ c ∈ rs.filterMap Record.stored?, k = s.recordKey c.ns c.name) ∨
      ∃ ns name, k = s.fragmentKey ns name :=
  mem_keys holds.rooted holds.filed (holds.files ▸ key)

theorem Holds.stored_filed (holds : s.Holds t rs) {c : Record}
    (among : c ∈ rs.filterMap Record.stored?) : c.Filed := by
  obtain ⟨r, member, stored⟩ := List.mem_filterMap.mp among
  exact holds.filed r member c (Record.stored?_completed stored).1

theorem Holds.isLast_filed (holds : s.Holds t rs) (last : r.IsLast rs) :
    r.ns.IsPlain ∧ r.name.isName = true := by
  obtain ⟨c, last, -⟩ := last
  obtain ⟨stored, ns, name, -⟩ := Store.lastRecord?_some last
  have filed := holds.stored_filed stored
  exact ⟨ns ▸ filed.ns, name ▸ filed.name⟩

/-- Nothing lies below a path that could be that of a record. -/
theorem Holds.not_directory (holds : s.Holds t rs) {file : Text} (plain : file.IsPlain)
    (long : 2 ≤ file.length) : ¬t.isDirectory (Path.join s.queries file) = true := by
  have some_ : file ≠ [] := List.ne_nil_of_length_pos (by omega)
  have known : normal (Path.join s.queries file) =
      s.base ++ Text.ofString "queries" ++ .char '/' :: file :=
    (directory_file holds.rooted queries_isName plain some_).2
  have deep : s.depth < (normal (Path.join s.queries file)).length := by
    rw [known, depth, List.length_append, List.length_append, List.length_append, List.length_cons]
    have nine : (Text.ofString "fragments").length = 9 := rfl
    have seven : (Text.ofString "queries").length = 7 := rfl
    omega
  have under {p : Text} (h : FileTree.isUnder (normal (Path.join s.queries file)) p = true) :
      normal (Path.join s.queries file) ++ [.char '/'] <+: p := Text.startsWith_iff.mp h
  have deeper {p : Text} (h : FileTree.isUnder (normal (Path.join s.queries file)) p = true) :
      s.depth < p.length := by
    have longer := (under h).length_le
    rw [List.length_append] at longer
    omega
  rw [FileTree.isDirectory, Bool.or_eq_true, Bool.or_eq_true, List.any_eq_true, List.any_eq_true]
  rintro ((made | ⟨⟨p, bytes⟩, among, h⟩) | ⟨p, among, h⟩)
  · rw [FileTree.isMade, Bool.or_eq_true, decide_eq_true_eq, List.contains_iff_mem] at made
    obtain root | made := made
    · simp [root] at deep
    · exact absurd (holds.short _ made) (Nat.not_le.mpr deep)
  · have start := under h
    rw [known] at start
    obtain ⟨c, stored, rfl⟩ | ⟨ns, name, rfl⟩ := holds.mem_files (List.mem_map_of_mem among)
    · simp only [recordKey, List.append_assoc, List.prefix_append_right_inj, List.cons_append]
        at start
      exact (holds.stored_filed stored).file.slashless
        ((List.cons_prefix_cons.mp start).2.mem (by simp))
    · simp only [fragmentKey, List.append_assoc, List.prefix_append_right_inj] at start
      exact absurd (List.cons_prefix_cons.mp start).1 (by decide)
  · exact absurd (holds.short _ among) (Nat.not_le.mpr (deeper h))

/-- However the path of a record is written, its file is read as the last record. -/
theorem Holds.read_last (holds : s.Holds t rs) {dir : Text} (last : r.IsLast rs)
    (known : normal (dir ++ .char '/' :: r.fileName) = s.recordKey r.ns r.name) :
    read .standard t (dir ++ .char '/' :: r.fileName) = .ok r := by
  obtain ⟨plain, h⟩ := holds.isLast_filed last
  obtain ⟨c, last, -, back⟩ := last
  obtain ⟨-, -, -, bytes, encoded⟩ := Store.lastRecord?_some last
  have found := get?_record holds.rooted holds.filed r.ns h
  rw [← holds.files, last, Option.bind_some, encoded, ← known] at found
  have content : Files.read t (dir ++ .char '/' :: r.fileName) = .ok bytes := by
    change t.read _ = _
    rw [FileTree.read, FileTree.file?, found]
  rw [read, content]
  exact (Record.ofFile_text plain.slashless h encoded).trans (Record.ofYaml_path [] _ back)

/-- Only with their own extension are there files of records. -/
theorem Holds.no_file (holds : s.Holds t rs) (ns : Text) {name e : Text} (h : name.isName = true)
    (dotless : .char '.' ∉ e) (other : .char '.' :: e ≠ Record.fileExtension) :
    Dictionary.get? (s.base ++ Text.ofString "queries" ++
      .char '/' :: FileName.compose ns name (.char '.' :: e)) t.files = none := by
  rw [Option.eq_none_iff_forall_not_mem]
  intro bytes found
  have key := List.mem_map_of_mem (f := Prod.fst) (Dictionary.mem_of_get? found)
  obtain ⟨c, stored, same⟩ | ⟨ns', name', same⟩ := holds.mem_files key
  · have file := (List.cons.inj (List.append_cancel_left same)).2
    have split := FileName.splitBaseExtension_compose ns h dotless
    rw [file, Record.fileExtension] at split
    have split' := FileName.splitBaseExtension_compose c.ns (holds.stored_filed stored).name
      (by decide : .char '.' ∉ Text.ofString "yaml")
    exact other (congrArg Prod.snd (split.symm.trans split'))
  · simp only [fragmentKey, List.append_assoc] at same
    exact absurd (List.cons.inj (List.append_cancel_left same)).1 (by decide)

/-- Is there anything at the path that a record would have with an extension? -/
theorem Holds.exists?_compose (holds : s.Holds t rs) {e : Text} (plain : ns.IsPlain)
    (h : name.isName = true) (dotless : .char '.' ∉ e) (slash : .char '/' ∉ e)
    (colon : .char ':' ∉ e) :
    t.exists? (s.queries ++ .char '/' :: FileName.compose ns name (.char '.' :: e)) =
      (decide (.char '.' :: e = Record.fileExtension) && (lastRecord? rs ns name).isSome) := by
  have slash' : .char '/' ∉ CodePoint.char '.' :: e := by simp [slash]
  have colon' : .char ':' ∉ CodePoint.char '.' :: e := by simp [colon]
  obtain ⟨joined, known⟩ := directory_compose holds.rooted queries_isName plain h slash' colon'
  have long : 2 ≤ (FileName.compose ns name (.char '.' :: e)).length := by
    have stem := List.length_pos_iff.mpr (FileName.compose_ne_nil ns [] h)
    rw [FileName.compose_append, List.length_append, List.length_cons]
    omega
  have noDirectory := holds.not_directory (FileName.compose_plain plain h slash' colon') long
  rw [queries, joined] at noDirectory
  rw [FileTree.exists?, queries, Bool.eq_false_iff.mpr noDirectory, Bool.or_false, FileTree.isFile,
    FileTree.file?, known]
  by_cases own : .char '.' :: e = Record.fileExtension
  · have found := get?_record holds.rooted holds.filed ns h
    rw [recordKey, ← holds.files] at found
    rw [own, found, decide_eq_true rfl, Bool.true_and]
    cases last : lastRecord? rs ns name with
    | none => rfl
    | some c =>
        obtain ⟨-, -, -, bytes, encoded⟩ := Store.lastRecord?_some last
        simp [encoded]
  · rw [holds.no_file ns h dotless own, decide_eq_false own]
    rfl

/-! ## Finding one -/

/-- The extensions are tried up to that of records. -/
theorem Holds.find_extension (holds : s.Holds t rs) (plain : ns.IsPlain) (h : name.isName = true) :
    (extensions.map (Path.join s.queries (FileName.compose ns name []) ++ ·)).find?
        (Files.exists? t) =
      if (lastRecord? rs ns name).isSome then
        some (s.queries ++ .char '/' :: FileName.compose ns name Record.fileExtension)
      else none := by
  have start := (directory_compose holds.rooted queries_isName plain h
    (nofun : .char '/' ∉ ([] : Text)) nofun).1
  have path (ext : Text) : Path.join s.queries (FileName.compose ns name []) ++ ext =
      s.queries ++ .char '/' :: FileName.compose ns name ext := by
    rw [queries, start, FileName.compose_append ns name ext, List.append_assoc, List.cons_append]
  have tried (e : Text) (dotless : .char '.' ∉ e) (slash : .char '/' ∉ e) (colon : .char ':' ∉ e) :
      Files.exists? t (s.queries ++ .char '/' :: FileName.compose ns name (.char '.' :: e)) =
        (decide (.char '.' :: e = Record.fileExtension) && (lastRecord? rs ns name).isSome) :=
    holds.exists?_compose plain h dotless slash colon
  have gql : Files.exists? t (s.queries ++ .char '/' :: FileName.compose ns name ".gql") = false :=
    tried (Text.ofString "gql") (by decide) (by decide) (by decide)
  have graphql : Files.exists? t (s.queries ++ .char '/' :: FileName.compose ns name ".graphql") =
      false := tried (Text.ofString "graphql") (by decide) (by decide) (by decide)
  have yml : Files.exists? t (s.queries ++ .char '/' :: FileName.compose ns name ".yml") = false :=
    tried (Text.ofString "yml") (by decide) (by decide) (by decide)
  have yaml : Files.exists? t (s.queries ++ .char '/' :: FileName.compose ns name ".yaml") =
      (lastRecord? rs ns name).isSome :=
    tried (Text.ofString "yaml") (by decide) (by decide) (by decide)
  simp only [path, extensions, List.map_cons, List.map_nil, List.find?_cons, List.find?_nil, gql,
    graphql, yml, yaml]
  cases (lastRecord? rs ns name).isSome <;> rfl

theorem Holds.getByName_none (holds : s.Holds t rs) (plain : ns.IsPlain) (h : name.isName = true)
    (none_ : lastRecord? rs ns name = none) : s.getByName .standard t ns name = .ok none := by
  rw [Shelf.getByName, holds.find_extension plain h, none_]
  rfl

/-- The last record under a namespace and a name is found. -/
theorem Holds.getByName_last (holds : s.Holds t rs) (last : r.IsLast rs) :
    s.getByName .standard t r.ns r.name = .ok (some r) := by
  obtain ⟨plain, h⟩ := holds.isLast_filed last
  have here := (directory_compose holds.rooted queries_isName plain h
    (by decide : .char '/' ∉ Record.fileExtension) (by decide)).2
  obtain ⟨c, lastOne, -⟩ := id last
  rw [Shelf.getByName, holds.find_extension plain h, lastOne, Option.isSome_some, if_pos rfl]
  dsimp only
  exact congrArg (Except.map some) (holds.read_last last here)

/-- The last fragment under a namespace and a name is found. -/
theorem Holds.fragment (holds : s.Holds t rs) {ns name : Text} {f : Fragment}
    (last : lastFragment? rs ns name = some f) : s.fragment t ns name = .ok f.value := by
  obtain ⟨rfl, r, member, rfl, inside⟩ := Store.lastFragment?_some last
  obtain ⟨⟨c, stored, among⟩, bytes, encoded⟩ := Record.mem_storedFragments inside
  have completed := (Record.stored?_completed stored).1
  have filed := holds.filed r member c completed
  have h : f.name.isName = true := filed.fragments f among
  have plain : r.ns.IsPlain := by
    obtain ⟨_, _, same, -⟩ := Record.completed_ok completed
    have plain := filed.ns
    rwa [same] at plain
  have found := get?_fragment holds.rooted holds.filed r.ns h
  rw [← holds.files, last, Option.bind_some, encoded,
    ← (fragmentPath_known holds.rooted plain h).1] at found
  have content : Files.read t (s.fragmentPath r.ns f.name) = .ok bytes := by
    change t.read _ = _
    rw [FileTree.read, FileTree.file?, found]
  rw [Shelf.fragment, content, FileText.ofContent]
  simp only [Utf8.decode_encode encoded]

/-! ## Finding all -/

theorem Holds.queries_noFile (holds : s.Holds t rs) : ¬t.isFile s.queries = true := by
  have known : normal s.queries = s.base ++ Text.ofString "queries" :=
    (directory_ordinary holds.rooted queries_isName).2
  rw [FileTree.isFile, Option.isSome_iff_exists]
  rintro ⟨bytes, found⟩
  have key := List.mem_map_of_mem (f := Prod.fst) (Dictionary.mem_of_get? found)
  rw [known] at key
  obtain ⟨c, -, same⟩ | ⟨ns, name, same⟩ := holds.mem_files key
  · simp [recordKey] at same
  · rw [fragmentKey, List.append_assoc] at same
    exact absurd (List.cons.inj (List.append_cancel_left same)).1 (by decide)

/-- The paths of the records that were written are listed, in order. -/
theorem Holds.paths (holds : s.Holds t rs) :
    (Files.filesIn t s.queries).Pairwise (fun a b => Text.lt a b = true) ∧
      ∀ p, p ∈ Files.filesIn t s.queries ↔
        ∃ c ∈ rs.filterMap Record.stored?, p = s.recordKey c.ns c.name := by
  have known : normal s.queries = s.base ++ Text.ofString "queries" :=
    (directory_ordinary holds.rooted queries_isName).2
  have inside (file : Text) : Text.dropPrefix?
      (s.base ++ Text.ofString "queries" ++ .char '/' :: file)
      (s.base ++ Text.ofString "queries" ++ [.char '/']) = some file :=
    List.isPrefixOf?_eq_some_iff_append_eq.mpr (by simp)
  change (t.filesIn s.queries).Pairwise _ ∧ ∀ p, p ∈ t.filesIn s.queries ↔ _
  rw [FileTree.filesIn, if_neg holds.queries_noFile, known]
  constructor
  · refine Files.sorted_pairwise (List.Nodup.filter _ ?_)
    rw [holds.files]
    exact Dictionary.nodup_insertAll _ List.nodup_nil
  · intro p
    rw [Files.mem_sorted, List.mem_filter]
    constructor
    · rintro ⟨key, inside⟩
      refine (holds.mem_files key).resolve_right ?_
      rintro ⟨ns, name, rfl⟩
      split at inside
      next file dropped =>
        have whole := List.isPrefixOf?_eq_some_iff_append_eq.mp dropped
        rw [fragmentKey, List.append_assoc, List.append_assoc, List.append_assoc] at whole
        exact absurd (List.cons.inj (List.append_cancel_left whole)).1 (by decide)
      next => cases inside
    · rintro ⟨c, stored, rfl⟩
      have filed := holds.stored_filed stored
      constructor
      · have found := get?_record holds.rooted holds.filed c.ns filed.name
        obtain ⟨c', last⟩ := Option.isSome_iff_exists.mp (Store.lastRecord?_isSome stored)
        obtain ⟨-, -, -, bytes, encoded⟩ := Store.lastRecord?_some last
        rw [← holds.files, last, Option.bind_some, encoded] at found
        exact List.mem_map_of_mem (f := Prod.fst) (Dictionary.mem_of_get? found)
      · rw [recordKey, inside]
        simpa [Record.fileName] using filed.file.slashless

theorem readAll_map {formats : Formats} {paths : List Text} {g : Text → Record}
    (all : ∀ p ∈ paths, read formats t p = .ok (g p)) :
    readAll formats t paths = .ok (paths.map g) := by
  induction paths with
  | nil => rfl
  | cons path paths ih =>
      rw [readAll, all path List.mem_cons_self]
      simp only [ih fun p among => all p (List.mem_cons_of_mem path among)]
      rfl

/-- A path that is listed is that of a last record, as which its file is read. -/
theorem Holds.read_listed (holds : s.Holds t rs)
    (codec : ∀ c ∈ rs.filterMap Record.stored?, c.ReadsBack) {p : Text}
    (listed : p ∈ Files.filesIn t s.queries) :
    ∃ r : Record, read .standard t p = .ok r ∧ p = s.recordKey r.ns r.name ∧ r.IsLast rs := by
  obtain ⟨c', stored', rfl⟩ := (holds.paths.2 p).mp listed
  obtain ⟨c, last⟩ := Option.isSome_iff_exists.mp (Store.lastRecord?_isSome stored')
  obtain ⟨r, ns, name, isLast⟩ := (codec c (Store.lastRecord?_some last).1).isLast last
  obtain ⟨plain, h⟩ := holds.isLast_filed isLast
  rw [← ns, ← name]
  have known : normal (s.recordKey r.ns r.name) = s.recordKey r.ns r.name := by
    have ordinary := (directory_file holds.rooted queries_isName
      (FileName.compose_plain plain h (by decide : .char '/' ∉ Record.fileExtension) (by decide))
      (FileName.compose_ne_nil _ _ h)).1
    rw [← (recordPath_known holds.rooted plain h).1]
    exact FileTree.normal_normal ordinary
  exact ⟨r, holds.read_last isLast known, rfl, isLast⟩

/-- The tree knows the paths of records in the same order. -/
theorem Holds.recordPath_lt (holds : s.Holds t rs) {r' : Record} (last : r.IsLast rs)
    (last' : r'.IsLast rs) : Text.lt (s.recordPath r) (s.recordPath r') =
      Text.lt (s.recordKey r.ns r.name) (s.recordKey r'.ns r'.name) := by
  have path {r : Record} (last : r.IsLast rs) :
      s.recordPath r = s.queries ++ .char '/' :: r.fileName := by
    obtain ⟨plain, h⟩ := holds.isLast_filed last
    exact (directory_compose holds.rooted queries_isName plain h
      (by decide : .char '/' ∉ Record.fileExtension) (by decide)).1
  rw [path last, path last', recordKey, recordKey, Text.lt_append_left, Text.lt_append_left,
    Record.fileName, Record.fileName]

/-- All records are loaded, in the order of their paths, and each is a last one. -/
theorem Holds.load (holds : s.Holds t rs)
    (codec : ∀ c ∈ rs.filterMap Record.stored?, c.ReadsBack) :
    ∃ records, s.load .standard t = .ok records ∧
      records.Pairwise (fun a b => Text.lt (s.recordPath a) (s.recordPath b) = true) ∧
      (∀ r ∈ records, r.IsLast rs) ∧
      ∀ ns name, (lastRecord? rs ns name).isSome = true →
        ∃ r ∈ records, r.ns = ns ∧ r.name = name := by
  obtain ⟨order, listed⟩ := holds.paths
  have : Inhabited Record := ⟨{}⟩
  choose! g reads keys last using fun p (among : p ∈ _) => holds.read_listed codec among
  refine ⟨(Files.filesIn t s.queries).map g, ?_, ?_, ?_, ?_⟩
  · have directory : Files.isDirectory t s.queries = true := by
      change t.isDirectory s.queries = true
      rw [FileTree.isDirectory, holds.made, Bool.true_or, Bool.true_or]
    rw [Shelf.load, if_pos directory, readAll_map reads]
  · rw [List.pairwise_map]
    refine order.imp_of_mem fun {a b} among among' less => ?_
    rwa [holds.recordPath_lt (last a among) (last b among'), ← keys a among, ← keys b among']
  · intro r among
    obtain ⟨p, member, rfl⟩ := List.mem_map.mp among
    exact last p member
  · intro ns name isSome
    obtain ⟨c, lastOne⟩ := Option.isSome_iff_exists.mp isSome
    obtain ⟨stored, rfl, rfl, -⟩ := Store.lastRecord?_some lastOne
    have member := (listed (s.recordKey c.ns c.name)).mpr ⟨c, stored, rfl⟩
    have filed := holds.isLast_filed (last _ member)
    obtain ⟨ns, name⟩ := recordKey_inj (holds.stored_filed stored).name filed.2 (keys _ member)
    exact ⟨_, List.mem_map_of_mem member, ns.symm, name.symm⟩

end Shelf

namespace Store

/-- Does the store read as a map, from namespaces and names to what was written last among the
    records? What it holds is what is loaded. -/
structure IsMap (s : Store FileTree) (rs records : List Record) : Prop where
  load : s.load = .ok records
  order : records.Pairwise fun a b =>
    Text.lt (s.machine.shelf.recordPath a) (s.machine.shelf.recordPath b) = true
  once : (records.map fun r => (r.ns, r.name)).Nodup
  last : ∀ ns name, (records.find? fun r => r.ns = ns ∧ r.name = name).map Record.bare =
    (lastRecord? rs ns name).map Record.bare
  getByName : ∀ ns name : Text, ns.IsPlain → name.isName = true →
    s.getByName ns name = .ok (records.find? fun r => r.ns = ns ∧ r.name = name)
  fragment : ∀ ns name f, lastFragment? rs ns name = some f → s.fragment ns name = .ok f.value

/-- What is completed from the draft of a submission can be filed. -/
theorem draft_filed {sub : Submission} {r c : Record} (drafted : sub.draft = .ok r)
    (plain : sub.ns.IsPlain) (completed : r.completed = .ok c) : c.Filed := by
  obtain ⟨ns, named, fragments⟩ := Submission.completed_named drafted completed
  exact ⟨ns ▸ plain, named, fragments⟩

theorem makeDirectory_made {m : Machine FileTree} {path : Text} {t : FileTree}
    (healthy : m.broken = []) (made : m.files.makeDirectory path = .ok t) :
    (makeDirectory m path).files = t ∧ (makeDirectory m path).broken = [] := by
  have made' : Files.makeDirectory m.files path = .ok t := made
  simp [makeDirectory, healthy, made']

/-- A store just opened in an empty tree has its directories and no files. -/
theorem openAt_tree {path : Text} (rooted : (Shelf.ofPath path).Rooted) (size : Int)
    (observer : Observer) :
    let t := (openAt ({} : FileTree) path false size observer []).machine.files
    t.files = [] ∧ t.Level (Shelf.ofPath path).depth ∧
      t.isMade (Shelf.ofPath path).queries = true := by
  have known {word : Text} (h : word.isName = true) (short : word.length ≤ 9) :
      normal (Path.join (Shelf.ofPath path).root word) ≠ [] ∧
        (normal (Path.join (Shelf.ofPath path).root word)).length ≤ (Shelf.ofPath path).depth := by
    have nine : (Text.ofString "fragments").length = 9 := rfl
    rw [(Shelf.directory_ordinary rooted h).2, Shelf.depth, List.length_append,
      List.length_append, nine]
    exact ⟨by simp [Shelf.base], by omega⟩
  obtain ⟨some₁, short₁⟩ := known Shelf.queries_isName (by decide)
  obtain ⟨some₂, short₂⟩ := known Shelf.fragments_isName (by decide)
  have empty : FileTree.Level {} (Shelf.ofPath path).depth := ⟨by simp, by simp⟩
  obtain ⟨t₁, made₁, bare₁, level₁, -, there⟩ :=
    FileTree.makeDirectory_level (t := {}) rfl empty some₁ short₁
  obtain ⟨t₂, made₂, bare₂, level₂, kept, -⟩ :=
    FileTree.makeDirectory_level bare₁ level₁ some₂ short₂
  have opened : (openAt ({} : FileTree) path false size observer []).machine.files = t₂ := by
    let m : Machine FileTree :=
      { shelf := Shelf.ofPath path, observer, files := {}, queue := .ofSize size }
    have first := makeDirectory_made (m := m) rfl made₁
    exact (makeDirectory_made first.2 (first.1 ▸ made₂)).1
  have still : t₂.isMade (Shelf.ofPath path).queries = true := by
    rw [FileTree.isMade, Bool.or_eq_true, List.contains_iff_mem] at there ⊢
    exact there.imp_right fun among => kept among
  rw [opened]
  exact ⟨bare₂, level₂, still⟩

/-- When everything is done, the tree holds what the accepted records leave. -/
theorem run_holds {path : Text} {size : Int} {observer : Observer} {as : List Action}
    {m : Machine FileTree} (rooted : (Shelf.ofPath path).Rooted)
    (plain : ∀ sub ∈ submissions as, sub.ns.IsPlain)
    (run : (openAt ({} : FileTree) path false size observer []).machine.follow? as = some m)
    (gentle : Gentle as) (done : m.Done) : (Shelf.ofPath path).Holds m.files m.accepted := by
  have fresh := fresh_openAt ({} : FileTree) path false size observer []
  have unfinished := openAt_unfinished ({} : FileTree) path size observer []
  obtain ⟨shelf, broken⟩ := openAt_place ({} : FileTree) path false size observer []
  obtain ⟨bare, level, made⟩ := openAt_tree rooted size observer
  have filed : ∀ r ∈ m.accepted, ∀ c, r.completed = .ok c → c.Filed := by
    intro r among c completed
    obtain ⟨sub, member, drafted⟩ := accepted_submitted fresh run among
    exact draft_filed drafted (plain sub member) completed
  have saved := congrArg Prod.fst (Machine.run_done fresh unfinished run gentle done)
  rw [shelf, broken, Shelf.saveAll_tree rooted level filed, bare] at saved
  exact ⟨rooted, filed, congrArg FileTree.files saved,
    fun p among => level.made p (congrArg FileTree.made saved ▸ among),
    by rw [FileTree.isMade, congrArg FileTree.made saved]; exact made⟩

/-- A tree that holds what records leave is read as a map. -/
theorem isMap_of_holds {s : Store FileTree} {rs : List Record} (standard : s.formats = .standard)
    (holds : s.machine.shelf.Holds s.machine.files rs)
    (codec : ∀ c ∈ rs.filterMap Record.stored?, c.ReadsBack) :
    ∃ records, s.IsMap rs records := by
  obtain ⟨records, loaded, order, last, all⟩ := holds.load codec
  have once : (records.map fun r => (r.ns, r.name)).Nodup := by
    rw [List.Nodup, List.pairwise_map]
    refine order.imp ?_
    intro a b less same
    obtain ⟨ns, name⟩ := Prod.mk.inj same
    have paths : s.machine.shelf.recordPath a = s.machine.shelf.recordPath b := by
      rw [Shelf.recordPath, Shelf.recordPath, Record.fileName, Record.fileName, ns, name]
    rw [paths] at less
    exact Text.lt_irrefl _ less
  have missing {ns name : Text}
      (found : (records.find? fun r => r.ns = ns ∧ r.name = name) = none) :
      lastRecord? rs ns name = none := by
    rw [← Option.not_isSome_iff_eq_none]
    intro isSome
    obtain ⟨r, among, same⟩ := all ns name isSome
    exact List.find?_eq_none.mp found r among (decide_eq_true same)
  have entry {ns name : Text} {r : Record}
      (found : (records.find? fun r => r.ns = ns ∧ r.name = name) = some r) :
      (r.ns = ns ∧ r.name = name) ∧ r.IsLast rs :=
    ⟨by simpa using List.find?_some found, last r (List.mem_of_find?_eq_some found)⟩
  refine ⟨records, ?_, order, once, fun ns name => ?_, fun ns name plain named => ?_,
    fun ns name f lastOne => holds.fragment lastOne⟩
  · rw [Store.load, standard]
    exact loaded
  · cases found : records.find? fun r => r.ns = ns ∧ r.name = name with
    | none => rw [missing found]
    | some r =>
        obtain ⟨⟨rfl, rfl⟩, c, lastOne, bare, -⟩ := entry found
        rw [lastOne, Option.map_some, Option.map_some, bare]
  · rw [Store.getByName, standard]
    cases found : records.find? fun r => r.ns = ns ∧ r.name = name with
    | none => exact holds.getByName_none plain named (missing found)
    | some r =>
        obtain ⟨⟨rfl, rfl⟩, isLast⟩ := entry found
        exact holds.getByName_last isLast

/-- A store that was opened in an empty tree, and from which nothing was given up, reads as a map
    when a call has made sure that everything is done. -/
theorem reads_as_map {path : Text} {size : Int} {observer : Observer} {as : List Action}
    {m m' : Machine FileTree} {i : Nat} (colons : ¬path.hasInfix "::" = true)
    (address : ¬path.hasInfix "://" = true) (plain : ∀ sub ∈ submissions as, sub.ns.IsPlain)
    (run : (openAt ({} : FileTree) path false size observer []).machine.follow? as = some m)
    (gentle : Gentle as) (ensures : m.Ensures i m')
    (codec : ∀ c ∈ m'.accepted.filterMap Record.stored?, c.ReadsBack) :
    ∃ records, IsMap { openAt ({} : FileTree) path false size observer [] with machine := m' }
      m'.accepted records := by
  have fresh := fresh_openAt ({} : FileTree) path false size observer []
  have last : m.follow? [.step (.call i)] = some m' := by
    simp [Machine.follow?, Machine.act?, ensures.step]
  have run' := Machine.follow?_append run last
  have done := Machine.done_of_ensures (Machine.run_accounted fresh run).1 ensures
  have gentle' : Gentle (as ++ [.step (.call i)]) := by
    intro a among
    obtain old | new := List.mem_append.mp among
    · exact gentle a old
    · rw [List.mem_singleton.mp new]
      rfl
  have submitted : submissions (as ++ [.step (.call i)]) = submissions as := by
    simp [submissions]
  have holds := run_holds (Shelf.rooted_ofPath colons address) (submitted ▸ plain) run' gentle' done
  have shelf : m'.shelf = Shelf.ofPath path :=
    (Machine.run_place run').1.trans (openAt_place ({} : FileTree) path false size observer []).1
  exact isMap_of_holds rfl (shelf ▸ holds) codec

/-- While the writer is held, three documents are set, of which the last replaces the first. Then a
    call waits. -/
def replacingRun : List Action :=
  let steps (a : Machine.Actor) : List Action := .replicate 3 (.step a)
  [.hold true, .call (setting "query A { a }"), .call (setting "query A { b }"),
    .call ⟨.submitting { document := "query A { ...F } fragment F on T { f }", ns := "x.y" }, none⟩,
    .call ⟨.waiting, none⟩] ++
    steps (.call 0) ++ steps (.call 2) ++ steps (.call 1) ++ [.hold false] ++ steps .writer ++
    steps .writer ++ steps .writer

/-- The later of two records is found under their common name. -/
theorem reads_as_map_of_replacing :
    ∃ m, m.accepted.length = 3 ∧
      (lastRecord? m.accepted [] "A").map (·.query) = some "query A { b }" ∧
      ∃ records, IsMap { openAt ({} : FileTree) "/" false 0 .nobody [] with machine := m }
        m.accepted records := by
  have states : ((openAt ({} : FileTree) "/" false 0 .nobody []).machine.follow? replacingRun).bind
      (fun m => (m.step? (.call 3)).map fun m' => (m'.outcome? 3, m'.accepted.length,
        (lastRecord? m'.accepted [] "A").map (·.query),
        (m'.accepted.filterMap Record.stored?).all fun c =>
          (Record.ofYaml [] c.yaml).toOption.any (·.agrees c))) =
      some (some (.waited true), 3, some (Text.ofString "query A { b }"), true) := by
    decide +kernel
  obtain ⟨m, run, ended⟩ := Option.bind_eq_some_iff.mp states
  obtain ⟨m', step, state⟩ := Option.map_eq_some_iff.mp ended
  simp only [Prod.mk.injEq] at state
  obtain ⟨waited, three, last, codec⟩ := state
  refine ⟨m', three, last, reads_as_map (by decide) (by decide) (by decide) run
    (by decide) (.waited step waited) fun c among => ?_⟩
  obtain ⟨r, back, agrees⟩ := (Option.any_eq_true _ _).mp (List.all_eq_true.mp codec c among)
  exact ⟨r, except_ok back, agrees⟩

end Store

end ApprovedOps
