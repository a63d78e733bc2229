import ApprovedOps.Proofs.Document.Names
import ApprovedOps.Proofs.Store.Paths
import ApprovedOps.Proofs.Store.Stored

/-! # What a tree holds after saving

Saving records one after the other writes a list of files into a tree, in order. At the path of a
record lies the last one of its namespace and name, and so it is for fragments.
-/

namespace ApprovedOps

open FileTree (normal)
open Dictionary (insertAll)

namespace Record

/-- The record as its file is to hold it. -/
def completed (r : Record) : Except SaveError Record :=
  r.named >>= cleaned

/-- The record that is in a file after a record was saved, if its file is written at all. -/
def stored? (r : Record) : Option Record :=
  r.completed.toOption.filter fun c => (Utf8.encode? c.yaml).isSome

/-- The fragments that are in files after a record was saved: those up to the first that cannot be
    written. -/
def storedFragments (r : Record) : List Fragment :=
  (r.stored?.elim [] fragments).takeWhile fun f => (Utf8.encode? f.value).isSome

/-- Does the record have a namespace that goes into a file name, and names? -/
structure Filed (r : Record) : Prop where
  ns : r.ns.IsPlain
  name : r.name.isName = true
  fragments : ∀ f ∈ r.fragments, f.name.isName = true

theorem Filed.file {r : Record} (filed : r.Filed) : r.fileName.IsPlain :=
  FileName.compose_plain filed.ns filed.name (by decide) (by decide)

end Record

/-! ## Writing -/

namespace FileTree

/-- The entries that files make in a tree, up to the first that cannot be written. -/
def entriesOf : List PlannedFile → List (Text × List UInt8)
  | [] => []
  | f :: files =>
    match Utf8.encode? f.text with
    | none => []
    | some bytes => (normal f.path, bytes) :: entriesOf files

theorem writeAll_tree {t : FileTree} {n : Nat} {files : List PlannedFile} (level : t.Level n)
    (fits : ∀ f ∈ files, Fits n f.path) :
    (Files.writeAll [] t files).1 = { t with files := insertAll t.files (entriesOf files) } ∧
      Level { t with files := insertAll t.files (entriesOf files) } n := by
  induction files generalizing t with
  | nil => exact ⟨rfl, level⟩
  | cons f files ih =>
      rw [Files.writeAll, entriesOf]
      cases Utf8.encode? f.text with
      | none => exact ⟨rfl, level⟩
      | some bytes =>
          have first := fits f List.mem_cons_self
          have written : Files.tryWrite [] t f.path bytes =
              .ok { t with files := Dictionary.insert (normal f.path) bytes t.files } :=
            write_fits level first
          simp only [written]
          exact ih (level_insert level first) fun g among => fits g (List.mem_cons_of_mem f among)

end FileTree

open FileTree (entriesOf)

namespace Shelf

variable {s : Shelf} {t : FileTree} {n : Nat}

theorem save_files {σ : Type} [Files σ] (s : Shelf) (broken : List Text) (fs : σ) (r : Record) :
    (s.save broken fs r).1 =
      match r.completed with
      | .ok c => (Files.writeAll broken fs (c.files s)).1
      | .error _ => fs := by
  rw [save, Record.completed]
  cases r.named with
  | error e => rfl
  | ok named =>
      dsimp only [bind, Except.bind]
      cases named.cleaned with
      | error e => rfl
      | ok c =>
          dsimp only
          split <;> simp_all

/-- The entries that saving a record makes. -/
def entries (s : Shelf) (r : Record) : List (Text × List UInt8) :=
  r.completed.toOption.elim [] fun c => entriesOf (c.files s)

theorem files_fit (rooted : s.Rooted) {c : Record} (filed : c.Filed) :
    ∀ f ∈ c.files s, FileTree.Fits s.depth f.path := by
  intro f among
  obtain rfl | among := List.mem_cons.mp among
  · exact (recordPath_known rooted filed.ns filed.name).2
  · obtain ⟨g, fragment, rfl⟩ := List.mem_map.mp among
    exact (fragmentPath_known rooted filed.ns (filed.fragments g fragment)).2

theorem saveAll_tree (rooted : s.Rooted) {rs : List Record} (level : t.Level s.depth)
    (filed : ∀ r ∈ rs, ∀ c, r.completed = .ok c → c.Filed) :
    (s.saveAll [] t rs).1 = { t with files := insertAll t.files (rs.flatMap s.entries) } := by
  induction rs generalizing t with
  | nil => rfl
  | cons r rs ih =>
      obtain ⟨saved, level'⟩ : (s.save [] t r).1 =
            { t with files := insertAll t.files (s.entries r) } ∧
          FileTree.Level { t with files := insertAll t.files (s.entries r) } s.depth := by
        rw [save_files, entries]
        cases completed : r.completed with
        | error e => exact ⟨rfl, level⟩
        | ok c =>
            exact FileTree.writeAll_tree level
              (files_fit rooted (filed r List.mem_cons_self c completed))
      have later := ih level' fun r among => filed r (List.mem_cons_of_mem _ among)
      rw [saveAll]
      dsimp only
      rw [saved, later, List.flatMap_cons, Dictionary.insertAll_append]

/-! ## Reading off -/

theorem entriesOf_eq (files : List PlannedFile) :
    entriesOf files = (files.takeWhile fun f => (Utf8.encode? f.text).isSome).map fun f =>
      (normal f.path, (Utf8.encode? f.text).getD []) := by
  induction files with
  | nil => rfl
  | cons f files ih =>
      rw [entriesOf]
      cases encoded : Utf8.encode? f.text with
      | none => simp [encoded]
      | some bytes => simp [encoded, ih]

/-- A record that is written makes an entry for itself, and one for each of its fragments that is
    written. -/
theorem entries_eq (rooted : s.Rooted) {r : Record}
    (filed : ∀ c, r.completed = .ok c → c.Filed) :
    s.entries r = r.stored?.elim [] fun c =>
      (s.recordKey c.ns c.name, (Utf8.encode? c.yaml).getD []) ::
        r.storedFragments.map fun f =>
          (s.fragmentKey c.ns f.name, (Utf8.encode? f.value).getD []) := by
  rw [entries, Record.storedFragments, Record.stored?]
  cases completed : r.completed with
  | error e => rfl
  | ok c =>
      have known := filed c completed
      simp only [Except.toOption, Option.elim_some, Option.filter_some]
      rw [entriesOf_eq, Record.files]
      cases encoded : Utf8.encode? c.yaml with
      | none => simp [encoded]
      | some bytes =>
          simp only [List.takeWhile_cons, encoded, Option.isSome_some, if_true, List.map_cons,
            (recordPath_known rooted known.ns known.name).1, Option.elim_some, List.takeWhile_map,
            List.map_map]
          refine congrArg _ (List.map_congr_left fun f among => ?_)
          have fragment := known.fragments f ((List.takeWhile_sublist _).subset among)
          simp [(fragmentPath_known rooted known.ns fragment).1]

end Shelf

/-! ## The last records and fragments -/

namespace Store

/-- The last record that is written under a namespace and a name when records are saved. -/
def lastRecord? (rs : List Record) (ns name : Text) : Option Record :=
  ((rs.filterMap Record.stored?).filter fun c => c.ns = ns ∧ c.name = name).getLast?

/-- The last fragment that is written under a namespace and a name when records are saved. -/
def lastFragment? (rs : List Record) (ns name : Text) : Option Fragment :=
  (((rs.filter (·.ns = ns)).flatMap Record.storedFragments).filter (·.name = name)).getLast?

end Store

theorem Record.completed_ok {r c : Record} (h : r.completed = .ok c) :
    ∃ name vars, c = { r with name, vars } ∧ ∃ canonical, Canonical.ofText r.query = .ok canonical ∧
      canonical.name = name := by
  obtain ⟨named, name, clean⟩ := except_bind_ok h
  obtain ⟨canonical, ok, rfl⟩ := named_ok name
  obtain ⟨vars, rfl, -⟩ := cleaned_ok clean
  exact ⟨_, vars, rfl, canonical, ok, rfl⟩

/-- The files of a completed submission are those of its namespace, under names. -/
theorem Submission.completed_named {sub : Submission} {r c : Record} (drafted : sub.draft = .ok r)
    (completed : r.completed = .ok c) :
    c.ns = sub.ns ∧ c.name.isName = true ∧ ∀ f ∈ c.fragments, f.name.isName = true := by
  obtain ⟨p, cut, query, fragments, ns⟩ := draft_ok drafted
  obtain ⟨_, _, rfl, canonical, accepted, rfl⟩ := Record.completed_ok completed
  rw [query] at accepted
  obtain ⟨-, -, -, -, named, -⟩ := Parts.canonical_first cut accepted
  exact ⟨ns, named, fragments ▸ Parts.ofText_named cut⟩

theorem Record.stored?_completed {r c : Record} (h : r.stored? = some c) :
    r.completed = .ok c ∧ (Utf8.encode? c.yaml).isSome = true := by
  rw [stored?, Option.filter_eq_some_iff] at h
  exact ⟨except_ok h.1, h.2⟩

/-- What is last was written, and under this namespace and name. -/
theorem Store.lastRecord?_some {rs : List Record} {ns name : Text} {c : Record}
    (last : lastRecord? rs ns name = some c) :
    c ∈ rs.filterMap Record.stored? ∧ c.ns = ns ∧ c.name = name ∧
      ∃ bytes, Utf8.encode? c.yaml = some bytes := by
  have among := List.mem_filter.mp (List.mem_of_getLast? last)
  obtain ⟨below, named⟩ := of_decide_eq_true among.2
  obtain ⟨r, -, stored⟩ := List.mem_filterMap.mp among.1
  exact ⟨among.1, below, named, Option.isSome_iff_exists.mp (Record.stored?_completed stored).2⟩

/-- Under the namespace and the name of what was written something is last. -/
theorem Store.lastRecord?_isSome {rs : List Record} {c : Record}
    (stored : c ∈ rs.filterMap Record.stored?) : (lastRecord? rs c.ns c.name).isSome = true := by
  rw [lastRecord?, List.getLast?_isSome]
  exact List.ne_nil_of_mem (List.mem_filter.mpr ⟨stored, by simp⟩)

theorem Record.mem_storedFragments {r : Record} {f : Fragment} (among : f ∈ r.storedFragments) :
    (∃ c, r.stored? = some c ∧ f ∈ c.fragments) ∧ ∃ bytes, Utf8.encode? f.value = some bytes := by
  constructor
  · have inside := (List.takeWhile_sublist _).subset among
    cases stored : r.stored? with
    | none => simp [stored] at inside
    | some c => exact ⟨c, rfl, by simpa [stored] using inside⟩
  · rw [storedFragments] at among
    exact Option.isSome_iff_exists.mp
      (List.mem_takeWhile_imp (p := fun f : Fragment => (Utf8.encode? f.value).isSome) among)

/-- What is last was written, and under this namespace and name. -/
theorem Store.lastFragment?_some {rs : List Record} {ns name : Text} {f : Fragment}
    (last : lastFragment? rs ns name = some f) :
    f.name = name ∧ ∃ r ∈ rs, r.ns = ns ∧ f ∈ r.storedFragments := by
  have among := List.mem_filter.mp (List.mem_of_getLast? last)
  obtain ⟨r, member, inside⟩ := List.mem_flatMap.mp among.1
  obtain ⟨member, below⟩ := List.mem_filter.mp member
  exact ⟨of_decide_eq_true among.2, r, member, of_decide_eq_true below, inside⟩

namespace Shelf

open Store (lastRecord? lastFragment?)

variable {s : Shelf} {rs : List Record}

theorem filter_records (rooted : s.Rooted) (filed : ∀ r ∈ rs, ∀ c, r.completed = .ok c → c.Filed)
    (ns : Text) {name : Text} (h : name.isName = true) :
    (rs.flatMap s.entries).filter (·.1 = s.recordKey ns name) =
      ((rs.filterMap Record.stored?).filter fun c => c.ns = ns ∧ c.name = name).map fun c =>
        (s.recordKey ns name, (Utf8.encode? c.yaml).getD []) := by
  induction rs with
  | nil => rfl
  | cons r rs ih =>
      have later := ih fun r among => filed r (List.mem_cons_of_mem _ among)
      rw [List.flatMap_cons, List.filter_append, later,
        entries_eq rooted (filed r List.mem_cons_self)]
      cases stored : r.stored? with
      | none => simp [stored]
      | some c =>
          have known := filed r List.mem_cons_self c (Record.stored?_completed stored).1
          have others : (r.storedFragments.map fun f =>
              (s.fragmentKey c.ns f.name, (Utf8.encode? f.value).getD [])).filter
                (·.1 = s.recordKey ns name) = [] := by
            rw [List.filter_eq_nil_iff]
            intro e among same
            obtain ⟨f, -, rfl⟩ := List.mem_map.mp among
            exact recordKey_ne_fragmentKey _ _ _ _ (of_decide_eq_true same).symm
          rw [Option.elim_some, List.filter_cons, others, List.filterMap_cons_some stored,
            List.filter_cons]
          by_cases same : c.ns = ns ∧ c.name = name
          · obtain ⟨rfl, rfl⟩ := same
            simp
          · have other : s.recordKey c.ns c.name ≠ s.recordKey ns name := fun keys =>
              same (recordKey_inj known.name h keys)
            simp [same, other]

theorem filter_fragments (rooted : s.Rooted) (filed : ∀ r ∈ rs, ∀ c, r.completed = .ok c → c.Filed)
    (ns : Text) {name : Text} (h : name.isName = true) :
    (rs.flatMap s.entries).filter (·.1 = s.fragmentKey ns name) =
      (((rs.filter (·.ns = ns)).flatMap Record.storedFragments).filter (·.name = name)).map fun f =>
        (s.fragmentKey ns name, (Utf8.encode? f.value).getD []) := by
  induction rs with
  | nil => rfl
  | cons r rs ih =>
      have later := ih fun r among => filed r (List.mem_cons_of_mem _ among)
      rw [List.flatMap_cons, List.filter_append, later,
        entries_eq rooted (filed r List.mem_cons_self)]
      cases stored : r.stored? with
      | none =>
          have nothing : r.storedFragments = [] := by simp [Record.storedFragments, stored]
          by_cases same : r.ns = ns <;> simp [same, nothing]
      | some c =>
          obtain ⟨completed, -⟩ := Record.stored?_completed stored
          have known := filed r List.mem_cons_self c completed
          obtain ⟨_, _, same, -⟩ := Record.completed_ok completed
          have below : c.ns = r.ns := by rw [same]
          have names : ∀ f ∈ r.storedFragments, f.name.isName = true := by
            intro f among
            obtain ⟨⟨c', stored', inside⟩, -⟩ := Record.mem_storedFragments among
            cases stored.symm.trans stored'
            exact known.fragments f inside
          have own : s.recordKey c.ns c.name ≠ s.fragmentKey ns name :=
            recordKey_ne_fragmentKey _ _ _ _
          rw [Option.elim_some, List.filter_cons_of_neg (by simpa using own)]
          by_cases same : r.ns = ns
          · rw [List.filter_cons_of_pos (by simpa using same), List.flatMap_cons,
              List.filter_append, List.map_append]
            refine congrArg (· ++ _) ?_
            have alike : r.storedFragments.filter (fun f => s.fragmentKey c.ns f.name =
                s.fragmentKey ns name) = r.storedFragments.filter (·.name = name) :=
              List.filter_congr fun f among => decide_eq_decide.mpr
                ⟨fun keys => (fragmentKey_inj (names f among) h keys).2,
                  fun same' => by rw [below, same, same']⟩
            rw [List.filter_map, Function.comp_def, alike]
            refine List.map_congr_left fun f among => ?_
            rw [below, same, of_decide_eq_true (List.mem_filter.mp among).2]
          · rw [List.filter_cons_of_neg (by simpa using same)]
            have others : r.storedFragments.filter (fun f => s.fragmentKey c.ns f.name =
                s.fragmentKey ns name) = [] := by
              rw [List.filter_eq_nil_iff]
              intro f among keys
              exact same (below ▸ (fragmentKey_inj (names f among) h (of_decide_eq_true keys)).1)
            rw [List.filter_map, Function.comp_def, others]
            rfl

/-- At the path of a record lies the text of the last one under its namespace and name. -/
theorem get?_record (rooted : s.Rooted) (filed : ∀ r ∈ rs, ∀ c, r.completed = .ok c → c.Filed)
    (ns : Text) {name : Text} (h : name.isName = true) :
    Dictionary.get? (s.recordKey ns name) (insertAll [] (rs.flatMap s.entries)) =
      (lastRecord? rs ns name).bind fun c => Utf8.encode? c.yaml := by
  rw [Dictionary.get?_insertAll, filter_records rooted filed ns h, List.getLast?_map, ← lastRecord?,
    Dictionary.get?, Option.or_none, Option.map_map]
  cases last : lastRecord? rs ns name with
  | none => rfl
  | some c =>
      obtain ⟨-, -, -, bytes, encoded⟩ := Store.lastRecord?_some last
      simp [encoded]

/-- At the path of a fragment lies the last one under its namespace and name. -/
theorem get?_fragment (rooted : s.Rooted) (filed : ∀ r ∈ rs, ∀ c, r.completed = .ok c → c.Filed)
    (ns : Text) {name : Text} (h : name.isName = true) :
    Dictionary.get? (s.fragmentKey ns name) (insertAll [] (rs.flatMap s.entries)) =
      (lastFragment? rs ns name).bind fun f => Utf8.encode? f.value := by
  rw [Dictionary.get?_insertAll, filter_fragments rooted filed ns h, List.getLast?_map,
    ← lastFragment?, Dictionary.get?, Option.or_none, Option.map_map]
  cases last : lastFragment? rs ns name with
  | none => rfl
  | some f =>
      obtain ⟨-, r, -, -, among⟩ := Store.lastFragment?_some last
      obtain ⟨-, bytes, encoded⟩ := Record.mem_storedFragments among
      simp [encoded]

/-- Under the directory of records lie those that were written. -/
theorem mem_keys (rooted : s.Rooted) (filed : ∀ r ∈ rs, ∀ c, r.completed = .ok c → c.Filed)
    {k : Text} (key : k ∈ (insertAll [] (rs.flatMap s.entries)).map Prod.fst) :
    (∃ c ∈ rs.filterMap Record.stored?, k = s.recordKey c.ns c.name) ∨
      ∃ ns name, k = s.fragmentKey ns name := by
  rw [Dictionary.keys_insertAll] at key
  obtain ⟨e, among, rfl⟩ := List.mem_map.mp (key.resolve_left nofun)
  obtain ⟨r, member, among⟩ := List.mem_flatMap.mp among
  rw [entries_eq rooted (filed r member)] at among
  cases stored : r.stored? with
  | none => simp [stored] at among
  | some c =>
      rw [stored] at among
      obtain rfl | among := List.mem_cons.mp among
      · exact .inl ⟨c, List.mem_filterMap.mpr ⟨r, member, stored⟩, rfl⟩
      · obtain ⟨f, -, rfl⟩ := List.mem_map.mp among
        exact .inr ⟨_, _, rfl⟩

end Shelf

end ApprovedOps
