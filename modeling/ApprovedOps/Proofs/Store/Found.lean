import ApprovedOps.Proofs.Store.Map
import ApprovedOps.Proofs.Store.Written

/-! # What is found by name

A record is looked up under the name that a namespace and a name compose. Where no namespace has
slashes, the record that is found has a file of this very name; so it has the namespace and the name
that were asked for, unless the name that was asked for has a dot.
-/

namespace ApprovedOps

open FileName (compose)
open FileTree (normal)

/-- Is the text of the record, if it is read at all, read under the record's namespace and name? -/
def Record.ReadsUnder (c : Record) : Prop :=
  ∀ r, Record.ofYaml [] c.yaml = .ok r → r.ns = c.ns ∧ r.name = c.name

theorem Record.ReadsBack.readsUnder {c : Record} (back : c.ReadsBack) : c.ReadsUnder := by
  obtain ⟨r, read, agrees⟩ := back
  intro r' read'
  cases read.symm.trans read'
  exact (Record.agrees_bare agrees).2

namespace Record

theorem ofDocument_ok {path : Text} {content : Except FileFailure (List UInt8)} {r : Record} :
    ofDocument path content = .ok r ↔
      ∃ t p, FileText.ofContent content = .ok t ∧ Parts.ofText t = .ok p ∧
        (FileName.split (FileName.stem path)).2 ≠ [] ∧
        r = { ofParts p with
          ns := (FileName.split (FileName.stem path)).1
          name := (FileName.split (FileName.stem path)).2 } := by
  unfold ofDocument
  generalize FileName.split (FileName.stem path) = names
  obtain ⟨ns, name⟩ := names
  by_cases nameless : name = []
  · simp [nameless, throw, throwThe, MonadExceptOf.throw, bind, Except.bind]
  · simp only [nameless, if_false]
    constructor
    · intro h
      obtain ⟨t, text, h⟩ := except_bind_ok h
      cases cut : Parts.ofText t with
      | error e =>
          simp only [cut] at h
          cases h
      | ok p =>
          simp only [cut] at h
          cases h
          exact ⟨t, p, text, cut, nameless, rfl⟩
    · rintro ⟨t, p, text, cut, -, rfl⟩
      simp only [text, cut, bind, Except.bind, pure, Except.pure]

theorem ofFile_bytes {formats : Formats} {path : Text} {content : Except FileFailure (List UInt8)}
    {r : Record} (h : ofFile formats path content = .ok r) : ∃ bytes, content = .ok bytes := by
  have read {t : Text} (text : FileText.ofContent content = .ok t) :
      ∃ bytes, content = .ok bytes := by
    cases content with
    | ok bytes => exact ⟨bytes, rfl⟩
    | error e => cases text
  obtain ⟨format, -, h⟩ := except_bind_ok h
  cases format with
  | document =>
      obtain ⟨t, -, text, -⟩ := ofDocument_ok.mp h
      exact read text
  | mapping =>
      obtain ⟨t, text, -⟩ := except_bind_ok h
      exact read text

end Record

/-! ## Trees -/

namespace FileTree

variable {t t' : FileTree} {path : Text} {bytes : List UInt8}

theorem read_ok : t.read path = .ok bytes ↔ Dictionary.get? (normal path) t.files = some bytes := by
  rw [read, file?]
  cases Dictionary.get? (normal path) t.files <;> simp [failAt]

/-- What is in a tree after writing was there before or was written. -/
theorem writeEach_get? {ws : List (Text × List UInt8)} {key : Text}
    (written : Files.writeEach t ws = .ok t')
    (found : Dictionary.get? key t'.files = some bytes) :
    Dictionary.get? key t.files = some bytes ∨ ∃ w ∈ ws, normal w.1 = key ∧ w.2 = bytes := by
  induction ws generalizing t with
  | nil =>
      cases written
      exact .inl found
  | cons w ws ih =>
      obtain ⟨t₁, first, rest⟩ := Files.writeEach_cons written
      obtain rfl := write_eq first
      rcases ih rest with old | ⟨v, among, same⟩
      · rw [Dictionary.get?_insert] at old
        split at old
        next here =>
          cases old
          exact .inr ⟨w, List.mem_cons_self, here, rfl⟩
        next => exact .inl old
      · exact .inr ⟨v, List.mem_cons_of_mem w among, same⟩

end FileTree

namespace Shelf

variable {s : Shelf} {file file' : Text}

/-! ## Paths -/

theorem queries_file (s : Shelf) (slash : .char '/' ∉ file) (some_ : file ≠ []) :
    ∃ known : Text, normal (Path.join s.queries file) =
      known ++ Text.ofString "queries" ++ .char '/' :: file := by
  obtain ⟨known, -, below⟩ := file_known s.root queries_isName queries_foreign
  rw [queries, directory_join s.root queries_isName (head?_slashless slash)]
  exact ⟨_, below file slash some_⟩

theorem fragments_file (s : Shelf) (slash : .char '/' ∉ file) (some_ : file ≠ []) :
    ∃ known : Text, normal (Path.join s.fragments file) =
      known ++ Text.ofString "fragments" ++ .char '/' :: file := by
  obtain ⟨known, -, below⟩ := file_known s.root fragments_isName fragments_foreign
  rw [fragments, directory_join s.root fragments_isName (head?_slashless slash)]
  exact ⟨_, below file slash some_⟩

/-- The tree tells files of records apart by their names. -/
theorem queries_file_inj (slash : .char '/' ∉ file) (slash' : .char '/' ∉ file')
    (some_ : file ≠ []) (some' : file' ≠ [])
    (same : normal (Path.join s.queries file) = normal (Path.join s.queries file')) :
    file = file' := by
  obtain ⟨known, here⟩ := s.queries_file slash some_
  obtain ⟨known', there⟩ := s.queries_file slash' some'
  rw [here, there] at same
  exact (FileName.append_sep_inj slash slash' same).2

theorem queries_file_ne_fragments (slash : .char '/' ∉ file) (slash' : .char '/' ∉ file')
    (some_ : file ≠ []) (some' : file' ≠ []) :
    normal (Path.join s.queries file) ≠ normal (Path.join s.fragments file') := by
  obtain ⟨known, here⟩ := s.queries_file slash some_
  obtain ⟨known', there⟩ := s.fragments_file slash' some'
  rw [here, there]
  intro same
  have directories := congrArg List.reverse (FileName.append_sep_inj slash slash' same).1
  simp [Text.ofString] at directories

/-! ## Looking up -/

theorem extension_cases {ext : Text} (h : ext ∈ extensions) :
    ∃ e, ext = .char '.' :: e ∧ .char '.' ∉ e ∧ .char '/' ∉ e := by
  simp only [extensions, List.mem_cons, List.not_mem_nil, or_false] at h
  rcases h with rfl | rfl | rfl | rfl
  · exact ⟨Text.ofString "gql", rfl, by decide, by decide⟩
  · exact ⟨Text.ofString "graphql", rfl, by decide, by decide⟩
  · exact ⟨Text.ofString "yml", rfl, by decide, by decide⟩
  · exact ⟨Text.ofString "yaml", rfl, by decide, by decide⟩

/-- A path that is tried is that of a file with a composed name. -/
theorem tried_path {ns name ext : Text} (below : .char '/' ∉ ns) (named : .char '/' ∉ name)
    (slash : .char '/' ∉ ext) :
    Path.join s.queries (compose ns name []) ++ ext =
      Path.join s.queries (compose ns name ext) := by
  have stem := FileName.slashless_compose below named (nofun : .char '/' ∉ ([] : Text))
  have file := FileName.slashless_compose below named slash
  rw [queries, directory_join _ queries_isName (head?_slashless stem),
    directory_join _ queries_isName (head?_slashless file), FileName.compose_append ns name ext,
    List.append_assoc, List.cons_append]

/-- A record that is found is read at the first path at which there is anything. -/
theorem getByName_first {σ : Type} [Files σ] {formats : Formats} {fs : σ} {ns name : Text}
    {r : Record} (found : s.getByName formats fs ns name = .ok (some r)) :
    ∃ before ext after, extensions = before ++ ext :: after ∧
      (∀ e ∈ before, Files.exists? fs (Path.join s.queries (compose ns name []) ++ e) = false) ∧
      read formats fs (Path.join s.queries (compose ns name []) ++ ext) = .ok r := by
  rw [getByName] at found
  split at found
  · cases found
  next path tried =>
    obtain ⟨-, front, back, split, none_⟩ := List.find?_eq_some_iff_append.mp tried
    obtain ⟨before, rest, whole, rfl, same⟩ := List.map_eq_append_iff.mp split
    obtain ⟨ext, after, rfl, rfl, -⟩ := List.map_eq_cons_iff.mp same
    refine ⟨before, ext, after, whole, ?_, ?_⟩
    · intro e among
      have absent := none_ _ (List.mem_map_of_mem among)
      exact Bool.not_eq_true' _ ▸ absent
    · generalize read formats fs _ = outcome at found
      cases outcome <;> cases found
      rfl

end Shelf

/-! ## Runs -/

namespace Store

/-- A store just opened in an empty tree has no files. -/
theorem openAt_bare (path : Text) (size : Int) (observer : Observer) (broken : List Text) :
    (openAt ({} : FileTree) path false size observer broken).machine.files.files = [] := by
  have placed (m : Machine FileTree) (p : Text) : (makeDirectory m p).files.files = m.files.files :=
    makeDirectory_placed m p
  simp [openAt, placed]

variable {path ns name : Text} {size : Int} {observer : Observer} {broken : List Text}
  {as : List Action} {m : Machine FileTree}

/-- What a store that was empty has at a path is a file of a completed submission. -/
theorem run_file
    (run : (openAt ({} : FileTree) path false size observer broken).machine.follow? as = some m)
    {key : Text} {bytes : List UInt8} (found : Dictionary.get? key m.files.files = some bytes) :
    ∃ sub ∈ submissions as, ∃ r ∈ m.accepted, ∃ c, sub.draft = .ok r ∧ r.completed = .ok c ∧
      ∃ f ∈ c.files (Shelf.ofPath path),
        normal f.path = key ∧ Utf8.encode? f.text = some bytes := by
  have fresh := fresh_openAt ({} : FileTree) path false size observer broken
  obtain ⟨ws, written, planned⟩ := Machine.run_each fresh run
  rw [(openAt_place ({} : FileTree) path false size observer broken).1] at planned
  have new : ∃ w ∈ ws, normal w.1 = key ∧ w.2 = bytes := by
    refine (FileTree.writeEach_get? written found).resolve_left ?_
    rw [openAt_bare]
    nofun
  obtain ⟨w, among, rfl, rfl⟩ := new
  obtain ⟨r, accepted, c, completed, f, plan, own, encoded⟩ := planned w among
  obtain ⟨sub, member, drafted⟩ := accepted_submitted fresh run accepted
  exact ⟨sub, member, r, accepted, c, drafted, completed, f, plan, own ▸ rfl, encoded⟩

/-- Where no namespace has slashes, a file under the directory of records is that of a record. -/
theorem run_record
    (run : (openAt ({} : FileTree) path false size observer broken).machine.follow? as = some m)
    (slashless : ∀ sub ∈ submissions as, .char '/' ∉ sub.ns) {file : Text}
    (slash : .char '/' ∉ file) (some_ : file ≠ []) {bytes : List UInt8}
    (found : m.files.read (Path.join (Shelf.ofPath path).queries file) = .ok bytes) :
    ∃ sub ∈ submissions as, ∃ c ∈ m.accepted.filterMap Record.stored?, c.ns = sub.ns ∧
      c.name.isName = true ∧ file = compose c.ns c.name Record.fileExtension ∧
      Utf8.encode? c.yaml = some bytes := by
  obtain ⟨sub, member, r, accepted, c, drafted, completed, f, plan, key, encoded⟩ :=
    run_file run (FileTree.read_ok.mp found)
  obtain ⟨below, named, fragments⟩ := Submission.completed_named drafted completed
  have outside : .char '/' ∉ c.ns := below ▸ slashless sub member
  have slashless' {n ext : Text} (h : n.isName = true) (slash : .char '/' ∉ ext) :
      .char '/' ∉ compose c.ns n ext :=
    FileName.slashless_compose outside (Text.isName_notMem h (c := .char '/') rfl) slash
  rcases List.mem_cons.mp plan with rfl | plan
  · refine ⟨sub, member, c, List.mem_filterMap.mpr ⟨r, accepted, ?_⟩, below, named, ?_, encoded⟩
    · rw [Record.stored?, completed]
      simp [Except.toOption, encoded]
    · exact Shelf.queries_file_inj slash (slashless' named (by decide)) some_
        (FileName.compose_ne_nil _ _ named) key.symm
  · obtain ⟨g, fragment, rfl⟩ := List.mem_map.mp plan
    exact absurd key.symm (Shelf.queries_file_ne_fragments slash
      (slashless' (fragments g fragment) List.not_mem_nil) some_
      (FileName.compose_ne_nil c.ns [] (fragments g fragment)))

/-- What is found under a namespace and a name in a store that was empty is the record of a
    submission, in a file of the composed name. It has the namespace and the name that were asked
    for just when the name that was asked for has no dot. -/
theorem found_where_asked {r : Record}
    (run : (openAt ({} : FileTree) path false size observer broken).machine.follow? as = some m)
    (slashless : ∀ sub ∈ submissions as, .char '/' ∉ sub.ns)
    (codec : ∀ c ∈ m.accepted.filterMap Record.stored?, c.ReadsUnder)
    (asked : .char '/' ∉ ns ∧ .char '/' ∉ name)
    (found : getByName { openAt ({} : FileTree) path false size observer broken with machine := m }
      ns name = .ok (some r)) :
    (∃ sub ∈ submissions as, r.ns = sub.ns) ∧ r.name.isName = true ∧
      compose r.ns r.name [] = compose ns name [] ∧
      (r.ns = ns ∧ r.name = name ↔ .char '.' ∉ name) := by
  have shelf : m.shelf = Shelf.ofPath path :=
    (Machine.run_place run).1.trans (openAt_place ({} : FileTree) path false size observer broken).1
  change m.shelf.getByName .standard m.files ns name = .ok (some r) at found
  rw [shelf] at found
  obtain ⟨before, ext, after, whole, -, read⟩ := Shelf.getByName_first found
  have listed : ext ∈ Shelf.extensions := by simp [whole]
  obtain ⟨e, rfl, dotless, slash⟩ := Shelf.extension_cases listed
  have slash' : .char '/' ∉ CodePoint.char '.' :: e := by simp [slash]
  rw [Shelf.tried_path asked.1 asked.2 slash'] at read
  have some_ : compose ns name (.char '.' :: e) ≠ [] := by
    rw [FileName.compose_append]
    simp
  obtain ⟨bytes, content⟩ := Record.ofFile_bytes read
  obtain ⟨sub, member, c, stored, below, named, file, encoded⟩ := run_record run slashless
    (FileName.slashless_compose asked.1 asked.2 slash') some_ content
  -- The file that was read has the name that was asked for and that of a saved record. Both are
  -- composed, but only the record's name is known to have no dot.
  have stems : compose ns name [] = compose c.ns c.name [] ∧ e = Text.ofString "yaml" := by
    rw [FileName.compose_append, FileName.compose_append c.ns] at file
    exact FileName.append_sep_inj dotless (by decide) file
  have outside : .char '/' ∉ c.ns := below ▸ slashless sub member
  rw [Shelf.read, content, file, Shelf.queries, Shelf.directory_join _ Shelf.queries_isName
    (Shelf.head?_slashless (FileName.slashless_compose outside
      (Text.isName_notMem named (c := .char '/') rfl) (by decide))),
    Record.ofFile_text outside named encoded] at read
  obtain ⟨sameNs, sameName⟩ := codec c stored r (Record.ofYaml_path _ [] read)
  rw [sameNs, sameName]
  have noDot := Text.isName_notMem named (c := .char '.') rfl
  refine ⟨⟨sub, member, below⟩, named, stems.1.symm, ?_, ?_⟩
  · rintro ⟨-, rfl⟩
    exact noDot
  · intro free
    exact FileName.compose_parts noDot free stems.1.symm

/-- A record of a namespace with a dot is found under its own namespace and name. -/
theorem found_where_asked_of_dotted :
    ∃ m r, (openAt ({} : FileTree) "/srv" false 0 .nobody []).machine.follow?
        (savingRun "x.y" "query A { a }") = some m ∧
      getByName { openAt ({} : FileTree) "/srv" false 0 .nobody [] with machine := m } "x.y" "A" =
        .ok (some r) ∧
      r.ns = "x.y" ∧ r.name = "A" := by
  obtain ⟨m, run, state⟩ := Option.map_eq_some_iff.mp (by decide +kernel :
    ((openAt ({} : FileTree) "/srv" false 0 .nobody []).machine.follow?
        (savingRun "x.y" "query A { a }")).map
      (fun m => ((getByName { openAt ({} : FileTree) "/srv" false 0 .nobody [] with machine := m }
          "x.y" "A").toOption.map (·.map (·.query)),
        (m.accepted.filterMap Record.stored?).all fun c =>
          (Record.ofYaml [] c.yaml).toOption.any (·.agrees c))) =
      some (some (some (Text.ofString "query A { a }")), true))
  obtain ⟨looked, codec⟩ := Prod.mk.inj state
  obtain ⟨answer, there, some_⟩ := Option.map_eq_some_iff.mp looked
  obtain ⟨r, rfl, -⟩ := Option.map_eq_some_iff.mp some_
  have found := except_ok there
  have back : ∀ c ∈ m.accepted.filterMap Record.stored?, c.ReadsUnder := by
    intro c among
    obtain ⟨r', read, agrees⟩ := (Option.any_eq_true _ _).mp (List.all_eq_true.mp codec c among)
    exact Record.ReadsBack.readsUnder ⟨r', except_ok read, agrees⟩
  obtain ⟨-, -, -, own⟩ := found_where_asked run (by decide) back (by decide) found
  exact ⟨m, r, run, found, own.mpr (by decide)⟩

/-- The record of a namespace is found under none, by a name with a dot. -/
theorem found_elsewhere :
    ∃ m r, (openAt ({} : FileTree) "/srv" false 0 .nobody []).machine.follow?
        (savingRun "a" "query B { b }") = some m ∧
      getByName { openAt ({} : FileTree) "/srv" false 0 .nobody [] with machine := m } [] "a.B" =
        .ok (some r) ∧
      ¬(r.ns = [] ∧ r.name = "a.B") := by
  obtain ⟨m, run, state⟩ := Option.map_eq_some_iff.mp (by decide +kernel :
    ((openAt ({} : FileTree) "/srv" false 0 .nobody []).machine.follow?
        (savingRun "a" "query B { b }")).map
      (fun m => (getByName { openAt ({} : FileTree) "/srv" false 0 .nobody [] with machine := m }
          [] "a.B").toOption.map (·.map fun r => (r.ns, r.name))) =
      some (some (some (Text.ofString "a", Text.ofString "B"))))
  obtain ⟨answer, there, some_⟩ := Option.map_eq_some_iff.mp state
  obtain ⟨r, rfl, names⟩ := Option.map_eq_some_iff.mp some_
  refine ⟨m, r, run, except_ok there, ?_⟩
  rintro ⟨ns, -⟩
  exact absurd (ns.symm.trans (congrArg Prod.fst names)) (by decide)

end Store

end ApprovedOps
