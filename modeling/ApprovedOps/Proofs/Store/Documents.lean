import ApprovedOps.Proofs.Store.Found

/-! # Raw documents by name

A raw document is loaded under the namespace and the name that the name of its file says. Looking
these up comes back to the file just when its name is what they compose, with one of the two
extensions as they are usually written, and when no directory stands where the file would be looked
for first.
-/

namespace ApprovedOps

open FileName (compose)
open FileTree (normal)

/-! ## What the path of a file says -/

namespace Record

theorem ofPath_base {formats : Formats} {path path' : Text}
    (same : FileName.base path = FileName.base path') {f : Format}
    (h : formats.ofPath path = .ok f) : formats.ofPath path' = .ok f := by
  rw [Formats.ofPath, FileName.extension, same] at h
  rw [Formats.ofPath, FileName.extension]
  split at h
  next => exact h
  next => cases h

/-- Of the path, only the last name has a part in the record. -/
theorem ofFile_base {formats : Formats} {path path' : Text}
    (same : FileName.base path = FileName.base path') {content : Except FileFailure (List UInt8)}
    {r : Record} (h : ofFile formats path content = .ok r) :
    ofFile formats path' content = .ok r := by
  obtain ⟨format, known, h⟩ := except_bind_ok h
  rw [ofFile, ofPath_base same known]
  cases format with
  | document =>
      obtain ⟨t, p, text, cut, named, rfl⟩ := ofDocument_ok.mp h
      have stem : FileName.stem path = FileName.stem path' := by
        rw [FileName.stem, FileName.stem, same]
      exact ofDocument_ok.mpr ⟨t, p, text, cut, stem ▸ named, stem ▸ rfl⟩
  | mapping =>
      obtain ⟨t, text, h⟩ := except_bind_ok h
      change (FileText.ofContent content >>= ofYaml path') = .ok r
      rw [text]
      exact ofYaml_path path path' h

/-- A raw document is read under the namespace and the name in the name of its file. -/
theorem ofFile_document {formats : Formats} {path : Text}
    {content : Except FileFailure (List UInt8)} {r : Record}
    (document : formats.ofPath path = .ok .document) (h : ofFile formats path content = .ok r) :
    (r.ns, r.name) = FileName.split (FileName.stem path) ∧ r.name ≠ [] ∧ .char '.' ∉ r.name := by
  rw [ofFile, document] at h
  obtain ⟨t, p, -, -, named, rfl⟩ := ofDocument_ok.mp h
  exact ⟨rfl, named, FileName.split_dotless _⟩

end Record

namespace Shelf

variable {s : Shelf} {t : FileTree} {p file ns name : Text} {r : Record}

/-! ## Files of the directory of records -/

/-- Does a tree know the file by the directory of records, and by itself? -/
def Knows (s : Shelf) (file : Text) : Prop :=
  normal (Path.join s.queries file) = normal s.queries ++ .char '/' :: file ∧
    normal (normal s.queries ++ .char '/' :: file) = normal s.queries ++ .char '/' :: file

instance (s : Shelf) (file : Text) : Decidable (s.Knows file) :=
  inferInstanceAs (Decidable (_ ∧ _))

theorem knows_plain (rooted : s.Rooted) (plain : file.IsPlain) (some_ : file ≠ []) :
    s.Knows file := by
  have known : normal (Path.join s.queries file) = normal s.queries ++ .char '/' :: file := by
    rw [queries, directory_join _ queries_isName (head?_slashless plain.slashless)]
    exact normal_file s.root queries_isName queries_foreign plain some_
  refine ⟨known, ?_⟩
  rw [← known]
  exact FileTree.normal_normal (directory_file rooted queries_isName plain some_).1

theorem filesIn_files {dir path : Text} (listed : path ∈ t.filesIn dir)
    (other : path ≠ normal dir) : ¬t.isFile dir = true ∧ path ∈ t.files.map Prod.fst := by
  unfold FileTree.filesIn at listed
  by_cases isFile : t.isFile dir = true
  · rw [if_pos isFile] at listed
    exact absurd (List.mem_singleton.mp listed) other
  · rw [if_neg isFile, Files.mem_sorted] at listed
    exact ⟨isFile, (List.mem_filter.mp listed).1⟩

theorem isDirectory_of_child {dir path : Text} (child : Path.IsChild (normal dir) path)
    (among : path ∈ t.files.map Prod.fst) : t.isDirectory dir = true := by
  obtain ⟨file, -, -, rfl⟩ := child
  obtain ⟨entry, member, same⟩ := List.mem_map.mp among
  have under : t.files.any (fun f => FileTree.isUnder (normal dir) f.1) = true := by
    refine List.any_eq_true.mpr ⟨entry, member, ?_⟩
    rw [same, FileTree.isUnder, Text.startsWith_iff]
    exact ⟨file, by simp⟩
  rw [FileTree.isDirectory, under, Bool.or_true, Bool.true_or]

/-- A file that the tree knows is read alike, wherever its path comes from. -/
theorem Knows.read {formats : Formats} (knows : s.Knows file) (slash : .char '/' ∉ file) :
    read formats t (Path.join s.queries file) = .ok r ↔
      read formats t (normal s.queries ++ .char '/' :: file) = .ok r := by
  have content : Files.read t (Path.join s.queries file) =
      Files.read t (normal s.queries ++ .char '/' :: file) := by
    change t.read _ = t.read _
    unfold FileTree.read FileTree.file?
    rw [knows.1, knows.2]
  have base : FileName.base (Path.join s.queries file) =
      FileName.base (normal s.queries ++ .char '/' :: file) := by
    rw [queries, directory_join _ queries_isName (head?_slashless slash),
      FileName.base_append slash, FileName.base_append slash]
  rw [Shelf.read, content]
  exact ⟨Record.ofFile_base base, Record.ofFile_base base.symm⟩

/-! ## Loading -/

theorem readAll_each {formats : Formats} {paths : List Text} {rs : List Record}
    (loaded : readAll formats t paths = .ok rs) {path : Text} (among : path ∈ paths) :
    (∃ r, read formats t path = .ok r) ∨ ∃ q, read formats t path = .error (.unknownType q) := by
  induction paths generalizing rs with
  | nil => cases among
  | cons first paths ih =>
      rw [readAll] at loaded
      cases outcome : read formats t first with
      | error e =>
          rw [outcome] at loaded
          cases e with
          | unknownType q =>
              rcases List.mem_cons.mp among with rfl | later
              · exact .inr ⟨q, outcome⟩
              · exact ih loaded later
          | _ => cases loaded
      | ok r =>
          rw [outcome] at loaded
          rcases List.mem_cons.mp among with rfl | later
          · exact .inl ⟨r, outcome⟩
          · cases rest : readAll formats t paths with
            | error e =>
                simp only [rest] at loaded
                cases loaded
            | ok rs' => exact ih rest later

theorem document_error {formats : Formats} {path q : Text}
    (document : formats.ofPath path = .ok .document) :
    read formats t path ≠ .error (.unknownType q) := by
  rw [read, Record.ofFile, document]
  change Record.ofDocument path (Files.read t path) ≠ _
  unfold Record.ofDocument
  generalize FileName.split (FileName.stem path) = names
  obtain ⟨ns, name⟩ := names
  by_cases nameless : name = []
  · simp [nameless, throw, throwThe, MonadExceptOf.throw, bind, Except.bind]
  · simp only [nameless, if_false]
    cases content : Files.read t path with
    | error e => simp [FileText.ofContent, bind, Except.bind]
    | ok bytes =>
        simp only [FileText.ofContent]
        cases Utf8.decode bytes with
        | error e => simp [bind, Except.bind]
        | ok text =>
            simp only [bind, Except.bind]
            cases Parts.ofText text <;>
              simp [throw, throwThe, MonadExceptOf.throw, pure, Except.pure]

/-! ## Looking up -/

/-- The format of a file with a composed name is that of the extension it was composed with. -/
theorem ofPath_compose (dir : Text) {e : Text} (some_ : name ≠ []) (dotless : .char '.' ∉ name)
    (slash : .char '/' ∉ compose ns name (.char '.' :: e)) (plain : .char '.' ∉ e) :
    let path := dir ++ .char '/' :: compose ns name (.char '.' :: e)
    FileName.extension path = .char '.' :: e ∧ FileName.stem path = compose ns name [] := by
  intro path
  have split := FileName.splitBaseExtension_stem (FileName.compose_proper ns [] some_ dotless) plain
  rw [← FileName.compose_append] at split
  rw [FileName.extension, FileName.stem, FileName.base_append slash, split]
  exact ⟨rfl, rfl⟩

/-- A raw document whose file has a composed name is read under what it is composed of. -/
theorem gql_names (dir : Text) (some_ : name ≠ []) (dotless : .char '.' ∉ name)
    (slash : .char '/' ∉ compose ns name ".gql") :
    let path := dir ++ .char '/' :: compose ns name ".gql"
    Formats.ofPath .standard path = .ok .document ∧
      ∀ r, read .standard t path = .ok r → r.ns = ns ∧ r.name = name := by
  intro path
  obtain ⟨extension, stem⟩ := ofPath_compose (e := "gql") dir some_ dotless slash (by decide)
  have document : Formats.ofPath .standard path = .ok .document := by
    unfold Formats.ofPath
    rw [show FileName.extension path = Text.ofString ".gql" from extension]
    rfl
  refine ⟨document, fun r decoded => ?_⟩
  obtain ⟨names, -, -⟩ := Record.ofFile_document document decoded
  rw [show FileName.stem path = compose ns name [] from stem,
    FileName.split_compose some_ dotless] at names
  exact Prod.mk.inj names

/-- Is the file what looking up a namespace and a name tries for a raw document, and can it come to
    it? The second extension is tried only where nothing has the first one, and a directory there
    cannot be read. -/
def Comes (s : Shelf) (t : FileTree) (ns name file : Text) : Prop :=
  file = compose ns name ".gql" ∨
    file = compose ns name ".graphql" ∧
      ¬t.isDirectory (Path.join s.queries (compose ns name ".gql")) = true

/-- Some record of the namespace and name is found under it, and loaded. -/
def Answers (s : Shelf) (t : FileTree) (ns name : Text) : Prop :=
  ∃ path ∈ t.filesIn s.queries, ∃ r, s.getByName .standard t ns name = .ok (some r) ∧
    read .standard t path = .ok r ∧ r.ns = ns ∧ r.name = name

/-- What looking up a raw document needs: its directory is no file, and the paths that are tried are
    those of the directory. -/
structure Searchable (s : Shelf) (t : FileTree) (ns name : Text) : Prop where
  below : .char '/' ∉ ns
  named : .char '/' ∉ name
  some_ : name ≠ []
  dotless : .char '.' ∉ name
  noFile : ¬t.isFile s.queries = true
  knows : ∀ ext ∈ extensions, s.Knows (compose ns name ext)

namespace Searchable

variable {ext : Text} (search : s.Searchable t ns name)

include search

theorem slashless (tried : ext ∈ extensions) : .char '/' ∉ compose ns name ext := by
  obtain ⟨e, rfl, -, slash⟩ := extension_cases tried
  exact FileName.slashless_compose search.below search.named (by simp [slash])

theorem path (tried : ext ∈ extensions) : Path.join s.queries (compose ns name []) ++ ext =
    Path.join s.queries (compose ns name ext) := by
  obtain ⟨e, rfl, -, slash⟩ := extension_cases tried
  exact tried_path search.below search.named (by simp [slash])

/-- A file that is tried is listed. -/
theorem listed (tried : ext ∈ extensions)
    (isFile : t.isFile (Path.join s.queries (compose ns name ext)) = true) :
    normal s.queries ++ .char '/' :: compose ns name ext ∈ t.filesIn s.queries := by
  refine FileTree.mem_filesIn search.noFile (search.slashless tried) ?_
  obtain ⟨bytes, found⟩ := Option.isSome_iff_exists.mp isFile
  rw [FileTree.file?, (search.knows ext tried).1] at found
  exact List.mem_map_of_mem (f := Prod.fst) (Dictionary.mem_of_get? found)

theorem read (tried : ext ∈ extensions) : Shelf.read .standard t
      (Path.join s.queries (compose ns name ext)) = .ok r ↔
    Shelf.read .standard t (normal s.queries ++ .char '/' :: compose ns name ext) = .ok r :=
  (search.knows ext tried).read (search.slashless tried)

theorem isFile_of_read (tried : ext ∈ extensions) (decoded : Shelf.read .standard t
    (normal s.queries ++ .char '/' :: compose ns name ext) = .ok r) :
    t.isFile (Path.join s.queries (compose ns name ext)) = true := by
  obtain ⟨bytes, content⟩ := Record.ofFile_bytes ((search.read tried).mpr decoded)
  rw [FileTree.isFile, FileTree.file?, FileTree.read_ok.mp content]
  rfl

/-- The file with the first extension is found, if it is one. -/
theorem getByName_gql (decoded : Shelf.read .standard t
    (Path.join s.queries (compose ns name ".gql")) = .ok r)
    (isFile : t.isFile (Path.join s.queries (compose ns name ".gql")) = true) :
    s.getByName .standard t ns name = .ok (some r) := by
  have there : Files.exists? t (Path.join s.queries (compose ns name ".gql")) = true := by
    change t.exists? _ = true
    rw [FileTree.exists?, isFile, Bool.true_or]
  have first := search.path (by decide : Text.ofString ".gql" ∈ extensions)
  rw [getByName, extensions, List.map_cons, List.find?_cons_of_pos (by rw [first]; exact there),
    first]
  simp only [decoded]
  rfl

/-- The file with the second extension is found, if nothing has the first one. -/
theorem getByName_graphql (decoded : Shelf.read .standard t
    (Path.join s.queries (compose ns name ".graphql")) = .ok r)
    (isFile : t.isFile (Path.join s.queries (compose ns name ".graphql")) = true)
    (absent : t.exists? (Path.join s.queries (compose ns name ".gql")) = false) :
    s.getByName .standard t ns name = .ok (some r) := by
  have there : Files.exists? t (Path.join s.queries (compose ns name ".graphql")) = true := by
    change t.exists? _ = true
    rw [FileTree.exists?, isFile, Bool.true_or]
  have notThere : ¬Files.exists? t (Path.join s.queries (compose ns name ".gql")) = true := by
    change ¬t.exists? _ = true
    rw [absent]
    exact Bool.false_ne_true
  have first := search.path (by decide : Text.ofString ".gql" ∈ extensions)
  have second := search.path (by decide : Text.ofString ".graphql" ∈ extensions)
  rw [getByName, extensions, List.map_cons, List.find?_cons_of_neg (by rw [first]; exact notThere),
    List.map_cons, List.find?_cons_of_pos (by rw [second]; exact there), second]
  simp only [decoded]
  rfl

theorem answers_gql {rs : List Record}
    (loaded : readAll .standard t (t.filesIn s.queries) = .ok rs)
    (isFile : t.isFile (Path.join s.queries (compose ns name ".gql")) = true) :
    s.Answers t ns name := by
  have tried : Text.ofString ".gql" ∈ extensions := by decide
  have there := search.listed tried isFile
  obtain ⟨format, under⟩ := gql_names (t := t) (normal s.queries) search.some_ search.dotless
    (search.slashless tried)
  rcases readAll_each loaded there with ⟨r, read⟩ | ⟨q, read⟩
  · have found := search.getByName_gql ((search.read tried).mpr read) isFile
    exact ⟨_, there, r, found, read, under r read⟩
  · exact absurd read (document_error format)

/-- Where lookups come to a raw document, something is found: it, or a file that is tried first. -/
theorem answers_of_comes {rs : List Record} {file : Text}
    (loaded : readAll .standard t (t.filesIn s.queries) = .ok rs) (comes : s.Comes t ns name file)
    (there : normal s.queries ++ .char '/' :: file ∈ t.filesIn s.queries)
    (decoded : Shelf.read .standard t (normal s.queries ++ .char '/' :: file) = .ok r)
    (names : r.ns = ns ∧ r.name = name) : s.Answers t ns name := by
  rcases comes with rfl | ⟨rfl, noDirectory⟩
  · exact search.answers_gql loaded (search.isFile_of_read (by decide) decoded)
  · by_cases isFile : t.isFile (Path.join s.queries (compose ns name ".gql")) = true
    · exact search.answers_gql loaded isFile
    · have absent : t.exists? (Path.join s.queries (compose ns name ".gql")) = false := by
        rw [FileTree.exists?, Bool.eq_false_iff.mpr isFile, Bool.eq_false_iff.mpr noDirectory]
        rfl
      have tried : Text.ofString ".graphql" ∈ extensions := by decide
      have found := search.getByName_graphql ((search.read tried).mpr decoded)
        (search.isFile_of_read tried decoded) absent
      exact ⟨_, there, r, found, decoded, names⟩

/-- A raw document that is found is one that lookups come to. -/
theorem comes_of_document {before after : List Text} (tried : ext ∈ extensions)
    (whole : extensions = before ++ ext :: after)
    (none_ : ∀ e ∈ before, t.exists? (Path.join s.queries (compose ns name []) ++ e) = false)
    (document : Formats.ofPath .standard (normal s.queries ++ .char '/' :: compose ns name ext) =
      .ok .document) : s.Comes t ns name (compose ns name ext) := by
  have noMapping {e : Text} (same : ext = .char '.' :: e) (plain : .char '.' ∉ e)
      (mapping : Dictionary.get? (Text.lower (.char '.' :: e)) Formats.standard = some .mapping) :
      False := by
    subst same
    have named := ofPath_compose (normal s.queries) search.some_ search.dotless
      (search.slashless tried) plain
    rw [Formats.ofPath, named.1, mapping] at document
    cases document
  have cases_ := tried
  simp only [extensions, List.mem_cons, List.not_mem_nil, or_false] at cases_
  rcases cases_ with rfl | rfl | rfl | rfl
  · exact .inl rfl
  · refine .inr ⟨rfl, fun isDirectory => ?_⟩
    cases before with
    | nil => exact absurd (List.cons.inj whole).1 (by decide)
    | cons first before =>
        obtain rfl := (List.cons.inj whole).1
        have absent := none_ _ List.mem_cons_self
        rw [search.path (by decide), FileTree.exists?, isDirectory, Bool.or_true] at absent
        cases absent
  · exact (noMapping (e := "yml") rfl (by decide) rfl).elim
  · exact (noMapping (e := "yaml") rfl (by decide) rfl).elim

end Searchable

end Shelf

namespace Store

/-- A raw document that is loaded is found under its namespace and name if its file is one that is
    tried: something of this namespace and name is found, and if no other file holds such a record,
    then the record is found just in this case. -/
theorem document_found {s : Shelf} {t : FileTree} {rs : List Record} {path : Text} {r : Record}
    (loaded : s.load .standard t = .ok rs) (listed : path ∈ Files.filesIn t s.queries)
    (under : Path.IsChild (normal s.queries) path)
    (document : Formats.ofPath .standard path = .ok .document)
    (decoded : Shelf.read .standard t path = .ok r)
    (knows : ∀ ext ∈ Shelf.extensions, s.Knows (compose r.ns r.name ext)) :
    (s.Comes t r.ns r.name (FileName.base path) →
      ∃ r', s.getByName .standard t r.ns r.name = .ok (some r') ∧ r'.ns = r.ns ∧ r'.name = r.name) ∧
    ((∀ path' ∈ Files.filesIn t s.queries, ∀ r', Shelf.read .standard t path' = .ok r' →
        r'.ns = r.ns → r'.name = r.name → path' = path) →
      (s.getByName .standard t r.ns r.name = .ok (some r) ↔
        s.Comes t r.ns r.name (FileName.base path))) := by
  obtain ⟨file, some_, slash, rfl⟩ := under
  rw [FileName.base_append slash]
  change _ ∈ t.filesIn s.queries at listed
  obtain ⟨noFile, key⟩ := Shelf.filesIn_files listed (by simp)
  obtain ⟨names, named, dotless⟩ := Record.ofFile_document document decoded
  -- The namespace and the name of the record are parts of the file's name.
  have search : s.Searchable t r.ns r.name := by
    obtain ⟨ns, name⟩ := Prod.mk.inj names
    have stem := FileName.splitBaseExtension_subset file
    obtain ⟨front, back⟩ := FileName.split_subset (FileName.splitBaseExtension file).1
    rw [FileName.stem, FileName.base_append slash] at ns name
    refine ⟨fun among => slash (stem (front (ns ▸ among))),
      fun among => slash (stem (back (name ▸ among))), named, dotless, noFile, knows⟩
  have directory : Files.isDirectory t s.queries = true :=
    Shelf.isDirectory_of_child ⟨file, some_, slash, rfl⟩ key
  rw [Shelf.load, if_pos directory] at loaded
  have answers (comes : s.Comes t r.ns r.name file) : s.Answers t r.ns r.name :=
    search.answers_of_comes loaded comes listed decoded ⟨rfl, rfl⟩
  refine ⟨fun comes => ?_, fun alone => ⟨fun found => ?_, fun comes => ?_⟩⟩
  · obtain ⟨-, -, r', found, -, ns, name⟩ := answers comes
    exact ⟨r', found, ns, name⟩
  · obtain ⟨before, ext, after, whole, none_, read⟩ := Shelf.getByName_first found
    have tried : ext ∈ Shelf.extensions := by simp [whole]
    rw [search.path tried] at read
    have read' := (search.read tried).mp read
    have own := alone _ (search.listed tried (search.isFile_of_read tried read')) r read' rfl rfl
    obtain rfl := (List.cons.inj (List.append_cancel_left own)).2
    exact search.comes_of_document tried whole none_ document
  · obtain ⟨path', there, r', found, read, ns, name⟩ := answers comes
    obtain rfl := alone path' there r' read ns name
    cases decoded.symm.trans read
    exact found

/-- A tree with one raw document under the directory of records. -/
def documentTree (file : String) : FileTree where
  files := [(Text.ofString "/srv/queries/" ++ Text.ofString file,
    (Utf8.encode? "query A { a }").getD [])]

/-- The document of a namespace is found under it. -/
theorem document_found_of_graphql :
    (Shelf.ofPath "/srv").getByName .standard (documentTree "x.y.A.graphql") "x.y" "A" =
      .ok (some { ns := "x.y", name := "A", query := "query A { a }" }) := by
  have loaded : (Shelf.ofPath "/srv").load .standard (documentTree "x.y.A.graphql") =
      .ok [{ ns := "x.y", name := "A", query := "query A { a }" }] := except_ok (by decide +kernel)
  have decoded : Shelf.read .standard (documentTree "x.y.A.graphql")
      "/srv/queries/x.y.A.graphql" = .ok { ns := "x.y", name := "A", query := "query A { a }" } :=
    except_ok (by decide +kernel)
  have only : Files.filesIn (documentTree "x.y.A.graphql") (Shelf.ofPath "/srv").queries =
      ["/srv/queries/x.y.A.graphql"] := by decide +kernel
  have under : Path.IsChild (normal (Shelf.ofPath "/srv").queries) "/srv/queries/x.y.A.graphql" :=
    ⟨"x.y.A.graphql", by decide, by decide, by decide⟩
  have plain : ∀ ext ∈ Shelf.extensions, (compose "x.y" "A" ext).IsPlain ∧
      compose "x.y" "A" ext ≠ [] := by decide
  have knows : ∀ ext ∈ Shelf.extensions, (Shelf.ofPath "/srv").Knows (compose "x.y" "A" ext) :=
    fun ext tried => Shelf.knows_plain (Shelf.rooted_ofPath (by decide) (by decide))
      (plain ext tried).1 (plain ext tried).2
  refine ((document_found loaded (by simp [only]) under (except_ok (by decide)) decoded
    knows).2 ?_).mpr (.inr (by decide))
  intro path among r read ns name
  simpa [only] using among

/-- A document whose file has its extension in upper case is loaded, but not found. -/
theorem document_missed :
    ((Shelf.ofPath "/srv").load .standard (documentTree "A.GQL")).toOption =
        some [{ name := "A", query := "query A { a }" }] ∧
      ((Shelf.ofPath "/srv").getByName .standard (documentTree "A.GQL") [] "A").toOption =
        some none := by
  decide +kernel

end Store

end ApprovedOps
