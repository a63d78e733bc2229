import ApprovedOps.Proofs.Store.Documents
import ApprovedOps.Proofs.Store.Shelved

/-! # Paths of one file

A record file can be asked for by the path that the tree lists, by the path below the directory of
records, or by a path relative to the store. The first two always lead to the file. The third is
taken to begin with the store's directory if it does, and so leads elsewhere just when the directory
has the name of the directory of records.
-/

namespace ApprovedOps

open FileTree (normal Ordinary)

theorem Path.join_append (dir : Text) {word : Text} (rest : Text) (some_ : word ≠ [])
    (relative : word.head? ≠ some (.char '/')) :
    join dir (word ++ rest) = join dir word ++ rest := by
  have relative' : (word ++ rest).head? ≠ some (.char '/') := by
    rwa [List.head?_append_of_ne_nil word some_]
  rw [join_relative dir relative, join_relative dir relative']
  split
  · rw [List.append_assoc]
  · rw [List.append_assoc, List.cons_append]

/-- A text with one slash is parted there only. -/
theorem Text.front_unique {dir word file rest : Text} (word_ : .char '/' ∉ word)
    (slash : .char '/' ∉ file) (same : dir ++ .char '/' :: rest = word ++ .char '/' :: file) :
    dir = word := by
  obtain ⟨more, word', rest'⟩ | ⟨more, dir', file'⟩ := List.append_eq_append_iff.mp same
  · cases more with
    | nil => rw [word', List.append_nil]
    | cons c more =>
        obtain ⟨rfl, -⟩ := List.cons.inj rest'
        exact absurd (by simp [word']) word_
  · cases more with
    | nil => rw [dir', List.append_nil]
    | cons c more =>
        obtain ⟨rfl, rfl⟩ := List.cons.inj file'
        exact absurd (by simp) slash

namespace Shelf

variable {s : Shelf} {t : FileTree} {file path : Text}

/-- Does the path, as the store resolves it, lead to a file of the directory of records, and end in
    its name? -/
structure Reaches (s : Shelf) (path file : Text) : Prop where
  known : normal (s.resolve path) = normal s.queries ++ .char '/' :: file
  name : FileName.base path = file

/-! ## How paths are resolved -/

theorem base_resolve (s : Shelf) (path : Text) :
    FileName.base (s.resolve path) = FileName.base path := by
  rw [resolve]
  split
  · rfl
  split
  · rfl
  · exact Path.base_join s.root path

theorem resolve_absolute (absolute : [.char '/'] <+: path) : s.resolve path = path := by
  rw [resolve, if_pos (.inl (Text.startsWith_iff.mpr absolute))]

/-- A path that begins with the store's directory stands for itself. -/
theorem resolve_rooted (other : s.root ≠ [.char '/']) (within : s.root ++ [.char '/'] <+: path) :
    s.resolve path = path := by
  rw [resolve]
  split
  · rfl
  · rw [if_pos ⟨other, Text.startsWith_iff.mpr within⟩]

theorem resolve_joined (rooted : s.Rooted) (plain : file.IsPlain) :
    s.resolve (Path.join s.queries file) = Path.join s.queries file := by
  have joined := directory_join s.root queries_isName (head?_slashless plain.slashless)
  change Path.join s.queries file = s.queries ++ .char '/' :: file at joined
  obtain root | ordinary := rooted
  · apply resolve_absolute
    rw [joined, queries, root]
    exact ⟨_, rfl⟩
  · apply resolve_rooted
    · obtain ⟨c, last, other⟩ := ordinary.last
      intro root
      rw [root] at last
      cases last
      exact other rfl
    · rw [joined, queries, Path.join_below ordinary (Text.isName_plain queries_isName)]
      exact ⟨Text.ofString "queries" ++ .char '/' :: file, by simp⟩

theorem queries_ordinary : Ordinary (Text.ofString "queries") := by
  refine ⟨?_, ?_, .char 's', rfl, by decide⟩
  · rw [← Text.hasInfix_iff]
    decide
  · rw [← Text.hasInfix_iff]
    decide

/-- A path relative to the store is put below its directory, unless it begins with it. -/
theorem resolve_relative (plain : file.IsPlain) (some_ : file ≠ [])
    (other : s.root ≠ Text.ofString "queries") :
    s.resolve (Text.ofString "queries" ++ .char '/' :: file) = Path.join s.queries file := by
  have slashless := Text.isName_notMem queries_isName (c := .char '/') rfl
  have relative : ¬Text.startsWith (Text.ofString "queries" ++ .char '/' :: file) [.char '/'] =
      true := by
    rw [Text.startsWith_slash]
    intro first
    exact absurd (Option.some.inj first) (by decide)
  have address := (FileTree.ordinary_below queries_ordinary plain some_).address
  rw [← Text.hasInfix_iff] at address
  have outside : ¬Text.startsWith (Text.ofString "queries" ++ .char '/' :: file)
      (s.root ++ [.char '/']) = true := by
    rw [Text.startsWith_iff]
    rintro ⟨rest, same⟩
    rw [List.append_assoc] at same
    exact other (Text.front_unique slashless plain.slashless same)
  rw [resolve, if_neg (not_or.mpr ⟨relative, address⟩), if_neg fun inside => outside inside.2,
    Path.join_append _ _ (Text.isName_ne_nil queries_isName) (head?_slashless slashless)]
  exact (directory_join s.root queries_isName (head?_slashless plain.slashless)).symm

/-! ## What they lead to -/

theorem reaches_listed (rooted : s.Rooted) (plain : file.IsPlain) (some_ : file ≠ []) :
    s.Reaches (normal s.queries ++ .char '/' :: file) file := by
  refine ⟨?_, FileName.base_append plain.slashless⟩
  have absolute : [.char '/'] <+: normal s.queries := by
    rw [queries, (directory_ordinary rooted queries_isName).2]
    exact ⟨_, rfl⟩
  rw [resolve_absolute (absolute.trans (List.prefix_append _ _))]
  exact (knows_plain rooted plain some_).2

theorem reaches_joined (rooted : s.Rooted) (plain : file.IsPlain) (some_ : file ≠ []) :
    s.Reaches (Path.join s.queries file) file := by
  constructor
  · rw [resolve_joined rooted plain]
    exact (knows_plain rooted plain some_).1
  · rw [queries, directory_join _ queries_isName (head?_slashless plain.slashless)]
    exact FileName.base_append plain.slashless

/-- The relative path leads elsewhere in a store whose directory is called like that of records. -/
theorem reaches_relative (rooted : s.Rooted) (plain : file.IsPlain) (some_ : file ≠ []) :
    s.Reaches (Text.ofString "queries" ++ .char '/' :: file) file ↔
      s.root ≠ Text.ofString "queries" := by
  constructor
  · intro reaches root
    have itself : s.resolve (Text.ofString "queries" ++ .char '/' :: file) =
        Text.ofString "queries" ++ .char '/' :: file := by
      apply resolve_rooted
      · rw [root]
        decide
      · rw [root]
        exact ⟨file, by simp⟩
    have known := reaches.known
    rw [itself, FileTree.normal_below queries_ordinary plain some_] at known
    have same := List.append_cancel_right known
    rw [queries, (directory_ordinary rooted queries_isName).2, base, root] at same
    exact absurd same (by decide)
  · intro other
    refine ⟨?_, FileName.base_append plain.slashless⟩
    rw [resolve_relative plain some_ other]
    exact (knows_plain rooted plain some_).1

theorem Reaches.get {formats : Formats} {bytes : List UInt8} (reaches : s.Reaches path file)
    (found : Dictionary.get? (normal s.queries ++ .char '/' :: file) t.files = some bytes) :
    s.get formats t path = Record.ofFile formats (s.resolve path) (.ok bytes) := by
  have content : Files.read t (s.resolve path) = .ok bytes := by
    rw [← reaches.known] at found
    exact FileTree.read_ok.mpr found
  rw [Shelf.get, read, content]

theorem Reaches.get_ok {formats : Formats} {bytes : List UInt8} {r : Record}
    (reaches : s.Reaches path file) (slash : .char '/' ∉ file)
    (found : Dictionary.get? (normal s.queries ++ .char '/' :: file) t.files = some bytes) :
    s.get formats t path = .ok r ↔ Record.ofFile formats file (.ok bytes) = .ok r := by
  have base : FileName.base (s.resolve path) = FileName.base file := by
    rw [base_resolve, reaches.name, FileName.base, FileName.splitLast?_none slash]
  rw [reaches.get found]
  exact ⟨Record.ofFile_base base, Record.ofFile_base base.symm⟩

/-- A file of the directory of records is read by every path that reaches it, with the outcome that
    its name and its bytes give. The path that is listed reaches it, and so does the path below the
    directory; the path relative to the store does so just when the store's directory has another
    name than the directory of records. -/
theorem get_reaches {t : FileTree} {root file : Text} {bytes : List UInt8}
    (colons : ¬root.hasInfix "::" = true) (address : ¬root.hasInfix "://" = true)
    (plain : file.IsPlain) (some_ : file ≠ [])
    (found : Dictionary.get? (normal (ofPath root).queries ++ .char '/' :: file) t.files =
      some bytes) :
    (normal (ofPath root).queries ++ .char '/' :: file ∈ Files.filesIn t (ofPath root).queries ↔
        ¬t.isFile (ofPath root).queries = true) ∧
      (ofPath root).Reaches (normal (ofPath root).queries ++ .char '/' :: file) file ∧
      (ofPath root).Reaches (Path.join (ofPath root).queries file) file ∧
      ((ofPath root).Reaches (Text.ofString "queries" ++ .char '/' :: file) file ↔
        (ofPath root).root ≠ Text.ofString "queries") ∧
      ∀ path, (ofPath root).Reaches path file → ∀ formats,
        (ofPath root).get formats t path =
            Record.ofFile formats ((ofPath root).resolve path) (.ok bytes) ∧
          ∀ r, (ofPath root).get formats t path = .ok r ↔
            Record.ofFile formats file (.ok bytes) = .ok r := by
  have rooted := rooted_ofPath colons address
  have among : normal (ofPath root).queries ++ .char '/' :: file ∈ t.files.map Prod.fst :=
    List.mem_map_of_mem (f := Prod.fst) (Dictionary.mem_of_get? found)
  refine ⟨⟨fun listed => ?_, fun noFile => ?_⟩, reaches_listed rooted plain some_,
    reaches_joined rooted plain some_, reaches_relative rooted plain some_, ?_⟩
  · refine (filesIn_files listed fun same => ?_).1
    have size := congrArg List.length same
    rw [List.length_append, List.length_cons] at size
    omega
  · exact FileTree.mem_filesIn noFile plain.slashless among
  · intro path reaches formats
    exact ⟨reaches.get found, fun r => reaches.get_ok plain.slashless found⟩

/-- A tree with one file. -/
def singleTree (path : String) : FileTree where
  files := [(Text.ofString path, (Utf8.encode? "query A { a }").getD [])]

/-- In another store it is, whether its directory is given with a slash at the end or without. -/
theorem get_reaches_of_relative :
    (ofPath "srv/").get .standard (singleTree "/srv/queries/A.gql") "queries/A.gql" =
      .ok { name := "A", query := "query A { a }" } := by
  have found : Dictionary.get? (normal (ofPath "srv/").queries ++ .char '/' :: "A.gql")
      (singleTree "/srv/queries/A.gql").files =
        some ((Utf8.encode? "query A { a }").getD []) := by
    decide +kernel
  have decoded : Record.ofFile .standard "A.gql" (.ok ((Utf8.encode? "query A { a }").getD [])) =
      .ok { name := "A", query := "query A { a }" } := except_ok (by decide +kernel)
  obtain ⟨-, -, -, relative, reads⟩ :=
    get_reaches (by decide) (by decide) (by decide) (by decide) found
  exact ((reads _ (relative.mpr (by decide)) .standard).2 _).mpr decoded

/-- In a store whose directory is called like the directory of records, a file is not found by its
    path relative to the store. -/
theorem relative_missed :
    let tree := singleTree "/queries/queries/A.gql"
    ((ofPath "queries").get .standard tree "queries/A.gql").toOption = none ∧
      ((ofPath "queries").get .standard tree "queries/queries/A.gql").toOption =
        some { name := "A", query := "query A { a }" } := by
  decide +kernel

end Shelf

end ApprovedOps
