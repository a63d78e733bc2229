import ApprovedOps.Proofs.Files.Tree
import ApprovedOps.Proofs.Record.FileName
import ApprovedOps.Store.Save

/-! # Where the files of a store are

In a tree, the files of a store whose directory is an ordinary path lie in its two directories,
under the names that are composed of namespaces and names. Different pairs have different files, and
a record has never the file of a fragment.
-/

namespace ApprovedOps

open FileTree (normal Ordinary)

namespace Text

theorem startsWith_iff {t start : Text} : t.startsWith start = true ↔ start <+: t :=
  List.isPrefixOf_iff_prefix

theorem endsWith_iff {t tail : Text} : t.endsWith tail = true ↔ tail <:+ t :=
  List.isSuffixOf_iff_suffix

theorem startsWith_slash {t : Text} :
    t.startsWith [.char '/'] = true ↔ t.head? = some (.char '/') := by
  rw [startsWith_iff, List.head?_eq_some_iff]
  exact exists_congr fun r => eq_comm

theorem isName_plain {n : Text} (name : n.isName = true) : n.IsPlain :=
  isPlain_of_notMem (isName_notMem name rfl) (isName_notMem name rfl)

end Text

theorem FileName.compose_plain {ns name ext : Text} (plain : ns.IsPlain) (h : name.isName = true)
    (slash : .char '/' ∉ ext) (colon : .char ':' ∉ ext) : (compose ns name ext).IsPlain := by
  have slashless := Text.isName_notMem h (c := .char '/') rfl
  have colonless := Text.isName_notMem h (c := .char ':') rfl
  unfold compose
  split
  · exact Text.isPlain_append (Text.isName_plain h) slash colon
  · refine Text.isPlain_append (Text.isPlain_append (Text.isPlain_append plain ?_ ?_) ?_ ?_)
      slash colon
    · simp
    · simp
    · exact slashless
    · exact colonless

theorem FileName.compose_ne_nil (ns ext : Text) {name : Text} (h : name.isName = true) :
    compose ns name ext ≠ [] := by
  have some_ := Text.isName_ne_nil h
  unfold compose
  split <;> simp [some_]

namespace Shelf

theorem head?_slashless {file : Text} (slash : .char '/' ∉ file) :
    file.head? ≠ some (.char '/') :=
  fun first => slash (List.mem_of_head? first)

end Shelf

/-- A relative path is put behind a directory, and behind a slash if there is none. -/
theorem Path.join_relative (dir : Text) {file : Text} (relative : file.head? ≠ some (.char '/')) :
    join dir file = if dir = [] ∨ Text.endsWith dir [.char '/'] then dir ++ file
      else dir ++ .char '/' :: file := by
  rw [join, if_neg fun start => relative (Text.startsWith_slash.mp start)]

theorem Path.join_below {dir file : Text} (ordinary : Ordinary dir) (plain : file.IsPlain) :
    join dir file = dir ++ .char '/' :: file := by
  obtain ⟨c, last, other⟩ := ordinary.last
  have some_ : dir ≠ [] := by
    rintro rfl
    cases last
  have open_ : ¬Text.endsWith dir [.char '/'] = true := by
    rw [Text.endsWith_iff]
    rintro ⟨front, rfl⟩
    rw [List.getLast?_append_of_ne_nil _ (by simp)] at last
    cases last
    exact other rfl
  rw [join_relative dir (Shelf.head?_slashless plain.slashless), if_neg (not_or.mpr ⟨some_, open_⟩)]

namespace Shelf

/-- Is the store's directory the root, or an ordinary path? -/
def Rooted (s : Shelf) : Prop :=
  s.root = [.char '/'] ∨ Ordinary s.root

theorem rooted_ofPath {path : Text} (colons : ¬path.hasInfix "::" = true)
    (address : ¬path.hasInfix "://" = true) : (ofPath path).Rooted := by
  rw [Text.hasInfix_iff] at colons address
  have front : Path.withoutSlashes path <+: path := List.rdropWhile_prefix _ path
  rw [ofPath, Rooted]
  dsimp only
  split
  · exact .inl rfl
  next some_ =>
    refine .inr ⟨fun h => colons (h.trans front.isInfix), fun h => address (h.trans front.isInfix),
      _, List.getLast?_eq_getLast_of_ne_nil some_, fun slash => ?_⟩
    exact List.rdropWhile_last_not _ path some_ (decide_eq_true slash)

theorem queries_isName : Text.isName (Text.ofString "queries") = true := by decide

theorem fragments_isName : Text.isName (Text.ofString "fragments") = true := by decide

/-- What the tree's paths of the store begin with. -/
def base (s : Shelf) : Text :=
  .char '/' :: (s.root ++ [CodePoint.char '/']).dropWhile (· = .char '/')

variable {s : Shelf} {word : Text}

/-- A directory of the store is an ordinary path. -/
theorem directory_ordinary (rooted : s.Rooted) (h : word.isName = true) :
    Ordinary (Path.join s.root word) ∧ normal (Path.join s.root word) = s.base ++ word := by
  have plain := Text.isName_plain h
  have some_ := Text.isName_ne_nil h
  obtain root | ordinary := rooted
  · have joined : Path.join s.root word = .char '/' :: word := by
      rw [Path.join_relative _ (head?_slashless plain.slashless), root, if_pos (.inr rfl)]
      rfl
    have inside (part : Text) : ¬.char ':' :: part <:+: .char '/' :: word := fun h' =>
      Text.isName_notMem h (c := .char ':') rfl (by simpa using h'.mem List.mem_cons_self)
    have ordinary : Ordinary (.char '/' :: word) := by
      refine ⟨inside _, inside _, word.getLast some_, ?_, fun slash => plain.slashless ?_⟩
      · rw [List.getLast?_cons_of_ne_nil some_, List.getLast?_eq_getLast_of_ne_nil some_]
      · exact slash ▸ List.getLast_mem some_
    rw [joined]
    refine ⟨ordinary, ?_⟩
    have whole : word.dropWhile (· = .char '/') = word := by
      refine List.dropWhile_eq_self_iff.mpr fun long slash => plain.slashless ?_
      exact of_decide_eq_true slash ▸ List.getElem_mem long
    rw [FileTree.normal_ordinary ordinary, base, root, List.dropWhile_cons_of_pos (by simp), whole]
    rfl
  · rw [Path.join_below ordinary plain]
    refine ⟨FileTree.ordinary_below ordinary plain some_, ?_⟩
    rw [FileTree.normal_below ordinary plain some_, FileTree.normal_ordinary ordinary, base,
      List.dropWhile_append, if_neg (by simpa using ordinary.rest_ne_nil)]
    simp

/-- A file in a directory of the store. -/
theorem directory_file (rooted : s.Rooted) (h : word.isName = true) {file : Text}
    (plain : file.IsPlain) (some_ : file ≠ []) :
    Ordinary (Path.join (Path.join s.root word) file) ∧
      normal (Path.join (Path.join s.root word) file) = s.base ++ word ++ .char '/' :: file := by
  obtain ⟨ordinary, known⟩ := directory_ordinary rooted h
  rw [Path.join_below ordinary plain, ← known]
  exact ⟨FileTree.ordinary_below ordinary plain some_, FileTree.normal_below ordinary plain some_⟩

/-- No directory of the store has a longer path. -/
def depth (s : Shelf) : Nat :=
  (s.base ++ Text.ofString "fragments").length

/-- A file fits below a directory of the store if its name is not too short. -/
theorem directory_fits (rooted : s.Rooted) (h : word.isName = true) {file : Text}
    (plain : file.IsPlain) (some_ : file ≠ []) (short : word.length ≤ 9)
    (long : 9 < word.length + file.length + 1) :
    FileTree.Fits s.depth (Path.join (Path.join s.root word) file) := by
  obtain ⟨ordinary, known⟩ := directory_ordinary rooted h
  rw [Path.join_below ordinary plain]
  have length : (normal (Path.join s.root word)).length = s.base.length + word.length := by
    rw [known, List.length_append]
  have least : s.depth = s.base.length + 9 := by
    rw [depth, List.length_append]
    rfl
  exact FileTree.fits_below ordinary plain some_ (by omega) (by omega)

/-- The path of a record's file, as the tree knows it. -/
def recordKey (s : Shelf) (ns name : Text) : Text :=
  s.base ++ Text.ofString "queries" ++ .char '/' :: FileName.compose ns name Record.fileExtension

/-- The path of a fragment's file, as the tree knows it. -/
def fragmentKey (s : Shelf) (ns name : Text) : Text :=
  s.base ++ Text.ofString "fragments" ++ .char '/' :: FileName.compose ns name []

theorem recordKey_inj {ns ns' name name' : Text} (h : name.isName = true) (h' : name'.isName = true)
    (same : s.recordKey ns name = s.recordKey ns' name') : ns = ns' ∧ name = name' := by
  have files := List.append_cancel_left same
  exact FileName.compose_inj h h' (List.cons.inj files).2

theorem fragmentKey_inj {ns ns' name name' : Text} (h : name.isName = true)
    (h' : name'.isName = true) (same : s.fragmentKey ns name = s.fragmentKey ns' name') :
    ns = ns' ∧ name = name' := by
  have files := List.append_cancel_left same
  exact FileName.compose_inj h h' (List.cons.inj files).2

theorem recordKey_ne_fragmentKey (ns ns' name name' : Text) :
    s.recordKey ns name ≠ s.fragmentKey ns' name' := by
  intro same
  rw [recordKey, fragmentKey, List.append_assoc, List.append_assoc] at same
  exact absurd (List.cons.inj (List.append_cancel_left same)).1 (by decide)

/-- A file in a directory of the store whose name is composed. -/
theorem directory_compose (rooted : s.Rooted) (h : word.isName = true) {ns name ext : Text}
    (plain : ns.IsPlain) (named : name.isName = true) (slash : .char '/' ∉ ext)
    (colon : .char ':' ∉ ext) :
    Path.join (Path.join s.root word) (FileName.compose ns name ext) =
        Path.join s.root word ++ .char '/' :: FileName.compose ns name ext ∧
      normal (Path.join s.root word ++ .char '/' :: FileName.compose ns name ext) =
        s.base ++ word ++ .char '/' :: FileName.compose ns name ext := by
  have file := FileName.compose_plain plain named slash colon
  have joined := Path.join_below (directory_ordinary rooted h).1 file
  exact ⟨joined, joined ▸ (directory_file rooted h file (FileName.compose_ne_nil ns ext named)).2⟩

theorem recordPath_known (rooted : s.Rooted) {r : Record} (plain : r.ns.IsPlain)
    (name : r.name.isName = true) :
    normal (s.recordPath r) = s.recordKey r.ns r.name ∧ FileTree.Fits s.depth (s.recordPath r) := by
  have file : r.fileName.IsPlain := FileName.compose_plain plain name (by decide) (by decide)
  have some_ : r.fileName ≠ [] := FileName.compose_ne_nil _ _ name
  refine ⟨(directory_file rooted queries_isName file some_).2,
    directory_fits rooted queries_isName file some_ (by decide) ?_⟩
  have stem := List.length_pos_iff.mpr (FileName.compose_ne_nil r.ns [] name)
  have whole : r.fileName.length = (FileName.compose r.ns r.name []).length + 5 := by
    rw [Record.fileName, FileName.compose_append, List.length_append]
    rfl
  have word : (Text.ofString "queries").length = 7 := rfl
  omega

theorem fragmentPath_known (rooted : s.Rooted) {ns name : Text} (plain : ns.IsPlain)
    (h : name.isName = true) :
    normal (s.fragmentPath ns name) = s.fragmentKey ns name ∧
      FileTree.Fits s.depth (s.fragmentPath ns name) := by
  have file : (FileName.compose ns name []).IsPlain := FileName.compose_plain plain h nofun nofun
  have some_ := FileName.compose_ne_nil ns [] h
  have long := List.length_pos_iff.mpr some_
  refine ⟨(directory_file rooted fragments_isName file some_).2,
    directory_fits rooted fragments_isName file some_ (by decide) ?_⟩
  have word : (Text.ofString "fragments").length = 9 := rfl
  omega

end Shelf

end ApprovedOps
