import ApprovedOps.Proofs.Except
import ApprovedOps.Proofs.Files.Path
import ApprovedOps.Proofs.Files.Placed
import ApprovedOps.Proofs.Store.Children
import ApprovedOps.Proofs.Text.Order

/-! # What is listed

A file that was written directly into the directory of records is among the files of that directory,
and stays among them. So it is in a tree, as long as the directory is not a file itself, and on a
disk.
-/

namespace ApprovedOps

open FileTree (normal)

/-- A file system that lists what lies in the directory of records. -/
class ListedFiles (σ : Type) [Files σ] [PlacedFiles σ] : Prop where
  /-- What was written is there. -/
  written {fs fs' : σ} {path : Text} {bytes : List UInt8} {place : PlacedFiles.Place σ} :
    Files.write fs path bytes = .ok fs' → PlacedFiles.Leads fs' path place →
    place ∈ (PlacedFiles.placed fs').map Prod.fst
  /-- What is there stays when another file is written. -/
  kept {fs fs' : σ} {path : Text} {bytes : List UInt8} {place : PlacedFiles.Place σ} :
    Files.write fs path bytes = .ok fs' → place ∈ (PlacedFiles.placed fs).map Prod.fst →
    place ∈ (PlacedFiles.placed fs').map Prod.fst
  /-- What is there is listed under its name, unless the directory can be read as a file. -/
  listed {fs : σ} {s : Shelf} {file : Text} {place : PlacedFiles.Place σ} :
    file.IsPlain → (∃ c ∈ file, c ≠ .char '.') → (∀ bytes, Files.read fs s.queries ≠ .ok bytes) →
    PlacedFiles.Leads fs (Path.join s.queries file) place →
    place ∈ (PlacedFiles.placed fs).map Prod.fst →
    ∃ path ∈ Files.filesIn fs s.queries, FileName.base path = file

namespace Shelf

/-- A tree knows a plain file in a directory of the store by that directory. -/
theorem normal_file (root : Text) {word file : Text} (h : word.isName = true)
    (foreign : ∀ c, word.head? = some c → c ∉ Text.ofString "memory://") (plain : file.IsPlain)
    (some_ : file ≠ []) :
    normal (Path.join root word ++ .char '/' :: file) =
      normal (Path.join root word) ++ .char '/' :: file := by
  obtain ⟨known, dir, below⟩ := file_known root h foreign
  rw [below file plain.slashless some_, dir, eq_false plain.colons]

end Shelf

/-! ## Trees -/

namespace FileTree

theorem mem_keys_insert {key place : Text} {bytes : List UInt8} {files : Dictionary (List UInt8)}
    (among : place ∈ files.map Prod.fst) :
    place ∈ (Dictionary.insert key bytes files).map Prod.fst := by
  rw [Dictionary.keys_insert]
  split
  · exact among
  · exact List.mem_append_left _ among

theorem key_mem_insert (key : Text) (bytes : List UInt8) (files : Dictionary (List UInt8)) :
    key ∈ (Dictionary.insert key bytes files).map Prod.fst := by
  rw [Dictionary.keys_insert]
  split
  next there => exact there
  next => simp

/-- A file in a directory is listed, if the directory is not a file. -/
theorem mem_filesIn {t : FileTree} {dir file : Text} (noFile : ¬t.isFile dir = true)
    (slash : .char '/' ∉ file) (among : normal dir ++ .char '/' :: file ∈ t.files.map Prod.fst) :
    normal dir ++ .char '/' :: file ∈ t.filesIn dir := by
  have dropped : Text.dropPrefix? (normal dir ++ .char '/' :: file) (normal dir ++ [.char '/']) =
      some file := by
    rw [Text.dropPrefix?, List.isPrefixOf?_eq_some_iff_append_eq]
    simp
  rw [filesIn, if_neg noFile, Files.mem_sorted, List.mem_filter]
  exact ⟨among, by simp [dropped, slash]⟩

end FileTree

instance : ListedFiles FileTree where
  written h leads := by
    obtain rfl := FileTree.write_eq h
    rw [← (leads : normal _ = _)]
    exact FileTree.key_mem_insert _ _ _
  kept h among := by
    obtain rfl := FileTree.write_eq h
    exact FileTree.mem_keys_insert among
  listed {t s file place} plain proper unread leads among := by
    obtain ⟨c, inside, -⟩ := proper
    have some_ : file ≠ [] := List.ne_nil_of_mem inside
    have noFile : ¬t.isFile s.queries = true := by
      intro isFile
      obtain ⟨bytes, found⟩ := Option.isSome_iff_exists.mp isFile
      refine unread bytes ?_
      change t.read s.queries = .ok bytes
      rw [FileTree.read, found]
    have known : normal s.queries ++ .char '/' :: file = place := by
      rw [← (leads : normal _ = _), Shelf.queries, Shelf.directory_join s.root Shelf.queries_isName
        (Shelf.head?_slashless plain.slashless)]
      exact (Shelf.normal_file s.root Shelf.queries_isName Shelf.queries_foreign plain some_).symm
    exact ⟨_, FileTree.mem_filesIn noFile plain.slashless (known ▸ among),
      FileName.base_append plain.slashless⟩

/-! ## Disks -/

namespace Disk

variable {d : Disk} {place place' : List Text}

/-- Following names and then one more. -/
theorem follow_last {names : List Text} {name : Text} (proper : ∃ c ∈ name, c ≠ .char '.')
    (h : d.follow place (names ++ [name]) = .ok place') :
    ∃ up, d.follow place names = .ok up ∧ d.isDirectoryAt up = true ∧ place' = up ++ [name] := by
  obtain ⟨c, inside, letter⟩ := proper
  have some_ : name ≠ [] := List.ne_nil_of_mem inside
  have notHere : name ≠ [.char '.'] := by
    rintro rfl
    exact letter (List.mem_singleton.mp inside)
  have notUp : name ≠ Text.ofString ".." := by
    rintro rfl
    simp [Text.ofString] at inside
    exact letter inside
  induction names generalizing place with
  | nil =>
      rw [List.nil_append, follow] at h
      split at h
      next here =>
        split at h
        · cases h
        · rw [if_neg (not_or.mpr ⟨some_, notHere⟩)] at h
          cases h
          exact ⟨place, rfl, here, rfl⟩
      next => split at h <;> cases h
  | cons first names ih =>
      rw [List.cons_append, follow] at h
      rw [follow]
      split at h
      next here =>
        rw [if_pos here]
        split at h
        · cases h
        next short =>
          rw [if_neg short]
          split at h
          next same =>
            rw [if_pos same]
            exact ih h
          next other =>
            rw [if_neg other]
            split at h
            next above =>
              rw [if_pos above]
              exact ih h
            next below =>
              rw [if_neg below]
              exact ih h
      next => split at h <;> cases h

theorem locate_last {dir name : Text} (some_ : dir ≠ []) (slash : .char '/' ∉ name)
    (proper : ∃ c ∈ name, c ≠ .char '.') (h : d.locate (dir ++ .char '/' :: name) = .ok place) :
    ∃ up, d.locate dir = .ok up ∧ d.isDirectoryAt up = true ∧ place = up ++ [name] := by
  obtain ⟨c, dir, rfl⟩ := List.exists_cons_of_ne_nil some_
  have whole : c :: dir ++ CodePoint.char '/' :: name ≠ [] := by simp
  have start : Text.startsWith (c :: dir ++ .char '/' :: name) [.char '/'] =
      Text.startsWith (c :: dir) [.char '/'] := by
    simp [Text.startsWith, List.isPrefixOf]
  simp only [locate, if_neg whole, start, Text.splitOn_last _ slash] at h
  simp only [locate, if_neg some_]
  exact follow_last proper h

/-- The addresses of what lies below the same path begin alike. -/
theorem address_below (d : Disk) (front : Text) : ∃ known : Text, ∀ rest : Text,
    rest.head? = some (.char 'q') → (∃ c, rest.getLast? = some c ∧ c ≠ .char '/') →
      d.address (front ++ rest) = known ++ rest := by
  let inner := withoutProtocol front
  let known :=
    if Text.startsWith inner [.char '/'] then inner
    else Text.join [] (d.working.map (.char '/' :: ·)) ++
      .char '/' :: (Text.dropPrefix? inner "./").getD inner
  refine ⟨known, fun rest first last => ?_⟩
  have apart (u start : Text) (foreign : .char 'q' ∉ start) :
      Text.dropPrefix? (u ++ rest) start = (Text.dropPrefix? u start).map (· ++ rest) := by
    refine Text.dropPrefix_apart fun c begins => ?_
    cases first.symm.trans begins
    exact foreign
  have protocol : withoutProtocol (front ++ rest) = inner ++ rest := by
    unfold inner withoutProtocol
    simp only [List.findSome?_cons, List.findSome?_nil]
    rw [apart _ _ (by decide), apart _ _ (by decide), apart _ _ (by decide), apart _ _ (by decide)]
    cases Text.dropPrefix? front "file://" <;> cases Text.dropPrefix? front "file:" <;>
      cases Text.dropPrefix? front "local://" <;> cases Text.dropPrefix? front "local:" <;> rfl
  have begins : Text.startsWith (inner ++ rest) [.char '/'] =
      Text.startsWith inner [.char '/'] := by
    cases inner with
    | nil =>
        obtain ⟨r, rfl⟩ := List.head?_eq_some_iff.mp first
        rfl
    | cons c inner => simp [Text.startsWith, List.isPrefixOf]
  have some_ : known ++ rest ≠ [] := by
    obtain ⟨r, rfl⟩ := List.head?_eq_some_iff.mp first
    simp
  have whole : Path.withoutSlashes (known ++ rest) = known ++ rest := by
    obtain ⟨c, there, other⟩ := last
    refine FileTree.withoutSlashes_eq ?_ other
    rw [List.getLast?_append, there]
    rfl
  have text : (if Text.startsWith (inner ++ rest) [.char '/'] then inner ++ rest
      else Text.join [] (d.working.map (.char '/' :: ·)) ++
        .char '/' :: (Text.dropPrefix? (inner ++ rest) "./").getD (inner ++ rest)) =
      known ++ rest := by
    rw [begins, apart _ _ (by decide)]
    unfold known
    split
    · rfl
    · cases Text.dropPrefix? inner "./" <;> simp
  simp only [address, protocol, text, whole, if_neg some_]

end Disk

instance : ListedFiles Disk where
  written {d d' path bytes place} h leads := by
    obtain ⟨new, located, rfl⟩ := Disk.write_eq h
    have there : Disk.locate { d with files := d.files.filter (·.1 ≠ new) ++ [(new, bytes)] }
        (d.address path) = .ok new := Disk.locate_files d _ located
    cases there.symm.trans leads
    exact List.mem_map.mpr ⟨(place, bytes), List.mem_append_right _ List.mem_cons_self, rfl⟩
  kept {d d' path bytes place} h among := by
    obtain ⟨new, -, rfl⟩ := Disk.write_eq h
    change place ∈ (d.files.filter (·.1 ≠ new) ++ [(new, bytes)]).map Prod.fst
    obtain ⟨file, old, rfl⟩ := List.mem_map.mp among
    by_cases same : file.1 = new
    · simp [same]
    · refine List.mem_map.mpr ⟨file, List.mem_append_left _ ?_, rfl⟩
      exact List.mem_filter.mpr ⟨old, by simpa⟩
  listed {d s file place} plain proper _ leads among := by
    obtain ⟨c, inside, -⟩ := id proper
    obtain ⟨front, joined⟩ := Shelf.join_root s.root
    obtain ⟨known, address⟩ := d.address_below front
    have dir : s.queries = front ++ Text.ofString "queries" := joined _ Shelf.queries_isName
    have here : d.address s.queries = known ++ Text.ofString "queries" := by
      rw [dir]
      exact address _ (by decide) ⟨.char 's', by decide, by decide⟩
    have below : d.address (Path.join s.queries file) =
        d.address s.queries ++ .char '/' :: file := by
      rw [Shelf.queries, Shelf.directory_join s.root Shelf.queries_isName
        (Shelf.head?_slashless plain.slashless), ← Shelf.queries, here, dir, List.append_assoc,
        List.append_assoc]
      refine address _ rfl ?_
      have some_ : file ≠ [] := List.ne_nil_of_mem inside
      rw [List.getLast?_append_of_ne_nil _ (by simp), List.getLast?_cons_of_ne_nil some_,
        List.getLast?_eq_getLast_of_ne_nil some_]
      exact ⟨_, rfl, fun slash => plain.slashless (slash ▸ List.getLast_mem some_)⟩
    have located : d.locate (d.address s.queries ++ .char '/' :: file) = .ok place := below ▸ leads
    obtain ⟨up, reached, directory, rfl⟩ := Disk.locate_last
      (here ▸ List.append_ne_nil_of_right_ne_nil _ (by decide)) plain.slashless proper located
    refine ⟨d.address s.queries ++ .char '/' :: file, ?_, FileName.base_append plain.slashless⟩
    change _ ∈ d.filesIn (d.address s.queries)
    rw [Disk.filesIn, reached]
    dsimp only
    rw [if_pos directory, Files.mem_sorted]
    refine List.mem_map_of_mem (List.mem_filterMap.mpr ?_)
    obtain ⟨⟨at_, bytes⟩, old, same⟩ := List.mem_map.mp among
    cases same
    exact ⟨_, old, by simp⟩

end ApprovedOps
