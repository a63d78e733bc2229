import ApprovedOps.Proofs.Files.Placed

/-! # What writing a file changes

A file system is told by the files at its places and by the directories that were made in it. A file
that is written lies at the place of its path, and nothing else changes: the other places hold what
they held, no directory is made, and paths lead where they led. In a tree a directory also exists as
soon as a file lies under it, and that is the only way in which one appears.
-/

namespace ApprovedOps

/-- A file system that is told by its files and directories, each with its place. -/
class MappedFiles (σ : Type) [Files σ] extends PlacedFiles σ where
  /-- The bytes of the file at a place. -/
  fileAt? : σ → Place → Option (List UInt8)
  /-- The directories that were made. -/
  directories : σ → List Place
  /-- Is there a directory at a path because of a file at a place? -/
  Holds : Text → Place → Prop
  /-- A path leads to one place at most. -/
  leads_unique {fs : σ} {path : Text} {place place' : Place} :
    Leads fs path place → Leads fs path place' → place = place'
  /-- A path leads where it leads, whatever files there are. -/
  leads_iff {fs fs' : σ} {path : Text} {bytes : List UInt8} :
    Files.write fs path bytes = .ok fs' → ∀ q place, Leads fs' q place ↔ Leads fs q place
  /-- What is written lies at the place of its path, and all else as before. -/
  write_at {fs fs' : σ} {path : Text} {bytes : List UInt8} :
    Files.write fs path bytes = .ok fs' → ∃ place, Leads fs path place ∧
      fileAt? fs' place = some bytes ∧
      (∀ other, other ≠ place → fileAt? fs' other = fileAt? fs other) ∧
      directories fs' = directories fs
  /-- At a path that leads elsewhere the same is read. -/
  read_elsewhere {fs fs' : σ} {path q : Text} {bytes : List UInt8} :
    Files.write fs path bytes = .ok fs' → (∀ place, Leads fs path place → ¬Leads fs q place) →
    ∀ old, Files.read fs' q = .ok old ↔ Files.read fs q = .ok old
  /-- A directory is where it was, or where it holds the file. -/
  isDirectory_iff {fs fs' : σ} {path q : Text} {bytes : List UInt8} {place : Place} :
    Files.write fs path bytes = .ok fs' → Leads fs path place →
    (Files.isDirectory fs' q = true ↔ Files.isDirectory fs q = true ∨ Holds q place)

/-! ## Trees -/

namespace FileTree

theorem read_iff {t : FileTree} {path : Text} {bytes : List UInt8} :
    Files.read t path = .ok bytes ↔ Dictionary.get? (normal path) t.files = some bytes := by
  change t.read path = .ok bytes ↔ _
  rw [read, file?]
  cases Dictionary.get? (normal path) t.files <;> simp [failAt]

theorem isDirectory_keys (t : FileTree) (q : Text) :
    t.isDirectory q = (t.isMade q || (t.files.map Prod.fst).any (isUnder (normal q)) ||
      t.made.any (isUnder (normal q))) := by
  rw [isDirectory, List.any_map]
  rfl

/-- In a tree a directory appears above the files that lie under it. -/
theorem isDirectory_insert (t : FileTree) (key q : Text) (bytes : List UInt8) :
    isDirectory { t with files := Dictionary.insert key bytes t.files } q = true ↔
      t.isDirectory q = true ∨ isUnder (normal q) key = true := by
  have made : isMade { t with files := Dictionary.insert key bytes t.files } q = t.isMade q := rfl
  rw [isDirectory_keys, isDirectory_keys, made, Dictionary.keys_insert]
  split
  next there =>
    simp only [Bool.or_eq_true, List.any_eq_true]
    refine ⟨Or.inl, fun h => h.elim id fun under => ?_⟩
    exact .inl (.inr ⟨key, there, under⟩)
  next =>
    simp only [List.any_append, List.any_cons, List.any_nil, Bool.or_false, Bool.or_eq_true]
    rw [← or_assoc, or_right_comm]

end FileTree

instance : MappedFiles FileTree where
  fileAt? t place := Dictionary.get? place t.files
  directories := FileTree.made
  Holds q place := FileTree.isUnder (FileTree.normal q) place = true
  leads_unique leads leads' := leads.symm.trans leads'
  leads_iff _ _ _ := Iff.rfl
  write_at {t t' path bytes} h := by
    obtain rfl := FileTree.write_eq h
    refine ⟨_, rfl, ?_, fun other apart => ?_, rfl⟩
    · rw [Dictionary.get?_insert, if_pos rfl]
    · rw [Dictionary.get?_insert, if_neg (Ne.symm apart)]
  read_elsewhere {t t' path q bytes} h apart old := by
    obtain rfl := FileTree.write_eq h
    have differ : FileTree.normal path ≠ FileTree.normal q := fun same => apart _ rfl same.symm
    rw [FileTree.read_iff, FileTree.read_iff, Dictionary.get?_insert, if_neg differ]
  isDirectory_iff {t t' path q bytes place} h leads := by
    obtain rfl := FileTree.write_eq h
    obtain rfl : FileTree.normal path = place := leads
    exact FileTree.isDirectory_insert t _ q bytes

/-! ## Disks -/

namespace Disk

theorem locate_files_iff (d : Disk) (files : List (List Text × List UInt8)) (path : Text)
    (place : List Text) : { d with files }.locate path = .ok place ↔ d.locate path = .ok place :=
  ⟨fun h => locate_files { d with files } d.files h, fun h => locate_files d files h⟩

theorem isDirectory_iff (d : Disk) (path : Text) :
    d.isDirectory path = true ↔
      ∃ place, d.locate path = .ok place ∧ d.isDirectoryAt place = true := by
  rw [isDirectory]
  cases d.locate path <;> simp

theorem read_iff (d : Disk) (path : Text) (bytes : List UInt8) :
    d.read path = .ok bytes ↔ ∃ place, d.locate path = .ok place ∧
      ¬d.isDirectoryAt place = true ∧ d.fileAt? place = some bytes := by
  rw [read]
  cases d.locate path with
  | error problem => simp [failAt]
  | ok place =>
      simp only [Except.ok.injEq, exists_eq_left']
      split
      next taken => simp [taken, failAt]
      next free => cases d.fileAt? place <;> simp [free, failAt]

end Disk

instance : MappedFiles Disk where
  fileAt? := Disk.fileAt?
  directories := Disk.directories
  Holds _ _ := False
  leads_unique leads leads' := Except.ok.inj (leads.symm.trans leads')
  leads_iff h q place := by
    obtain ⟨_, -, rfl⟩ := Disk.write_eq h
    exact Disk.locate_files_iff _ _ _ place
  write_at {d d' path bytes} h := by
    obtain ⟨place, located, rfl⟩ := Disk.write_eq h
    refine ⟨place, located, ?_, fun other apart => ?_, rfl⟩
    · rw [Disk.fileAt?_put, if_pos rfl]
    · rw [Disk.fileAt?_put, if_neg (Ne.symm apart)]
  read_elsewhere {d d' path q bytes} h apart old := by
    obtain ⟨place, located, rfl⟩ := Disk.write_eq h
    change Disk.read _ (d.address q) = .ok old ↔ d.read (d.address q) = .ok old
    rw [Disk.read_iff, Disk.read_iff]
    refine exists_congr fun place' => ?_
    rw [Disk.locate_files_iff]
    refine and_congr_right fun located' => ?_
    have differ : place ≠ place' := fun same => apart place located (same ▸ located')
    rw [Disk.fileAt?_put, if_neg differ]
    rfl
  isDirectory_iff {d d' path q bytes place} h leads := by
    obtain ⟨_, -, rfl⟩ := Disk.write_eq h
    change Disk.isDirectory _ (d.address q) = true ↔ d.isDirectory (d.address q) = true ∨ False
    rw [Disk.isDirectory_iff, Disk.isDirectory_iff, or_false]
    refine exists_congr fun place' => ?_
    rw [Disk.locate_files_iff]
    rfl

end ApprovedOps
