import ApprovedOps.Files.Disk
import ApprovedOps.Files.Tree
import ApprovedOps.Proofs.Dictionary

/-! # Where files lie

A path leads to a place, and a file lies at one. Writing puts a file at the place of its path and
leaves the other files alone, and directories that are made take no path away from its place. So it
is in a tree of files and on a disk.
-/

namespace ApprovedOps

/-- A file system whose files lie at places. -/
class PlacedFiles (σ : Type) [Files σ] where
  /-- The places. -/
  Place : Type
  /-- The files with their places. -/
  placed : σ → List (Place × List UInt8)
  /-- Does a path lead to a place? -/
  Leads : σ → Text → Place → Prop
  /-- What is read is a file that the path leads to. -/
  read {fs : σ} {path : Text} {bytes : List UInt8} : Files.read fs path = .ok bytes →
    ∃ place, Leads fs path place ∧ (place, bytes) ∈ placed fs
  /-- What is written is a file that the path leads to. -/
  write {fs fs' : σ} {path : Text} {bytes : List UInt8} : Files.write fs path bytes = .ok fs' →
    ∃ place, Leads fs' path place ∧ ∀ file ∈ placed fs', file = (place, bytes) ∨ file ∈ placed fs
  /-- Paths lead where they led before. -/
  leads_write {fs fs' : σ} {path : Text} {bytes : List UInt8} :
    Files.write fs path bytes = .ok fs' → ∀ q place, Leads fs q place → Leads fs' q place
  /-- To make a directory leaves the files alone. -/
  makeDirectory {fs fs' : σ} {path : Text} : Files.makeDirectory fs path = .ok fs' →
    placed fs' = placed fs

/-! ## Trees -/

namespace FileTree

theorem makeChain_files {t t' : FileTree} {paths : List Text} (h : t.makeChain paths = .ok t') :
    t'.files = t.files := by
  induction paths generalizing t' with
  | nil =>
      cases h
      rfl
  | cons path above ih =>
      rw [makeChain] at h
      split at h
      · cases h
        rfl
      · split at h
        · cases h
        · cases made : t.makeChain above with
          | error e => simp [made, bind, Except.bind] at h
          | ok t₁ =>
              simp only [made, bind, Except.bind, pure, Except.pure, Except.ok.injEq] at h
              have kept : t₁.files = t.files := ih made
              exact h ▸ kept

theorem write_eq {t t' : FileTree} {path : Text} {bytes : List UInt8}
    (h : t.write path bytes = .ok t') :
    t' = { t with files := Dictionary.insert (normal path) bytes t.files } := by
  rw [write] at h
  split at h
  · cases h
  · split at h <;> cases h
    rfl

end FileTree

instance : PlacedFiles FileTree where
  Place := Text
  placed := FileTree.files
  Leads _ path place := FileTree.normal path = place
  read {t path bytes} h := by
    change t.read path = .ok bytes at h
    rw [FileTree.read] at h
    split at h <;> cases h
    exact ⟨_, rfl, Dictionary.mem_of_get? ‹_›⟩
  write h := by
    obtain rfl := FileTree.write_eq h
    exact ⟨_, rfl, fun _ among => Dictionary.mem_insert among⟩
  leads_write _ _ _ leads := leads
  makeDirectory h := FileTree.makeChain_files h

/-! ## Disks -/

namespace Disk

theorem makeOne_files {d d' : Disk} {path : Text} (h : d.makeOne path = .ok d') :
    d'.files = d.files := by
  rw [makeOne] at h
  split at h
  · cases h
  · split at h <;> cases h
    rfl

theorem makeChain_files {d d' : Disk} {paths : List Text} (h : d.makeChain paths = .ok d') :
    d'.files = d.files := by
  induction paths generalizing d' with
  | nil =>
      cases h
      rfl
  | cons path above ih =>
      rw [makeChain] at h
      obtain ⟨d₁, before, last⟩ : ∃ d₁ : Disk, d₁.files = d.files ∧
          (d₁.makeOne path).tryCatch
            (fun e => if d₁.isDirectory path then .ok d₁ else .error e) = .ok d' := by
        split at h
        · refine ⟨d, rfl, h ▸ ?_⟩
          dsimp only [pure, Except.pure, bind, Except.bind]
          cases d.makeOne path <;> rfl
        · cases made : d.makeChain above with
          | ok d₁ =>
              rw [made] at h
              refine ⟨d₁, ih made, h ▸ ?_⟩
              dsimp only [bind, Except.bind]
              cases d₁.makeOne path <;> rfl
          | error e =>
              obtain ⟨problem, message⟩ := e
              rw [made] at h
              cases problem with
              | obstructed =>
                  refine ⟨d, rfl, h ▸ ?_⟩
                  dsimp only [pure, Except.pure, bind, Except.bind]
                  cases d.makeOne path <;> rfl
              | _ => cases h
      cases made : d₁.makeOne path with
      | ok d₂ =>
          rw [made] at last
          cases last
          exact (makeOne_files made).trans before
      | error e =>
          rw [made] at last
          change (if d₁.isDirectory path then Except.ok d₁ else .error e) = .ok d' at last
          split at last <;> cases last
          exact before

theorem write_eq {d d' : Disk} {path : Text} {bytes : List UInt8}
    (h : d.write path bytes = .ok d') :
    ∃ place, d.locate path = .ok place ∧
      d' = { d with files := d.files.filter (·.1 ≠ place) ++ [(place, bytes)] } := by
  rw [write] at h
  split at h
  · cases h
  next place located =>
    split at h <;> cases h
    exact ⟨place, located, rfl⟩

/-- Only why a path leads nowhere depends on the files. -/
theorem follow_files (d : Disk) (files : List (List Text × List UInt8)) {place place' : List Text}
    {names : List Text} (h : d.follow place names = .ok place') :
    { d with files }.follow place names = .ok place' := by
  induction names generalizing place with
  | nil => exact h
  | cons name names ih =>
      rw [follow] at h ⊢
      change (if d.isDirectoryAt place then _ else _) = _
      split at h
      next above =>
        rw [if_pos above]
        split at h
        · cases h
        next short =>
          rw [if_neg short]
          split at h
          next here =>
            rw [if_pos here]
            exact ih h
          next other =>
            rw [if_neg other]
            split at h
            next up =>
              rw [if_pos up]
              exact ih h
            next down =>
              rw [if_neg down]
              exact ih h
      next => split at h <;> cases h

theorem locate_files (d : Disk) (files : List (List Text × List UInt8)) {path : Text}
    {place : List Text} (h : d.locate path = .ok place) :
    { d with files }.locate path = .ok place := by
  by_cases empty : path = []
  · simp [locate, empty, throw, throwThe, MonadExceptOf.throw, bind, Except.bind] at h
  · simp only [locate, if_neg empty] at h ⊢
    exact follow_files d files h

theorem fileAt?_put (d : Disk) (place place' : List Text) (bytes : List UInt8) :
    fileAt? { d with files := d.files.filter (·.1 ≠ place) ++ [(place, bytes)] } place' =
      if place = place' then some bytes else d.fileAt? place' := by
  rw [fileAt?, fileAt?, List.find?_append, List.find?_filter]
  by_cases same : place = place'
  · subst same
    simp [List.find?_eq_none.mpr]
  · have others (f : List Text × List UInt8) :
        (!decide (f.1 = place) && decide (f.1 = place')) = decide (f.1 = place') := by
      by_cases here : f.1 = place' <;> simp [here, Ne.symm same]
    simp [others, same]

/-- What was written to a path of a disk is there, and is what is read. -/
theorem write_read {d d' : Disk} {path : Text} {bytes : List UInt8}
    (h : d.write path bytes = .ok d') : d'.exists? path = true ∧ d'.read path = .ok bytes := by
  rw [write] at h
  split at h
  · cases h
  next place located =>
    split at h <;> cases h
    next noDirectory =>
      have located' := locate_files d (d.files.filter (·.1 ≠ place) ++ [(place, bytes)]) located
      have there := fileAt?_put d place place bytes
      rw [if_pos rfl] at there
      constructor
      · rw [exists?, located']
        change (_ || (fileAt? _ place).isSome) = true
        rw [there, Option.isSome_some, Bool.or_true]
      · rw [read, located']
        simp only [there]
        exact if_neg noDirectory

end Disk

instance : PlacedFiles Disk where
  Place := List Text
  placed := Disk.files
  Leads d path place := d.locate (d.address path) = .ok place
  read {d path bytes} h := by
    change d.read (d.address path) = .ok bytes at h
    rw [Disk.read] at h
    split at h
    · cases h
    next place located =>
      split at h
      · cases h
      · split at h <;> cases h
        next found =>
          obtain ⟨⟨at_, bytes⟩, there, same⟩ := Option.map_eq_some_iff.mp found
          obtain rfl : at_ = place := by simpa using List.find?_some there
          cases same
          exact ⟨_, located, List.mem_of_find?_eq_some there⟩
  write {d d' path bytes} h := by
    obtain ⟨place, located, rfl⟩ := Disk.write_eq h
    refine ⟨place, Disk.locate_files d _ located, fun file among => ?_⟩
    obtain old | new := List.mem_append.mp among
    · exact .inr (List.mem_filter.mp old).1
    · exact .inl (List.mem_singleton.mp new)
  leads_write h _ _ leads := by
    obtain ⟨place, -, rfl⟩ := Disk.write_eq h
    exact Disk.locate_files _ _ leads
  makeDirectory h := Disk.makeChain_files h

end ApprovedOps
