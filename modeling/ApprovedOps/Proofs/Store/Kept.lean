import ApprovedOps.Proofs.Store.Listed

/-! # What was written is read

A file that was written is read as it was written, and stays so when files with other names are
written. This is because a path leads to a place with the name that the path ends in, in a tree of
files and on a disk.
-/

namespace ApprovedOps

open FileName (base)

/-- Does the path end in a name behind a slash? -/
structure Path.Names (path : Text) : Prop where
  slash : .char '/' ∈ path
  proper : ∃ c ∈ base path, c ≠ .char '.'

theorem Path.Names.some_ {path : Text} (names : Path.Names path) : base path ≠ [] := by
  obtain ⟨c, among, -⟩ := names.proper
  exact List.ne_nil_of_mem among

/-- A file system in which a file stays until another one of its name is written. -/
class KeptFiles (σ : Type) [Files σ] : Prop where
  /-- What was written is read. -/
  read_written {fs fs' : σ} {path : Text} {bytes : List UInt8} :
    Files.write fs path bytes = .ok fs' → Files.read fs' path = .ok bytes
  /-- A file is read as before when one with another name was written. -/
  read_other {fs fs' : σ} {path other : Text} {bytes new : List UInt8} :
    Path.Names path → Path.Names other → base other ≠ base path →
    Files.write fs other new = .ok fs' → Files.read fs path = .ok bytes →
    Files.read fs' path = .ok bytes

/-! ## The last name of a path -/

namespace FileName

variable {front t : Text}

theorem base_slash (h : .char '/' ∈ t) : ∃ dir, t = dir ++ .char '/' :: base t ∧ .char '/' ∉ base t := by
  obtain ⟨dir, file, split, slashless⟩ := splitLast?_mem h
  have last : base t = file := by rw [split, base_append slashless]
  exact ⟨dir, last ▸ split, last ▸ slashless⟩

/-- What stands in front of a path does not matter, if it is closed by a slash or there is a slash
    behind it. -/
theorem base_behind (h : front = [] ∨ front.getLast? = some (.char '/') ∨ .char '/' ∈ t) :
    base (front ++ t) = base t := by
  by_cases slash : .char '/' ∈ t
  · obtain ⟨dir, split, slashless⟩ := base_slash slash
    have whole : front ++ t = (front ++ dir) ++ .char '/' :: base t := by
      rw [List.append_assoc, ← split]
    rw [whole, base_append slashless]
  · have alone : base t = t := by rw [base, splitLast?_none slash]
    obtain rfl | closed | inside := h
    · rfl
    · obtain ⟨dir, rfl⟩ := List.getLast?_eq_some_iff.mp closed
      rw [List.append_assoc, List.singleton_append, base_append slash, alone]
    · exact absurd inside slash

/-- A path that ends in a name does not end in a slash. -/
theorem withoutSlashes_base (some_ : base t ≠ []) : Path.withoutSlashes t = t := by
  by_cases slash : .char '/' ∈ t
  · obtain ⟨dir, split, slashless⟩ := base_slash slash
    refine FileTree.withoutSlashes_eq (c := (base t).getLast some_) ?_ fun same =>
      slashless (same ▸ List.getLast_mem some_)
    conv_lhs => rw [split]
    rw [List.getLast?_append_of_ne_nil _ (by simp), List.getLast?_cons_of_ne_nil some_,
      List.getLast?_eq_getLast_of_ne_nil some_]
  · have alone : base t = t := by rw [base, splitLast?_none slash]
    rw [alone] at some_
    exact FileTree.withoutSlashes_eq (List.getLast?_eq_getLast_of_ne_nil some_) fun same =>
      slash (same ▸ List.getLast_mem some_)

theorem base_dropPrefix {path start p : Text} (dropped : Text.dropPrefix? path start = some p)
    (closed : start.getLast? = some (.char '/') ∨ .char '/' ∈ p) : base p = base path := by
  rw [Text.dropPrefix?, List.isPrefixOf?_eq_some_iff_append_eq] at dropped
  rw [← dropped, base_behind (.inr closed)]

end FileName

/-! ## Trees -/

namespace FileTree

/-- A tree knows a path by its last name. -/
theorem base_normal {path : Text} (some_ : base path ≠ []) : base (normal path) = base path := by
  obtain ⟨p, given⟩ : ∃ p, (Text.dropPrefix? path "memory://").getD path = p := ⟨_, rfl⟩
  have same : base p = base path := by
    cases dropped : Text.dropPrefix? path "memory://" with
    | none => rw [← given, dropped, Option.getD_none]
    | some q =>
        rw [← given, dropped, Option.getD_some]
        exact FileName.base_dropPrefix dropped (.inl (by decide))
  rw [← same] at some_ ⊢
  rw [normal, given]
  dsimp only
  split
  next => rw [FileName.withoutSlashes_base some_]
  next =>
    have skipped : base (p.dropWhile (· = .char '/')) = base p := by
      have whole := List.takeWhile_append_dropWhile (p := (· = .char '/')) (l := p)
      conv_rhs => rw [← whole]
      refine (FileName.base_behind ?_).symm
      cases last : (p.takeWhile (· = .char '/')).getLast? with
      | none => exact .inl (List.getLast?_eq_none_iff.mp last)
      | some c =>
          have slash := List.mem_takeWhile_imp (List.mem_of_getLast? last)
          exact .inr (.inl (by rw [of_decide_eq_true slash]))
    rw [FileName.withoutSlashes_base (by rwa [skipped])]
    split
    next none_ =>
      rw [none_] at skipped
      exact absurd skipped.symm some_
    next =>
      rw [← skipped]
      exact @FileName.base_behind [.char '/'] _ (.inr (.inl rfl))

end FileTree

instance : KeptFiles FileTree where
  read_written {t t' path bytes} h := by
    obtain rfl := FileTree.write_eq h
    change FileTree.read _ path = .ok bytes
    rw [FileTree.read, FileTree.file?, Dictionary.get?_insert, if_pos rfl]
  read_other {t t' path other bytes new} names names' apart h read := by
    obtain rfl := FileTree.write_eq h
    have differ : FileTree.normal other ≠ FileTree.normal path := by
      intro same
      have last := congrArg base same
      rw [FileTree.base_normal names.some_, FileTree.base_normal names'.some_] at last
      exact apart last
    change FileTree.read t path = .ok bytes at read
    change FileTree.read _ path = .ok bytes
    rwa [FileTree.read, FileTree.file?, Dictionary.get?_insert, if_neg differ]

/-! ## Disks -/

namespace Disk

theorem base_withoutProtocol {path : Text} (slash : .char '/' ∈ path) :
    base (withoutProtocol path) = base path := by
  rw [withoutProtocol]
  cases found : List.findSome? (Text.dropPrefix? path) ["file://", "file:", "local://", "local:"] with
  | none => rfl
  | some p =>
      rw [Option.getD_some]
      obtain ⟨start, among, dropped⟩ := List.exists_of_findSome?_eq_some found
      -- Either the protocol ends in slashes, or it has none and the slash is behind it.
      have closed : start.getLast? = some (.char '/') ∨ .char '/' ∉ start := by
        revert among
        clear dropped
        revert start
        decide
      refine FileName.base_dropPrefix dropped (closed.imp_right fun open_ => ?_)
      rw [Text.dropPrefix?, List.isPrefixOf?_eq_some_iff_append_eq] at dropped
      rw [← dropped] at slash
      exact (List.mem_append.mp slash).resolve_left open_

theorem base_address (d : Disk) {path : Text} (slash : .char '/' ∈ path) (some_ : base path ≠ []) :
    base (d.address path) = base path ∧ .char '/' ∈ d.address path := by
  have whole (here : Text) :
      let p := withoutProtocol path
      let whole := if Text.startsWith p [.char '/'] then p
        else here ++ .char '/' :: (Text.dropPrefix? p "./").getD p
      base whole = base path ∧ .char '/' ∈ whole := by
    intro p whole
    have inner : base p = base path := base_withoutProtocol slash
    unfold whole
    split
    next absolute => exact ⟨inner, (Text.startsWith_iff.mp absolute).mem List.mem_cons_self⟩
    next =>
      refine ⟨?_, by simp⟩
      rw [List.append_cons, FileName.base_behind (.inr (.inl (by simp)))]
      cases dropped : Text.dropPrefix? p "./" with
      | none => exact inner
      | some q => exact (FileName.base_dropPrefix dropped (.inl (by decide))).trans inner
  obtain ⟨last, there⟩ := whole (Text.join [] (d.working.map (.char '/' :: ·)))
  rw [← last] at some_
  simp only [address, FileName.withoutSlashes_base some_, if_neg (List.ne_nil_of_mem there)]
  exact ⟨last, there⟩

/-- A path leads to a place of its last name. -/
theorem locate_base {d : Disk} {path : Text} {place : List Text} (slash : .char '/' ∈ path)
    (proper : ∃ c ∈ base path, c ≠ .char '.') (h : d.locate path = .ok place) :
    place.getLast? = some (base path) := by
  obtain ⟨dir, split, slashless⟩ := FileName.base_slash slash
  have names : Text.splitOn (.char '/') path = Text.splitOn (.char '/') dir ++ [base path] := by
    conv_lhs => rw [split]
    exact Text.splitOn_last dir slashless
  simp only [locate, if_neg (List.ne_nil_of_mem slash), names] at h
  obtain ⟨up, -, -, rfl⟩ := follow_last proper h
  simp

theorem leads_base {d : Disk} {path : Text} {place : List Text} (names : Path.Names path)
    (h : d.locate (d.address path) = .ok place) : place.getLast? = some (base path) := by
  obtain ⟨last, slash⟩ := base_address d names.slash names.some_
  rw [← last]
  exact locate_base slash (last.symm ▸ names.proper) h

end Disk

instance : KeptFiles Disk where
  read_written {d d' path bytes} h := by
    have there := (Disk.write_read h).2
    obtain ⟨place, -, rfl⟩ := Disk.write_eq h
    exact there
  read_other {d d' path other bytes new} names names' apart h read := by
    obtain ⟨place, located, rfl⟩ := Disk.write_eq h
    change d.read (d.address path) = .ok bytes at read
    change Disk.read _ (d.address path) = .ok bytes
    rw [Disk.read] at read
    split at read
    next => cases read
    next place' located' =>
      have differ : place ≠ place' := by
        rintro rfl
        exact apart (Option.some.inj
          ((Disk.leads_base names' located).symm.trans (Disk.leads_base names located')))
      have kept := Disk.fileAt?_put d place place' new
      rw [if_neg differ] at kept
      rw [Disk.read, Disk.locate_files d _ located']
      simp only [kept]
      exact read

end ApprovedOps
