import ApprovedOps.Proofs.Store.Kept
import ApprovedOps.Proofs.Store.Resubmitted
import ApprovedOps.Proofs.Store.Written

/-! # A record that was saved

If saving a record ends without a failure, the record is named and cleaned, its own file and those of
its fragments were written one after the other, and each file is read as it was written; of
fragments of the same name that is the last one. The files lie directly in their directories just
when the namespace leads into them.
-/

namespace ApprovedOps

open FileName (base compose space Tail)
open ApprovedOps.Path (IsChild LeadsInto)

/-! ## Last names -/

namespace Path

theorem base_join (dir file : Text) : base (join dir file) = base file := by
  rw [join]
  split
  · rfl
  · split
    next closed =>
      refine FileName.base_behind (closed.imp_right fun ends => .inl ?_)
      obtain ⟨front, rfl⟩ := Text.endsWith_iff.mp ends
      simp
    next =>
      rw [List.append_cons]
      exact FileName.base_behind (.inr (.inl (by simp)))

end Path

namespace FileName

theorem base_compose {ns name ext : Text} (tail : Tail (name ++ ext)) :
    base (compose ns name ext) = base (space ns) ++ (name ++ ext) := by
  rw [compose_space]
  by_cases slash : .char '/' ∈ space ns
  · obtain ⟨dir, split, slashless⟩ := base_slash slash
    conv_lhs => rw [split]
    rw [List.append_assoc, List.cons_append]
    exact base_append (by simp [slashless, tail.slash])
  · have alone : base (space ns) = space ns := by rw [base, splitLast?_none slash]
    rw [alone, base, splitLast?_none (by simp [slash, tail.slash])]

end FileName

namespace Shelf

variable {s : Shelf} {ns name : Text}

/-- The file of a namespace in a directory of the store ends in a name. -/
theorem names_compose (root : Text) {word ext : Text} (h : word.isName = true)
    (named : name.isName = true) (tail : Tail (name ++ ext)) :
    ApprovedOps.Path.Names (Path.join (Path.join root word) (compose ns name ext)) := by
  constructor
  · by_cases absolute : (compose ns name ext).head? = some (.char '/')
    · obtain ⟨r, begins⟩ := List.head?_eq_some_iff.mp absolute
      rw [Path.join, if_pos (Text.startsWith_iff.mpr ⟨r, begins.symm⟩), begins]
      exact List.mem_cons_self
    · rw [directory_join root h absolute]
      simp
  · obtain ⟨c, r, rfl⟩ := List.exists_cons_of_ne_nil (Text.isName_ne_nil named)
    rw [Path.base_join, FileName.base_compose tail]
    refine ⟨c, by simp, ?_⟩
    rintro rfl
    exact Text.isName_notMem named (c := .char '.') rfl List.mem_cons_self

theorem tail_fragment (named : name.isName = true) : Tail (name ++ []) :=
  FileName.tail_name [] named nofun nofun

theorem tail_record (named : name.isName = true) : Tail (name ++ Record.fileExtension) :=
  FileName.tail_name _ named (by decide) (by decide)

theorem base_fragmentPath (named : name.isName = true) :
    FileName.base (s.fragmentPath ns name) = FileName.base (space ns) ++ name := by
  rw [fragmentPath, Path.base_join, FileName.base_compose (tail_fragment named), List.append_nil]

theorem base_recordPath {r : Record} (named : r.name.isName = true) :
    FileName.base (s.recordPath r) =
      FileName.base (space r.ns) ++ (r.name ++ Record.fileExtension) := by
  rw [recordPath, Path.base_join, Record.fileName, FileName.base_compose (tail_record named)]

/-- Records have an extension, and no name of a fragment has a dot. -/
theorem base_ne {r : Record} (named : r.name.isName = true) (fragment : name.isName = true) :
    FileName.base (s.fragmentPath r.ns name) ≠ FileName.base (s.recordPath r) := by
  rw [base_fragmentPath fragment, base_recordPath named]
  intro same
  have dotless : .char '.' ∉ name := Text.isName_notMem fragment rfl
  rw [List.append_cancel_left same] at dotless
  exact dotless (List.mem_append_right _ (by decide))

theorem names_files {r : Record} (named : r.name.isName = true)
    (fragments : ∀ f ∈ r.fragments, f.name.isName = true) :
    ∀ f ∈ r.files s, ApprovedOps.Path.Names f.path := by
  intro f among
  obtain rfl | among := List.mem_cons.mp among
  · exact names_compose s.root queries_isName named (tail_record named)
  · obtain ⟨g, member, rfl⟩ := List.mem_map.mp among
    have named := fragments g member
    exact names_compose s.root fragments_isName named (tail_fragment named)

end Shelf

/-! ## Written files -/

/-- Is it the planned file, with the bytes of its text? -/
def PlannedFile.WrittenAs (f : PlannedFile) (w : Text × List UInt8) : Prop :=
  f.path = w.1 ∧ Utf8.encode? f.text = some w.2

section

variable {σ : Type} [Files σ] {s : Shelf} {broken : List Text} {fs fs' : σ} {f : PlannedFile}
  {files front back : List PlannedFile}

/-- If no write failed, all files were written. -/
theorem Files.writeAll_ok (written : Files.writeAll broken fs files = (fs', none)) :
    ∃ ws, List.Forall₂ PlannedFile.WrittenAs files ws ∧ Files.writeEach fs ws = .ok fs' := by
  induction files generalizing fs with
  | nil =>
      cases written
      exact ⟨[], .nil, rfl⟩
  | cons f files ih =>
      obtain ⟨bytes, fs₁, -, encoded, first, rest⟩ := Files.writeAll_cons written
      obtain ⟨ws, each, later⟩ := ih rest
      refine ⟨(f.path, bytes) :: ws, .cons ⟨rfl, encoded⟩ each, ?_⟩
      rw [Files.writeEach, List.foldlM_cons, first]
      exact later

/-- A file is read as it was written, if those written later have other names. -/
theorem Files.writeAll_read [KeptFiles σ] (names : ∀ g ∈ f :: back, Path.Names g.path)
    (last : ∀ g ∈ back, base g.path ≠ base f.path)
    (written : Files.writeAll broken fs (front ++ f :: back) = (fs', none)) :
    ∃ bytes, Utf8.encode? f.text = some bytes ∧ Files.read fs' f.path = .ok bytes := by
  induction front generalizing fs with
  | nil =>
      obtain ⟨bytes, fs₁, -, encoded, first, rest⟩ := Files.writeAll_cons written
      obtain ⟨own, others⟩ := List.forall_mem_cons.mp names
      refine ⟨bytes, encoded, ?_⟩
      refine Files.writeAll_keeps (P := (Files.read · f.path = .ok bytes)) ?_ rest
        (KeptFiles.read_written first)
      exact fun g among _ _ _ write read =>
        KeptFiles.read_other own (others g among) (last g among) write read
  | cons g front ih =>
      obtain ⟨_, _, -, -, -, rest⟩ := Files.writeAll_cons written
      exact ih rest

/-- Was the record saved whole? Its files were written in order, and each is read as it was written,
    unless a later fragment has the same name. They lie directly in their directories just when the
    namespace leads there. -/
structure Shelf.Saved (s : Shelf) (fs fs' : σ) (r : Record) : Prop where
  /-- All files were written. -/
  written : ∃ ws, List.Forall₂ PlannedFile.WrittenAs (r.files s) ws ∧
    Files.writeEach fs ws = .ok fs'
  /-- The record is read as it was written. -/
  record : ∃ bytes, Utf8.encode? r.yaml = some bytes ∧
    Files.read fs' (s.recordPath r) = .ok bytes
  /-- So is the last fragment of each name. -/
  fragment : ∀ front f back, r.fragments = front ++ f :: back → (∀ g ∈ back, g.name ≠ f.name) →
    ∃ bytes, Utf8.encode? f.value = some bytes ∧
      Files.read fs' (s.fragmentPath r.ns f.name) = .ok bytes
  /-- The namespace decides whether the record lies in the directory of records. -/
  inQueries : IsChild s.queries (s.recordPath r) ↔ LeadsInto s.queries r.ns
  /-- The namespace decides whether the fragments lie in the directory of fragments. -/
  inFragments : ∀ f ∈ r.fragments,
    IsChild s.fragments (s.fragmentPath r.ns f.name) ↔ LeadsInto s.fragments r.ns

section

variable [KeptFiles σ] {r : Record} (named : r.name.isName = true)
  (fragments : ∀ f ∈ r.fragments, f.name.isName = true)
  (written : Files.writeAll broken fs (r.files s) = (fs', none))

include named fragments written

theorem Record.read_saved : ∃ bytes, Utf8.encode? r.yaml = some bytes ∧
    Files.read fs' (s.recordPath r) = .ok bytes := by
  rw [← List.nil_append (r.files s)] at written
  refine Files.writeAll_read (f := ⟨s.recordPath r, r.yaml⟩) (Shelf.names_files named fragments) ?_
    written
  intro g among
  obtain ⟨f, member, rfl⟩ := List.mem_map.mp among
  exact Shelf.base_ne named (fragments f member)

theorem Record.read_fragment {front back : List Fragment} {f : Fragment}
    (split : r.fragments = front ++ f :: back) (last : ∀ g ∈ back, g.name ≠ f.name) :
    ∃ bytes, Utf8.encode? f.value = some bytes ∧
      Files.read fs' (s.fragmentPath r.ns f.name) = .ok bytes := by
  let planned (f : Fragment) : PlannedFile := ⟨s.fragmentPath r.ns f.name, f.value⟩
  have order : r.files s =
      (⟨s.recordPath r, r.yaml⟩ :: front.map planned) ++ planned f :: back.map planned := by
    simp [Record.files, split, planned]
  have names := Shelf.names_files (s := s) named fragments
  rw [order] at written names
  refine Files.writeAll_read (f := planned f)
    (fun g among => names g (List.mem_append_right _ among)) ?_ written
  intro g among same
  obtain ⟨f', among', rfl⟩ := List.mem_map.mp among
  have member : f ∈ r.fragments := by simp [split]
  have member' : f' ∈ r.fragments := by simp [split, among']
  rw [Shelf.base_fragmentPath (fragments f' member'), Shelf.base_fragmentPath (fragments f member)]
    at same
  exact last f' among' (List.append_cancel_left same)

/-- To save a record without a failure is to save it whole. -/
theorem Record.saved_of_written : s.Saved fs fs' r where
  written := Files.writeAll_ok written
  record := Record.read_saved named fragments written
  fragment _ _ _ split last := Record.read_fragment named fragments written split last
  inQueries := Shelf.isChild_iff s.root Shelf.queries_isName (Shelf.tail_record named)
  inFragments f among :=
    Shelf.isChild_iff s.root Shelf.fragments_isName (Shelf.tail_fragment (fragments f among))

end

/-- What is saved without a failure of the draft of a submission is the record of the document. -/
theorem Submission.saved_whole [KeptFiles σ] {sub : Submission} {r : Record}
    (drafted : sub.draft = .ok r) (noError : (s.save broken fs r).2.error = none) :
    ∃ c, r.completed = .ok c ∧ (s.save broken fs r).2 = { record := c, path := s.recordPath c } ∧
      c.ns = sub.ns ∧
      (∃ p, Parts.ofText sub.document = .ok p ∧ c.query = p.query ∧ c.fragments = p.fragments) ∧
      s.Saved fs (s.save broken fs r).1 c := by
  obtain ⟨fs', ⟨c, place, error⟩, saved⟩ : ∃ fs' result, s.save broken fs r = (fs', result) :=
    ⟨_, _, rfl⟩
  rw [saved] at noError ⊢
  obtain ⟨named, name, clean, written, path⟩ := Shelf.save_ok saved noError
  obtain rfl : place = s.recordPath c := path
  obtain rfl : error = none := noError
  have completed : r.completed = .ok c := by
    rw [Record.completed, name]
    exact clean
  obtain ⟨ns, isName, fragments⟩ := Submission.completed_named drafted completed
  obtain ⟨p, cut, query, parts, -⟩ := Submission.draft_ok drafted
  obtain ⟨_, _, same, -⟩ := Record.completed_ok completed
  refine ⟨c, completed, rfl, ns, ⟨p, cut, ?_, ?_⟩, Record.saved_of_written isName fragments written⟩
  · rw [same, ← query]
  · rw [same, ← parts]

end

end ApprovedOps
