import Mathlib.Data.List.Induction
import ApprovedOps.Proofs.Store.AtRest
import ApprovedOps.Proofs.Store.Front
import ApprovedOps.Proofs.Store.Kept
import ApprovedOps.Proofs.Store.Rewritten

/-! # Setting a document again

A save that fails leaves some files behind. They are the first of those that are written when the
same document is set again, they are in nobody's way, and to write them once more changes nothing. So
whatever could not be written the first time, files and outcome are in the end those of setting the
document once.
-/

namespace ApprovedOps

open Files (Writes Writable)

/-- Are the two the same as soon as the file at a path is written? -/
def Files.AlikeBut {σ : Type} [Files σ] (path : Text) (fs fs' : σ) : Prop :=
  ∀ bytes after after', Files.write fs path bytes = .ok after →
    Files.write fs' path bytes = .ok after' → after = after'

open Files (AlikeBut)

/-- A file system in which the files of a namespace can be written once more. -/
class Repeatable (σ : Type) [Files σ] : Prop extends Rewritable σ, KeptFiles σ where
  /-- Where a file of a namespace can be written, it still can when another one was. -/
  stays {fs fs' : σ} {s : Shelf} {ns path other : Text} {bytes : List UInt8} :
    s.IsFile ns path → s.IsFile ns other → Files.write fs other bytes = .ok fs' →
    Writable fs path → Writable fs' path
  /-- Where there is a file, there is still one when another one was written. -/
  there {fs fs' : σ} {path other : Text} {old bytes : List UInt8} :
    Files.read fs path = .ok old → Files.write fs other bytes = .ok fs' →
    ∃ new, Files.read fs' path = .ok new
  /-- A file that is written anew is lost. -/
  anew {fs fs' : σ} {path : Text} {bytes : List UInt8} :
    Files.write fs path bytes = .ok fs' → AlikeBut path fs' fs
  /-- What a file is makes no difference to writing another one that is there. -/
  beside {fs₁ fs₂ fs₁' fs₂' : σ} {path other : Text} {old bytes : List UInt8} :
    Writable fs₁ path → Writable fs₂ path → AlikeBut path fs₁ fs₂ →
    Files.read fs₁ other = .ok old → Files.write fs₁ other bytes = .ok fs₁' →
    Files.write fs₂ other bytes = .ok fs₂' → AlikeBut path fs₁' fs₂'

/-! ## Trees -/

instance : Repeatable FileTree where
  stays := FileTree.stays_writable
  there {t t' path other old bytes} read written := by
    obtain rfl := FileTree.write_eq written
    simp only [FileTree.read_iff, Dictionary.get?_insert] at read ⊢
    split
    · exact ⟨bytes, rfl⟩
    · exact ⟨old, read⟩
  anew written new after after' h h' := by
    obtain rfl := FileTree.write_eq written
    rw [FileTree.write_eq h, FileTree.write_eq h', Dictionary.insert_insert]
  beside {t₁ t₂ _ _ path other old bytes} writable₁ writable₂ alike read written₁ written₂ := by
    obtain rfl := FileTree.write_eq written₁
    obtain rfl := FileTree.write_eq written₂
    intro new after after' h h'
    obtain ⟨u₁, new₁⟩ := writable₁ new
    obtain ⟨u₂, new₂⟩ := writable₂ new
    have same := alike new u₁ u₂ new₁ new₂
    rw [FileTree.write_eq new₁, FileTree.write_eq new₂, FileTree.mk.injEq] at same
    have there := List.mem_map_of_mem (f := Prod.fst)
      (Dictionary.mem_of_get? (FileTree.read_iff.mp read))
    rw [FileTree.write_eq h, FileTree.write_eq h', FileTree.mk.injEq]
    exact ⟨Dictionary.insert_beside same.1 there, same.2⟩

/-! ## Disks -/

namespace Disk

theorem put_beside {place place' : List Text} {bytes : List UInt8}
    {files files' : List (List Text × List UInt8)}
    (others : files.filter (·.1 ≠ place) = files'.filter (·.1 ≠ place)) :
    (files.filter (·.1 ≠ place') ++ [(place', bytes)]).filter (·.1 ≠ place) =
      (files'.filter (·.1 ≠ place') ++ [(place', bytes)]).filter (·.1 ≠ place) := by
  rw [List.filter_append, List.filter_append, List.filter_comm, others, List.filter_comm]

/-- Disks that are alike but for a file have the same files elsewhere. -/
theorem alike_files {d d' : Disk} {path : Text} (writable : Writable d path)
    (writable' : Writable d' path) (alike : AlikeBut path d d') :
    ∃ place files, d' = { d with files } ∧ d.locate (d.address path) = .ok place ∧
      d.files.filter (·.1 ≠ place) = files.filter (·.1 ≠ place) := by
  obtain ⟨u, written⟩ := writable []
  obtain ⟨u', written'⟩ := writable' []
  have same := alike [] u u' written written'
  obtain ⟨place, located, rfl⟩ := write_eq written
  obtain ⟨place', located', rfl⟩ := write_eq written'
  obtain ⟨files, directories, working⟩ := d
  obtain ⟨files', directories', working'⟩ := d'
  rw [Disk.mk.injEq] at same
  obtain ⟨same, rfl, rfl⟩ := same
  obtain ⟨others, last⟩ := List.append_inj' same rfl
  cases last
  exact ⟨place, files', rfl, located, others⟩

end Disk

instance : Repeatable Disk where
  stays _ _ := Disk.stays_writable
  there {d d' path other old bytes} read written := by
    obtain ⟨place, -, rfl⟩ := Disk.write_eq written
    obtain ⟨place', located, free, found⟩ := (Disk.read_iff _ _ _).mp read
    have put := Disk.fileAt?_put d place place' bytes
    refine ⟨if place = place' then bytes else old, (Disk.read_iff _ _ _).mpr ⟨place', ?_, free, ?_⟩⟩
    · exact (Disk.locate_files_iff _ _ _ _).mpr located
    · rw [put, found]
      split <;> rfl
  anew {d d' path bytes} written new after after' h h' := by
    obtain ⟨place, located, rfl⟩ := Disk.write_eq written
    obtain ⟨place₁, located₁, rfl⟩ := Disk.write_eq h
    obtain ⟨place₂, located₂, rfl⟩ := Disk.write_eq h'
    cases located.symm.trans ((Disk.locate_files_iff _ _ _ _).mp located₁)
    cases located.symm.trans located₂
    simp [List.filter_append, List.filter_filter]
  beside {d₁ d₂ _ _ path other old bytes} writable₁ writable₂ alike read written₁ written₂ := by
    intro new after after' h h'
    obtain ⟨place, files, rfl, located, others⟩ := Disk.alike_files writable₁ writable₂ alike
    obtain ⟨q₁, there₁, rfl⟩ := Disk.write_eq written₁
    obtain ⟨q₂, there₂, rfl⟩ := Disk.write_eq written₂
    obtain ⟨p₁, again₁, rfl⟩ := Disk.write_eq h
    obtain ⟨p₂, again₂, rfl⟩ := Disk.write_eq h'
    have anywhere := Disk.locate_files_iff d₁
    cases there₁.symm.trans ((anywhere _ _ _).mp there₂)
    cases located.symm.trans ((anywhere _ _ _).mp again₁)
    cases located.symm.trans ((anywhere _ _ _).mp again₂)
    simp only [Disk.put_beside others]

/-! ## Writing again -/

section

variable {σ : Type} [Files σ] {s : Shelf} {ns : Text} {broken fewer : List Text} {fs fs' : σ}
  {files : List PlannedFile}

/-- Is there a file at the path that can be written anew? -/
structure Files.Standing (fs : σ) (path : Text) : Prop where
  writable : Writable fs path
  there : ∃ old, Files.read fs path = .ok old

variable [Repeatable σ]

theorem Files.Standing.stays {path other : Text} {bytes : List UInt8} (standing : Standing fs path)
    (file : s.IsFile ns path) (file' : s.IsFile ns other)
    (written : Files.write fs other bytes = .ok fs') : Standing fs' path := by
  obtain ⟨writable, old, read⟩ := standing
  exact ⟨Repeatable.stays file file' written writable, Repeatable.there read written⟩

/-- A file of the namespace stays where it is when others are written. -/
theorem Files.Writes.keeps {path : Text} (written : Writes broken fs files fs')
    (own : ∀ f ∈ files, s.IsFile ns f.path) (file : s.IsFile ns path)
    (standing : Standing fs path) : Standing fs' path := by
  induction written with
  | nil => exact standing
  | cons _ _ written _ ih =>
      obtain ⟨first, later⟩ := List.forall_mem_cons.mp own
      exact ih later (standing.stays file first written)

/-- The files that were written are there. -/
theorem Files.Writes.standing (written : Writes broken fs files fs')
    (own : ∀ f ∈ files, s.IsFile ns f.path) : ∀ f ∈ files, Standing fs' f.path := by
  induction written with
  | nil => exact List.forall_mem_nil _
  | cons _ _ written rest ih =>
      obtain ⟨first, later⟩ := List.forall_mem_cons.mp own
      refine List.forall_mem_cons.mpr ⟨?_, ih later⟩
      have writable := Repeatable.stays first first written (Rewritable.writable written)
      exact rest.keeps later first ⟨writable, _, KeptFiles.read_written written⟩

/-- Files that are there are written in the same way, whatever another one is. -/
theorem Files.Writes.beside {path : Text} {fs₂ fs₂' : σ} (written : Writes broken fs₂ files fs₂')
    (own : ∀ f ∈ files, s.IsFile ns f.path) (standing : ∀ f ∈ files, Standing fs f.path)
    (file : s.IsFile ns path) (writable : Writable fs path) (writable₂ : Writable fs₂ path)
    (alike : AlikeBut path fs fs₂) :
    ∃ fs', Writes broken fs files fs' ∧ AlikeBut path fs' fs₂' := by
  induction written generalizing fs with
  | nil => exact ⟨fs, .nil fs, alike⟩
  | @cons _ _ _ f files bytes encoded whole written _ ih =>
      obtain ⟨first, later⟩ := List.forall_mem_cons.mp own
      obtain ⟨⟨open_, old, read⟩, others⟩ := List.forall_mem_cons.mp standing
      obtain ⟨fs₁, written₁⟩ := open_ bytes
      obtain ⟨fs', rest, alike'⟩ := ih later
        (fun g among => (others g among).stays (later g among) first written₁)
        (Repeatable.stays file first written₁ writable)
        (Repeatable.stays file first written writable₂)
        (Repeatable.beside writable writable₂ alike read written₁ written)
      exact ⟨fs', .cons encoded whole written₁ rest, alike'⟩

/-- Files that were written can be written once more, and that changes nothing. -/
theorem Files.Writes.again (written : Writes broken fs files fs')
    (own : ∀ f ∈ files, s.IsFile ns f.path) : Writes broken fs' files fs' := by
  -- The others change nothing where the last file was not written yet. Where it was, the files are
  -- alike but for it, and stay so until it is written again.
  induction files using List.reverseRecOn generalizing fs' with
  | nil =>
      cases written
      exact .nil fs
  | append_singleton files f ih =>
      obtain ⟨fs₁, before, last⟩ := written.split
      obtain _ | ⟨encoded, whole, last, ⟨⟩⟩ := last
      have own' : ∀ g ∈ files, s.IsFile ns g.path := fun g among =>
        own g (List.mem_append_left _ among)
      have file : s.IsFile ns f.path := own f (by simp)
      have writable := Rewritable.writable last
      have writable' := Repeatable.stays file file last writable
      have standing : ∀ g ∈ files, Standing fs' g.path := fun g among =>
        (before.standing own' g among).stays (own' g among) file last
      obtain ⟨fs₂, again, alike⟩ := (ih before own').beside own' standing file writable' writable
        (Repeatable.anew last)
      obtain ⟨still, -⟩ := again.keeps own' file ⟨writable', _, KeptFiles.read_written last⟩
      obtain ⟨after, once⟩ := still _
      have same : after = fs' := alike _ after fs' once last
      exact again.append (.cons encoded whole (same ▸ once) (.nil fs'))

/-- If files are written up to a failure, and then again where no more paths fail, they are written as
    if for the first time. -/
theorem Files.writeAll_retried (less : fewer ⊆ broken) (own : ∀ f ∈ files, s.IsFile ns f.path)
    (fs : σ) : writeAll fewer (writeAll broken fs files).1 files = writeAll fewer fs files := by
  obtain ⟨done, rest, rfl, written, -⟩ := writeAll_front broken fs files
  have first := written.mono less
  have again := first.again fun f among => own f (List.mem_append_left rest among)
  rw [again.writeAll, first.writeAll]

theorem Record.isFile {c : Record} (named : c.name.isName = true)
    (fragments : ∀ f ∈ c.fragments, f.name.isName = true) : ∀ f ∈ c.files s, s.IsFile c.ns f.path := by
  refine List.forall_mem_cons.mpr ⟨⟨c.name, named, .inl rfl⟩, fun f among => ?_⟩
  obtain ⟨g, fragment, rfl⟩ := List.mem_map.mp among
  exact ⟨g.name, fragments g fragment, .inr rfl⟩

/-- To save a record after a failure is the same as to save it for the first time. -/
theorem Shelf.save_retried {sub : Submission} {r : Record} (drafted : sub.draft = .ok r)
    (less : fewer ⊆ broken) (fs : σ) :
    s.save fewer (s.save broken fs r).1 r = s.save fewer fs r := by
  cases completed : r.completed with
  | error e => simp only [save_failed completed]
  | ok c =>
      obtain ⟨-, named, fragments⟩ := Submission.completed_named drafted completed
      simp only [save_completed completed,
        Files.writeAll_retried less (Record.isFile named fragments)]

end

namespace Store

/-- The store when these paths cannot be written. -/
def failing {σ : Type} (s : Store σ) (broken : List Text) : Store σ :=
  { s with machine := { s.machine with broken } }

theorem Machine.AtRest.failing {σ : Type} {s : Store σ} (rest : s.machine.AtRest)
    (broken : List Text) : (s.failing broken).machine.AtRest :=
  ⟨rest.entries, rest.room, rest.writer, rest.free, rest.unlocked, rest.opened, rest.calls⟩

/-- What comes of setting a document that is accepted. -/
theorem set_saves {σ : Type} [Files σ] {s : Store σ} {sub : Submission} {r : Record}
    (rest : s.machine.AtRest) (open_ : s.readOnly = false) (drafted : sub.draft = .ok r) :
    let saved := s.machine.shelf.save s.machine.broken s.machine.files r
    (s.set sub).2 = .ok (some .queued) ∧ (s.set sub).1.readOnly = false ∧
      (s.set sub).1.machine.AtRest ∧ (s.set sub).1.machine.shelf = s.machine.shelf ∧
      (s.set sub).1.machine.files = saved.1 ∧
      (s.set sub).1.machine.outcomes = s.machine.outcomes ++ [saved.2] := by
  intro saved
  obtain ⟨files, -, outcomes⟩ := s.machine.save_accepted r
  rw [set_drafted rest open_ drafted]
  refine ⟨rfl, open_, rest.save _ r, ?_, files, outcomes⟩
  rw [Machine.save_eq]
  rfl

/-- A document is refused, and nothing changes, or it is the draft of a record. -/
theorem set_refused_or_drafted {σ : Type} [Files σ] {s : Store σ} (rest : s.machine.AtRest)
    (sub : Submission) :
    (∃ e, ∀ broken, (s.failing broken).set sub = (s.failing broken, .error e)) ∨
      ∃ r, s.readOnly = false ∧ sub.draft = .ok r := by
  cases readOnly : s.readOnly with
  | true => exact .inl ⟨.readOnly, fun broken => set_readOnly readOnly⟩
  | false =>
      cases drafted : sub.draft with
      | error e => exact .inl ⟨e, fun broken => set_rejected (rest.failing broken) readOnly drafted⟩
      | ok r => exact .inr ⟨r, rfl, rfl⟩

/-- A document is set in a store that nobody is at work on, and set again after the save has ended,
    however far it came. If no path fails the second time that did not fail the first time, the
    answer, the files and the outcome are those of setting it once, the second time only. In
    particular, to set a document twice while the same paths fail, or none, is to set it once. -/
theorem set_retried {σ : Type} [Files σ] [Repeatable σ] {s : Store σ} (rest : s.machine.AtRest)
    {broken fewer : List Text} (less : fewer ⊆ broken) (sub : Submission) :
    let tried := ((s.failing broken).set sub).1.failing fewer
    let once := s.failing fewer
    (tried.set sub).2 = (once.set sub).2 ∧
      (tried.set sub).1.machine.files = (once.set sub).1.machine.files ∧
      ∃ results, (tried.set sub).1.machine.outcomes = tried.machine.outcomes ++ results ∧
        (once.set sub).1.machine.outcomes = once.machine.outcomes ++ results := by
  intro tried once
  obtain ⟨e, still⟩ | ⟨r, open_, drafted⟩ := set_refused_or_drafted rest sub
  · have same : tried = once := by
      unfold tried
      rw [still]
      rfl
    rw [same]
    exact ⟨rfl, rfl, [], by simp [once, still], by simp [once, still]⟩
  · obtain ⟨-, open', rest', shelf, files, -⟩ := set_saves (rest.failing broken) open_ drafted
    obtain ⟨answer, -, -, -, files₁, outcomes₁⟩ := set_saves (rest'.failing fewer) open' drafted
    obtain ⟨answer', -, -, -, files₂, outcomes₂⟩ := set_saves (rest.failing fewer) open_ drafted
    have same : tried.machine.shelf.save fewer tried.machine.files r =
        s.machine.shelf.save fewer s.machine.files r := by
      change ((s.failing broken).set sub).1.machine.shelf.save fewer
        ((s.failing broken).set sub).1.machine.files r = _
      rw [shelf, files]
      exact Shelf.save_retried drafted less s.machine.files
    refine ⟨answer.trans answer'.symm, ?_, _, outcomes₁, ?_⟩
    · exact files₁.trans ((congrArg Prod.fst same).trans files₂.symm)
    · exact outcomes₂.trans (congrArg (fun saved => once.machine.outcomes ++ [saved.2]) same.symm)

/-- The second fragment is written the second time. -/
theorem set_retried_of_fragment :
    let s := openAt ({} : FileTree) "/srv" false 0 .nobody []
    let sub : Submission :=
      { ns := "x", document := "query A { ...F ...G } fragment F on T { f } fragment G on T { g }" }
    let tried := ((s.failing ["/srv/fragments/x.G"]).set sub).1.failing []
    tried.machine.files.files.map (·.1) = ["/srv/queries/x.A.yaml", "/srv/fragments/x.F"] ∧
      (tried.set sub).1.machine.files.files.map (·.1) =
        ["/srv/queries/x.A.yaml", "/srv/fragments/x.F", "/srv/fragments/x.G"] ∧
      (tried.set sub).1.machine.files = ((s.failing []).set sub).1.machine.files := by
  intro s sub tried
  have rest := atRest_openAt ({} : FileTree) "/srv" false 0 .nobody []
  have less : ([] : List Text) ⊆ ["/srv/fragments/x.G"] := List.nil_subset _
  obtain ⟨-, files, -⟩ := set_retried rest less sub
  refine ⟨by decide +kernel, ?_, files⟩
  rw [files]
  decide +kernel

end Store

end ApprovedOps
