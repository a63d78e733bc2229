import ApprovedOps.Proofs.Files.Mapped
import ApprovedOps.Proofs.Store.Contents

/-! # How far a save comes

A record whose operation and variables are accepted is saved by writing its files in order, as far
as one after the other can be written. What was written is the longest such part of the list; the
last file at each place is what lies there, and nothing else has changed. The outcome has the path of
the record if all files were written, and otherwise tells why the next one was not. In every other
case nothing is written.
-/

namespace ApprovedOps

namespace Files

/-! ## What is in the files that were written -/

section

variable {σ : Type} [Files σ] [MappedFiles σ]

open PlacedFiles (Leads)
open MappedFiles (fileAt? directories Holds)

/-- Are the files as they were, apart from some that were written over them in order? -/
structure Updated (fs fs' : σ) (files : List PlannedFile) : Prop where
  /-- Paths lead where they led. -/
  leads : ∀ q place, Leads fs' q place ↔ Leads fs q place
  /-- At a place lies the last file whose path leads there. -/
  last : ∀ front f back, files = front ++ f :: back → ∃ place bytes, Leads fs f.path place ∧
    Utf8.encode? f.text = some bytes ∧
    ((∀ g ∈ back, ¬Leads fs g.path place) → fileAt? fs' place = some bytes)
  /-- At other places lies what lay there. -/
  others : ∀ place, (∀ f ∈ files, ¬Leads fs f.path place) → fileAt? fs' place = fileAt? fs place
  /-- No directory was made. -/
  directories : directories fs' = directories fs
  /-- At paths that lead elsewhere the same is read. -/
  read : ∀ q, (∀ f ∈ files, ∀ place, Leads fs f.path place → ¬Leads fs q place) →
    ∀ old, Files.read fs' q = .ok old ↔ Files.read fs q = .ok old
  /-- A directory is where it was, or where it holds one of the files. -/
  isDirectory : ∀ q, Files.isDirectory fs' q = true ↔ Files.isDirectory fs q = true ∨
    ∃ f ∈ files, ∃ place, Leads fs f.path place ∧ Holds q place

variable {broken : List Text} {fs fs₁ fs' : σ} {f : PlannedFile} {files : List PlannedFile}

theorem Updated.nil (fs : σ) : Updated fs fs [] where
  leads _ _ := Iff.rfl
  last front f back split := by simp at split
  others _ _ := rfl
  directories := rfl
  read _ _ _ := Iff.rfl
  isDirectory q := by simp

theorem Updated.cons {bytes : List UInt8} (encoded : Utf8.encode? f.text = some bytes)
    (written : Files.write fs f.path bytes = .ok fs₁) (later : Updated fs₁ fs' files) :
    Updated fs fs' (f :: files) := by
  have same := MappedFiles.leads_iff written
  obtain ⟨place, leads, here, elsewhere, made⟩ := MappedFiles.write_at written
  refine ⟨fun q p => (later.leads q p).trans (same q p), ?_, ?_, later.directories.trans made, ?_, ?_⟩
  · intro front g back split
    cases front with
    | nil =>
        cases split
        refine ⟨place, bytes, leads, encoded, fun apart => ?_⟩
        rw [later.others place fun g among leads => apart g among ((same _ _).mp leads), here]
    | cons _ front =>
        obtain ⟨rfl, rfl⟩ := List.cons.inj split
        obtain ⟨place, bytes, leads, encoded, last⟩ := later.last front g back rfl
        refine ⟨place, bytes, (same _ _).mp leads, encoded, fun apart => last fun h among leads => ?_⟩
        exact apart h among ((same _ _).mp leads)
  · intro other apart
    obtain ⟨own, apart⟩ := List.forall_mem_cons.mp apart
    rw [later.others other fun g among leads => apart g among ((same _ _).mp leads)]
    refine elsewhere other fun at_ => own (at_ ▸ leads)
  · intro q apart old
    obtain ⟨own, apart⟩ := List.forall_mem_cons.mp apart
    refine (later.read q ?_ old).trans (MappedFiles.read_elsewhere written own old)
    intro g among place leads
    rw [same] at leads ⊢
    exact apart g among place leads
  · intro q
    have own : (∃ place, Leads fs f.path place ∧ Holds q place) ↔ Holds q place := by
      refine ⟨fun ⟨other, leads', holds⟩ => ?_, fun holds => ⟨place, leads, holds⟩⟩
      rwa [MappedFiles.leads_unique leads leads']
    simp only [later.isDirectory, MappedFiles.isDirectory_iff written leads, same,
      List.exists_mem_cons_iff, own, or_assoc]

theorem Writes.updated (written : Writes broken fs files fs') : Updated fs fs' files := by
  induction written with
  | nil fs => exact .nil fs
  | cons encoded _ written _ ih => exact .cons encoded written ih

end

end Files

open Files (Writes Refuses Leaves Updated writeAll_front)

/-! ## Saving -/

section

variable {σ : Type} [Files σ] {s : Shelf} {broken : List Text} {fs : σ} {r c : Record}

theorem Shelf.save_failed {e : SaveError} (failed : r.completed = .error e) :
    s.save broken fs r = (fs, { record := r.named.toOption.getD r, error := some e }) := by
  rw [save]
  rw [Record.completed] at failed
  cases name : r.named with
  | error e' =>
      rw [name] at failed
      cases failed
      rfl
  | ok named =>
      rw [name] at failed
      change named.cleaned = .error e at failed
      simp only [failed]
      rfl

theorem Shelf.save_completed (completed : r.completed = .ok c) :
    let written := Files.writeAll broken fs (c.files s)
    s.save broken fs r = (written.1, {
      record := c
      path := if written.2 = none then s.recordPath c else []
      error := written.2 }) := by
  obtain ⟨named, name, clean⟩ := except_bind_ok completed
  rw [save, name]
  simp only [clean]
  split
  next ends => rw [ends, if_pos rfl]
  next e ends => rw [ends, if_neg (Option.some_ne_none e)]

end

/-- Saving always ends, with some files and an outcome. If the operation or the variables are not
    accepted, or the record cannot be encoded, the files are as they were. Otherwise they are as they
    were but for the longest part of the record's files that can be written in order; the outcome has
    the path of the record just when those are all, and else the failure of the next one. -/
theorem save_front {σ : Type} [Files σ] [MappedFiles σ] (s : Shelf) (broken : List Text) (fs : σ)
    (r : Record) : ∃ fs' result, s.save broken fs r = (fs', result) ∧
      (∀ e, r.completed = .error e →
        fs' = fs ∧ result = { record := r.named.toOption.getD r, error := some e }) ∧
      ∀ c, r.completed = .ok c → result.record = c ∧
        (Utf8.encode? c.yaml = none → fs' = fs ∧ result.error = some .notEncodable) ∧
        ∃ done rest, c.files s = done ++ rest ∧ Writes broken fs done fs' ∧
          (∀ front fs₁, front <+: c.files s → Writes broken fs front fs₁ → front <+: done) ∧
          Updated fs fs' done ∧
          result.path = (if rest = [] then s.recordPath c else []) ∧
          (result.error = none ↔ rest = []) ∧
          ∀ e, result.error = some e ↔ ∃ f later, rest = f :: later ∧ Refuses broken fs' f e := by
  obtain ⟨fs', result, saved⟩ : ∃ fs' result, s.save broken fs r = (fs', result) := ⟨_, _, rfl⟩
  refine ⟨fs', result, saved, fun e failed => ?_, fun c completed => ?_⟩
  · rw [Shelf.save_failed failed] at saved
    cases saved
    exact ⟨rfl, rfl⟩
  · obtain ⟨done, rest, order, written, left⟩ := writeAll_front broken fs (c.files s)
    obtain ⟨after, error, ends⟩ : ∃ after error, Files.writeAll broken fs (c.files s) =
        (after, error) := ⟨_, _, rfl⟩
    rw [ends] at written left
    rw [Shelf.save_completed completed, ends] at saved
    cases saved
    refine ⟨rfl, fun none_ => ?_, done, rest, order, written, fun front fs₁ begins other => ?_,
      written.updated, if_congr left.none_iff rfl rfl, left.none_iff, fun e => left.some_iff⟩
    · rw [Record.files, Files.writeAll, none_] at ends
      cases ends
      exact ⟨rfl, rfl⟩
    · exact written.longest left front (order ▸ begins) other

/-- The second fragment cannot be written, so the third one is not written either. -/
example : ((Shelf.ofPath "/srv").save ["/srv/fragments/x.G"] ({} : FileTree)
      { ns := "x", query := "query A { a }",
        fragments := [⟨"F", "one"⟩, ⟨"G", "two"⟩, ⟨"F", "three"⟩] }).1.files.map (·.1) =
    ["/srv/queries/x.A.yaml", "/srv/fragments/x.F"] := by
  decide +kernel

end ApprovedOps
