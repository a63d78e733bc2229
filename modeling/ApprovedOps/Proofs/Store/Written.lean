import ApprovedOps.Proofs.Store.Contents
import ApprovedOps.Proofs.Store.Listed

/-! # Where the writer writes

Whatever happens to a store, its writer writes files of completed records only: one for the record,
in the directory of records, and one for each fragment, in the directory of fragments. The names in
these paths are safe, since they are names. A namespace is any text; the files of one lie directly
in their directory just when the namespace leads into it.
-/

namespace ApprovedOps

/-- Writes files one after the other. -/
def Files.writeEach {σ : Type} [Files σ] (fs : σ) (ws : List (Text × List UInt8)) :
    Except FileFailure σ :=
  ws.foldlM (fun fs w => Files.write fs w.1 w.2) fs

/-! ## One write after the other -/

section

variable {σ : Type} [Files σ] {fs fs' fs'' : σ} {ws ws' : List (Text × List UInt8)}

theorem Files.writeEach_append (first : Files.writeEach fs ws = .ok fs')
    (second : Files.writeEach fs' ws' = .ok fs'') : Files.writeEach fs (ws ++ ws') = .ok fs'' := by
  unfold Files.writeEach at *
  rw [List.foldlM_append, first]
  exact second

theorem Files.writeEach_cons {w : Text × List UInt8} (h : Files.writeEach fs (w :: ws) = .ok fs'') :
    ∃ fs', Files.write fs w.1 w.2 = .ok fs' ∧ Files.writeEach fs' ws = .ok fs'' := by
  rw [Files.writeEach, List.foldlM_cons] at h
  exact except_bind_ok h

/-- However far the writing of files comes, it writes some of them. -/
theorem Files.writeAll_each (broken : List Text) (fs : σ) (files : List PlannedFile) :
    ∃ ws, Files.writeEach fs ws = .ok (Files.writeAll broken fs files).1 ∧
      ∀ w ∈ ws, ∃ f ∈ files, f.path = w.1 ∧ Utf8.encode? f.text = some w.2 := by
  induction files generalizing fs with
  | nil => exact ⟨[], rfl, nofun⟩
  | cons f files ih =>
      obtain ⟨e, -, same⟩ | ⟨bytes, fs', encoded, -, written, same⟩ :=
        Files.writeAll_step broken fs f files
      · rw [same]
        exact ⟨[], rfl, nofun⟩
      · obtain ⟨ws, rest, planned⟩ := ih fs'
        have first : Files.writeEach fs [(f.path, bytes)] = .ok fs' := by
          simp [Files.writeEach, written]
        rw [same]
        refine ⟨_, Files.writeEach_append first rest, ?_⟩
        intro w among
        rcases List.mem_cons.mp among with rfl | later
        · exact ⟨f, List.mem_cons_self, rfl, encoded⟩
        · obtain ⟨g, member, plan⟩ := planned w later
          exact ⟨g, List.mem_cons_of_mem f member, plan⟩

/-- The file is one of a completed record among some that are saved. -/
def Shelf.Plans (s : Shelf) (rs : List Record) (w : Text × List UInt8) : Prop :=
  ∃ r ∈ rs, ∃ c, r.completed = .ok c ∧
    ∃ f ∈ c.files s, f.path = w.1 ∧ Utf8.encode? f.text = some w.2

theorem Shelf.saveAll_each (s : Shelf) (broken : List Text) (fs : σ) (rs : List Record) :
    ∃ ws, Files.writeEach fs ws = .ok (s.saveAll broken fs rs).1 ∧ ∀ w ∈ ws, s.Plans rs w := by
  induction rs generalizing fs with
  | nil => exact ⟨[], rfl, nofun⟩
  | cons r rs ih =>
      obtain ⟨ws, rest, planned⟩ := ih (s.save broken fs r).1
      change Files.writeEach _ ws = .ok (s.saveAll broken fs (r :: rs)).1 at rest
      have later : ∀ w ∈ ws, s.Plans (r :: rs) w := by
        intro w among
        obtain ⟨r', member, plan⟩ := planned w among
        exact ⟨r', List.mem_cons_of_mem r member, plan⟩
      cases completed : r.completed with
      | error e =>
          have same : (s.save broken fs r).1 = fs := by rw [Shelf.save_files, completed]
          rw [same] at rest
          exact ⟨ws, rest, later⟩
      | ok c =>
          have same : (s.save broken fs r).1 = (Files.writeAll broken fs (c.files s)).1 := by
            rw [Shelf.save_files, completed]
          obtain ⟨ws', first, own⟩ := Files.writeAll_each broken fs (c.files s)
          rw [same] at rest
          refine ⟨_, Files.writeEach_append first rest, ?_⟩
          intro w among
          rcases List.mem_append.mp among with new | old
          · exact ⟨r, List.mem_cons_self, c, completed, own w new⟩
          · exact later w old

/-- What was written directly into the directory of records is listed, however much is written
    later. -/
theorem Files.writeEach_listed [PlacedFiles σ] [ListedFiles σ] {s : Shelf} {file : Text}
    {w : Text × List UInt8} (plain : file.IsPlain) (proper : ∃ c ∈ file, c ≠ .char '.')
    (written : Files.writeEach fs ws = .ok fs') (among : w ∈ ws)
    (path : w.1 = Path.join s.queries file)
    (unread : ∀ bytes, Files.read fs' s.queries ≠ .ok bytes) :
    ∃ p ∈ Files.filesIn fs' s.queries, FileName.base p = file := by
  suffices ∃ place, PlacedFiles.Leads fs' w.1 place ∧
      place ∈ (PlacedFiles.placed fs').map Prod.fst by
    obtain ⟨place, leads, there⟩ := this
    exact ListedFiles.listed plain proper unread (path ▸ leads) there
  have later {place : PlacedFiles.Place σ} {fs : σ} {ws : List (Text × List UInt8)}
      (written : Files.writeEach fs ws = .ok fs') (leads : PlacedFiles.Leads fs w.1 place)
      (there : place ∈ (PlacedFiles.placed fs).map Prod.fst) :
      PlacedFiles.Leads fs' w.1 place ∧ place ∈ (PlacedFiles.placed fs').map Prod.fst := by
    induction ws generalizing fs with
    | nil =>
        cases written
        exact ⟨leads, there⟩
    | cons v ws ih =>
        obtain ⟨fs₁, first, rest⟩ := Files.writeEach_cons written
        exact ih rest (PlacedFiles.leads_write first _ _ leads) (ListedFiles.kept first there)
  induction ws generalizing fs with
  | nil => cases among
  | cons v ws ih =>
      obtain ⟨fs₁, first, rest⟩ := Files.writeEach_cons written
      rcases List.mem_cons.mp among with rfl | among
      · obtain ⟨place, leads, -⟩ := PlacedFiles.write first
        exact ⟨place, later rest leads (ListedFiles.written first leads)⟩
      · exact ih rest among

end

namespace Store

open FileName (compose)
open ApprovedOps.Path (IsChild LeadsInto)

/-! ## Runs -/

theorem Machine.run_each {σ : Type} [Files σ] {m m' : Machine σ} {as : List Action}
    (fresh : m.Fresh) (run : m.follow? as = some m') :
    ∃ ws, Files.writeEach m.files ws = .ok m'.files ∧ ∀ w ∈ ws, m.shelf.Plans m'.accepted w := by
  obtain ⟨-, taken, saved, account⟩ := run_accounted fresh run
  have accepted : saved ⊆ m'.accepted := by
    intro r member
    refine account.inOrder.subset ?_
    simp [member]
  obtain ⟨ws, written, planned⟩ := m'.shelf.saveAll_each m'.broken m.files saved
  rw [← congrArg Prod.fst account.saves] at written
  refine ⟨ws, written, fun w among => ?_⟩
  obtain ⟨r, member, plan⟩ := planned w among
  exact ⟨r, accepted member, (run_place run).1 ▸ plan⟩

/-- Each file that the writer of a store writes is that of the record of a submission, or of one of
    its fragments. It lies directly in the directory of records, or of fragments, just when the
    namespace leads into that directory; and the record's file is then listed when records are
    loaded, if the namespace has neither slashes nor double colons. -/
theorem writes_where_led {σ : Type} [Files σ] [PlacedFiles σ] [ListedFiles σ] {files : σ}
    {path : Text} {size : Int} {observer : Observer} {broken : List Text} {as : List Action}
    {m : Machine σ}
    (run : (openAt files path false size observer broken).machine.follow? as = some m) :
    let s := Shelf.ofPath path
    ∃ ws, Files.writeEach (openAt files path false size observer broken).machine.files ws =
        .ok m.files ∧
      ∀ w ∈ ws, ∃ sub ∈ submissions as, ∃ name : Text, name.isName = true ∧
        ((w.1 = Path.join s.queries (compose sub.ns name Record.fileExtension) ∧
            (IsChild s.queries w.1 ↔ LeadsInto s.queries sub.ns) ∧
            (sub.ns.IsPlain → (∀ bytes, Files.read m.files s.queries ≠ .ok bytes) →
              ∃ p ∈ Files.filesIn m.files s.queries,
                FileName.base p = compose sub.ns name Record.fileExtension)) ∨
          (w.1 = Path.join s.fragments (compose sub.ns name []) ∧
            (IsChild s.fragments w.1 ↔ LeadsInto s.fragments sub.ns))) := by
  intro s
  have fresh := fresh_openAt files path false size observer broken
  obtain ⟨ws, written, planned⟩ := Machine.run_each fresh run
  rw [(openAt_place files path false size observer broken).1] at planned
  refine ⟨ws, written, fun w among => ?_⟩
  obtain ⟨r, accepted, c, completed, f, planned, same, -⟩ := planned w among
  obtain ⟨sub, member, drafted⟩ := accepted_submitted fresh run accepted
  obtain ⟨ns, named, fragments⟩ := Submission.completed_named drafted completed
  -- The record comes before its fragments; only the names are known to be safe, so the namespace
  -- decides where either of them lies.
  rcases List.mem_cons.mp planned with rfl | among'
  · have record : w.1 = Path.join s.queries (compose sub.ns c.name Record.fileExtension) := by
      rw [← same, ← ns]
      rfl
    refine ⟨sub, member, c.name, named, .inl ⟨record, ?_, fun plain unread => ?_⟩⟩
    · rw [record]
      exact Shelf.isChild_iff s.root Shelf.queries_isName
        (FileName.tail_name _ named (by decide) (by decide))
    · exact Files.writeEach_listed (FileName.compose_plain plain named (by decide) (by decide))
        (FileName.compose_proper _ _ (Text.isName_ne_nil named) (Text.isName_notMem named rfl))
        written among record unread
  · obtain ⟨g, fragment, rfl⟩ := List.mem_map.mp among'
    have named := fragments g fragment
    have path' : w.1 = Path.join s.fragments (compose sub.ns g.name []) := by
      rw [← same, ← ns]
      rfl
    refine ⟨sub, member, g.name, named, .inr ⟨path', ?_⟩⟩
    rw [path']
    exact Shelf.isChild_iff s.root Shelf.fragments_isName (FileName.tail_name [] named nofun nofun)

/-- A document is set under a namespace and saved. -/
def savingRun (ns document : String) : List Action :=
  let steps (a : Machine.Actor) : List Action := .replicate 3 (.step a)
  .call ⟨.submitting { document, ns }, none⟩ :: steps (.call 0) ++ steps .writer

/-- The files of a namespace without slashes lie in the two directories. -/
theorem writes_where_led_of_plain :
    ∃ m, (openAt ({} : FileTree) "/srv" false 0 .nobody []).machine.follow?
        (savingRun "x.y" "query A { ...F } fragment F on T { f }") = some m ∧
      m.files.files.map (·.1) = ["/srv/queries/x.y.A.yaml", "/srv/fragments/x.y.F"] ∧
      ∃ ws, Files.writeEach (openAt ({} : FileTree) "/srv" false 0 .nobody []).machine.files ws =
          .ok m.files ∧
        ∀ w ∈ ws, IsChild (Shelf.ofPath "/srv").queries w.1 ∨
          IsChild (Shelf.ofPath "/srv").fragments w.1 := by
  obtain ⟨m, run, paths⟩ := Option.map_eq_some_iff.mp (by decide +kernel :
    ((openAt ({} : FileTree) "/srv" false 0 .nobody []).machine.follow?
        (savingRun "x.y" "query A { ...F } fragment F on T { f }")).map
      (fun m => m.files.files.map (·.1)) =
      some (["/srv/queries/x.y.A.yaml", "/srv/fragments/x.y.F"] : List Text))
  obtain ⟨ws, written, each⟩ := writes_where_led run
  refine ⟨m, run, paths, ws, written, fun w among => ?_⟩
  have plain : ∀ sub ∈ submissions (savingRun "x.y" "query A { ...F } fragment F on T { f }"),
      .char '/' ∉ sub.ns := by decide
  obtain ⟨sub, member, name, -, ⟨-, child, -⟩ | ⟨-, child⟩⟩ := each w among
  · exact .inl (child.mpr (.inl (plain sub member)))
  · exact .inr (child.mpr (.inl (plain sub member)))

/-- A file of an absolute namespace is written outside the store, where it is not listed. -/
theorem writes_outside :
    ∃ m, (openAt ({} : FileTree) "/srv" false 0 .nobody []).machine.follow?
        (savingRun "/etc/x" "query A { a }") = some m ∧
      m.files.files.map (·.1) = ["/etc/x.A.yaml"] ∧
      ¬IsChild (Shelf.ofPath "/srv").queries "/etc/x.A.yaml" ∧
      ¬IsChild (Shelf.ofPath "/srv").fragments "/etc/x.A.yaml" ∧
      Files.filesIn m.files (Shelf.ofPath "/srv").queries = [] := by
  obtain ⟨m, run, state⟩ := Option.map_eq_some_iff.mp (by decide +kernel :
    ((openAt ({} : FileTree) "/srv" false 0 .nobody []).machine.follow?
        (savingRun "/etc/x" "query A { a }")).map
      (fun m => (m.files.files.map (·.1), Files.filesIn m.files (Shelf.ofPath "/srv").queries)) =
      some ((["/etc/x.A.yaml"] : List Text), []))
  obtain ⟨paths, listed⟩ := Prod.mk.inj state
  exact ⟨m, run, paths, Path.not_isChild (by decide), Path.not_isChild (by decide), listed⟩

end Store

end ApprovedOps
