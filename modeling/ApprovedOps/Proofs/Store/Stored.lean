import ApprovedOps.Proofs.Document.Cut
import ApprovedOps.Proofs.Files.Placed
import ApprovedOps.Proofs.Store.Ordered
import ApprovedOps.Proofs.Store.Sequential
import ApprovedOps.Proofs.Variables.Cleaned

/-! # What the files hold

Whatever happens to a store and to the files under it, each file is that of a complete record or of
one fragment, at its own path. A save that fails on the way leaves only such files too. This is
because a record comes into the queue with its operation and its fragments cut out of the document,
and what is cut out is cut in the same way again.
-/

namespace ApprovedOps

/-- Are the operation and the fragments of the record cut out of a document? -/
structure Record.Cut (r : Record) : Prop where
  query : Parts.ofText r.query = .ok { query := r.query }
  fragments : ∀ f ∈ r.fragments, Parts.ofText f.value = .ok { fragments := [f] }

/-- Is the record complete, so that a file can hold it? -/
structure Record.Complete (r : Record) : Prop where
  name : ∃ c, Canonical.ofText r.query = .ok c ∧ c.name = r.name
  query : ∃ p, Parts.ofText r.query = .ok p ∧ p.query = r.query
  vars : r.vars = [] ∨ Variables.clean Variables.storedIndent r.vars = .ok r.vars

/-- What the files of a store are: those of complete records and those of single fragments. -/
inductive Shelf.Keeps (s : Shelf) : PlannedFile → Prop where
  | record {r : Record} : r.Complete → s.Keeps ⟨s.recordPath r, r.yaml⟩
  | fragment {ns : Text} {f : Fragment} : Parts.ofText f.value = .ok { fragments := [f] } →
      s.Keeps ⟨s.fragmentPath ns f.name, f.value⟩

/-- Is every file one of a store's, which its path leads to? -/
def Shelf.Stocks {σ : Type} [Files σ] [PlacedFiles σ] (s : Shelf) (fs : σ) : Prop :=
  ∀ place bytes, (place, bytes) ∈ PlacedFiles.placed fs →
    ∃ f, s.Keeps f ∧ PlacedFiles.Leads fs f.path place ∧ Utf8.encode? f.text = some bytes

/-! ## Records -/

theorem Submission.draft_ok {s : Submission} {r : Record} (drafted : s.draft = .ok r) :
    ∃ p, Parts.ofText s.document = .ok p ∧ r.query = p.query ∧ r.fragments = p.fragments ∧
      r.ns = s.ns := by
  rw [draft] at drafted
  split at drafted
  · cases drafted
  · cases cut : Parts.ofText s.document with
    | error e =>
        simp only [cut] at drafted
        cases drafted
    | ok p =>
        simp only [cut, bind, Except.bind, pure, Except.pure] at drafted
        split at drafted <;> cases drafted
        exact ⟨p, rfl, rfl, rfl, rfl⟩

theorem Submission.draft_cut {s : Submission} {r : Record} (drafted : s.draft = .ok r) : r.Cut := by
  obtain ⟨p, cut, query, fragments, -⟩ := draft_ok drafted
  obtain ⟨alone, fixed⟩ := Parts.ofText_alone cut
  exact ⟨query ▸ Parts.query_fixed alone, fragments ▸ fixed⟩

namespace Record

theorem named_ok {r r' : Record} (h : r.named = .ok r') :
    ∃ c, Canonical.ofText r.query = .ok c ∧ r' = { r with name := c.name } := by
  rw [named] at h
  split at h <;> cases h
  exact ⟨_, ‹_›, rfl⟩

theorem cleaned_ok {r r' : Record} (h : r.cleaned = .ok r') :
    ∃ vars, r' = { r with vars } ∧
      (vars = [] ∨ Variables.clean Variables.storedIndent vars = .ok vars) := by
  rw [cleaned] at h
  split at h
  next empty =>
    cases h
    exact ⟨_, rfl, .inl empty⟩
  next =>
    split at h <;> cases h
    next vars clean => exact ⟨vars, rfl, .inr (Variables.clean_fixed clean)⟩

/-- The files of a record that was named and cleaned are such as a store keeps. -/
theorem Cut.keeps {r named cleaned : Record} (cut : r.Cut) (name : r.named = .ok named)
    (clean : named.cleaned = .ok cleaned) (s : Shelf) : ∀ f ∈ cleaned.files s, s.Keeps f := by
  obtain ⟨c, canonical, rfl⟩ := named_ok name
  obtain ⟨vars, rfl, fixed⟩ := cleaned_ok clean
  intro f among
  obtain rfl | among := List.mem_cons.mp among
  · exact .record ⟨⟨c, canonical, rfl⟩, ⟨_, cut.query, rfl⟩, fixed⟩
  · obtain ⟨g, fragment, rfl⟩ := List.mem_map.mp among
    exact .fragment (cut.fragments g fragment)

end Record

/-! ## Files -/

namespace Shelf

variable {σ : Type} [Files σ] [PlacedFiles σ] {s : Shelf} {fs fs' : σ}

theorem Stocks.write {f : PlannedFile} {bytes : List UInt8} (stocks : s.Stocks fs)
    (keeps : s.Keeps f) (encoded : Utf8.encode? f.text = some bytes)
    (written : Files.write fs f.path bytes = .ok fs') : s.Stocks fs' := by
  intro place bytes' among
  obtain ⟨new, leads, only⟩ := PlacedFiles.write written
  obtain same | old := only _ among
  · cases same
    exact ⟨f, keeps, leads, encoded⟩
  · obtain ⟨g, keeps, leads, encoded⟩ := stocks place bytes' old
    exact ⟨g, keeps, PlacedFiles.leads_write written _ _ leads, encoded⟩

/-- However far the writing of files comes, they are those of a store. -/
theorem Stocks.writeAll (broken : List Text) {files : List PlannedFile} (stocks : s.Stocks fs)
    (keeps : ∀ f ∈ files, s.Keeps f) : s.Stocks (Files.writeAll broken fs files).1 := by
  induction files generalizing fs with
  | nil => exact stocks
  | cons f files ih =>
      obtain ⟨e, -, same⟩ | ⟨bytes, fs', encoded, -, written, same⟩ :=
        Files.writeAll_step broken fs f files
      · rw [same]
        exact stocks
      · rw [same]
        exact ih (stocks.write (keeps f List.mem_cons_self) encoded written) fun g among =>
          keeps g (List.mem_cons_of_mem f among)

theorem Stocks.save (broken : List Text) {r : Record} (stocks : s.Stocks fs) (cut : r.Cut) :
    s.Stocks (s.save broken fs r).1 := by
  rw [Shelf.save]
  split
  · exact stocks
  next named name =>
    split
    · exact stocks
    next cleaned clean =>
      have written := Stocks.writeAll broken stocks (cut.keeps name clean s)
      split <;> simp_all

/-- What is read anywhere is the text of a file of the store, and lies where its path leads to. -/
theorem Stocks.read {path : Text} {bytes : List UInt8} (stocks : s.Stocks fs)
    (h : Files.read fs path = .ok bytes) :
    ∃ f place, s.Keeps f ∧ Utf8.encode? f.text = some bytes ∧ PlacedFiles.Leads fs path place ∧
      PlacedFiles.Leads fs f.path place := by
  obtain ⟨place, leads, among⟩ := PlacedFiles.read h
  obtain ⟨f, keeps, leads', encoded⟩ := stocks place bytes among
  exact ⟨f, place, keeps, encoded, leads, leads'⟩

end Shelf

/-! ## Runs -/

namespace Store

/-- Something that happens to a store at work, or to the files under it. -/
inductive Turn where
  /-- An action. -/
  | act (a : Action)
  /-- The paths that cannot be written are others from now on. -/
  | fail (broken : List Text)

/-- The record that a call is to put. -/
def Stage.drafted? : Stage → Option Record
  | .entering r | .putting r => some r
  | _ => none

namespace Machine

variable {σ : Type} [Files σ] {m m' : Machine σ} {a : Action}

/-- What comes of a turn, if it is possible. -/
def turn? (m : Machine σ) : Turn → Option (Machine σ)
  | .act a => m.act? a
  | .fail broken => some { m with broken }

/-- What comes of turns one after the other, if they are possible. -/
def turns? (m : Machine σ) (ts : List Turn) : Option (Machine σ) :=
  ts.foldlM turn? m

/-- The records that are still to be saved: those with the writer, in the queue and in calls. -/
def pending (m : Machine σ) : List Record :=
  m.writer.inHand ++ m.queued ++ m.calls.filterMap (·.stage.drafted?)

/-- What a move brings among the pending records is the draft of a submission. -/
theorem pending_move (move : Move m a m') {r : Record} (among : r ∈ m'.pending) :
    r ∈ m.pending ∨ ∃ s : Submission, s.draft = .ok r := by
  cases move with
  | @take e es idle entries =>
      cases e <;> grind [pending, Writer.inHand, queued, Entry.record?]
  | @finish last finishing => cases last <;> grind [pending, Writer.inHand, queued]
  | @call c first =>
      obtain ⟨stage, t⟩ := c
      cases stage <;> grind [pending, queued, Stage.drafted?, Stage.isFirst]
  | _ => grind [pending, Writer.inHand, queued, Stage.drafted?, Entry.record?]

/-- No turn changes where the files are. -/
theorem turns_shelf {ts : List Turn} (run : m.turns? ts = some m') : m'.shelf = m.shelf := by
  induction ts generalizing m with
  | nil =>
      cases run
      rfl
  | cons t ts ih =>
      rw [turns?, List.foldlM_cons] at run
      obtain ⟨m₁, first, rest⟩ := Option.bind_eq_some_iff.mp run
      refine (ih rest).trans ?_
      cases t with
      | act a => exact (place_kept (act?_move first)).1
      | fail broken =>
          cases first
          rfl

variable [PlacedFiles σ]

/-- Are the files those of the store, and the records to be saved cut out of documents? -/
structure Stocked (m : Machine σ) : Prop where
  files : m.shelf.Stocks m.files
  pending : ∀ r ∈ m.pending, r.Cut

theorem stocked_kept (move : Move m a m') (stocked : m.Stocked) : m'.Stocked := by
  refine ⟨?_, fun r among => ?_⟩
  · cases move with
    | @save r busy free =>
        exact stocked.files.save m.broken
          (stocked.pending r (by simp [Machine.pending, busy, Writer.inHand]))
    | _ => exact stocked.files
  · obtain old | ⟨s, drafted⟩ := pending_move move among
    · exact stocked.pending r old
    · exact Submission.draft_cut drafted

theorem turns_stocked {ts : List Turn} (stocked : m.Stocked) (run : m.turns? ts = some m') :
    m'.Stocked := by
  induction ts generalizing m with
  | nil =>
      cases run
      exact stocked
  | cons t ts ih =>
      rw [turns?, List.foldlM_cons] at run
      obtain ⟨m₁, first, rest⟩ := Option.bind_eq_some_iff.mp run
      refine ih ?_ rest
      cases t with
      | act a => exact stocked_kept (act?_move first) stocked
      | fail broken =>
          cases first
          exact ⟨stocked.files, stocked.pending⟩

end Machine

variable {σ : Type} [Files σ] [PlacedFiles σ]

theorem makeDirectory_placed (m : Machine σ) (path : Text) :
    PlacedFiles.placed (makeDirectory m path).files = PlacedFiles.placed m.files := by
  rw [makeDirectory]
  split
  next files made =>
    split at made
    · cases made
    · exact PlacedFiles.makeDirectory made
  next => rfl

theorem openAt_stocked {files : σ} (empty : PlacedFiles.placed files = []) (path : Text)
    (size : Int) (observer : Observer) (broken : List Text) :
    (openAt files path false size observer broken).machine.Stocked := by
  have fresh := fresh_openAt files path false size observer broken
  constructor
  · intro place bytes among
    simp [openAt, makeDirectory_placed, empty] at among
  · simp [Machine.pending, Machine.queued, fresh.writer, fresh.entries, fresh.calls, Writer.inHand]

/-- In every state of a store that was opened where there were no files, and whatever cannot be
    written in the meantime, each file is that of a complete record or of one fragment, and lies
    where its path leads to. -/
theorem files_stocked {files : σ} {path : Text} {size : Int} {observer : Observer}
    {broken : List Text} {ts : List Turn} {m : Machine σ}
    (empty : PlacedFiles.placed files = [])
    (run : (openAt files path false size observer broken).machine.turns? ts = some m) :
    (Shelf.ofPath path).Stocks m.files := by
  have stocked := Machine.turns_stocked (openAt_stocked empty path size observer broken) run
  have place := Machine.turns_shelf run
  rw [(openAt_place files path false size observer broken).1] at place
  exact place ▸ stocked.files

/-- A record comes with two fragments, of which the second cannot be written. -/
def brokenRun : List Turn :=
  let document := "query A { a ...F ...G } fragment F on T { f } fragment G on T { g }"
  let steps (a : Machine.Actor) : List Turn := .replicate 3 (.act (.step a))
  [.act (.call (setting document))] ++ steps (.call 0) ++ [.fail ["/fragments/G"]] ++ steps .writer

/-- The record and the first fragment have their files. -/
theorem files_stocked_of_broken :
    ∃ m, (openAt ({} : FileTree) "/" false 0 .nobody []).machine.turns? brokenRun = some m ∧
      m.files.files.map (·.1) = ["/queries/A.yaml", "/fragments/F"] ∧
      ∃ f bytes, (Shelf.ofPath "/").Keeps f ∧ FileTree.normal f.path = "/fragments/F" ∧
        Utf8.encode? f.text = some bytes := by
  obtain ⟨m, run, paths⟩ := Option.map_eq_some_iff.mp (by decide +kernel :
    ((openAt ({} : FileTree) "/" false 0 .nobody []).machine.turns? brokenRun).map
      (fun m => m.files.files.map (·.1)) =
      some (["/queries/A.yaml", "/fragments/F"] : List Text))
  obtain ⟨⟨path, bytes⟩, among, rfl⟩ : ∃ file ∈ m.files.files, file.1 = "/fragments/F" := by
    rw [← List.mem_map, paths]
    simp
  obtain ⟨f, keeps, leads, encoded⟩ := files_stocked rfl run _ bytes among
  exact ⟨m, run, paths, f, bytes, keeps, leads, encoded⟩

end Store

end ApprovedOps
