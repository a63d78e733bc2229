import ApprovedOps.Proofs.Document.Names
import ApprovedOps.Proofs.Document.Rebuilt
import ApprovedOps.Proofs.Store.Rewritten
import ApprovedOps.Proofs.Store.Stored

/-! # Saved records are submitted again

The comment, the variables and the operation of a record that was saved make a document, which is
accepted when it is submitted with what was submitted before. It is the draft of the same record, and
to save it is to write the same file once more.
-/

namespace ApprovedOps

/-- The document that is made of a record. -/
def Record.document (r : Record) : Text :=
  Parts.assemble r.comment r.vars r.query

/-! ## Drafts -/

namespace Submission

/-- The draft of a submission whose document has these parts, with a name and variables. -/
def record (s : Submission) (p : Parts) (name vars : Text) : Record :=
  { name, query := p.query, ns := s.ns, comment := p.comment, vars, order := s.order,
    fragments := p.fragments }

variable {s : Submission} {p : Parts}

theorem draft_absent {r : Record} (absent : s.vars = .absent) (drafted : s.draft = .ok r) :
    ∃ p, Parts.ofText s.document = .ok p ∧ r = s.record p [] p.vars := by
  rw [draft] at drafted
  split at drafted
  · cases drafted
  · cases cut : Parts.ofText s.document with
    | error e =>
        simp only [cut] at drafted
        cases drafted
    | ok p =>
        simp only [cut, absent, bind, Except.bind, pure, Except.pure] at drafted
        cases drafted
        exact ⟨p, rfl, rfl⟩

theorem draft_parts (absent : s.vars = .absent) (some_ : s.document ≠ [])
    (cut : Parts.ofText s.document = .ok p) : s.draft = .ok (s.record p [] p.vars) := by
  rw [draft, if_neg some_, cut, absent]
  rfl

theorem record_named (s : Submission) {c : Canonical} (accepted : Canonical.ofText p.query = .ok c)
    (name vars : Text) : (s.record p name vars).named = .ok (s.record p c.name vars) := by
  simp only [Record.named, record, accepted]

end Submission

/-! ## Variables -/

namespace Record

/-- Variables that were cut out of a document and cleaned are clean, and stay as they are. -/
theorem cleaned_excerpt {r r' : Record} (h : r.cleaned = .ok r')
    (excerpt : r.vars = [] ∨ Parts.Excerpt r.vars) :
    ∃ vars, r' = { r with vars } ∧ Parts.Clean vars ∧
      (vars = [] ∨ Variables.clean Variables.storedIndent vars = .ok vars) := by
  rw [cleaned] at h
  split at h
  next empty =>
    cases h
    exact ⟨[], by rw [← empty], .inl rfl, .inl rfl⟩
  next some_ =>
    split at h <;> cases h
    next vars clean =>
      obtain ⟨k, body, scans, text⟩ := excerpt.resolve_left some_
      rw [text] at clean
      exact ⟨vars, rfl, .inr (Variables.scans_cleaned scans clean),
        .inr (Variables.clean_fixed clean)⟩

theorem cleaned_again {r : Record}
    (clean : r.vars = [] ∨ Variables.clean Variables.storedIndent r.vars = .ok r.vars) :
    r.cleaned = .ok r := by
  rw [cleaned]
  split
  next => rfl
  next some_ => rw [clean.resolve_left some_]

end Record

/-! ## Saving -/

section

variable {σ : Type} [Files σ] {s : Shelf} {broken : List Text} {fs fs' : σ}

theorem Shelf.save_ok {r : Record} {result : SaveResult} (saved : s.save broken fs r = (fs', result))
    (noError : result.error = none) :
    ∃ named, r.named = .ok named ∧ named.cleaned = .ok result.record ∧
      Files.writeAll broken fs (result.record.files s) = (fs', none) ∧
      result.path = s.recordPath result.record := by
  rw [save] at saved
  split at saved
  next =>
    cases saved
    cases noError
  next named name =>
    split at saved
    next =>
      cases saved
      cases noError
    next cleaned clean =>
      split at saved
      next fs₁ written =>
        cases saved
        exact ⟨named, name, clean, written, rfl⟩
      next =>
        cases saved
        cases noError

/-- If no write failed, the first file was written and then the others. -/
theorem Files.writeAll_cons {f : PlannedFile} {files : List PlannedFile}
    (written : Files.writeAll broken fs (f :: files) = (fs', none)) :
    ∃ bytes fs₁, broken.contains f.path = false ∧ Utf8.encode? f.text = some bytes ∧
      Files.write fs f.path bytes = .ok fs₁ ∧ Files.writeAll broken fs₁ files = (fs', none) := by
  obtain ⟨e, -, same⟩ | ⟨bytes, fs₁, encoded, whole, first, same⟩ :=
    Files.writeAll_step broken fs f files
  · cases same.symm.trans written
  · exact ⟨bytes, fs₁, by simpa using whole, encoded, first, same.symm.trans written⟩

/-- Something that each of some written files keeps is kept by all. -/
theorem Files.writeAll_keeps {P : σ → Prop} {files : List PlannedFile}
    (keeps : ∀ f ∈ files, ∀ fs₁ fs₂ bytes, Files.write fs₁ f.path bytes = .ok fs₂ → P fs₁ → P fs₂)
    (written : Files.writeAll broken fs files = (fs', none)) (begin_ : P fs) : P fs' := by
  induction files generalizing fs with
  | nil =>
      cases written
      exact begin_
  | cons f files ih =>
      obtain ⟨bytes, fs₁, -, -, first, rest⟩ := Files.writeAll_cons written
      refine ih (fun g among => keeps g (List.mem_cons_of_mem f among)) rest ?_
      exact keeps f List.mem_cons_self fs fs₁ bytes first begin_

/-- Where the files of a record were written, its own file can be written again. -/
theorem Files.writeAll_again [Rewritable σ] {r : Record} (name : r.name.isName = true)
    (fragments : ∀ f ∈ r.fragments, f.name.isName = true)
    (written : Files.writeAll broken fs (r.files s) = (fs', none)) :
    broken.contains (s.recordPath r) = false ∧ Files.Writable fs (s.recordPath r) ∧
      Files.Writable fs' (s.recordPath r) ∧ ∃ bytes, Utf8.encode? r.yaml = some bytes := by
  obtain ⟨bytes, fs₁, whole, encoded, once, -⟩ := Files.writeAll_cons written
  have writable : Files.Writable fs (s.recordPath r) := Rewritable.writable once
  refine ⟨whole, writable, ?_, bytes, encoded⟩
  refine Files.writeAll_keeps (P := (Files.Writable · (s.recordPath r))) ?_ written writable
  intro f among fs₁ fs₂ bytes write
  refine Rewritable.record name ?_ write
  obtain rfl | among := List.mem_cons.mp among
  · exact .inl rfl
  · obtain ⟨g, fragment, rfl⟩ := List.mem_map.mp among
    exact .inr ⟨g.name, fragments g fragment, rfl⟩

theorem Shelf.save_written {r named cleaned : Record} (name : r.named = .ok named)
    (clean : named.cleaned = .ok cleaned)
    (written : Files.writeAll broken fs (cleaned.files s) = (fs', none)) :
    s.save broken fs r = (fs', { record := cleaned, path := s.recordPath cleaned }) := by
  rw [save, name]
  simp only [clean, written]

/-- A record without fragments is saved by writing its file. -/
theorem Shelf.save_bare {r named cleaned : Record} {bytes : List UInt8} (name : r.named = .ok named)
    (clean : named.cleaned = .ok cleaned) (alone : cleaned.fragments = [])
    (encoded : Utf8.encode? cleaned.yaml = some bytes)
    (whole : broken.contains (s.recordPath cleaned) = false)
    (written : Files.write fs (s.recordPath cleaned) bytes = .ok fs') :
    s.save broken fs r = (fs', { record := cleaned, path := s.recordPath cleaned }) := by
  refine save_written name clean ?_
  simp only [Record.files, alone, List.map_nil, Files.writeAll, encoded, Files.tryWrite, whole,
    Bool.false_eq_true, if_false, written]

/-- The record that was saved is that of the parts of the document, with clean variables. -/
theorem saved_record {sub : Submission} {p : Parts} {result : SaveResult}
    (cut : Parts.ofText sub.document = .ok p)
    (saved : s.save broken fs (sub.record p [] p.vars) = (fs', result))
    (noError : result.error = none) :
    ∃ c vars, Canonical.ofText p.query = .ok c ∧ result.record = sub.record p c.name vars ∧
      Parts.Clean vars ∧ (vars = [] ∨ Variables.clean Variables.storedIndent vars = .ok vars) := by
  obtain ⟨named, name, clean, -, -⟩ := Shelf.save_ok saved noError
  obtain ⟨c, accepted, rfl⟩ := Record.named_ok name
  obtain ⟨lead, opener, opens, -, -, excerpt⟩ :=
    Parts.ofText_placed cut (Canonical.ofText_ne_nil accepted)
  obtain ⟨vars, record, cleanVars, again⟩ := Record.cleaned_excerpt clean excerpt
  exact ⟨c, vars, accepted, record, cleanVars, again⟩

variable [Rewritable σ]

/-- A document is made of a record that was saved, and is submitted with what was submitted before.
    It is accepted, and saving it, whether the record was saved before or not, writes the file of the
    record with the same bytes to the same path, and nothing else. -/
theorem resubmitted {sub : Submission} {d : Record} {result : SaveResult}
    (absent : sub.vars = .absent) (drafted : sub.draft = .ok d)
    (saved : s.save broken fs d = (fs', result)) (noError : result.error = none) :
    ∃ d', { sub with document := result.record.document }.draft = .ok d' ∧
      ∃ bytes, Utf8.encode? result.record.yaml = some bytes ∧
        ∀ now, now = fs ∨ now = fs' → ∃ after, Files.write now result.path bytes = .ok after ∧
          s.save broken now d' = (after, { record := result.record.bare, path := result.path }) := by
  obtain ⟨p, cut, rfl⟩ := Submission.draft_absent absent drafted
  obtain ⟨c, vars, accepted, record, clean, again⟩ := saved_record cut saved noError
  obtain ⟨-, -, -, written, path⟩ := Shelf.save_ok saved noError
  obtain ⟨-, -, -, -, isName, -⟩ := Parts.canonical_first cut accepted
  rw [record] at written path
  obtain ⟨whole, before, after, bytes, encoded⟩ :=
    Files.writeAll_again (r := sub.record p c.name vars) isName (Parts.ofText_named cut) written
  have rebuilt := Parts.ofText_assemble cut accepted clean
  let sub' : Submission := { sub with document := Parts.assemble p.comment vars p.query }
  have drafted' : sub'.draft = .ok (sub'.record { p with vars, fragments := [] } [] vars) :=
    Submission.draft_parts absent (by simp [sub', Parts.assemble]) rebuilt
  rw [path, record]
  refine ⟨_, drafted', bytes, encoded, fun now place => ?_⟩
  have writable : Files.Writable now (s.recordPath (sub.record p c.name vars)) := by
    obtain rfl | rfl := place
    · exact before
    · exact after
  obtain ⟨fs₁, once⟩ := writable bytes
  refine ⟨fs₁, once, ?_⟩
  exact Shelf.save_bare (sub'.record_named (p := { p with vars, fragments := [] }) accepted [] vars)
    (Record.cleaned_again again) rfl encoded whole once

end

/-- Variables with a brace in a string. -/
def pageVariables : Json :=
  .object [("a", .string "\x7d")]

/-- The parts of a page: a comment with a brace, the variables, an operation and a fragment. -/
def pageParts : Parts where
  comment := "# all \x7d"
  vars := pageVariables.render Variables.storedIndent
  query := "query P \x7b p \x7d"
  fragments := [⟨"F", "fragment F on T \x7b f \x7d"⟩]

/-- The page, where the operation stands in front of the variables. -/
def pageSubmission : Submission where
  document := .concat ["# all \x7d\n\n", "query P \x7b p \x7d ", "fragment F on T \x7b f \x7d variables",
    pageVariables.render Variables.storedIndent]
  order := ⟨"a", ["1", "2"]⟩
  ns := "shop"

/-- The variables come first in the document that is made of the record, and the fragment is left. -/
theorem resubmitted_of_page :
    ∃ d fs result, pageSubmission.draft = .ok d ∧
      (Shelf.ofPath "/").save [] ({} : FileTree) d = (fs, result) ∧ result.record.document =
        "# all \x7d\nvariables \x7b\n  \"a\": \"\x7d\"\n\x7d\nquery P \x7b p \x7d" ∧
      ∃ d' after, { pageSubmission with document := result.record.document }.draft = .ok d' ∧
        (Shelf.ofPath "/").save [] fs d' =
          (after, { record := result.record.bare, path := "/queries/shop.P.yaml" }) := by
  have cut : Parts.ofText pageSubmission.document = .ok pageParts := except_ok (by decide +kernel)
  have drafted := Submission.draft_parts rfl (by decide +kernel) cut
  have accepted : Canonical.ofText pageParts.query = .ok ⟨"query P \x7b\n  p\n\x7d", "P"⟩ :=
    except_ok (by decide +kernel)
  have readable : pageVariables.Readable := .object (by decide) fun f among => by
    obtain rfl := List.mem_singleton.mp among
    exact .string _
  have clean := Record.cleaned_again (r := pageSubmission.record pageParts "P" pageParts.vars)
    (.inr (Variables.clean_render readable _))
  have done : (Files.writeAll [] ({} : FileTree) ((pageSubmission.record pageParts "P"
      pageParts.vars).files (Shelf.ofPath "/"))).2.isNone = true := by decide +kernel
  have all (x : FileTree × Option SaveError) (done : x.2.isNone = true) : x = (x.1, none) :=
    Prod.ext rfl (Option.isNone_iff_eq_none.mp done)
  have saved := Shelf.save_written (pageSubmission.record_named accepted [] _) clean (all _ done)
  obtain ⟨d', drafted', bytes, -, saves⟩ := resubmitted rfl drafted saved rfl
  obtain ⟨after, -, again⟩ := saves _ (.inr rfl)
  have path : (Shelf.ofPath "/").recordPath (pageSubmission.record pageParts "P" pageParts.vars) =
      "/queries/shop.P.yaml" := by decide +kernel
  exact ⟨_, _, _, drafted, saved, by decide +kernel, d', after, drafted', path ▸ again⟩

end ApprovedOps
