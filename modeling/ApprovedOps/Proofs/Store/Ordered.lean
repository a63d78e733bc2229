import ApprovedOps.Store.Save

/-! # Files are written in order

Files are written one after the other, up to the first that cannot be written. Those that were
written are the longest part of the list that can be. The failure tells why the next one cannot be
written, and there is none just when all were.
-/

namespace ApprovedOps

namespace Files

section

variable {σ : Type} [Files σ] (broken : List Text)

/-- Are these the files after some were written one after the other, each without a failure? -/
inductive Writes : σ → List PlannedFile → σ → Prop where
  | nil (fs : σ) : Writes fs [] fs
  | cons {fs fs₁ fs' : σ} {f : PlannedFile} {files : List PlannedFile} {bytes : List UInt8} :
    Utf8.encode? f.text = some bytes → f.path ∉ broken → Files.write fs f.path bytes = .ok fs₁ →
    Writes fs₁ files fs' → Writes fs (f :: files) fs'

/-- Why can the file not be written? -/
inductive Refuses (fs : σ) (f : PlannedFile) : SaveError → Prop where
  | text : Utf8.encode? f.text = none → Refuses fs f .notEncodable
  | broken {bytes : List UInt8} : Utf8.encode? f.text = some bytes → f.path ∈ broken →
    Refuses fs f (.file brokenFailure)
  | file {bytes : List UInt8} {e : FileFailure} : Utf8.encode? f.text = some bytes →
    f.path ∉ broken → Files.write fs f.path bytes = .error e → Refuses fs f (.file e)

/-- Is this why the files that are left were not written? -/
inductive Leaves (fs : σ) : List PlannedFile → Option SaveError → Prop where
  | none : Leaves fs [] none
  | next {f : PlannedFile} {later : List PlannedFile} {e : SaveError} :
    Refuses broken fs f e → Leaves fs (f :: later) (some e)

end

/-! ## The files that are written -/

section

variable {σ : Type} [Files σ] {broken : List Text} {fs fs₁ fs₂ fs' : σ} {f : PlannedFile}
  {files front done later : List PlannedFile} {e : SaveError}

theorem Writes.append (first : Writes broken fs done fs₁) (second : Writes broken fs₁ later fs') :
    Writes broken fs (done ++ later) fs' := by
  induction first with
  | nil => exact second
  | cons encoded whole written _ ih => exact .cons encoded whole written (ih second)

theorem Writes.mono {fewer : List Text} (less : fewer ⊆ broken) (written : Writes broken fs files fs') :
    Writes fewer fs files fs' := by
  induction written with
  | nil fs => exact .nil fs
  | cons encoded whole written _ ih =>
      exact .cons encoded (fun among => whole (less among)) written ih

theorem Writes.split (written : Writes broken fs (done ++ later) fs') :
    ∃ fs₁, Writes broken fs done fs₁ ∧ Writes broken fs₁ later fs' := by
  induction done generalizing fs with
  | nil => exact ⟨fs, .nil fs, written⟩
  | cons f done ih =>
      obtain _ | ⟨encoded, whole, first, rest⟩ := written
      obtain ⟨fs₁, before, after⟩ := ih rest
      exact ⟨fs₁, .cons encoded whole first before, after⟩

theorem tryWrite_whole (fs : σ) {path : Text} (whole : path ∉ broken) (bytes : List UInt8) :
    tryWrite broken fs path bytes = Files.write fs path bytes := by
  rw [tryWrite, if_neg (by simpa using whole)]

/-- The first file is written before the others, or no file is. -/
theorem writeAll_step (broken : List Text) (fs : σ) (f : PlannedFile) (files : List PlannedFile) :
    (∃ e, Refuses broken fs f e ∧ writeAll broken fs (f :: files) = (fs, some e)) ∨
      ∃ bytes fs₁, Utf8.encode? f.text = some bytes ∧ f.path ∉ broken ∧
        Files.write fs f.path bytes = .ok fs₁ ∧
        writeAll broken fs (f :: files) = writeAll broken fs₁ files := by
  cases encoded : Utf8.encode? f.text with
  | none => exact .inl ⟨_, .text encoded, by rw [writeAll, encoded]⟩
  | some bytes =>
      by_cases among : f.path ∈ broken
      · refine .inl ⟨_, .broken encoded among, ?_⟩
        simp only [writeAll, encoded, tryWrite, List.contains_iff_mem, among, if_true]
      · have tried := tryWrite_whole fs among bytes
        cases written : Files.write fs f.path bytes with
        | error e =>
            refine .inl ⟨_, .file encoded among written, ?_⟩
            simp only [writeAll, encoded, tried, written]
        | ok fs₁ =>
            refine .inr ⟨bytes, fs₁, rfl, among, written, ?_⟩
            simp only [writeAll, encoded, tried, written]

/-- Files are written up to the first one that cannot be. -/
theorem writeAll_front (broken : List Text) (fs : σ) (files : List PlannedFile) :
    ∃ done rest, files = done ++ rest ∧ Writes broken fs done (writeAll broken fs files).1 ∧
      Leaves broken (writeAll broken fs files).1 rest (writeAll broken fs files).2 := by
  induction files generalizing fs with
  | nil => exact ⟨[], [], rfl, .nil fs, .none⟩
  | cons f files ih =>
      obtain ⟨e, refused, same⟩ | ⟨bytes, fs₁, encoded, whole, written, same⟩ :=
        writeAll_step broken fs f files
      · rw [same]
        exact ⟨[], f :: files, rfl, .nil fs, .next refused⟩
      · rw [same]
        obtain ⟨done, rest, rfl, first, left⟩ := ih fs₁
        exact ⟨f :: done, rest, rfl, .cons encoded whole written first, left⟩

/-- Other files are written after those that can be. -/
theorem Writes.writeAll (first : Writes broken fs done fs₁) (rest : List PlannedFile) :
    Files.writeAll broken fs (done ++ rest) = Files.writeAll broken fs₁ rest := by
  induction first with
  | nil => rfl
  | @cons fs fs₁ fs' f files bytes encoded whole written _ ih =>
      rw [List.cons_append, Files.writeAll, encoded]
      simp only [tryWrite_whole _ whole, written, ih]

theorem Refuses.not_writes (refused : Refuses broken fs f e) : ¬Writes broken fs (f :: later) fs' := by
  rintro (_ | ⟨encoded, whole, written, -⟩)
  cases refused with
  | text unencoded => cases unencoded.symm.trans encoded
  | broken _ among => exact whole among
  | file encoded' _ failed =>
      cases encoded.symm.trans encoded'
      cases written.symm.trans failed

theorem Refuses.unique {e' : SaveError} (refused : Refuses broken fs f e)
    (refused' : Refuses broken fs f e') : e = e' := by
  cases refused with
  | text unencoded =>
      cases refused' with
      | text => rfl
      | broken encoded | file encoded => cases unencoded.symm.trans encoded
  | broken encoded among =>
      cases refused' with
      | text unencoded => cases unencoded.symm.trans encoded
      | broken => rfl
      | file _ whole => exact absurd among whole
  | file encoded whole failed =>
      cases refused' with
      | text unencoded => cases unencoded.symm.trans encoded
      | broken _ among => exact absurd among whole
      | file encoded' _ failed' =>
          cases encoded.symm.trans encoded'
          cases failed.symm.trans failed'
          rfl

theorem Leaves.none_iff {error : Option SaveError} (left : Leaves broken fs files error) :
    error = .none ↔ files = [] := by
  cases left <;> simp

theorem Leaves.some_iff {error : Option SaveError} (left : Leaves broken fs files error) :
    error = some e ↔ ∃ f later, files = f :: later ∧ Refuses broken fs f e := by
  constructor
  · rintro rfl
    cases left with
    | next refused => exact ⟨_, _, rfl, refused⟩
  · rintro ⟨f, later, rfl, refused⟩
    cases left with
    | next refused' => rw [refused'.unique refused]

/-- No longer part of the files can be written than up to one that cannot be. -/
theorem Writes.longest (first : Writes broken fs done fs₁) {rest : List PlannedFile}
    {error : Option SaveError} (left : Leaves broken fs₁ rest error) (front : List PlannedFile)
    (begins : front <+: done ++ rest) (other : Writes broken fs front fs₂) : front <+: done := by
  induction first generalizing front with
  | nil =>
      cases left with
      | none => exact begins
      | next refused =>
          obtain rfl | ⟨front', rfl, -⟩ := List.prefix_cons_iff.mp begins
          · exact List.nil_prefix
          · exact absurd other refused.not_writes
  | cons encoded whole written _ ih =>
      obtain rfl | ⟨front', rfl, inside⟩ := List.prefix_cons_iff.mp begins
      · exact List.nil_prefix
      · obtain _ | ⟨encoded', -, written', other⟩ := other
        cases encoded.symm.trans encoded'
        cases written.symm.trans written'
        exact List.cons_prefix_cons.mpr ⟨rfl, ih left front' inside other⟩

end

end Files

end ApprovedOps
