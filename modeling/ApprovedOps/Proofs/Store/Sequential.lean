import ApprovedOps.Files.Tree
import ApprovedOps.Proofs.Store.Ledger

/-! # A store saves one record after the other

However the calls and the writer take turns, a store that was closed and has drained its queue leaves
the files and the outcomes of saving the accepted records at once, in order. The size of the queue,
the observer and the order of steps have no part in it. Each accepted record is the draft of a
submission.
-/

namespace ApprovedOps.Store

namespace Machine

variable {σ : Type} [Files σ] {m m' : Machine σ} {a : Action}

/-- No move changes where the files are and which paths cannot be written. -/
theorem place_kept (move : Move m a m') : m'.shelf = m.shelf ∧ m'.broken = m.broken := by
  cases move <;> exact ⟨rfl, rfl⟩

theorem run_place {as : List Action} (run : m.follow? as = some m') :
    m'.shelf = m.shelf ∧ m'.broken = m.broken := by
  refine follow?_invariant (P := fun m' => m'.shelf = m.shelf ∧ m'.broken = m.broken) run
    ⟨rfl, rfl⟩ ?_
  rintro m₁ a m₂ - ⟨shelf, broken⟩ move
  obtain ⟨shelf', broken'⟩ := place_kept move
  exact ⟨shelf'.trans shelf, broken'.trans broken⟩

/-- A store that has nothing queued or with the writer, and which gave up nothing, has saved all
    accepted records. -/
theorem run_idle {as : List Action} (fresh : m.Fresh) (run : m.follow? as = some m')
    (gentle : Gentle as) (queued : m'.queued = []) (inHand : m'.writer.inHand = []) :
    (m'.files, m'.outcomes) = m.shelf.saveAll m.broken m.files m'.accepted := by
  obtain ⟨-, taken, saved, account⟩ := run_accounted fresh run
  obtain ⟨shelf, broken⟩ := run_place run
  have inOrder : saved.Sublist m'.accepted := by
    simpa [inHand, queued] using account.inOrder
  have onePlace : saved.Perm m'.accepted := by
    simpa [inHand, queued, run_undiscarded fresh run gentle] using account.onePlace
  have all : saved = m'.accepted := inOrder.eq_of_length onePlace.length_eq
  rw [account.saves, shelf, broken, all]

/-- So it is when the writer has ended. -/
theorem run_drained {as : List Action} (fresh : m.Fresh) (run : m.follow? as = some m')
    (gentle : Gentle as) (ended : m'.writer = .ended) :
    (m'.files, m'.outcomes) = m.shelf.saveAll m.broken m.files m'.accepted := by
  obtain ⟨orderly, -⟩ := run_accounted fresh run
  refine run_idle fresh run gentle ?_ (by rw [ended]; rfl)
  rw [Machine.queued, orderly.empty (by rw [ended]; rfl), List.filterMap_nil]

end Machine

variable {σ : Type} [Files σ]

/-! ## Opening -/

/-- Whoever makes a directory, the same files come of it. -/
theorem makeDirectory_files (m₁ m₂ : Machine σ) (files : m₁.files = m₂.files)
    (broken : m₁.broken = m₂.broken) (path : Text) :
    (makeDirectory m₁ path).files = (makeDirectory m₂ path).files ∧
      (makeDirectory m₁ path).broken = (makeDirectory m₂ path).broken := by
  simp only [makeDirectory, files, broken]
  split
  · exact ⟨rfl, rfl⟩
  · exact ⟨files, broken⟩

theorem makeDirectory_shelf (m : Machine σ) (path : Text) :
    (makeDirectory m path).shelf = m.shelf ∧ (makeDirectory m path).broken = m.broken := by
  rw [makeDirectory]
  split <;> exact ⟨rfl, rfl⟩

theorem openAt_place (files : σ) (path : Text) (readOnly : Bool) (size : Int)
    (observer : Observer) (broken : List Text) :
    (openAt files path readOnly size observer broken).machine.shelf = .ofPath path ∧
      (openAt files path readOnly size observer broken).machine.broken = broken := by
  cases readOnly with
  | true => exact ⟨rfl, rfl⟩
  | false => simp [openAt, makeDirectory_shelf]

/-- The files of a store just opened depend neither on the size of its queue nor on its observer. -/
theorem openAt_files (files : σ) (path : Text) (readOnly : Bool) (size₁ size₂ : Int)
    (observer₁ observer₂ : Observer) (broken : List Text) :
    (openAt files path readOnly size₁ observer₁ broken).machine.files =
      (openAt files path readOnly size₂ observer₂ broken).machine.files := by
  cases readOnly with
  | true => rfl
  | false =>
      obtain ⟨queries, broken⟩ := makeDirectory_files
        { shelf := .ofPath path, observer := observer₁, files, broken, queue := .ofSize size₁ }
        { shelf := .ofPath path, observer := observer₂, files, broken, queue := .ofSize size₂ }
        rfl rfl (Shelf.ofPath path).queries
      exact (makeDirectory_files _ _ queries broken _).1

/-! ## Submissions -/

/-- The submissions of a run. -/
def submissions (as : List Action) : List Submission :=
  as.filterMap fun
    | .call ⟨.submitting s, _⟩ => some s
    | _ => none

/-- Is what a call sets, or has read of it, among the submissions? -/
def Stage.Submitted (among : List Submission) : Stage → Prop
  | .submitting s => s ∈ among
  | .entering r | .putting r => ∃ s ∈ among, s.draft = .ok r
  | _ => True

theorem submitted_kept {as : List Action} {m m' : Machine σ} {a : Action} (member : a ∈ as)
    (move : m.Move a m')
    (submitted : (∀ r ∈ m.accepted, ∃ s ∈ submissions as, s.draft = .ok r) ∧
      ∀ c ∈ m.calls, c.stage.Submitted (submissions as)) :
    (∀ r ∈ m'.accepted, ∃ s ∈ submissions as, s.draft = .ok r) ∧
      ∀ c ∈ m'.calls, c.stage.Submitted (submissions as) := by
  obtain ⟨accepted, called⟩ := submitted
  cases move with
  | @call c first =>
      refine ⟨accepted, ?_⟩
      have new : c.stage.Submitted (submissions as) := by
        obtain ⟨stage, t⟩ := c
        cases stage with
        | submitting s => exact List.mem_filterMap.mpr ⟨_, member, rfl⟩
        | entering r | putting r => cases first
        | _ => trivial
      grind
  | @read i pre s t post r calls opened drafted =>
      have among : s ∈ submissions as := called ⟨.submitting s, t⟩ (by simp [calls])
      have new : (Stage.entering r).Submitted (submissions as) := ⟨s, among, drafted⟩
      exact ⟨accepted, by grind⟩
  | @lock i pre r t post calls =>
      have drafted : (Stage.putting r).Submitted (submissions as) :=
        called ⟨.entering r, t⟩ (by simp [calls])
      exact ⟨accepted, by grind⟩
  | @put i pre r t post calls room =>
      have drafted : ∃ s ∈ submissions as, s.draft = .ok r :=
        called ⟨.putting r, t⟩ (by simp [calls])
      constructor <;> grind [Stage.Submitted, Machine.accepted, Event.accepted?]
  | _ =>
      constructor <;>
        grind [Stage.Submitted, Machine.accepted, Event.accepted?, Machine.countNotice]

/-- Every accepted record is the draft of a submission of the run. -/
theorem accepted_submitted {as : List Action} {m m' : Machine σ} (fresh : m.Fresh)
    (run : m.follow? as = some m') {r : Record} (accepted : r ∈ m'.accepted) :
    ∃ s ∈ submissions as, s.draft = .ok r := by
  have nothing := (Machine.fresh_accounted fresh).accepted
  suffices (∀ r ∈ m'.accepted, ∃ s ∈ submissions as, s.draft = .ok r) ∧
      ∀ c ∈ m'.calls, c.stage.Submitted (submissions as) from this.1 r accepted
  refine Machine.follow?_invariant run ⟨?_, by simp [fresh.calls]⟩
    fun member submitted move => submitted_kept member move submitted
  simp [nothing, Machine.queued, fresh.entries]

/-! ## Running to the end -/

/-- Two runs that accept the same records, give up nothing and end with their writers come to the
    same files and the same outcomes, which are those of saving one record after the other. -/
theorem runs_agree {files : σ} {path : Text} {broken : List Text} {size₁ size₂ : Int}
    {observer₁ observer₂ : Observer} {as₁ as₂ : List Action} {m₁ m₂ : Machine σ}
    (run₁ : (openAt files path false size₁ observer₁ broken).machine.follow? as₁ = some m₁)
    (run₂ : (openAt files path false size₂ observer₂ broken).machine.follow? as₂ = some m₂)
    (gentle₁ : Gentle as₁) (gentle₂ : Gentle as₂) (ended₁ : m₁.writer = .ended)
    (ended₂ : m₂.writer = .ended) (same : m₁.accepted = m₂.accepted) :
    m₁.files = m₂.files ∧ m₁.outcomes = m₂.outcomes ∧
      (m₁.files, m₁.outcomes) = (Shelf.ofPath path).saveAll broken
        (openAt files path false size₁ observer₁ broken).machine.files m₁.accepted := by
  have drained₁ := Machine.run_drained (fresh_openAt files path false size₁ observer₁ broken) run₁
    gentle₁ ended₁
  have drained₂ := Machine.run_drained (fresh_openAt files path false size₂ observer₂ broken) run₂
    gentle₂ ended₂
  obtain ⟨shelf₁, broken₁⟩ := openAt_place files path false size₁ observer₁ broken
  obtain ⟨shelf₂, broken₂⟩ := openAt_place files path false size₂ observer₂ broken
  rw [shelf₁, broken₁] at drained₁
  rw [shelf₂, broken₂, openAt_files files path false size₂ size₁ observer₂ observer₁ broken,
    ← same, ← drained₁] at drained₂
  obtain ⟨sameFiles, sameOutcomes⟩ := Prod.mk.injEq _ _ _ _ ▸ drained₂
  exact ⟨sameFiles.symm, sameOutcomes.symm, drained₁⟩

/-- A call that sets a document. -/
def setting (document : String) : Call :=
  ⟨.submitting { document }, none⟩

/-- A run in which every record is saved before the next one is set. -/
def promptRun : List Action :=
  let writer : List Action := .replicate 3 (.step .writer)
  let call (i : Nat) : Action := .step (.call i)
  [.call (setting "query A { a }"), call 0, call 0, call 0] ++ writer ++
    [.call (setting "mutation B { b }"), call 1, call 1, call 1] ++ writer ++
    [.call ⟨.closing true, none⟩, call 2, call 2] ++ writer

/-- A run in which the writer is held while a queue for one record fills up. -/
def delayedRun : List Action :=
  let writer : List Action := .replicate 3 (.step .writer)
  let call (i : Nat) : Action := .step (.call i)
  [.hold true, .call (setting "query A { a }"), .call (setting "mutation B { b }"), call 1, call 0,
    call 0, call 0, call 1, .call ⟨.waiting, none⟩, .step .writer, call 1,
    .call ⟨.closing true, none⟩, call 3, .hold false] ++ writer ++ [call 3] ++ writer ++
    [.step .writer, .step .writer]

/-- Two records, set in one order. -/
theorem runs_agree_of_two_records :
    ∃ m₁ m₂,
      (openAt ({} : FileTree) "/" false 0 .nobody []).machine.follow? promptRun = some m₁ ∧
      (openAt ({} : FileTree) "/" false 1 .failing []).machine.follow? delayedRun = some m₂ ∧
      m₁.outcomes.length = 2 ∧ m₁.files = m₂.files ∧ m₁.outcomes = m₂.outcomes := by
  have end₁ : ((openAt ({} : FileTree) "/" false 0 .nobody []).machine.follow? promptRun).map
      (fun m => (m.writer, m.accepted, m.outcomes.length)) =
      some (.ended, [{ query := "query A { a }" }, { query := "mutation B { b }" }], 2) := by
    decide +kernel
  have end₂ : ((openAt ({} : FileTree) "/" false 1 .failing []).machine.follow? delayedRun).map
      (fun m => (m.writer, m.accepted)) =
      some (.ended, [{ query := "query A { a }" }, { query := "mutation B { b }" }]) := by
    decide +kernel
  obtain ⟨m₁, run₁, state₁⟩ := Option.map_eq_some_iff.mp end₁
  obtain ⟨m₂, run₂, state₂⟩ := Option.map_eq_some_iff.mp end₂
  simp only [Prod.mk.injEq] at state₁ state₂
  obtain ⟨files, outcomes, -⟩ := runs_agree run₁ run₂ (by decide) (by decide) state₁.1 state₂.1
    (state₁.2.1.trans state₂.2.symm)
  exact ⟨m₁, m₂, run₁, run₂, state₁.2.2, files, outcomes⟩

end ApprovedOps.Store
