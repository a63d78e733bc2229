import ApprovedOps.Proofs.Store.Sequential

/-! # What closing guarantees

The mark is put once and nothing comes after it, so a call that has seen the writer end finds the
queue empty. When a call that waits as long as it takes has closed the store, everything accepted is
dealt with. A call that finds the store closed does not wait at all: then everything is dealt with
just if the writer has taken the mark, and another call may still be at work on that or have given
up.
-/

namespace ApprovedOps.Store

/-! ## The mark -/

namespace Machine

variable {σ : Type} {m m' : Machine σ} {a : Action}

/-- How many marks are queued or taken. -/
def marks (m : Machine σ) : Nat :=
  m.queue.entries.count .stop + m.writer.marks

theorem marks_le_one (orderly : m.Orderly) : m.marks ≤ 1 := by
  have mark := orderly.mark
  have atMost : m.closed.toNat ≤ 1 := m.closed.toNat_le
  unfold marks
  omega

variable [Files σ]

/-- How many marks are put in the course of actions. -/
def marksPut (m : Machine σ) : List Action → Nat
  | [] => 0
  | a :: as =>
    match m.act? a with
    | some m' => (m'.queue.entries.count .stop - m.queue.entries.count .stop) + marksPut m' as
    | none => 0

/-- A mark that is put stays in the queue until the writer takes it. -/
theorem marks_move (move : Move m a m') (orderly : m.Orderly) :
    m'.marks = m.marks + (m'.queue.entries.count .stop - m.queue.entries.count .stop) := by
  cases move with
  | @take e es idle entries => cases e <;> grind [marks, Writer.marks]
  | @finish last finishing => cases last <;> grind [marks, Writer.marks]
  | discardOne calls entries =>
      have none := (orderly.owing calls rfl).1
      grind [marks]
  | sweepOne calls entries => simp [(orderly.sweeping calls rfl).2] at entries
  | _ => grind [marks, Writer.marks]

/-- The marks that were put are those that are queued or taken. -/
theorem marks_run {as : List Action} (orderly : m.Orderly) (run : m.follow? as = some m') :
    m'.Orderly ∧ m'.marks = m.marks + m.marksPut as := by
  induction as generalizing m with
  | nil =>
      cases run
      exact ⟨orderly, rfl⟩
  | cons a as ih =>
      rw [follow?, List.foldlM_cons] at run
      obtain ⟨m₁, first, rest⟩ := Option.bind_eq_some_iff.mp run
      have move := act?_move first
      obtain ⟨orderly', later⟩ := ih (orderly_kept move orderly) rest
      refine ⟨orderly', ?_⟩
      simp only [later, marks_move move orderly, marksPut, first, Nat.add_assoc]

/-- No late entries are ever reported. -/
theorem noneLate_kept (move : Move m a m') (orderly : m.Orderly)
    (none : ∀ n, .noticed (.discardedLate n) ∉ m.history) (n : Nat) :
    .noticed (.discardedLate n) ∉ m'.history := by
  cases move with
  | @save r busy free =>
      have quiet : .noticed (.discardedLate n) ∉ m.saveEvents r := by
        unfold saveEvents
        split <;> simp
      simp [none n, quiet]
  | @discarded i pre k t post calls entries =>
      have quiet : .noticed (.discardedLate n) ∉ countNotice .discarded k := by
        unfold countNotice
        split <;> simp
      simp [none n, quiet]
  | @swept i pre k t post calls entries =>
      obtain rfl : k = 0 := by simpa using (orderly.sweeping calls rfl).1
      simpa [countNotice] using none n
  | _ => simp [none n]

end Machine

/-- In every state of every run, nothing is queued behind the mark, which is put at most once. A
    call that looks for late entries does so when the writer has ended, and the queue is empty; that
    there were some is never reported. -/
theorem nothing_behind_mark {σ : Type} [Files σ] {files : σ} {path : Text} {size : Int}
    {observer : Observer} {broken : List Text} {as : List Action} {m : Machine σ}
    (run : (openAt files path false size observer broken).machine.follow? as = some m) :
    (∀ front back, m.queue.entries = front ++ .stop :: back → back = []) ∧
      (openAt files path false size observer broken).machine.marksPut as ≤ 1 ∧
      (∀ c ∈ m.calls, c.stage.isSweeping = true →
        m.writer = .ended ∧ m.queue.entries = [] ∧ c.stage = .sweeping 0) ∧
      ∀ n, .noticed (.discardedLate n) ∉ m.history := by
  have fresh := fresh_openAt files path false size observer broken
  obtain ⟨orderly, marks⟩ := Machine.marks_run (Machine.fresh_orderly fresh) run
  refine ⟨orderly.behind, ?_, ?_, ?_⟩
  · have atMost := Machine.marks_le_one orderly
    omega
  · intro c member sweeps
    obtain ⟨ended, none⟩ := orderly.swept c member sweeps
    exact ⟨ended, orderly.empty (by rw [ended]; rfl), none⟩
  · suffices m.Orderly ∧ ∀ n, .noticed (.discardedLate n) ∉ m.history from this.2
    refine Machine.follow?_invariant
      (P := fun m => m.Orderly ∧ ∀ n, .noticed (.discardedLate n) ∉ m.history) run ?_ ?_
    · refine ⟨Machine.fresh_orderly fresh, fun n member => ?_⟩
      obtain ⟨path, same⟩ := fresh.history _ member
      cases same
    · rintro m₁ a m₂ - ⟨orderly, none⟩ move
      exact ⟨Machine.orderly_kept move orderly, Machine.noneLate_kept move orderly none⟩

/-- A record is being set with the lock held, and another has read its document, when a call begins
    to close the store; the second is refused, and the mark comes last. -/
def lateRun : List Action :=
  let set (document : String) : Action := .call ⟨.submitting { document }, none⟩
  let call (i : Nat) : Action := .step (.call i)
  let writer : List Action := .replicate 3 (.step .writer)
  [set "query A { a }", call 0, call 0, set "query B { b }", call 1, .call ⟨.closing true, none⟩,
    call 0, call 2, call 1, call 2] ++ writer ++ writer ++ [call 2]

theorem nothing_behind_mark_of_late :
    ∃ m, (openAt ({} : FileTree) "/" false 0 .nobody []).machine.follow? lateRun = some m ∧
      m.calls.map (·.stage) = [.over .queued, .over .refused, .sweeping 0] ∧
      m.queue.entries = [] := by
  obtain ⟨m, run, stages⟩ := Option.map_eq_some_iff.mp (by decide +kernel :
    ((openAt ({} : FileTree) "/" false 0 .nobody []).machine.follow? lateRun).map
      (fun m => m.calls.map (·.stage)) = some [.over .queued, .over .refused, .sweeping 0])
  obtain ⟨-, -, swept, -⟩ := nothing_behind_mark run
  obtain ⟨c, member, sweeps⟩ : ∃ c ∈ m.calls, c.stage = .sweeping 0 := by
    rw [← List.mem_map, stages]
    simp
  exact ⟨m, run, stages, (swept c member (by rw [sweeps]; rfl)).2.1⟩

/-! ## Coming to an end -/

/-- Has the call closed the store, and is the writer still to end? -/
def Stage.isEnding : Stage → Bool
  | .discarding _ | .discardingOne _ _ | .stopping | .joining => true
  | _ => false

namespace Machine

variable {σ : Type} {m m' : Machine σ} {a : Action}

/-- A step of a call brings it to a stage. This is the end of closing only if it finds the store
    closed or finds no late entries, and the end of waiting only if nothing is unfinished. -/
theorem callStep_stage {i : Nat} {stage : Stage} {t : Option Binary64}
    (found : m.calls[i]? = some ⟨stage, t⟩) (step : m.callStep? i = some m') :
    ∃ next, m'.calls[i]? = some ⟨next, t⟩ ∧
      (next = .over .closed →
        (∃ drain, stage = .closing drain ∧ m.closed = true) ∨ ∃ n, stage = .sweeping n) ∧
      (next = .over (.waited true) → m'.queue.unfinished = 0) := by
  have proceeds {x : Machine σ} (next : Stage) (same : x.calls = m.calls) :
      (x.proceed i next).calls[i]? = some ⟨next, t⟩ := by
    simp [proceed, same, found]
  simp only [callStep?, found, bind, Option.bind_some] at step
  cases stage with
  | submitting s =>
      simp only [submit, conclude] at step
      repeat' split at step
      all_goals
        cases step
        exact ⟨_, proceeds _ rfl, by rintro ⟨⟩, by rintro ⟨⟩⟩
  | entering r =>
      simp only [enter?, conclude] at step
      repeat' split at step
      all_goals
        cases step
        try exact ⟨_, proceeds _ rfl, by rintro ⟨⟩, by rintro ⟨⟩⟩
  | putting r =>
      simp only [putRecord?, conclude] at step
      obtain ⟨queue, -, rfl⟩ := Option.map_eq_some_iff.mp step
      exact ⟨_, proceeds _ rfl, by rintro ⟨⟩, by rintro ⟨⟩⟩
  | closing drain =>
      simp only [close?, conclude] at step
      split at step
      · cases step
      split at step
      next closed =>
        cases step
        exact ⟨_, proceeds _ rfl, fun _ => .inl ⟨drain, rfl, closed⟩, by rintro ⟨⟩⟩
      next =>
        cases step
        exact ⟨_, proceeds _ rfl, by cases drain <;> rintro ⟨⟩, by cases drain <;> rintro ⟨⟩⟩
  | discarding n =>
      simp only [discard] at step
      split at step
      all_goals
        cases step
        exact ⟨_, proceeds _ rfl, by rintro ⟨⟩, by rintro ⟨⟩⟩
  | discardingOne e n | sweepingOne e n =>
      cases step
      exact ⟨_, proceeds _ rfl, by rintro ⟨⟩, by rintro ⟨⟩⟩
  | stopping =>
      obtain ⟨queue, -, rfl⟩ := Option.map_eq_some_iff.mp step
      exact ⟨_, proceeds _ rfl, by rintro ⟨⟩, by rintro ⟨⟩⟩
  | joining =>
      simp only at step
      split at step <;> cases step
      exact ⟨_, proceeds _ rfl, by rintro ⟨⟩, by rintro ⟨⟩⟩
  | waiting =>
      simp only [conclude] at step
      split at step
      next nothing =>
        cases step
        exact ⟨_, proceeds _ rfl, by rintro ⟨⟩, fun _ => nothing⟩
      next => cases step
  | sweeping n =>
      simp only [sweep, conclude] at step
      split at step
      all_goals
        cases step
        exact ⟨_, proceeds _ rfl, fun _ => .inr ⟨n, rfl⟩, by rintro ⟨⟩⟩
  | _ => cases step

variable [Files σ]

/-- Is everything accepted dealt with for good? What was accepted is saved and delivered or was
    given up, nothing is queued, and the writer has taken the mark. -/
structure Settled (m : Machine σ) (files : σ) : Prop where
  dealt : ∃ saved, (m.files, m.outcomes) = m.shelf.saveAll m.broken files saved ∧
    saved.Sublist m.accepted ∧ (saved ++ m.discarded).Perm m.accepted
  entries : m.queue.entries = []
  taken : m.writer.marks = 1

/-- A call that closes the store and waits as long as it takes comes to its end. -/
structure Closes (m : Machine σ) (i : Nat) (m' : Machine σ) : Prop where
  step : m.step? (.call i) = some m'
  patient : ∃ stage, m.calls[i]? = some ⟨stage, none⟩
  ended : m'.outcome? i = some .closed

/-- Is a call still closing the store, or has one given up waiting for the writer? -/
def ClosingLate (m : Machine σ) : Prop :=
  0 < m.calls.countP (·.stage.isEnding) ∨ ∃ t, .noticed (.writerBusy t) ∈ m.history

/-- Everything is dealt with when the writer has taken the mark. -/
theorem settled_iff {files : σ} {taken : List (Record × Taker)} {saved : List Record}
    (orderly : m.Orderly) (account : m.Accounted files taken saved) :
    m.Settled files ↔ m.writer.marks = 1 := by
  refine ⟨Settled.taken, fun marked => ?_⟩
  have entries := orderly.empty marked
  have queued : m.queued = [] := by rw [queued, entries, List.filterMap_nil]
  have inHand : m.writer.inHand = [] := by
    cases writer : m.writer with
    | busy e => cases e <;> simp_all [Writer.marks, Writer.inHand]
    | _ => rfl
  refine ⟨⟨saved, account.saves, ?_, ?_⟩, entries, marked⟩
  · simpa [queued, inHand] using account.inOrder
  · simpa [queued, inHand] using account.onePlace

/-- A closed store has its mark taken, or a call is at work on it or has given up. -/
theorem closing_kept (move : Move m a m')
    (closing : m.closed = true → m.writer.marks = 1 ∨ m.ClosingLate) :
    m'.closed = true → m'.writer.marks = 1 ∨ m'.ClosingLate := by
  unfold ClosingLate at *
  cases move with
  | @take e es idle entries => cases e <;> grind [Writer.marks]
  | @finish last finishing => cases last <;> grind [Writer.marks]
  | forget ended =>
      intro closed
      have none : m.calls.countP (·.stage.isEnding) = 0 := over_count ended fun _ => rfl
      grind
  | _ => grind [Stage.isEnding, Writer.marks]

/-- Whatever a call does, the writer and the closed flag stay, unless it closes the store. -/
theorem callStep_kept {i : Nat} (step : m.callStep? i = some m') :
    m'.writer = m.writer ∧ (m.closed = true → m'.closed = true) := by
  have move := callStep_move step
  cases move <;> exact ⟨rfl, fun closed => by simp [closed]⟩

/-- A call that closes the store comes to its end when it finds the store closed, or when it finds
    no late entries. -/
theorem Closes.stage {i : Nat} (closes : m.Closes i m') :
    (∃ drain, m.calls[i]? = some ⟨.closing drain, none⟩ ∧ m.closed = true) ∨
      ∃ n, m.calls[i]? = some ⟨.sweeping n, none⟩ := by
  obtain ⟨step, ⟨stage, found⟩, ended⟩ := closes
  obtain ⟨next, now, last, -⟩ := callStep_stage found step
  obtain rfl : next = .over .closed := by
    rw [outcome?, now] at ended
    cases next <;> simp_all
  obtain ⟨drain, rfl, closed⟩ | ⟨n, rfl⟩ := last rfl
  · exact .inl ⟨drain, found, closed⟩
  · exact .inr ⟨n, found⟩

end Machine

/-- A call that closes the store, whatever time it takes, comes to its end when everything accepted
    is dealt with, if it has closed the store itself, or if no other call is still closing it or has
    given up waiting for the writer. In any case all is dealt with just if the writer has taken the
    mark. Nothing was given up unless a call closes the store without draining. -/
theorem settled_when_closed {σ : Type} [Files σ] {files : σ} {path : Text} {size : Int}
    {observer : Observer} {broken : List Text} {as : List Action} {m m' : Machine σ} {i : Nat}
    (run : (openAt files path false size observer broken).machine.follow? as = some m)
    (closes : m.Closes i m') :
    ((∀ drain, m.calls[i]? ≠ some ⟨.closing drain, none⟩) ∨ ¬m'.ClosingLate →
        m'.Settled (openAt files path false size observer broken).machine.files) ∧
      (m'.Settled (openAt files path false size observer broken).machine.files ↔
        m'.writer.marks = 1) ∧
      (Gentle as → m'.discarded = []) := by
  have fresh := fresh_openAt files path false size observer broken
  have last : m.follow? [.step (.call i)] = some m' := by
    simp [Machine.follow?, Machine.act?, closes.step]
  have run' := Machine.follow?_append run last
  obtain ⟨orderly, taken, saved, account⟩ := Machine.run_accounted fresh run'
  obtain ⟨writer, closed'⟩ := Machine.callStep_kept closes.step
  have settled := Machine.settled_iff orderly account
  refine ⟨fun alone => settled.mpr ?_, settled, fun gentle => ?_⟩
  · obtain ⟨drain, found, closed⟩ | ⟨n, found⟩ := closes.stage
    · have late : m'.closed = true → m'.writer.marks = 1 ∨ m'.ClosingLate :=
        Machine.follow?_invariant run' (by simp [fresh.closed]) fun _ late move =>
          Machine.closing_kept move late
      exact (late (closed' closed)).resolve_right (alone.resolve_left fun own => own drain found)
    · obtain ⟨orderly₀, -⟩ := Machine.run_accounted fresh run
      have ended := (orderly₀.swept _ (List.mem_of_getElem? found) rfl).1
      rw [writer, ended]
      rfl
  · refine Machine.run_undiscarded fresh run' fun a member => ?_
    obtain old | rfl := by simpa using member
    · exact gentle a old
    · rfl

/-- The call of the late run to close the store has closed it itself. -/
theorem settled_when_closed_of_late :
    ∃ m m', (openAt ({} : FileTree) "/" false 0 .nobody []).machine.follow? lateRun = some m ∧
      m.Closes 2 m' ∧ m'.accepted.length = 1 ∧
      m'.Settled (openAt ({} : FileTree) "/" false 0 .nobody []).machine.files := by
  have states : ((openAt ({} : FileTree) "/" false 0 .nobody []).machine.follow? lateRun).bind
      (fun m => (m.step? (.call 2)).map fun m' =>
        (m.calls[2]?, m'.outcome? 2, m'.accepted.length)) =
      some (some ⟨.sweeping 0, none⟩, some .closed, 1) := by
    decide +kernel
  obtain ⟨m, run, ended⟩ := Option.bind_eq_some_iff.mp states
  obtain ⟨m', step, state⟩ := Option.map_eq_some_iff.mp ended
  simp only [Prod.mk.injEq] at state
  obtain ⟨stage, outcome, one⟩ := state
  have closes : m.Closes 2 m' := ⟨step, ⟨_, stage⟩, outcome⟩
  refine ⟨m, m', run, closes, one, (settled_when_closed run closes).1 (.inl fun drain same => ?_)⟩
  cases stage.symm.trans same

/-- While the writer is held and the queue is full, a call to close the store gives up at once. The
    store is closed then, and another call to close it, which would wait as long as it takes, is to
    take its only step. -/
def impatientRun : List Action :=
  let set (document : String) : Action := .call ⟨.submitting { document }, none⟩
  let call (i : Nat) : Action := .step (.call i)
  [.hold true, set "query A { a }", call 0, call 0, call 0, .step .writer,
    set "query B { b }", call 1, call 1, call 1,
    .call ⟨.closing true, some (.zero false)⟩, call 2, .step (.clock 2),
    .call ⟨.closing true, none⟩]

/-- The second call to close the store comes to its end although nothing is saved, one record is
    queued, and the mark is not even put. -/
theorem unsettled_after_impatience :
    ∃ m m', (openAt ({} : FileTree) "/" false 1 .attentive []).machine.follow? impatientRun =
        some m ∧
      m.calls[3]? = some ⟨.closing true, none⟩ ∧ m.Closes 3 m' ∧ Gentle impatientRun ∧
      (m'.accepted.length, m'.outcomes.length, m'.queued.length, m'.marks) = (2, 0, 1, 0) ∧
      ¬m'.Settled (openAt ({} : FileTree) "/" false 1 .attentive []).machine.files := by
  have states : ((openAt ({} : FileTree) "/" false 1 .attentive []).machine.follow?
      impatientRun).bind (fun m => (m.step? (.call 3)).map fun m' =>
        (m.calls[3]?, m'.outcome? 3,
          m'.accepted.length, m'.outcomes.length, m'.queued.length, m'.marks)) =
      some (some ⟨.closing true, none⟩, some .closed, 2, 0, 1, 0) := by
    decide +kernel
  obtain ⟨m, run, ended⟩ := Option.bind_eq_some_iff.mp states
  obtain ⟨m', step, state⟩ := Option.map_eq_some_iff.mp ended
  simp only [Prod.mk.injEq] at state
  obtain ⟨stage, outcome, accepted, outcomes, queued, marks⟩ := state
  refine ⟨m, m', run, stage, ⟨step, ⟨_, stage⟩, outcome⟩, by decide, ?_, fun settled => ?_⟩
  · rw [accepted, outcomes, queued, marks]
  · have taken := settled.taken
    simp only [Machine.marks] at marks
    omega

end ApprovedOps.Store
