import ApprovedOps.Proofs.Store.Sequential

/-! # Calls to a store at rest

When nobody is at work on a store, a call to it does not wait for anybody. Setting a document is
then the same as saving its record, and to close the store is to send the writer home. Either way
the store is at rest again, or closed.
-/

namespace ApprovedOps.Store

namespace Machine

section

variable {σ : Type} {m next : Machine σ} {choose? : Machine σ → Option (Machine σ)}

/-- Is the store open, and nobody at work on it? -/
structure AtRest (m : Machine σ) : Prop where
  entries : m.queue.entries = []
  room : m.queue.hasRoom = true
  writer : m.writer = .idle
  free : m.held = false
  unlocked : m.locked = false
  opened : m.closed = false
  calls : m.calls = []

/-- The store with one call. Of the entries that were put for it, some are still queued. -/
def working (m : Machine σ) (entries : List Entry) (put : Nat) (writer : Writer)
    (locked closed : Bool) (stage : Stage) : Machine σ :=
  { m with
    queue := ⟨m.queue.capacity, entries, m.queue.unfinished + put⟩
    writer, locked, closed
    held := false
    calls := [⟨stage, none⟩] }

theorem AtRest.hasRoom (rest : m.AtRest) :
    (⟨m.queue.capacity, [], m.queue.unfinished⟩ : Queue).hasRoom = true := by
  rw [← rest.entries]
  exact rest.room

theorem AtRest.working (rest : m.AtRest) (stage : Stage) :
    m.working [] 0 .idle false false stage = { m with calls := [⟨stage, none⟩] } := by
  obtain ⟨shelf, observer, files, broken, queue, writer, held, locked, closed, calls, history⟩ := m
  obtain ⟨capacity, entries, unfinished⟩ := queue
  obtain ⟨rfl, -, rfl, rfl, rfl, rfl, -⟩ := rest
  rfl

/-! ## One step after the other -/

theorem runFor_step (h : choose? m = some next) (bound : Nat) :
    runFor choose? (bound + 1) m = runFor choose? bound next := by
  rw [runFor, h]

theorem runFor_rest (h : choose? m = none) (bound : Nat) : runFor choose? bound m = m := by
  cases bound with
  | zero => rfl
  | succ bound => rw [runFor, h]

end

variable {σ : Type} [Files σ] {m next : Machine σ}

theorem firstStep_writer (h : m.writerStep? = some next) : m.firstStep? = some next := by
  simp [firstStep?, actors, step?, h]

/-- If the writer waits, the only call takes its step. -/
theorem firstStep_call {c : Call} (calls : m.calls = [c]) (h : m.writerStep? = none) :
    m.firstStep? = m.callStep? 0 := by
  simp [firstStep?, actors, step?, calls, h]

/-! ## Calls -/

/-- To save a record leaves the store at rest. -/
theorem AtRest.save (rest : m.AtRest) (events : List Event) (r : Record) :
    ((m.note events).save r).AtRest := by
  rw [save_eq]
  exact ⟨rest.entries, rest.room, rest.writer, rest.free, rest.unlocked, rest.opened, rest.calls⟩

/-- A record that is accepted and saved is the last one, and so is its outcome. -/
theorem save_accepted (m : Machine σ) (r : Record) :
    let saved := (m.note [.accepted r]).save r
    saved.files = (m.shelf.save m.broken m.files r).1 ∧ saved.accepted = m.accepted ++ [r] ∧
      saved.outcomes = m.outcomes ++ [(m.shelf.save m.broken m.files r).2] := by
  intro saved
  rw [show saved = _ from save_eq _ r]
  refine ⟨rfl, ?_, ?_⟩
  · have new : [Event.accepted r].filterMap Event.accepted? = [r] := rfl
    simp only [accepted, note, List.filterMap_append, new, saveEvents_accepted, List.append_nil]
  · have silent : [Event.accepted r].filterMap Event.outcome? = [] := rfl
    simp only [outcomes, note, List.filterMap_append, silent, saveEvents_outcomes, List.append_nil]

/-- A call to a store at rest is over at the end of one run. -/
theorem perform_run (rest : m.AtRest) {stage : Stage} {o : Outcome} {last : Machine σ}
    (runs : runFor firstStep? 24 (m.working [] 0 .idle false false stage) = last)
    (still : last.firstStep? = none) (ended : last.calls = [⟨.over o, none⟩]) :
    m.perform { stage } = ({ last with calls := [] }, some o) := by
  have begun : m.start { stage } = m.working [] 0 .idle false false stage := by
    rw [start, rest.calls, rest.working]
    rfl
  have bound : stepBound (m.working [] 0 .idle false false stage) = 24 := rfl
  have ran : (m.start { stage }).run = last := by rw [begun, run, bound, runs]
  have patient : last.expire? 0 = none := by simp [expire?, ended]
  have stays : last.run = last := runFor_rest still _
  simp [perform, rest.calls, ran, patient, stays, forgetCalls, ended, isOver, outcome?]

/-- A document that is refused leaves the store as it is. -/
theorem perform_rejected (rest : m.AtRest) {s : Submission} {e : SetError}
    (refused : s.draft = .error e) :
    m.perform { stage := .submitting s } = (m, some (.rejected e)) := by
  have read : (m.working [] 0 .idle false false (.submitting s)).firstStep? =
      some (m.working [] 0 .idle false false (.over (.rejected e))) := by
    rw [firstStep_call rfl rfl]
    simp [working, callStep?, submit, refused, conclude, proceed]
  have still : (m.working [] 0 .idle false false (.over (.rejected e))).firstStep? = none := rfl
  rw [perform_run rest ((runFor_step read _).trans (runFor_rest still _)) still rfl, rest.working,
    ← rest.calls]

/-- A document is set, and its record is saved before the call is over. -/
theorem perform_set (rest : m.AtRest) {s : Submission} {r : Record} (drafted : s.draft = .ok r) :
    m.perform { stage := .submitting s } = ((m.note [.accepted r]).save r, some .queued) := by
  -- The call takes three steps while the writer waits; then the writer takes three.
  have read : (m.working [] 0 .idle false false (.submitting s)).firstStep? =
      some (m.working [] 0 .idle false false (.entering r)) := by
    rw [firstStep_call rfl rfl]
    simp [working, callStep?, submit, drafted, proceed]
  have entered : (m.working [] 0 .idle false false (.entering r)).firstStep? =
      some (m.working [] 0 .idle true false (.putting r)) := rfl
  let accepted := m.note [.accepted r]
  have put : (m.working [] 0 .idle true false (.putting r)).firstStep? =
      some (accepted.working [.record r] 1 .idle false false (.over .queued)) := by
    rw [firstStep_call rfl rfl]
    simp [working, accepted, callStep?, putRecord?, Queue.put?, rest.hasRoom, note, conclude, proceed]
  have taken : (accepted.working [.record r] 1 .idle false false (.over .queued)).firstStep? =
      some (accepted.working [] 1 (.busy (.record r)) false false (.over .queued)) := rfl
  let saved := accepted.save r
  have saves : (accepted.working [] 1 (.busy (.record r)) false false (.over .queued)).firstStep? =
      some (saved.working [] 1 (.finishing false) false false (.over .queued)) := by
    refine firstStep_writer ?_
    simp only [writerStep?, working, saved, save_eq]
    rfl
  have finishes : (saved.working [] 1 (.finishing false) false false (.over .queued)).firstStep? =
      some (saved.working [] 0 .idle false false (.over .queued)) := rfl
  have still : (saved.working [] 0 .idle false false (.over .queued)).firstStep? = none := rfl
  have runs := (runFor_step read 23).trans <| (runFor_step entered _).trans <|
    (runFor_step put _).trans <| (runFor_step taken _).trans <| (runFor_step saves _).trans <|
    (runFor_step finishes _).trans (runFor_rest still _)
  have rest' : saved.AtRest := rest.save _ r
  rw [perform_run rest runs still rfl, rest'.working, ← rest'.calls]

/-- The writer is sent home. -/
theorem perform_close (rest : m.AtRest) :
    m.perform { stage := .closing true } =
      ({ m with closed := true, writer := .ended }, some .closed) := by
  -- Here the call waits for the writer between its second step and its third.
  have closes : (m.working [] 0 .idle false false (.closing true)).firstStep? =
      some (m.working [] 0 .idle false true .stopping) := rfl
  have marks : (m.working [] 0 .idle false true .stopping).firstStep? =
      some (m.working [.stop] 1 .idle false true .joining) := by
    rw [firstStep_call rfl rfl]
    simp [working, callStep?, Queue.put?, rest.hasRoom, proceed]
  have takes : (m.working [.stop] 1 .idle false true .joining).firstStep? =
      some (m.working [] 1 (.busy .stop) false true .joining) := rfl
  have stops : (m.working [] 1 (.busy .stop) false true .joining).firstStep? =
      some (m.working [] 1 (.finishing true) false true .joining) := rfl
  have ends : (m.working [] 1 (.finishing true) false true .joining).firstStep? =
      some (m.working [] 0 .ended false true .joining) := rfl
  have joins : (m.working [] 0 .ended false true .joining).firstStep? =
      some (m.working [] 0 .ended false true (.sweeping 0)) := rfl
  have sweeps : (m.working [] 0 .ended false true (.sweeping 0)).firstStep? =
      some (m.working [] 0 .ended false true (.over .closed)) := by
    rw [firstStep_call rfl rfl]
    simp [working, callStep?, sweep, Queue.take?, countNotice, note, conclude, proceed]
  have still : (m.working [] 0 .ended false true (.over .closed)).firstStep? = none := rfl
  have runs := (runFor_step closes 23).trans <| (runFor_step marks _).trans <|
    (runFor_step takes _).trans <| (runFor_step stops _).trans <| (runFor_step ends _).trans <|
    (runFor_step joins _).trans <| (runFor_step sweeps _).trans (runFor_rest still _)
  have same := congrArg (fun m => { m with closed := true, writer := .ended, calls := [] })
    (rest.working (.over .closed))
  rw [perform_run rest runs still rfl]
  exact Prod.ext (same.trans (by rw [← rest.calls])) rfl

end Machine

section

variable {σ : Type} [Files σ] {s : Store σ} {sub : Submission}

theorem set_readOnly (readOnly : s.readOnly = true) : s.set sub = (s, .error .readOnly) := by
  rw [set, if_pos readOnly]

theorem set_rejected (rest : s.machine.AtRest) (open_ : s.readOnly = false) {e : SetError}
    (refused : sub.draft = .error e) : s.set sub = (s, .error e) := by
  rw [set, if_neg (by simp [open_]), Machine.perform_rejected rest refused]

theorem set_drafted (rest : s.machine.AtRest) (open_ : s.readOnly = false) {r : Record}
    (drafted : sub.draft = .ok r) :
    s.set sub = ({ s with machine := (s.machine.note [.accepted r]).save r }, .ok (some .queued)) := by
  rw [set, if_neg (by simp [open_]), Machine.perform_set rest drafted]

theorem close_atRest (rest : s.machine.AtRest) (open_ : s.readOnly = false) :
    s.close true none =
      { s with machine := { s.machine with closed := true, writer := .ended } } := by
  rw [close, if_neg (by simp [open_]), Machine.perform_close rest]

end

variable {σ : Type} [Files σ]

/-! ## Opening -/

theorem atRest_makeDirectory {m : Machine σ} (rest : m.AtRest) (path : Text) :
    (makeDirectory m path).AtRest := by
  obtain ⟨entries, room, writer, free, unlocked, opened, calls⟩ := rest
  rw [makeDirectory]
  split <;> exact ⟨entries, room, writer, free, unlocked, opened, calls⟩

/-- Nothing has been accepted and saved in a store that nobody has called. -/
theorem Machine.Fresh.nothing {m : Machine σ} (fresh : m.Fresh) :
    m.accepted = [] ∧ m.outcomes = [] := by
  obtain ⟨accepted, -, saves, -⟩ := Machine.fresh_accounted fresh
  refine ⟨?_, congrArg Prod.snd saves⟩
  rw [accepted, Machine.queued, fresh.entries]
  rfl

/-- A store that was just opened is at rest. -/
theorem atRest_openAt (files : σ) (path : Text) (readOnly : Bool) (size : Int)
    (observer : Observer) (broken : List Text) :
    (openAt files path readOnly size observer broken).machine.AtRest := by
  have room : (Queue.ofSize size).hasRoom = true := by
    simp only [Queue.ofSize, Queue.hasRoom]
    split
    next positive => simp [positive]
    next => rfl
  have bare : Machine.AtRest
      ({ shelf := .ofPath path, observer, files, broken, queue := .ofSize size } : Machine σ) :=
    ⟨rfl, room, rfl, rfl, rfl, rfl, rfl⟩
  cases readOnly with
  | true => exact bare
  | false => exact atRest_makeDirectory (atRest_makeDirectory bare _) _

end ApprovedOps.Store
