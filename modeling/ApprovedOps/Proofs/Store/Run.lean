import ApprovedOps.Store.Basic

/-! # Runs of a store

Everything that can happen to a store at work is an action: a call is made, an actor takes a step,
the writer is held or let go, ended calls are forgotten. A run is a list of actions in any order.
`Move` lists what one action can do, guards included, and `act?_move` says that this is all.
Submitting, waiting and closing are runs, so what holds of every run holds of them.
-/

namespace ApprovedOps.Store

/-- Can a call begin here? -/
def Stage.isFirst : Stage → Bool
  | .submitting _ | .closing _ | .waiting => true
  | _ => false

/-- Is the call to give up what waits, or does it so? -/
def Stage.discards : Stage → Bool
  | .closing drain => !drain
  | .discarding _ | .discardingOne _ _ => true
  | _ => false

/-- Something that happens to a store at work. -/
inductive Action where
  /-- A call is made. -/
  | call (c : Call)
  /-- An actor takes a step. -/
  | step (a : Machine.Actor)
  /-- The writer is kept from saving, or no longer. -/
  | hold (held : Bool)
  /-- The calls are forgotten, if all have ended. -/
  | forget

/-- Is the action a call that closes the store and gives up what waits? -/
def Action.discards : Action → Bool
  | .call c => c.stage.discards
  | _ => false

namespace Machine

variable {σ : Type} [Files σ]

/-- What comes of an action, if it is possible. -/
def act? (m : Machine σ) : Action → Option (Machine σ)
  | .call c => if c.stage.isFirst then some (m.start c) else none
  | .step a => m.step? a
  | .hold held => some { m with held }
  | .forget => some m.forgetCalls

/-- What comes of actions one after the other, if they are possible. -/
def follow? (m : Machine σ) (as : List Action) : Option (Machine σ) :=
  as.foldlM act? m

/-- What the saving of a record adds to the history. -/
def saveEvents (m : Machine σ) (r : Record) : List Event :=
  let result := (m.shelf.save m.broken m.files r).2
  (result.error.toList.map fun e => .noticed (.notSaved e)) ++ [.saved result] ++
    if m.observer = .failing then [.noticed .observerFailed] else []

theorem save_eq (m : Machine σ) (r : Record) :
    m.save r =
      { m with
        files := (m.shelf.save m.broken m.files r).1
        history := m.history ++ m.saveEvents r } := by
  simp only [save, saveEvents, note]
  split <;> simp_all

/-- What an action can do. A call that moves stands between the calls `pre` and `post`. -/
inductive Move (m : Machine σ) : Action → Machine σ → Prop where
  | call {c} : c.stage.isFirst = true → Move m (.call c) { m with calls := m.calls ++ [c] }
  | hold {held} : Move m (.hold held) { m with held }
  | forget : m.calls.all isOver = true → Move m .forget { m with calls := [] }
  | keep : Move m .forget m
  /-- The writer takes the next entry. -/
  | take {e es} : m.writer = .idle → m.queue.entries = e :: es →
      Move m (.step .writer) { m with queue := { m.queue with entries := es }, writer := .busy e }
  | save {r} : m.writer = .busy (.record r) → m.held = false →
      Move m (.step .writer)
        { m with
          files := (m.shelf.save m.broken m.files r).1, writer := .finishing false
          history := m.history ++ m.saveEvents r }
  | stop : m.writer = .busy .stop → Move m (.step .writer) { m with writer := .finishing true }
  | finish {last} : m.writer = .finishing last →
      Move m (.step .writer)
        { m with queue := m.queue.done, writer := if last then .ended else .idle }
  /-- A submission finds the store closed, before it has asked for the lock. -/
  | refuse {i pre s t post} : m.calls = pre ++ ⟨.submitting s, t⟩ :: post → m.closed = true →
      Move m (.step (.call i)) { m with calls := pre ++ ⟨.over .refused, t⟩ :: post }
  | reject {i pre s t post e} : m.calls = pre ++ ⟨.submitting s, t⟩ :: post → m.closed = false →
      s.draft = .error e →
      Move m (.step (.call i)) { m with calls := pre ++ ⟨.over (.rejected e), t⟩ :: post }
  | read {i pre s t post r} : m.calls = pre ++ ⟨.submitting s, t⟩ :: post → m.closed = false →
      s.draft = .ok r → Move m (.step (.call i)) { m with calls := pre ++ ⟨.entering r, t⟩ :: post }
  /-- A submission finds the store closed, now that it has the lock. -/
  | refuseLate {i pre r t post} : m.calls = pre ++ ⟨.entering r, t⟩ :: post → m.locked = false →
      m.closed = true →
      Move m (.step (.call i)) { m with calls := pre ++ ⟨.over .refused, t⟩ :: post }
  | lock {i pre r t post} : m.calls = pre ++ ⟨.entering r, t⟩ :: post → m.locked = false →
      m.closed = false →
      Move m (.step (.call i))
        { m with locked := true, calls := pre ++ ⟨.putting r, t⟩ :: post }
  | put {i pre r t post} : m.calls = pre ++ ⟨.putting r, t⟩ :: post → m.queue.hasRoom = true →
      Move m (.step (.call i))
        { m with
          queue := { m.queue with
            entries := m.queue.entries ++ [.record r], unfinished := m.queue.unfinished + 1 }
          locked := false, calls := pre ++ ⟨.over .queued, t⟩ :: post
          history := m.history ++ [.accepted r] }
  | closeAgain {i pre drain t post} : m.calls = pre ++ ⟨.closing drain, t⟩ :: post →
      m.locked = false → m.closed = true →
      Move m (.step (.call i)) { m with calls := pre ++ ⟨.over .closed, t⟩ :: post }
  | close {i pre drain t post} : m.calls = pre ++ ⟨.closing drain, t⟩ :: post → m.locked = false →
      m.closed = false →
      Move m (.step (.call i))
        { m with
          closed := true
          calls := pre ++ ⟨if drain then .stopping else .discarding 0, t⟩ :: post }
  | discardOne {i pre n t post e es} : m.calls = pre ++ ⟨.discarding n, t⟩ :: post →
      m.queue.entries = e :: es →
      Move m (.step (.call i))
        { m with
          queue := { m.queue with entries := es }
          calls := pre ++ ⟨.discardingOne e n, t⟩ :: post }
  | discarded {i pre n t post} : m.calls = pre ++ ⟨.discarding n, t⟩ :: post →
      m.queue.entries = [] →
      Move m (.step (.call i))
        { m with
          calls := pre ++ ⟨.stopping, t⟩ :: post
          history := m.history ++ countNotice .discarded n }
  | drop {i pre e n t post} : m.calls = pre ++ ⟨.discardingOne e n, t⟩ :: post →
      Move m (.step (.call i))
        { m with
          queue := m.queue.done, calls := pre ++ ⟨.discarding (n + 1), t⟩ :: post
          history := m.history ++ [.dropped e] }
  | mark {i pre t post} : m.calls = pre ++ ⟨.stopping, t⟩ :: post → m.queue.hasRoom = true →
      Move m (.step (.call i))
        { m with
          queue := { m.queue with
            entries := m.queue.entries ++ [.stop], unfinished := m.queue.unfinished + 1 }
          calls := pre ++ ⟨.joining, t⟩ :: post }
  | join {i pre t post} : m.calls = pre ++ ⟨.joining, t⟩ :: post → m.writer = .ended →
      Move m (.step (.call i)) { m with calls := pre ++ ⟨.sweeping 0, t⟩ :: post }
  | sweepOne {i pre n t post e es} : m.calls = pre ++ ⟨.sweeping n, t⟩ :: post →
      m.queue.entries = e :: es →
      Move m (.step (.call i))
        { m with
          queue := { m.queue with entries := es }
          calls := pre ++ ⟨.sweepingOne e n, t⟩ :: post }
  | swept {i pre n t post} : m.calls = pre ++ ⟨.sweeping n, t⟩ :: post → m.queue.entries = [] →
      Move m (.step (.call i))
        { m with
          calls := pre ++ ⟨.over .closed, t⟩ :: post
          history := m.history ++ countNotice .discardedLate n }
  | dropLate {i pre e n t post} : m.calls = pre ++ ⟨.sweepingOne e n, t⟩ :: post →
      Move m (.step (.call i))
        { m with
          queue := m.queue.done, calls := pre ++ ⟨.sweeping (n + 1), t⟩ :: post
          history := m.history ++ [.dropped e] }
  | waited {i pre t post} : m.calls = pre ++ ⟨.waiting, t⟩ :: post → m.queue.unfinished = 0 →
      Move m (.step (.call i)) { m with calls := pre ++ ⟨.over (.waited true), t⟩ :: post }
  /-- The time is up for a call to close while a record is being put. -/
  | expireLock {i pre drain t post} : m.calls = pre ++ ⟨.closing drain, some t⟩ :: post →
      m.locked = true →
      Move m (.step (.clock i))
        { m with
          calls := pre ++ ⟨.over .closed, some t⟩ :: post
          history := m.history ++ [.noticed .closeTimedOut] }
  | expireMark {i pre t post} : m.calls = pre ++ ⟨.stopping, some t⟩ :: post →
      m.queue.hasRoom = false →
      Move m (.step (.clock i))
        { m with
          calls := pre ++ ⟨.over .closed, some t⟩ :: post
          history := m.history ++ [.noticed (.writerBusy t)] }
  | expireJoin {i pre t post} : m.calls = pre ++ ⟨.joining, some t⟩ :: post → m.writer ≠ .ended →
      Move m (.step (.clock i))
        { m with
          calls := pre ++ ⟨.over .closed, some t⟩ :: post
          history := m.history ++ [.noticed (.writerBusy t)] }
  | expireWait {i pre t post} : m.calls = pre ++ ⟨.waiting, some t⟩ :: post →
      m.queue.unfinished ≠ 0 →
      Move m (.step (.clock i)) { m with calls := pre ++ ⟨.over (.waited false), some t⟩ :: post }

/-- The calls around one of them, which is left as it is or changed in its place. -/
theorem calls_around {calls : List Call} {i : Nat} {c : Call} (h : calls[i]? = some c) :
    ∃ pre post, calls = pre ++ c :: post ∧ ∀ f, calls.modify i f = pre ++ f c :: post := by
  obtain ⟨inside, rfl⟩ := List.getElem?_eq_some_iff.mp h
  refine ⟨calls.take i, calls.drop (i + 1), ?_, fun f => List.modify_eq_take_cons_drop inside⟩
  rw [List.getElem_cons_drop, List.take_append_drop]

/-- A step of the writer is a move. -/
theorem writerStep_move {m m' : Machine σ} (h : m.writerStep? = some m') :
    Move m (.step .writer) m' := by
  rw [writerStep?] at h
  split at h
  next idle =>
    cases entries : m.queue.entries with
    | nil => simp [Queue.take?, entries] at h
    | cons e es =>
        simp only [Queue.take?, entries, Option.map_some, Option.some.injEq] at h
        subst h
        exact .take idle entries
  next r busy =>
    split at h
    · cases h
    next free =>
      simp only [save_eq, Option.some.injEq] at h
      exact h ▸ .save busy (by simpa using free)
  next busy =>
    cases h
    exact .stop busy
  next last finishing =>
    cases h
    exact .finish finishing
  next => cases h

/-- A step of a call is a move. -/
theorem callStep_move {m m' : Machine σ} {i : Nat} (h : m.callStep? i = some m') :
    Move m (.step (.call i)) m' := by
  cases found : m.calls[i]? with
  | none => simp [callStep?, found] at h
  | some c =>
      obtain ⟨pre, post, calls, modify⟩ := calls_around found
      obtain ⟨stage, t⟩ := c
      have put (stage' : Stage) :
          m.calls.modify i (fun c => { c with stage := stage' }) = pre ++ ⟨stage', t⟩ :: post :=
        modify _
      simp only [callStep?, found, bind, Option.bind_some] at h
      cases stage with
      | submitting s =>
          simp only [submit, conclude, proceed, put, Option.some.injEq] at h
          split at h
          next closed => exact h ▸ .refuse calls closed
          next opened =>
            split at h
            next e refused => exact h ▸ .reject calls (by simpa using opened) refused
            next r drafted => exact h ▸ .read calls (by simpa using opened) drafted
      | entering r =>
          simp only [enter?, conclude, proceed, put] at h
          split at h
          · cases h
          next free =>
            split at h <;> cases h
            next closed => exact .refuseLate calls (by simpa using free) closed
            next opened => exact .lock calls (by simpa using free) (by simpa using opened)
      | putting r =>
          simp only [putRecord?, Queue.put?, note, conclude, proceed, put] at h
          split at h <;> cases h
          exact .put calls ‹_›
      | closing drain =>
          simp only [close?, conclude, proceed, put] at h
          split at h
          · cases h
          next free =>
            split at h <;> cases h
            next closed => exact .closeAgain calls (by simpa using free) closed
            next opened => exact .close calls (by simpa using free) (by simpa using opened)
      | discarding n =>
          simp only [discard, Queue.take?, note, proceed, put, Option.some.injEq] at h
          cases entries : m.queue.entries with
          | nil => exact h ▸ by simpa only [entries] using .discarded calls entries
          | cons e es => exact h ▸ by simpa only [entries] using .discardOne calls entries
      | discardingOne e n =>
          simp only [Machine.drop, note, proceed, put, Option.some.injEq] at h
          exact h ▸ .drop calls
      | stopping =>
          simp only [Queue.put?, proceed, put] at h
          split at h <;> cases h
          exact .mark calls ‹_›
      | joining =>
          simp only [proceed, put] at h
          split at h <;> cases h
          exact .join calls ‹_›
      | sweeping n =>
          simp only [sweep, Queue.take?, note, conclude, proceed, put, Option.some.injEq] at h
          cases entries : m.queue.entries with
          | nil => exact h ▸ by simpa only [entries] using .swept calls entries
          | cons e es => exact h ▸ by simpa only [entries] using .sweepOne calls entries
      | sweepingOne e n =>
          simp only [Machine.drop, note, proceed, put, Option.some.injEq] at h
          exact h ▸ .dropLate calls
      | waiting =>
          simp only [conclude, proceed, put] at h
          split at h <;> cases h
          exact .waited calls ‹_›
      | _ => cases h

/-- What the clock does is a move. -/
theorem expire_move {m m' : Machine σ} {i : Nat} (h : m.expire? i = some m') :
    Move m (.step (.clock i)) m' := by
  cases found : m.calls[i]? with
  | none => simp [expire?, found] at h
  | some c =>
      obtain ⟨pre, post, calls, modify⟩ := calls_around found
      obtain ⟨stage, t⟩ := c
      have put (stage' : Stage) :
          m.calls.modify i (fun c => { c with stage := stage' }) = pre ++ ⟨stage', t⟩ :: post :=
        modify _
      simp only [expire?, found, bind, Option.bind_some] at h
      cases t with
      | none => cases h
      | some t =>
          rw [Option.bind_some] at h
          cases stage with
          | closing drain =>
              simp only [note, conclude, proceed, put] at h
              split at h <;> cases h
              exact .expireLock calls ‹_›
          | stopping =>
              simp only [note, conclude, proceed, put] at h
              split at h <;> cases h
              exact .expireMark calls (by simpa using ‹¬m.queue.hasRoom = true›)
          | joining =>
              simp only [note, conclude, proceed, put] at h
              split at h <;> cases h
              exact .expireJoin calls ‹_›
          | waiting =>
              simp only [conclude, proceed, put] at h
              split at h <;> cases h
              exact .expireWait calls ‹_›
          | _ => cases h

/-- What an action can do is a move. -/
theorem act?_move {m m' : Machine σ} {a : Action} (h : m.act? a = some m') : Move m a m' := by
  cases a with
  | call c =>
      simp only [act?] at h
      split at h <;> cases h
      exact .call ‹_›
  | step a =>
      cases a with
      | writer => exact writerStep_move h
      | call i => exact callStep_move h
      | clock i => exact expire_move h
  | hold held =>
      cases h
      exact .hold
  | forget =>
      simp only [act?, forgetCalls] at h
      split at h <;> cases h
      · exact .forget ‹_›
      · exact .keep

/-- What holds at the start and is kept by every move holds after a run. -/
theorem follow?_invariant {P : Machine σ → Prop} {as : List Action} {m m' : Machine σ}
    (h : m.follow? as = some m') (start : P m)
    (kept : ∀ {m a m'}, a ∈ as → P m → Move m a m' → P m') : P m' := by
  induction as generalizing m with
  | nil =>
      cases h
      exact start
  | cons a as ih =>
      rw [follow?, List.foldlM_cons] at h
      cases first : m.act? a with
      | none => simp [first] at h
      | some m₁ =>
          rw [first] at h
          exact ih h (kept List.mem_cons_self start (act?_move first))
            fun member => kept (List.mem_cons_of_mem a member)

theorem follow?_append {m m₁ m₂ : Machine σ} {as bs : List Action}
    (h₁ : m.follow? as = some m₁) (h₂ : m₁.follow? bs = some m₂) :
    m.follow? (as ++ bs) = some m₂ := by
  rw [follow?] at h₁
  rw [follow?, List.foldlM_append, h₁]
  exact h₂

/-! ## Calls as runs -/

/-- Running to the end of a bound is a run, whichever step is chosen each time. -/
theorem runFor_follow {choose? : Machine σ → Option (Machine σ)}
    (h : ∀ m m', choose? m = some m' → ∃ a, m.step? a = some m') (bound : Nat) (m : Machine σ) :
    ∃ steps : List Actor, m.follow? (steps.map .step) = some (runFor choose? bound m) := by
  induction bound generalizing m with
  | zero => exact ⟨[], rfl⟩
  | succ bound ih =>
      cases chosen : choose? m with
      | none => exact ⟨[], by simp [runFor, chosen, follow?]⟩
      | some next =>
          obtain ⟨a, step⟩ := h m next chosen
          obtain ⟨steps, rest⟩ := ih next
          have head : m.follow? [.step a] = some next := by simp [follow?, act?, step]
          exact ⟨a :: steps, by simpa [runFor, chosen] using follow?_append head rest⟩

theorem run_follow (m : Machine σ) :
    ∃ steps : List Actor, m.follow? (steps.map .step) = some m.run :=
  runFor_follow (fun _ _ h => (List.exists_of_findSome?_eq_some h).imp fun _ found => found.2) _ m

theorem runCall_follow (i : Nat) (m : Machine σ) :
    ∃ steps : List Actor, m.follow? (steps.map .step) = some (m.runCall i) :=
  runFor_follow (fun _ _ h => ⟨.call i, h⟩) _ m

theorem expire_follow (i : Nat) (m : Machine σ) :
    ∃ steps : List Actor, m.follow? (steps.map .step) = some ((m.expire? i).getD m) := by
  cases expired : m.expire? i with
  | none => exact ⟨[], rfl⟩
  | some next => exact ⟨[.clock i], by simp [follow?, act?, step?, expired]⟩

theorem forget_follow (m : Machine σ) : m.follow? [.forget] = some m.forgetCalls := rfl

/-- Performing a call is a run that begins with the call. -/
theorem perform_follow {c : Call} (first : c.stage.isFirst = true) (m : Machine σ) :
    ∃ steps : List Actor,
      m.follow? (.call c :: steps.map .step ++ [.forget]) = some (m.perform c).1 := by
  have begun : m.follow? [.call c] = some (m.start c) := by simp [follow?, act?, first]
  obtain ⟨steps₁, h₁⟩ : ∃ steps : List Actor, (m.start c).follow? (steps.map .step) =
      some (if c.timeout.any Binary64.isZero then (m.start c).runCall m.calls.length
        else (m.start c).run) := by
    split
    · exact runCall_follow _ _
    · exact run_follow _
  obtain ⟨steps₂, h₂⟩ := expire_follow m.calls.length
    (if c.timeout.any Binary64.isZero then (m.start c).runCall m.calls.length
      else (m.start c).run)
  obtain ⟨steps₃, h₃⟩ := run_follow (((if c.timeout.any Binary64.isZero then
    (m.start c).runCall m.calls.length else (m.start c).run).expire? m.calls.length).getD _)
  have all := follow?_append (follow?_append (follow?_append begun h₁) h₂) h₃
  have ended : m.follow? _ = some (m.perform c).1 := follow?_append all (forget_follow _)
  exact ⟨steps₁ ++ steps₂ ++ steps₃, by simpa using ended⟩

/-- Letting the writer go is a run. -/
theorem release_follow (m : Machine σ) :
    ∃ steps : List Actor,
      m.follow? (.hold false :: steps.map .step ++ [.forget]) = some m.release.1 := by
  obtain ⟨steps, h⟩ := run_follow { m with held := false }
  have begun : m.follow? [.hold false] = some { m with held := false } := rfl
  have ended : m.follow? _ = some m.release.1 :=
    follow?_append (follow?_append begun h) (forget_follow _)
  exact ⟨steps, by simpa using ended⟩

end Machine

variable {σ : Type} [Files σ]

/-! ## Opening -/

/-- A store that nobody has called yet. All that was reported is that directories could not be
    made. -/
structure Machine.Fresh (m : Machine σ) : Prop where
  entries : m.queue.entries = []
  writer : m.writer = .idle
  locked : m.locked = false
  closed : m.closed = false
  calls : m.calls = []
  history : ∀ e ∈ m.history, ∃ path, e = .noticed (.directoryNotMade path)

theorem fresh_makeDirectory {m : Machine σ} (fresh : m.Fresh) (path : Text) :
    (makeDirectory m path).Fresh := by
  obtain ⟨entries, writer, locked, closed, calls, history⟩ := fresh
  rw [makeDirectory]
  split
  · exact ⟨entries, writer, locked, closed, calls, history⟩
  · refine ⟨entries, writer, locked, closed, calls, fun e member => ?_⟩
    obtain old | rfl : e ∈ m.history ∨ e = .noticed (.directoryNotMade path) := by
      simpa [Machine.note] using member
    · exact history e old
    · exact ⟨path, rfl⟩

theorem fresh_openAt (files : σ) (path : Text) (readOnly : Bool) (size : Int)
    (observer : Observer) (broken : List Text) :
    (openAt files path readOnly size observer broken).machine.Fresh := by
  have bare : Machine.Fresh
      ({ shelf := .ofPath path, observer, files, broken, queue := .ofSize size } : Machine σ) :=
    ⟨rfl, rfl, rfl, rfl, rfl, by simp⟩
  cases readOnly with
  | true => exact bare
  | false => exact fresh_makeDirectory (fresh_makeDirectory bare _) _

/-! ## The calls -/

/-- A run in which no call gives up what waits. -/
def Gentle (as : List Action) : Prop :=
  ∀ a ∈ as, a.discards = false

instance (as : List Action) : Decidable (Gentle as) :=
  inferInstanceAs (Decidable (∀ a ∈ as, a.discards = false))

theorem gentle_perform {c : Call} (h : (Action.call c).discards = false)
    (steps : List Machine.Actor) : Gentle (.call c :: steps.map .step ++ [.forget]) := by
  intro a member
  simp only [List.cons_append, List.mem_cons, List.mem_append, List.mem_map, List.not_mem_nil,
    or_false] at member
  obtain rfl | ⟨_, _, rfl⟩ | rfl := member
  · exact h
  · rfl
  · rfl

/-- Submitting a document is a run that gives up nothing. -/
theorem set_follow (s : Store σ) (submission : Submission) :
    ∃ as, Gentle as ∧ s.machine.follow? as = some (s.set submission).1.machine := by
  by_cases readOnly : s.readOnly = true
  · exact ⟨[], by simp [Gentle], by simp [set, readOnly, Machine.follow?]⟩
  · obtain ⟨steps, run⟩ := Machine.perform_follow (c := ⟨.submitting submission, none⟩) rfl s.machine
    refine ⟨_, gentle_perform rfl steps, run.trans ?_⟩
    simp only [set, readOnly, Bool.false_eq_true, if_false]
    obtain ⟨machine, o⟩ := s.machine.perform _
    cases o with
    | none => rfl
    | some o => cases o <;> rfl

/-- Waiting is a run that gives up nothing. -/
theorem wait_follow (s : Store σ) (timeout : Option Binary64) :
    ∃ as, Gentle as ∧ s.machine.follow? as = some (s.wait timeout).1.machine := by
  by_cases readOnly : s.readOnly = true
  · exact ⟨[], by simp [Gentle], by simp [wait, readOnly, Machine.follow?]⟩
  · obtain ⟨steps, run⟩ := Machine.perform_follow (c := ⟨.waiting, timeout⟩) rfl s.machine
    refine ⟨_, gentle_perform rfl steps, run.trans ?_⟩
    simp only [wait, readOnly, Bool.false_eq_true, if_false]
    obtain ⟨machine, o⟩ := s.machine.perform _
    cases o with
    | none => rfl
    | some o => cases o <;> rfl

/-- Closing is a run, which gives up nothing if it drains. -/
theorem close_follow (s : Store σ) (drain : Bool) (timeout : Option Binary64) :
    ∃ as, (drain = true → Gentle as) ∧
      s.machine.follow? as = some (s.close drain timeout).machine := by
  by_cases readOnly : s.readOnly = true
  · exact ⟨[], by simp [Gentle], by simp [close, readOnly, Machine.follow?]⟩
  · obtain ⟨steps, run⟩ := Machine.perform_follow (c := ⟨.closing drain, timeout⟩) rfl s.machine
    refine ⟨_, ?_, by simpa [close, readOnly] using run⟩
    rintro rfl
    exact gentle_perform rfl steps

end ApprovedOps.Store
