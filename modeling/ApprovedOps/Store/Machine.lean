import ApprovedOps.Store.Lookup
import ApprovedOps.Store.Queue
import ApprovedOps.Store.Submission
import ApprovedOps.Number.Binary64

/-! # The store as a machine

A store has a writer, which saves one record after the other, and any number of calls in progress,
which set a record, close the store or wait for it. The writer and the calls take steps one at a
time, in any order; a step that cannot be taken yet is `none`. All that happens is kept as a history
of events.
-/

namespace ApprovedOps

namespace Store

/-- Something that is reported to whoever watches the store. -/
inductive Notice where
  /-- A directory could not be made. -/
  | directoryNotMade (path : Text)
  /-- A record was not saved. -/
  | notSaved (e : SaveError)
  /-- The observer failed on an outcome. -/
  | observerFailed
  /-- The store was not closed, since a record is still being set. -/
  | closeTimedOut
  /-- Records were given up when the store was closed. -/
  | discarded (count : Nat)
  /-- The writer has not ended in the given time. -/
  | writerBusy (timeout : Binary64)
  /-- Records came while the store was being closed. -/
  | discardedLate (count : Nat)

/-- Something that has happened. -/
inductive Event where
  /-- A record was put into the queue. -/
  | accepted (r : Record)
  /-- The saving of a record has ended. -/
  | saved (s : SaveResult)
  /-- An entry was given up. -/
  | dropped (e : Entry)
  /-- Something was reported. -/
  | noticed (n : Notice)

/-- What the writer is doing. -/
inductive Writer where
  /-- It waits for an entry. -/
  | idle
  /-- It has taken an entry. -/
  | busy (e : Entry)
  /-- It has dealt with an entry but not reported it as done. -/
  | finishing (last : Bool)
  /-- It has ended. -/
  | ended
  deriving DecidableEq, Repr

/-- Who looks at the outcomes. -/
inductive Observer where
  /-- Nobody. -/
  | nobody
  /-- Somebody who takes note of them. -/
  | attentive
  /-- Somebody who takes note of them and then fails. -/
  | failing
  deriving DecidableEq, Repr

/-- How a call has ended. -/
inductive Outcome where
  /-- The record is in the queue. -/
  | queued
  /-- The store is closed. -/
  | refused
  /-- The submission is not accepted. -/
  | rejected (e : SetError)
  /-- The store is closed by now, or the time was up. -/
  | closed
  /-- Everything that was put is done, or else the time was up. -/
  | waited (complete : Bool)
  deriving DecidableEq, Repr

/-- Where a call is. -/
inductive Stage where
  /-- To set a record: the store is to be seen open, and the submission is to be read. -/
  | submitting (s : Submission)
  /-- To set a record: the lock is to be acquired. -/
  | entering (r : Record)
  /-- To set a record: the lock is held, and the record is to be put. -/
  | putting (r : Record)
  /-- To close: the store is to be marked as closed. -/
  | closing (drain : Bool)
  /-- To close: the next waiting entry is to be taken; `count` were given up. -/
  | discarding (count : Nat)
  /-- To close: an entry was taken and is to be reported as done. -/
  | discardingOne (e : Entry) (count : Nat)
  /-- To close: the mark is to be put. -/
  | stopping
  /-- To close: the writer is to end. -/
  | joining
  /-- To close: the next late entry is to be taken; `count` were given up. -/
  | sweeping (count : Nat)
  /-- To close: a late entry was taken and is to be reported as done. -/
  | sweepingOne (e : Entry) (count : Nat)
  /-- To wait: everything that was put is to be done. -/
  | waiting
  /-- The call has ended. -/
  | over (o : Outcome)
  deriving DecidableEq, Repr

/-- A call in progress. -/
structure Call where
  /-- Where it is. -/
  stage : Stage
  /-- How many seconds it waits for the lock, for room and for the writer; none for any time. -/
  timeout : Option Binary64 := none
  deriving DecidableEq, Repr

/-- A store at work, whose files are in a file system of type `σ`. -/
structure Machine (σ : Type) where
  /-- Where the files are. -/
  shelf : Shelf
  /-- Who looks at the outcomes. -/
  observer : Observer
  /-- The files. -/
  files : σ
  /-- The paths that cannot be written. -/
  broken : List Text := []
  /-- The queue. -/
  queue : Queue
  /-- The writer. -/
  writer : Writer := .idle
  /-- Is the writer kept from saving? -/
  held : Bool := false
  /-- Is the lock held by a call that sets a record? -/
  locked : Bool := false
  /-- Is the store closed? -/
  closed : Bool := false
  /-- The calls by their numbers. -/
  calls : List Call := []
  /-- What has happened, in order. -/
  history : List Event := []

namespace Machine

variable {σ : Type} [Files σ]

/-- Adds to the history. -/
def note (m : Machine σ) (events : List Event) : Machine σ :=
  { m with history := m.history ++ events }

/-- The writer saves a record and tells the observer. -/
def save (m : Machine σ) (r : Record) : Machine σ :=
  let (files, result) := m.shelf.save m.broken m.files r
  let m := { m with files }.note
    ((result.error.toList.map fun e => Event.noticed (.notSaved e)) ++ [Event.saved result])
  if m.observer = .failing then m.note [.noticed .observerFailed] else m

/-- A step of the writer. -/
def writerStep? (m : Machine σ) : Option (Machine σ) :=
  match m.writer with
  | .idle => m.queue.take?.map fun (e, queue) => { m with queue, writer := .busy e }
  | .busy (.record r) => if m.held then none else some { m.save r with writer := .finishing false }
  | .busy .stop => some { m with writer := .finishing true }
  | .finishing last =>
    some { m with queue := m.queue.done, writer := if last then .ended else .idle }
  | .ended => none

/-- A call comes to a stage. -/
def proceed (m : Machine σ) (i : Nat) (stage : Stage) : Machine σ :=
  { m with calls := m.calls.modify i fun c => { c with stage } }

/-- A call has ended. -/
def conclude (m : Machine σ) (i : Nat) (o : Outcome) : Machine σ :=
  m.proceed i (.over o)

/-- The call puts its record, if there is room, and gives the lock back. -/
def putRecord? (m : Machine σ) (i : Nat) (r : Record) : Option (Machine σ) :=
  (m.queue.put? (.record r)).map fun queue =>
    ({ m with queue, locked := false }.note [.accepted r]).conclude i .queued

/-- The call looks whether the store is closed, without the lock, and reads the submission. -/
def submit (m : Machine σ) (i : Nat) (s : Submission) : Machine σ :=
  if m.closed then
    m.conclude i .refused
  else
    match s.draft with
    | .error e => m.conclude i (.rejected e)
    | .ok r => m.proceed i (.entering r)

/-- The call acquires the lock and looks again whether the store is closed. -/
def enter? (m : Machine σ) (i : Nat) (r : Record) : Option (Machine σ) :=
  if m.locked then none
  else if m.closed then some (m.conclude i .refused)
  else some ({ m with locked := true }.proceed i (.putting r))

/-- The call marks the store as closed, unless it already is. -/
def close? (m : Machine σ) (i : Nat) (drain : Bool) : Option (Machine σ) :=
  if m.locked then none
  else if m.closed then some (m.conclude i .closed)
  else some ({ m with closed := true }.proceed i (if drain then .stopping else .discarding 0))

/-- The notice of given up records, if there are any. -/
def countNotice (notice : Nat → Notice) (count : Nat) : List Event :=
  if count = 0 then [] else [.noticed (notice count)]

/-- The call gives up the next waiting entry, or goes on to put the mark. -/
def discard (m : Machine σ) (i count : Nat) : Machine σ :=
  match m.queue.take? with
  | some (e, queue) => { m with queue }.proceed i (.discardingOne e count)
  | none => (m.note (countNotice .discarded count)).proceed i .stopping

/-- The call gives up the next late entry, or ends. -/
def sweep (m : Machine σ) (i count : Nat) : Machine σ :=
  match m.queue.take? with
  | some (e, queue) => { m with queue }.proceed i (.sweepingOne e count)
  | none => (m.note (countNotice .discardedLate count)).conclude i .closed

/-- The call reports a given up entry as done. -/
def drop (m : Machine σ) (i : Nat) (e : Entry) (next : Stage) : Machine σ :=
  ({ m with queue := m.queue.done }.note [.dropped e]).proceed i next

/-- A step of a call. -/
def callStep? (m : Machine σ) (i : Nat) : Option (Machine σ) := do
  match (← m.calls[i]?).stage with
  | .submitting s => some (m.submit i s)
  | .entering r => m.enter? i r
  | .putting r => m.putRecord? i r
  | .closing drain => m.close? i drain
  | .discarding count => some (m.discard i count)
  | .discardingOne e count => some (m.drop i e (.discarding (count + 1)))
  | .stopping => (m.queue.put? .stop).map fun queue => { m with queue }.proceed i .joining
  | .joining => if m.writer = .ended then some (m.proceed i (.sweeping 0)) else none
  | .sweeping count => some (m.sweep i count)
  | .sweepingOne e count => some (m.drop i e (.sweeping (count + 1)))
  | .waiting => if m.queue.unfinished = 0 then some (m.conclude i (.waited true)) else none
  | .over _ => none

/-- The time of a call is up. Only a call with a timeout that cannot go on gives up. -/
def expire? (m : Machine σ) (i : Nat) : Option (Machine σ) := do
  let c ← m.calls[i]?
  let timeout ← c.timeout
  match c.stage with
  | .closing _ =>
    if m.locked then some ((m.note [.noticed .closeTimedOut]).conclude i .closed) else none
  | .stopping =>
    if m.queue.hasRoom then none
    else some ((m.note [.noticed (.writerBusy timeout)]).conclude i .closed)
  | .joining =>
    if m.writer = .ended then none
    else some ((m.note [.noticed (.writerBusy timeout)]).conclude i .closed)
  | .waiting =>
    if m.queue.unfinished = 0 then none else some (m.conclude i (.waited false))
  | _ => none

/-- Who takes a step. -/
inductive Actor where
  /-- The writer. -/
  | writer
  /-- A call. -/
  | call (i : Nat)
  /-- The clock, for a call whose time is up. -/
  | clock (i : Nat)
  deriving DecidableEq, Repr

/-- A step of an actor. -/
def step? (m : Machine σ) : Actor → Option (Machine σ)
  | .writer => m.writerStep?
  | .call i => m.callStep? i
  | .clock i => m.expire? i

/-- A new call. -/
def start (m : Machine σ) (c : Call) : Machine σ :=
  { m with calls := m.calls ++ [c] }

/-! ## Running -/

/-- All actors but the clock; the writer comes first. -/
def actors (m : Machine σ) : List Actor :=
  .writer :: (List.range m.calls.length).map .call

/-- The first step that some actor can take. -/
def firstStep? (m : Machine σ) : Option (Machine σ) :=
  m.actors.findSome? m.step?

/-- Steps of a choice until there is none, at most as many as the bound allows. -/
def runFor (choose? : Machine σ → Option (Machine σ)) : Nat → Machine σ → Machine σ
  | 0, m => m
  | bound + 1, m =>
    match choose? m with
    | some next => runFor choose? bound next
    | none => m

/-- A bound on the steps that are possible without the clock: an entry takes the writer three steps,
    or a call two; and a call takes few steps of its own and puts at most one entry. -/
def stepBound (m : Machine σ) : Nat :=
  4 * m.queue.entries.length + 16 * m.calls.length + 8

/-- Steps until no actor can take one. -/
def run (m : Machine σ) : Machine σ :=
  runFor firstStep? m.stepBound m

/-- Steps of one call until it has to wait. -/
def runCall (i : Nat) (m : Machine σ) : Machine σ :=
  runFor (callStep? · i) m.stepBound m

/-- How a call has ended, if it has. -/
def outcome? (m : Machine σ) (i : Nat) : Option Outcome :=
  match m.calls[i]? with
  | some ⟨.over o, _⟩ => some o
  | _ => none

/-- Has the call ended? -/
def isOver (c : Call) : Bool :=
  match c.stage with
  | .over _ => true
  | _ => false

/-- Forgets the calls, if all have ended. -/
def forgetCalls (m : Machine σ) : Machine σ :=
  if m.calls.all isOver then { m with calls := [] } else m

/-- Makes a call and lets everything go on as far as it can. If the call cannot end, its time is
    up. A call with no time at all does not let the writer go first. -/
def perform (m : Machine σ) (c : Call) : Machine σ × Option Outcome :=
  let i := m.calls.length
  let m := m.start c
  let m := if c.timeout.any Binary64.isZero then m.runCall i else m.run
  let m := ((m.expire? i).getD m).run
  (m.forgetCalls, m.outcome? i)

/-- Keeps the writer from saving the next record. -/
def hold (m : Machine σ) : Machine σ :=
  { m with held := true }

/-- Lets the writer go on, and tells how the call has ended that could not put its record. -/
def release (m : Machine σ) : Machine σ × Option Outcome :=
  let i := m.calls.findIdx (!isOver ·)
  let m := { m with held := false }.run
  (m.forgetCalls, m.outcome? i)

end Machine

end Store

end ApprovedOps
