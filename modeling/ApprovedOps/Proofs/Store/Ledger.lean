import Mathlib
import ApprovedOps.Files.Tree
import ApprovedOps.Proofs.Store.Marker

/-! # Accounts of accepted records

Every record that was accepted is in one place: saved, in the writer's hands, queued, or given up by
a call that closes the store without draining and counts it. The writer and such a call take from
the head of the same queue, so an account says of every record that left it who took it.
`Accounted` is kept by every move, and the saves it lists are those of one save after the other.
-/

namespace ApprovedOps

/-- Saves records one after the other. -/
def Shelf.saveAll {σ : Type} [Files σ] (s : Shelf) (broken : List Text) :
    σ → List Record → σ × List SaveResult
  | fs, [] => (fs, [])
  | fs, r :: rs =>
    let (fs, result) := s.save broken fs r
    let (fs, results) := saveAll s broken fs rs
    (fs, result :: results)

/-- The record of an entry, unless it is the mark. -/
def Entry.record? : Entry → Option Record
  | .record r => some r
  | .stop => none

namespace Store

/-- Who takes records from the queue. -/
inductive Taker where
  /-- The writer, to save them. -/
  | writer
  /-- A call that closes the store, to give them up. -/
  | closer
  deriving DecidableEq

/-- The records that one of them took, in order. -/
def takenBy (who : Taker) (taken : List (Record × Taker)) : List Record :=
  (taken.filter (·.2 = who)).map (·.1)

/-- The record in the hands of the writer. -/
def Writer.inHand : Writer → List Record
  | .busy (.record r) => [r]
  | _ => []

/-- The record that a call has taken and not counted yet. -/
def Stage.inHand? : Stage → Option Record
  | .discardingOne e _ | .sweepingOne e _ => e.record?
  | _ => none

/-- How many entries a call has given up that are not yet reported. -/
def Stage.count : Stage → Nat
  | .discarding n | .discardingOne _ n | .sweeping n | .sweepingOne _ n => n
  | _ => 0

namespace Event

/-- The record that was accepted. -/
def accepted? : Event → Option Record
  | .accepted r => some r
  | _ => none

/-- The outcome that was delivered. -/
def outcome? : Event → Option SaveResult
  | .saved s => some s
  | _ => none

/-- The record that was given up. -/
def dropped? : Event → Option Record
  | .dropped e => e.record?
  | _ => none

/-- How many given up entries are reported. -/
def count : Event → Nat
  | .noticed (.discarded n) | .noticed (.discardedLate n) => n
  | _ => 0

end Event

namespace Machine

variable {σ : Type}

/-- The records that were accepted, in order. -/
def accepted (m : Machine σ) : List Record :=
  m.history.filterMap Event.accepted?

/-- The outcomes that were delivered, in order. -/
def outcomes (m : Machine σ) : List SaveResult :=
  m.history.filterMap Event.outcome?

/-- The records in the queue, the next one first. -/
def queued (m : Machine σ) : List Record :=
  m.queue.entries.filterMap Entry.record?

/-- The records that were given up, with those that are just being given up. -/
def discarded (m : Machine σ) : List Record :=
  m.history.filterMap Event.dropped? ++ m.calls.filterMap (·.stage.inHand?)

/-- How many records are counted as given up, by a report or by a call in progress, with those that
    are just being given up. -/
def counted (m : Machine σ) : Nat :=
  (m.history.map Event.count).sum + (m.calls.map (·.stage.count)).sum +
    (m.calls.filterMap (·.stage.inHand?)).length

variable [Files σ]

/-- An account of all accepted records: who took those that left the queue, and which of them are
    saved, starting from the files `files`. -/
structure Accounted (m : Machine σ) (files : σ) (taken : List (Record × Taker))
    (saved : List Record) : Prop where
  /-- What was accepted was taken or is queued, in order. -/
  accepted : m.accepted = taken.map (·.1) ++ m.queued
  /-- What the writer took is saved or in its hands, in order. -/
  writer : takenBy .writer taken = saved ++ m.writer.inHand
  /-- The files and the outcomes are those of saving one record after the other. -/
  saves : (m.files, m.outcomes) = m.shelf.saveAll m.broken files saved
  /-- What others took was given up. -/
  closer : takenBy .closer taken = m.discarded
  /-- What was given up is counted. -/
  counted : m.discarded.length = m.counted

end Machine

end Store

theorem Shelf.saveAll_append {σ : Type} [Files σ] (s : Shelf) (broken : List Text) (fs : σ)
    (rs : List Record) (r : Record) :
    s.saveAll broken fs (rs ++ [r]) =
      let (fs, results) := s.saveAll broken fs rs
      let (fs, result) := s.save broken fs r
      (fs, results ++ [result]) := by
  induction rs generalizing fs with
  | nil => rfl
  | cons first rs ih => simp only [List.cons_append, saveAll, ih]

namespace Store

@[simp, grind =] theorem takenBy_append (who : Taker) (taken more : List (Record × Taker)) :
    takenBy who (taken ++ more) = takenBy who taken ++ takenBy who more := by
  simp [takenBy]

/-- A call that begins has nothing in its hands. -/
theorem Stage.isFirst_new {s : Stage} (h : s.isFirst = true) :
    s.inHand? = none ∧ s.count = 0 := by
  cases s <;> simp_all [Stage.isFirst, Stage.inHand?, Stage.count]

/-- What one of them took was taken. -/
theorem takenBy_sublist (who : Taker) (taken : List (Record × Taker)) :
    (takenBy who taken).Sublist (taken.map (·.1)) :=
  List.filter_sublist.map _

/-- What was taken, the writer or a closing call took. -/
theorem takenBy_perm (taken : List (Record × Taker)) :
    (takenBy .writer taken ++ takenBy .closer taken).Perm (taken.map (·.1)) := by
  have others : taken.filter (·.2 = .closer) = taken.filter fun p => !decide (p.2 = .writer) := by
    refine List.filter_congr fun p _ => ?_
    cases p.2 <;> rfl
  rw [takenBy, takenBy, others, ← List.map_append]
  exact (List.filter_append_perm _ taken).map _

namespace Machine

theorem over_sum {calls : List Call} (ended : calls.all isOver = true) {f : Stage → Nat}
    (none : ∀ o, f (.over o) = 0) : (calls.map fun c => f c.stage).sum = 0 := by
  rw [List.sum_eq_zero_iff_forall_eq_nat, List.forall_mem_map]
  intro c member
  obtain ⟨o, over_⟩ := over_stage ended member
  rw [over_, none]

/-- Calls that have ended have nothing in their hands. -/
theorem over_views {calls : List Call} (ended : calls.all isOver = true) :
    calls.filterMap (·.stage.inHand?) = [] ∧ (calls.map (·.stage.count)).sum = 0 := by
  constructor
  · rw [List.filterMap_eq_nil_iff]
    intro c member
    obtain ⟨o, over_⟩ := over_stage ended member
    rw [over_]
    rfl
  · exact over_sum ended fun _ => rfl

theorem countNotice_views (n : Nat) :
    (countNotice .discarded n).filterMap Event.accepted? = [] ∧
    (countNotice .discarded n).filterMap Event.outcome? = [] ∧
    (countNotice .discarded n).filterMap Event.dropped? = [] ∧
    ((countNotice .discarded n).map Event.count).sum = n := by
  by_cases zero : n = 0 <;>
    simp [countNotice, zero, Event.accepted?, Event.outcome?, Event.dropped?, Event.count]

variable {σ : Type} {m m' : Machine σ} {a : Action}

/-- While a call owes the mark, no other has a record in its hands. -/
theorem Orderly.inHand_nil {pre post : List Call} {stage t} (orderly : m.Orderly)
    (calls : m.calls = pre ++ ⟨stage, t⟩ :: post) (owes : stage.owesMark = true) :
    pre.filterMap (·.stage.inHand?) = [] ∧ post.filterMap (·.stage.inHand?) = [] := by
  obtain ⟨_, _, before, after⟩ := orderly.owing calls owes
  have none : ∀ c ∈ m.calls, c.stage.owesMark = false → c.stage.inHand? = none := by
    intro c member free
    have swept := orderly.swept c member
    cases stage : c.stage <;> simp_all [Stage.isSweeping, Stage.owesMark, Stage.inHand?]
  constructor
  · rw [List.filterMap_eq_nil_iff]
    intro c member
    exact none c (by simp [calls, member]) (by simpa using List.countP_eq_zero.mp before c member)
  · rw [List.filterMap_eq_nil_iff]
    intro c member
    exact none c (by simp [calls, member]) (by simpa using List.countP_eq_zero.mp after c member)

variable [Files σ]

@[simp, grind =] theorem saveEvents_accepted (m : Machine σ) (r : Record) :
    (m.saveEvents r).filterMap Event.accepted? = [] := by
  cases h : (m.shelf.save m.broken m.files r).2.error <;>
    simp only [saveEvents, h] <;> split <;> rfl

@[simp, grind =] theorem saveEvents_outcomes (m : Machine σ) (r : Record) :
    (m.saveEvents r).filterMap Event.outcome? = [(m.shelf.save m.broken m.files r).2] := by
  cases h : (m.shelf.save m.broken m.files r).2.error <;>
    simp only [saveEvents, h] <;> split <;> rfl

@[simp, grind =] theorem saveEvents_dropped (m : Machine σ) (r : Record) :
    (m.saveEvents r).filterMap Event.dropped? = [] := by
  cases h : (m.shelf.save m.broken m.files r).2.error <;>
    simp only [saveEvents, h] <;> split <;> rfl

@[simp, grind =] theorem saveEvents_count (m : Machine σ) (r : Record) :
    ((m.saveEvents r).map Event.count).sum = 0 := by
  cases h : (m.shelf.save m.broken m.files r).2.error <;>
    simp only [saveEvents, h] <;> split <;> rfl

namespace Accounted

variable {files : σ} {taken : List (Record × Taker)} {saved : List Record}

/-- What is not given up is dealt with in order of acceptance. -/
theorem inOrder (account : m.Accounted files taken saved) :
    (saved ++ m.writer.inHand ++ m.queued).Sublist m.accepted := by
  rw [← account.writer, account.accepted]
  exact (takenBy_sublist .writer taken).append_right _

/-- Every accepted record is saved, with the writer, in the queue or given up, and only one of
    them. -/
theorem onePlace (account : m.Accounted files taken saved) :
    (saved ++ m.writer.inHand ++ m.queued ++ m.discarded).Perm m.accepted := by
  rw [← account.writer, ← account.closer, account.accepted]
  refine List.Perm.trans ?_ ((takenBy_perm taken).append_right m.queued)
  rw [List.append_assoc, List.append_assoc]
  exact List.perm_append_comm.append_left _

end Accounted

/-- Every move keeps the account, and extends it by what it takes or saves. -/
theorem accounted_kept {files : σ} {taken : List (Record × Taker)} {saved : List Record}
    (move : Move m a m') (orderly : m.Orderly) (account : m.Accounted files taken saved) :
    ∃ taken saved, m'.Accounted files taken saved := by
  obtain ⟨accepted, writer, saves, closer, counted⟩ := account
  cases move with
  | @take e es idle entries =>
      cases e with
      | record r =>
          refine ⟨taken ++ [(r, .writer)], saved, ?_, ?_, saves, ?_, counted⟩
          · grind [Machine.accepted, queued, Entry.record?]
          · grind [takenBy, Writer.inHand]
          · grind [takenBy, Machine.discarded]
      | stop =>
          refine ⟨taken, saved, ?_, ?_, saves, closer, counted⟩
          · grind [Machine.accepted, queued, Entry.record?]
          · grind [Writer.inHand]
  | @save r busy free =>
      refine ⟨taken, saved ++ [r], ?_, ?_, ?_, ?_, ?_⟩
      · simpa [Machine.accepted, queued] using accepted
      · simpa [busy, Writer.inHand] using writer
      · simp [Shelf.saveAll_append, ← saves, outcomes]
      · simpa [Machine.discarded] using closer
      · simpa [Machine.discarded, Machine.counted] using counted
  | finish finishing =>
      refine ⟨taken, saved, accepted, ?_, saves, closer, counted⟩
      grind [Writer.inHand]
  | @call c first =>
      have new := Stage.isFirst_new first
      refine ⟨taken, saved, accepted, writer, saves, ?_, ?_⟩
      · grind [Machine.discarded]
      · grind [Machine.discarded, Machine.counted]
  | forget ended =>
      obtain ⟨inHand, count⟩ := over_views ended
      refine ⟨taken, saved, accepted, writer, saves, ?_, ?_⟩
      · grind [Machine.discarded]
      · grind [Machine.discarded, Machine.counted]
  | put calls room =>
      refine ⟨taken, saved, ?_, writer, ?_, ?_, ?_⟩
      · grind [Machine.accepted, queued, Event.accepted?, Entry.record?]
      · grind [outcomes, Event.outcome?]
      · grind [Machine.discarded, Event.dropped?, Stage.inHand?]
      · grind [Machine.discarded, Machine.counted, Event.dropped?, Event.count, Stage.inHand?,
          Stage.count]
  | mark calls room =>
      refine ⟨taken, saved, ?_, writer, saves, ?_, ?_⟩
      · grind [Machine.accepted, queued, Entry.record?]
      · grind [Machine.discarded, Stage.inHand?]
      · grind [Machine.discarded, Machine.counted, Stage.inHand?, Stage.count]
  | @discardOne i pre n t post e es calls entries =>
      obtain ⟨before, after⟩ := orderly.inHand_nil calls rfl
      cases e with
      | record r =>
          refine ⟨taken ++ [(r, .closer)], saved, ?_, ?_, saves, ?_, ?_⟩
          · grind [Machine.accepted, queued, Entry.record?]
          · grind [takenBy]
          · grind [takenBy, Machine.discarded, Stage.inHand?, Entry.record?]
          · grind [Machine.discarded, Machine.counted, Stage.inHand?, Stage.count, Entry.record?]
      | stop =>
          have none := (orderly.owing calls rfl).1
          simp [entries] at none
  | @drop i pre e n t post calls =>
      obtain ⟨before, after⟩ := orderly.inHand_nil calls rfl
      cases e with
      | record r =>
          refine ⟨taken, saved, ?_, writer, ?_, ?_, ?_⟩
          · grind [Machine.accepted, queued, Event.accepted?]
          · grind [outcomes, Event.outcome?]
          · grind [Machine.discarded, Event.dropped?, Stage.inHand?, Entry.record?]
          · grind [Machine.discarded, Machine.counted, Event.dropped?, Event.count, Stage.inHand?,
              Stage.count, Entry.record?]
      | stop => exact absurd rfl (orderly.spared ⟨_, t⟩ (by simp [calls]) n)
  | @discarded i pre n t post calls entries =>
      obtain ⟨notAccepted, noOutcome, notDropped, count⟩ := countNotice_views n
      refine ⟨taken, saved, ?_, writer, ?_, ?_, ?_⟩
      · grind [Machine.accepted, queued]
      · grind [outcomes]
      · grind [Machine.discarded, Stage.inHand?]
      · grind [Machine.discarded, Machine.counted, Stage.inHand?, Stage.count]
  | sweepOne calls entries => simp [(orderly.sweeping calls rfl).2] at entries
  | @swept i pre n t post calls entries =>
      obtain rfl : n = 0 := by simpa using (orderly.sweeping calls rfl).1
      rw [countNotice, if_pos rfl, List.append_nil]
      refine ⟨taken, saved, accepted, writer, saves, ?_, ?_⟩
      · grind [Machine.discarded, Stage.inHand?]
      · grind [Machine.discarded, Machine.counted, Stage.inHand?, Stage.count]
  | dropLate calls => cases (orderly.sweeping calls rfl).1
  | _ =>
      refine ⟨taken, saved, ?_, ?_, ?_, ?_, ?_⟩
      · grind [Machine.accepted, queued, Event.accepted?]
      · grind [Writer.inHand]
      · grind [outcomes, Event.outcome?]
      · grind [Machine.discarded, Event.dropped?, Stage.inHand?]
      · grind [Machine.discarded, Machine.counted, Event.dropped?, Event.count, Stage.inHand?,
          Stage.count]

/-- A store that nobody has called yet has an empty account. -/
theorem fresh_accounted (fresh : m.Fresh) : m.Accounted m.files [] [] := by
  obtain ⟨entries, writer, _, _, calls, history⟩ := fresh
  have silent {α : Type} (view : Event → Option α)
      (h : ∀ path, view (.noticed (.directoryNotMade path)) = none) :
      m.history.filterMap view = [] := by
    rw [List.filterMap_eq_nil_iff]
    intro e member
    obtain ⟨path, rfl⟩ := history e member
    exact h path
  have uncounted : (m.history.map Event.count).sum = 0 := by
    rw [List.sum_eq_zero_iff_forall_eq_nat]
    intro n member
    obtain ⟨e, past, rfl⟩ := List.mem_map.mp member
    obtain ⟨path, rfl⟩ := history e past
    rfl
  have gaveUp : m.discarded = [] := by
    simp [Machine.discarded, calls, silent Event.dropped? fun _ => rfl]
  constructor
  · simp [Machine.accepted, queued, entries, silent Event.accepted? fun _ => rfl]
  · simp [takenBy, writer, Writer.inHand]
  · simp [Shelf.saveAll, outcomes, silent Event.outcome? fun _ => rfl]
  · simp [takenBy, gaveUp]
  · simp [gaveUp, Machine.counted, calls, uncounted]

/-- An account of a run that began with the store as it was opened. -/
theorem run_accounted {as : List Action} (fresh : m.Fresh) (run : m.follow? as = some m') :
    m'.Orderly ∧ ∃ taken saved, m'.Accounted m.files taken saved := by
  refine follow?_invariant
    (P := fun m' => m'.Orderly ∧ ∃ taken saved, m'.Accounted m.files taken saved) run ?_ ?_
  · exact ⟨fresh_orderly fresh, [], [], fresh_accounted fresh⟩
  · rintro m₁ a m₂ - ⟨orderly, taken, saved, account⟩ move
    exact ⟨orderly_kept move orderly, accounted_kept move orderly account⟩

/-! ## Giving up -/

/-- Nothing is given up unless a call closes the store without draining. -/
theorem undiscarded_kept (move : Move m a m') (gentle : a.discards = false) (orderly : m.Orderly)
    (none : (∀ c ∈ m.calls, c.stage.discards = false) ∧ m.discarded = []) :
    (∀ c ∈ m'.calls, c.stage.discards = false) ∧ m'.discarded = [] := by
  obtain ⟨mild, nothing⟩ := none
  have moved {pre post : List Call} {stage t} (calls : m.calls = pre ++ ⟨stage, t⟩ :: post) :
      stage.discards = false := mild ⟨stage, t⟩ (by simp [calls])
  cases move with
  | @call c first =>
      have new := Stage.isFirst_new first
      exact ⟨by grind [Action.discards], by grind [Machine.discarded]⟩
  | forget ended => exact ⟨by simp, by grind [Machine.discarded, over_views ended]⟩
  | @close i pre drain t post calls =>
      have drains : drain = true := by simpa [Stage.discards] using moved calls
      exact ⟨by grind [Stage.discards], by grind [Machine.discarded, Stage.inHand?]⟩
  | discardOne calls | discarded calls | drop calls => cases moved calls
  | sweepOne calls entries => simp [(orderly.sweeping calls rfl).2] at entries
  | @swept i pre n t post calls entries =>
      obtain rfl : n = 0 := by simpa using (orderly.sweeping calls rfl).1
      rw [countNotice, if_pos rfl, List.append_nil]
      exact ⟨by grind [Stage.discards], by grind [Machine.discarded, Stage.inHand?]⟩
  | dropLate calls => cases (orderly.sweeping calls rfl).1
  | _ =>
      exact ⟨by grind [Stage.discards], by grind [Machine.discarded, Event.dropped?, Stage.inHand?]⟩

theorem run_undiscarded {as : List Action} (fresh : m.Fresh) (run : m.follow? as = some m')
    (gentle : Gentle as) : m'.discarded = [] := by
  have nothing := (fresh_accounted fresh).closer
  suffices m'.Orderly ∧ (∀ c ∈ m'.calls, c.stage.discards = false) ∧ m'.discarded = [] from
    this.2.2
  refine follow?_invariant (P := fun m' => m'.Orderly ∧
    (∀ c ∈ m'.calls, c.stage.discards = false) ∧ m'.discarded = []) run ?_ ?_
  · exact ⟨fresh_orderly fresh, by simp [fresh.calls], nothing.symm⟩
  · rintro m₁ a m₂ member ⟨orderly, undiscarded⟩ move
    exact ⟨orderly_kept move orderly,
      undiscarded_kept move (gentle a member) orderly undiscarded⟩

end Machine

/-! ## Nothing is lost -/

/-- In every state of every run, each accepted record is in one place: saved, with the writer, in
    the queue, or given up and counted. What is not given up is dealt with in order of acceptance,
    and nothing is given up unless a call closes the store without draining. -/
theorem accepted_in_one_place {σ : Type} [Files σ] {files : σ} {path : Text} {size : Int}
    {observer : Observer} {broken : List Text} {as : List Action} {m : Machine σ}
    (run : (openAt files path false size observer broken).machine.follow? as = some m) :
    ∃ taken saved,
      m.Accounted (openAt files path false size observer broken).machine.files taken saved ∧
      (saved ++ m.writer.inHand ++ m.queued).Sublist m.accepted ∧
      (saved ++ m.writer.inHand ++ m.queued ++ m.discarded).Perm m.accepted ∧
      (Gentle as → m.discarded = []) := by
  have fresh := fresh_openAt files path false size observer broken
  obtain ⟨-, taken, saved, account⟩ := Machine.run_accounted fresh run
  exact ⟨taken, saved, account, account.inOrder, account.onePlace,
    Machine.run_undiscarded fresh run⟩

/-- A run in which a call that closes the store races the writer for the queue. -/
def race : List Action :=
  let set (document : String) : Action := .call ⟨.submitting { document }, none⟩
  let step (i : Nat) : Action := .step (.call i)
  [set "query A { a }", step 0, step 0, step 0, .step .writer,
    set "query B { b }", step 1, step 1, step 1, set "query C { c }", step 2, step 2, step 2,
    set "query D { d }", step 3, .call ⟨.closing false, none⟩, step 4, step 4,
    .step .writer, .step .writer, .step .writer, step 4, step 3]

/-- One record is saved, one is with the writer, and one is given up. -/
theorem accepted_in_one_place_of_race :
    ∃ m, (openAt ({} : FileTree) "/" false 0 .failing []).machine.follow? race = some m ∧
      (m.outcomes.length, m.writer.inHand.length, m.discarded.length) = (1, 1, 1) ∧
      ∃ saved, (saved ++ m.writer.inHand ++ m.queued ++ m.discarded).Perm m.accepted := by
  obtain ⟨m, run, places⟩ := Option.map_eq_some_iff.mp (by decide +kernel :
    ((openAt ({} : FileTree) "/" false 0 .failing []).machine.follow? race).map
      (fun m => (m.outcomes.length, m.writer.inHand.length, m.discarded.length)) =
      some (1, 1, 1))
  obtain ⟨taken, saved, account, inOrder, onePlace, undiscarded⟩ := accepted_in_one_place run
  exact ⟨m, run, places, saved, onePlace⟩

end Store

end ApprovedOps
