import ApprovedOps.Proofs.Store.Run

/-! # The lock and the mark

Whoever sets a record holds the lock from the look at the closed flag until the record is put, and
closing needs the lock. So once the store is closed nobody is putting a record, and the one mark
that closing puts is the last entry ever. Everything about closing follows from this.
-/

namespace ApprovedOps.Store

/-- Does the call hold the lock? -/
def Stage.isPutting : Stage → Bool
  | .putting _ => true
  | _ => false

/-- Has the call closed the store and still to put the mark? -/
def Stage.owesMark : Stage → Bool
  | .discarding _ | .discardingOne _ _ | .stopping => true
  | _ => false

/-- Does the call look for late entries? -/
def Stage.isSweeping : Stage → Bool
  | .sweeping _ | .sweepingOne _ _ => true
  | _ => false

/-- A call that begins has no part in the lock or the mark. -/
theorem Stage.isFirst_idle {s : Stage} (h : s.isFirst = true) :
    s.isPutting = false ∧ s.owesMark = false ∧ s.isSweeping = false := by
  cases s <;> simp_all [isFirst, isPutting, owesMark, isSweeping]

/-- How many marks the writer has taken. -/
def Writer.marks : Writer → Nat
  | .busy .stop | .finishing true | .ended => 1
  | _ => 0

@[simp, grind =] theorem done_entries (q : Queue) : q.done.entries = q.entries := rfl

namespace Machine

variable {σ : Type} {m m' : Machine σ} {a : Action}

/-- What the lock and the mark guarantee in every state. -/
structure Orderly (m : Machine σ) : Prop where
  /-- The lock is held by exactly one call that puts a record, or by none. -/
  lock : m.calls.countP (·.stage.isPutting) = m.locked.toNat
  /-- The lock of a closed store is free. -/
  free : m.closed = true → m.locked = false
  /-- There is at most one mark, due, queued or taken, and none before the store is closed. -/
  mark : m.queue.entries.count .stop + m.writer.marks + m.calls.countP (·.stage.owesMark) ≤
    m.closed.toNat
  /-- Nothing is queued behind the mark. -/
  behind : ∀ front back, m.queue.entries = front ++ .stop :: back → back = []
  /-- Nothing is queued once the mark is taken. -/
  empty : m.writer.marks = 1 → m.queue.entries = []
  /-- Late entries are looked for when the writer has ended, and none are found. -/
  swept : ∀ c ∈ m.calls, c.stage.isSweeping = true → m.writer = .ended ∧ c.stage = .sweeping 0
  /-- The mark is not given up. -/
  spared : ∀ c ∈ m.calls, ∀ n, c.stage ≠ .discardingOne .stop n

namespace Orderly

/-- A call that puts a record is the only one, and there is no mark yet. -/
theorem putting {pre post : List Call} {r t} (orderly : m.Orderly)
    (calls : m.calls = pre ++ ⟨.putting r, t⟩ :: post) :
    m.closed = false ∧ m.queue.entries.count .stop = 0 ∧ m.writer.marks = 0 := by
  have locked : m.locked = true := by
    have lock := orderly.lock
    grind [Stage.isPutting]
  have opened : m.closed = false := by
    have free := orderly.free
    grind
  have mark := orderly.mark
  grind

/-- A call that owes the mark is the only one, and there is no other mark. -/
theorem owing {pre post : List Call} {stage t} (orderly : m.Orderly)
    (calls : m.calls = pre ++ ⟨stage, t⟩ :: post) (owes : stage.owesMark = true) :
    m.queue.entries.count .stop = 0 ∧ m.writer.marks = 0 ∧
      pre.countP (·.stage.owesMark) = 0 ∧ post.countP (·.stage.owesMark) = 0 := by
  have mark := orderly.mark
  have atMost : m.closed.toNat ≤ 1 := m.closed.toNat_le
  grind

/-- A call that looks for late entries finds none. -/
theorem sweeping {pre post : List Call} {stage t} (orderly : m.Orderly)
    (calls : m.calls = pre ++ ⟨stage, t⟩ :: post) (sweeps : stage.isSweeping = true) :
    stage = .sweeping 0 ∧ m.queue.entries = [] := by
  obtain ⟨ended, none⟩ := orderly.swept ⟨stage, t⟩ (by simp [calls]) sweeps
  exact ⟨none, orderly.empty (by rw [ended]; rfl)⟩

end Orderly

theorem fresh_orderly (fresh : m.Fresh) : m.Orderly := by
  obtain ⟨entries, writer, locked, closed, calls, _⟩ := fresh
  constructor <;> simp_all [Writer.marks]

/-! ## Calls that have ended -/

theorem over_stage {calls : List Call} (ended : calls.all isOver = true) {c : Call}
    (member : c ∈ calls) : ∃ o, c.stage = .over o := by
  have done := List.all_eq_true.mp ended c member
  cases stage : c.stage <;> simp_all [isOver]

theorem over_count {calls : List Call} (ended : calls.all isOver = true) {p : Stage → Bool}
    (none : ∀ o, p (.over o) = false) : calls.countP (fun c => p c.stage) = 0 := by
  rw [List.countP_eq_zero]
  intro c member
  obtain ⟨o, over_⟩ := over_stage ended member
  simp [over_, none]

/-! ## What every move keeps -/

variable [Files σ]

theorem lock_kept (move : Move m a m') (orderly : m.Orderly) :
    m'.calls.countP (·.stage.isPutting) = m'.locked.toNat := by
  have lock := orderly.lock
  cases move with
  | @call c first =>
      simpa [(Stage.isFirst_idle first).1] using lock
  | forget ended =>
      have none : m.calls.countP (·.stage.isPutting) = 0 := over_count ended fun _ => rfl
      rw [← lock, none, List.countP_nil]
  | put calls room =>
      have atMost : m.locked.toNat ≤ 1 := m.locked.toNat_le
      grind [Stage.isPutting]
  | _ => grind [Stage.isPutting]

theorem free_kept (move : Move m a m') (orderly : m.Orderly) :
    m'.closed = true → m'.locked = false := by
  have free := orderly.free
  cases move <;> grind

theorem mark_kept (move : Move m a m') (orderly : m.Orderly) :
    m'.queue.entries.count .stop + m'.writer.marks + m'.calls.countP (·.stage.owesMark) ≤
      m'.closed.toNat := by
  have mark := orderly.mark
  cases move with
  | @call c first =>
      simpa [(Stage.isFirst_idle first).2.1] using mark
  | @take e es idle entries => cases e <;> grind [Writer.marks]
  | @finish last finishing => cases last <;> grind [Writer.marks]
  | _ => grind [Stage.owesMark, Writer.marks]

theorem behind_kept (move : Move m a m') (orderly : m.Orderly) :
    ∀ front back, m'.queue.entries = front ++ .stop :: back → back = [] := by
  have behind := orderly.behind
  cases move with
  | put calls room =>
      intro front back split
      have none := (orderly.putting calls).2.1
      have marked := congrArg (List.count .stop) split
      simp [none] at marked
  | mark calls room =>
      intro front back split
      have none := List.count_eq_zero.mp (orderly.owing calls rfl).1
      obtain rfl | ⟨init, last, rfl⟩ := List.eq_nil_or_concat back
      · rfl
      · rw [List.concat_eq_append, ← List.cons_append, ← List.append_assoc] at split
        have before := (List.append_inj' split rfl).1
        exact absurd (by simp [before]) none
  | _ => grind

theorem empty_kept (move : Move m a m') (orderly : m.Orderly) :
    m'.writer.marks = 1 → m'.queue.entries = [] := by
  have empty := orderly.empty
  cases move with
  | @take e es idle entries =>
      intro taken
      cases e with
      | record r => cases taken
      | stop => exact orderly.behind [] es entries
  | @finish last finishing => cases last <;> grind [Writer.marks]
  | put calls room =>
      intro taken
      exact absurd (orderly.putting calls).2.2 (by simp [taken])
  | mark calls room =>
      intro taken
      exact absurd (orderly.owing calls rfl).2.1 (by simp [taken])
  | _ => grind [Writer.marks]

theorem swept_kept (move : Move m a m') (orderly : m.Orderly) :
    ∀ c ∈ m'.calls, c.stage.isSweeping = true → m'.writer = .ended ∧ c.stage = .sweeping 0 := by
  have swept := orderly.swept
  cases move with
  | @call c first =>
      have new := (Stage.isFirst_idle first).2.2
      grind
  | sweepOne calls entries => simp [(orderly.sweeping calls rfl).2] at entries
  | dropLate calls => cases (orderly.sweeping calls rfl).1
  | _ => grind [Stage.isSweeping]

theorem spared_kept (move : Move m a m') (orderly : m.Orderly) :
    ∀ c ∈ m'.calls, ∀ n, c.stage ≠ .discardingOne .stop n := by
  have spared := orderly.spared
  cases move with
  | @call c first =>
      have new := Stage.isFirst_idle first
      grind [Stage.owesMark]
  | discardOne calls entries =>
      have none := (orderly.owing calls rfl).1
      grind
  | _ => grind

/-- Every move keeps the order of locks and marks. -/
theorem orderly_kept (move : Move m a m') (orderly : m.Orderly) : m'.Orderly where
  lock := lock_kept move orderly
  free := free_kept move orderly
  mark := mark_kept move orderly
  behind := behind_kept move orderly
  empty := empty_kept move orderly
  swept := swept_kept move orderly
  spared := spared_kept move orderly

end Machine

end ApprovedOps.Store
