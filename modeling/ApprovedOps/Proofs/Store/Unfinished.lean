import ApprovedOps.Proofs.Store.Closing

/-! # What is unfinished

The entries that count as unfinished are those in the queue and those that somebody has taken and
not reported as done. So when nothing is unfinished, everything accepted has been dealt with, which
is what calls wait for.
-/

namespace ApprovedOps.Store

/-- How many entries the writer has taken and not reported as done. -/
def Writer.unreported : Writer → Nat
  | .busy _ | .finishing _ => 1
  | _ => 0

/-- A writer with nothing to report has nothing in its hands. -/
theorem Writer.inHand_nil {w : Writer} (h : w.unreported = 0) : w.inHand = [] := by
  cases w <;> simp_all [unreported, inHand]

/-- How many entries a call has taken and not reported as done. -/
def Stage.unreported : Stage → Nat
  | .discardingOne _ _ | .sweepingOne _ _ => 1
  | _ => 0

theorem Stage.inHand_none {s : Stage} (h : s.unreported = 0) : s.inHand? = none := by
  cases s <;> simp_all [unreported, inHand?]

namespace Machine

variable {σ : Type} {m m' : Machine σ} {a : Action}

/-- Are the unfinished entries those in the queue and those that are taken and not reported? -/
def Counts (m : Machine σ) : Prop :=
  m.queue.unfinished = m.queue.entries.length + m.writer.unreported +
    (m.calls.map (·.stage.unreported)).sum

/-- When nothing is unfinished, nothing is queued and nobody has taken an entry. -/
theorem Counts.nothing_iff (counts : m.Counts) :
    m.queue.unfinished = 0 ↔ m.queue.entries = [] ∧ m.writer.unreported = 0 ∧
      ∀ c ∈ m.calls, c.stage.unreported = 0 := by
  unfold Counts at counts
  rw [counts, Nat.add_eq_zero_iff, Nat.add_eq_zero_iff, List.length_eq_zero_iff,
    List.sum_eq_zero_iff_forall_eq_nat, List.forall_mem_map, and_assoc]

theorem fresh_counts (fresh : m.Fresh) (unfinished : m.queue.unfinished = 0) : m.Counts := by
  simp [Counts, unfinished, fresh.entries, fresh.writer, fresh.calls, Writer.unreported]

variable [Files σ]

theorem counts_kept (move : Move m a m') (counts : m.Counts) : m'.Counts := by
  unfold Counts at *
  cases move with
  | @call c first =>
      obtain ⟨stage, t⟩ := c
      cases stage <;> grind [Stage.unreported, Stage.isFirst]
  | forget ended =>
      have reported : (m.calls.map (·.stage.unreported)).sum = 0 := over_sum ended fun _ => rfl
      simpa [reported] using counts
  | @finish last finishing => cases last <;> grind [Writer.unreported, Queue.done]
  | _ => grind [Writer.unreported, Stage.unreported, Queue.done]

theorem run_counts {as : List Action} (fresh : m.Fresh) (unfinished : m.queue.unfinished = 0)
    (run : m.follow? as = some m') : m'.Counts :=
  follow?_invariant run (fresh_counts fresh unfinished) fun _ counts move => counts_kept move counts

/-- Is nothing unfinished, or has the writer ended? -/
def Done (m : Machine σ) : Prop :=
  m.queue.unfinished = 0 ∨ m.writer = .ended

/-- A call makes sure that everything is done and comes to its end: it has waited long enough, or it
    has closed the store and seen the writer end. -/
inductive Ensures (m : Machine σ) (i : Nat) (m' : Machine σ) : Prop where
  | waited : m.step? (.call i) = some m' → m'.outcome? i = some (.waited true) → Ensures m i m'
  | closed {n t} : m.calls[i]? = some ⟨.sweeping n, t⟩ → m.step? (.call i) = some m' →
      m'.outcome? i = some .closed → Ensures m i m'

theorem Ensures.step {i : Nat} (ensures : m.Ensures i m') : m.step? (.call i) = some m' := by
  cases ensures <;> assumption

/-- A call that has waited long enough leaves nothing unfinished. -/
theorem waited_unfinished {i : Nat} (step : m.step? (.call i) = some m')
    (waited : m'.outcome? i = some (.waited true)) : m'.queue.unfinished = 0 := by
  cases found : m.calls[i]? with
  | none => simp [step?, callStep?, found] at step
  | some c =>
      obtain ⟨next, now, -, last⟩ := callStep_stage found step
      apply last
      rw [outcome?, now] at waited
      cases next <;> simp_all

theorem done_of_ensures {i : Nat} (orderly : m.Orderly) (ensures : m.Ensures i m') : m'.Done := by
  cases ensures with
  | waited step waited => exact .inl (waited_unfinished step waited)
  | closed found step ended =>
      refine .inr ?_
      rw [(callStep_kept step).1]
      exact (orderly.swept _ (List.mem_of_getElem? found) rfl).1

/-- When everything is done, all accepted records are saved, unless some were given up. -/
theorem run_done {as : List Action} (fresh : m.Fresh) (unfinished : m.queue.unfinished = 0)
    (run : m.follow? as = some m') (gentle : Gentle as) (done : m'.Done) :
    (m'.files, m'.outcomes) = m.shelf.saveAll m.broken m.files m'.accepted := by
  obtain nothing | ended := done
  · obtain ⟨entries, taken, -⟩ := (run_counts fresh unfinished run).nothing_iff.mp nothing
    have queued : m'.queued = [] := by rw [queued, entries, List.filterMap_nil]
    exact run_idle fresh run gentle queued (Writer.inHand_nil taken)
  · exact run_drained fresh run gentle ended

end Machine

theorem openAt_unfinished {σ : Type} [Files σ] (files : σ) (path : Text) (size : Int)
    (observer : Observer) (broken : List Text) :
    (openAt files path false size observer broken).machine.queue.unfinished = 0 := by
  have kept (m : Machine σ) (path : Text) : (makeDirectory m path).queue = m.queue := by
    rw [makeDirectory]
    split <;> rfl
  simp [openAt, kept, Queue.ofSize]

end ApprovedOps.Store
