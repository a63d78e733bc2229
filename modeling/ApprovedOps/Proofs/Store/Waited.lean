import ApprovedOps.Proofs.Store.Unfinished

/-! # What waiting tells

An entry counts as unfinished from when it is put until it is reported as done, and it is reported
once. So along a run no more is reported than was put. A call that has waited long enough finds
everything accepted delivered or given up, and nothing keeps a call waiting once the queue is empty
and nobody has taken an entry from it.
-/

namespace ApprovedOps

theorem Queue.put?_unfinished {q q' : Queue} {e : Entry} (put : q.put? e = some q') :
    q'.unfinished = q.unfinished + 1 := by
  rw [put?] at put
  split at put <;> cases put
  rfl

theorem Queue.take?_unfinished {q q' : Queue} {e : Entry} (taken : q.take? = some (e, q')) :
    q'.unfinished = q.unfinished := by
  rw [take?] at taken
  split at taken <;> cases taken
  rfl

namespace Store

/-- How many entries the writer reports as done in its next step. -/
def Writer.reports : Writer → Nat
  | .finishing _ => 1
  | _ => 0

/-- How many entries a call puts in its next step. -/
def Stage.puts : Stage → Nat
  | .putting _ | .stopping => 1
  | _ => 0

/-- Is the call to close the store, or does it so? -/
def Stage.closes : Stage → Bool
  | .closing _ | .discarding _ | .discardingOne _ _ | .stopping | .joining | .sweeping _
  | .sweepingOne _ _ => true
  | _ => false

namespace Machine

/-! ## Putting and reporting -/

section

variable {σ : Type} {m m' : Machine σ}

/-- How many entries an action puts. -/
def puts (m : Machine σ) : Action → Nat
  | .step (.call i) => m.calls[i]?.elim 0 (·.stage.puts)
  | _ => 0

/-- How many entries an action reports as done. -/
def reports (m : Machine σ) : Action → Nat
  | .step .writer => m.writer.reports
  | .step (.call i) => m.calls[i]?.elim 0 (·.stage.unreported)
  | _ => 0

/-- Nobody reports an entry as done when none is unfinished. -/
theorem reports_le (counts : m.Counts) (a : Action) : m.reports a ≤ m.queue.unfinished := by
  unfold Counts at counts
  cases a with
  | step actor =>
      cases actor with
      | writer =>
          have taken : m.writer.reports ≤ m.writer.unreported := by
            cases m.writer <;> simp [Writer.reports, Writer.unreported]
          rw [reports]
          omega
      | call i =>
          rw [reports]
          cases found : m.calls[i]? with
          | none => exact Nat.zero_le _
          | some c =>
              have among := List.mem_map_of_mem (f := (·.stage.unreported))
                (List.mem_of_getElem? found)
              have part := List.le_sum_of_mem among
              rw [Option.elim_some]
              omega
      | clock i => exact Nat.zero_le _
  | _ => exact Nat.zero_le _

theorem callStep_unfinished {i : Nat} {stage : Stage} {t : Option Binary64}
    (found : m.calls[i]? = some ⟨stage, t⟩) (step : m.callStep? i = some m') :
    m'.queue.unfinished = m.queue.unfinished - stage.unreported + stage.puts := by
  simp only [callStep?, found, bind, Option.bind_some] at step
  cases stage with
  | submitting s =>
      simp only [submit] at step
      repeat' split at step
      all_goals
        cases step
        rfl
  | entering r =>
      simp only [enter?] at step
      repeat' split at step
      all_goals
        cases step
        try rfl
  | closing drain =>
      simp only [close?] at step
      repeat' split at step
      all_goals
        cases step
        try rfl
  | putting r | stopping =>
      obtain ⟨queue, put, rfl⟩ := Option.map_eq_some_iff.mp step
      exact Queue.put?_unfinished put
  | discarding n | sweeping n =>
      simp only [discard, sweep] at step
      split at step <;> cases step
      next taken => exact Queue.take?_unfinished taken
      next => rfl
  | discardingOne e n | sweepingOne e n =>
      cases step
      rfl
  | joining | waiting =>
      simp only at step
      split at step <;> cases step
      rfl
  | _ => cases step

/-- Nothing is unfinished when nothing is queued and nobody is at work on an entry. -/
theorem unfinished_of_idle (counts : m.Counts) (entries : m.queue.entries = [])
    (writer : m.writer = .idle ∨ m.writer = .ended)
    (others : ∀ c ∈ m.calls, c.stage.closes = false) : m.queue.unfinished = 0 := by
  apply counts.nothing_iff.mpr
  refine ⟨entries, ?_, ?_⟩
  · obtain idle | ended := writer
    · rw [idle]
      rfl
    · rw [ended]
      rfl
  · intro c member
    have open_ := others c member
    cases stage : c.stage <;> simp_all [Stage.closes, Stage.unreported]

end

variable {σ : Type} [Files σ] {m m' : Machine σ} {a : Action}

theorem writerStep_unfinished (step : m.writerStep? = some m') :
    m'.queue.unfinished = m.queue.unfinished - m.writer.reports := by
  have move := writerStep_move step
  cases move with
  | take writer | save writer | stop writer | finish writer =>
      rw [writer]
      rfl

/-- An action changes the number of unfinished entries by what it puts and reports. -/
theorem act?_unfinished (act : m.act? a = some m') :
    m'.queue.unfinished = m.queue.unfinished - m.reports a + m.puts a := by
  cases a with
  | step actor =>
      cases actor with
      | writer => exact writerStep_unfinished act
      | call i =>
          cases found : m.calls[i]? with
          | none => simp [act?, step?, callStep?, found] at act
          | some c =>
              rw [reports, puts, found]
              exact callStep_unfinished found act
      | clock i =>
          have move := act?_move act
          cases move <;> rfl
  | _ =>
      have move := act?_move act
      cases move <;> rfl

/-- What is counted in the course of actions. -/
def tally (count : Machine σ → Action → Nat) (m : Machine σ) : List Action → Nat
  | [] => 0
  | a :: as => count m a + (m.act? a).elim 0 (tally count · as)

/-- What was put along a run is reported as done by now, or unfinished. -/
theorem run_tally {as : List Action} (counts : m.Counts) (run : m.follow? as = some m') :
    m.queue.unfinished + m.tally puts as = m.tally reports as + m'.queue.unfinished := by
  induction as generalizing m with
  | nil =>
      cases run
      exact Nat.add_comm _ _
  | cons a as ih =>
      rw [follow?, List.foldlM_cons] at run
      obtain ⟨m₁, first, rest⟩ := Option.bind_eq_some_iff.mp run
      have later := ih (counts_kept (act?_move first) counts) rest
      have step := act?_unfinished first
      have enough := reports_le counts a
      simp only [tally, first, Option.elim_some]
      omega

/-! ## The end of waiting -/

/-- Is everything accepted delivered, in order, or given up? -/
def DealtWith (m : Machine σ) (files : σ) : Prop :=
  ∃ saved, (m.files, m.outcomes) = m.shelf.saveAll m.broken files saved ∧
    saved.Sublist m.accepted ∧ (saved ++ m.history.filterMap Event.dropped?).Perm m.accepted

theorem dealtWith_of_unfinished {files : σ} {taken : List (Record × Taker)} {saved : List Record}
    (account : m.Accounted files taken saved) (counts : m.Counts)
    (nothing : m.queue.unfinished = 0) : m.DealtWith files := by
  obtain ⟨entries, reported, others⟩ := counts.nothing_iff.mp nothing
  have queued : m.queued = [] := by rw [queued, entries, List.filterMap_nil]
  have inHand : m.writer.inHand = [] := Writer.inHand_nil reported
  have calls : m.calls.filterMap (·.stage.inHand?) = [] := by
    rw [List.filterMap_eq_nil_iff]
    intro c member
    exact Stage.inHand_none (others c member)
  have inOrder := account.inOrder
  have onePlace := account.onePlace
  simp only [queued, inHand, List.append_nil] at inOrder onePlace
  rw [discarded, calls, List.append_nil] at onePlace
  exact ⟨saved, account.saves, inOrder, onePlace⟩

theorem waiting_ends {i : Nat} {t : Option Binary64} (nothing : m.queue.unfinished = 0)
    (found : m.calls[i]? = some ⟨.waiting, t⟩) :
    m.step? (.call i) = some (m.conclude i (.waited true)) ∧ m.step? (.clock i) = none := by
  constructor
  · simp [step?, callStep?, found, nothing]
  · cases t <;> simp [step?, expire?, found, nothing]

end Machine

/-- In every state of every run, the unfinished entries are those in the queue and those that are
    taken and not reported, and no step reports an entry when none is unfinished: what was put is
    reported by now, or unfinished. A call has waited long enough only when everything accepted is
    delivered or given up. It does not wait, and its time is never up, when the queue is empty, the
    writer waits or has ended, and no call closes the store. -/
theorem waits_for_everything {σ : Type} [Files σ] {files : σ} {path : Text} {size : Int}
    {observer : Observer} {broken : List Text} {as : List Action} {m : Machine σ}
    (run : (openAt files path false size observer broken).machine.follow? as = some m) :
    m.Counts ∧ (∀ a, m.reports a ≤ m.queue.unfinished) ∧
      (openAt files path false size observer broken).machine.tally Machine.puts as =
        (openAt files path false size observer broken).machine.tally Machine.reports as +
          m.queue.unfinished ∧
      (∀ i m', m.step? (.call i) = some m' → m'.outcome? i = some (.waited true) →
        m'.DealtWith (openAt files path false size observer broken).machine.files) ∧
      (m.queue.entries = [] → m.writer = .idle ∨ m.writer = .ended →
        (∀ c ∈ m.calls, c.stage.closes = false) → ∀ i t, m.calls[i]? = some ⟨.waiting, t⟩ →
        m.step? (.call i) = some (m.conclude i (.waited true)) ∧ m.step? (.clock i) = none) := by
  have fresh := fresh_openAt files path false size observer broken
  have start := openAt_unfinished files path size observer broken
  have counts := Machine.run_counts fresh start run
  refine ⟨counts, Machine.reports_le counts, ?_, ?_, ?_⟩
  · have tally := Machine.run_tally (Machine.fresh_counts fresh start) run
    rwa [start, Nat.zero_add] at tally
  · intro i m' step waited
    have last : m.follow? [.step (.call i)] = some m' := by
      simp [Machine.follow?, Machine.act?, step]
    have run' := Machine.follow?_append run last
    obtain ⟨-, taken, saved, account⟩ := Machine.run_accounted fresh run'
    apply Machine.dealtWith_of_unfinished account (Machine.run_counts fresh start run')
    exact Machine.waited_unfinished step waited
  · intro entries writer others i t found
    exact Machine.waiting_ends (Machine.unfinished_of_idle counts entries writer others) found

/-- While the writer is held with one record, a call closes the store and gives up the next. When
    all that is over, a call begins to wait. -/
def discardingRun : List Action :=
  let set (document : String) : Action := .call ⟨.submitting { document }, none⟩
  let call (i : Nat) : Action := .step (.call i)
  let writer : List Action := .replicate 3 (.step .writer)
  [.hold true, set "query A { a }", call 0, call 0, call 0, .step .writer,
    set "query B { b }", call 1, call 1, call 1, .call ⟨.closing false, none⟩, call 2, call 2,
    call 2, call 2, .hold false, .step .writer, .step .writer, call 2] ++ writer ++
    [call 2, call 2, .call ⟨.waiting, none⟩]

/-- One of the two records is delivered, and the observer fails; the other is given up. -/
theorem waits_for_everything_of_discarding :
    ∃ m, (openAt ({} : FileTree) "/" false 0 .failing []).machine.follow? discardingRun = some m ∧
      (m.accepted.length, m.outcomes.length, m.discarded.length) = (2, 1, 1) ∧
      m.step? (.call 3) = some (m.conclude 3 (.waited true)) ∧
      (m.conclude 3 (.waited true)).DealtWith
        (openAt ({} : FileTree) "/" false 0 .failing []).machine.files := by
  have states : ((openAt ({} : FileTree) "/" false 0 .failing []).machine.follow?
      discardingRun).map (fun m => ((m.queue.entries, m.writer, m.calls),
        m.accepted.length, m.outcomes.length, m.discarded.length)) =
      some (([], .ended, [⟨.over .queued, none⟩, ⟨.over .queued, none⟩, ⟨.over .closed, none⟩,
        ⟨.waiting, none⟩]), 2, 1, 1) := by
    decide +kernel
  obtain ⟨m, run, state⟩ := Option.map_eq_some_iff.mp states
  rw [Prod.mk.injEq, Prod.mk.injEq, Prod.mk.injEq] at state
  obtain ⟨⟨entries, ended, calls⟩, places⟩ := state
  obtain ⟨-, -, -, truly, ready⟩ := waits_for_everything run
  have waiting : m.calls[3]? = some ⟨.waiting, none⟩ := by rw [calls]; rfl
  obtain ⟨step, -⟩ := ready entries (.inr ended) (by rw [calls]; decide) 3 none waiting
  refine ⟨m, run, places, step, truly 3 _ step ?_⟩
  simp [Machine.outcome?, Machine.conclude, Machine.proceed, waiting]

end Store

end ApprovedOps
