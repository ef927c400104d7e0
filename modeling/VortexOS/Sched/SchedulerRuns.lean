/-
VortexOS.Sched.SchedulerRuns — the scheduler over whole runs: `thread_init`,
then any sequence of thread creations, `scheduler_start`, `yield`, timer
interrupts and `thread_exit`.

  `sched_run_conserves`  the READY threads are on the queues, each once
  `tick_after_exit`      when a thread that has exited loses the CPU at the
                         next timer interrupt
  `tick_rearms`          when a timer interrupt is followed by another one
-/
import VortexOS.Sched.SchedulerTheorems

namespace VortexOS.Sched

open Lib

variable {s : SchedState} {q : Queues}

/-! ## Conservation -/

/-- The members of each ready queue, following the links from its head. -/
def SchedState.queue (s : SchedState) : Queues :=
  fun p => chainList s.next maxThreads (s.kReadyQueues p).head

lemma Ok.queue_eq (h : Ok s q) : s.queue = q := by
  funext p
  exact (h.holds.fifo p).seg.chainList_eq (h.holds.length_le p)

/-- No thread is lost and none is queued twice. -/
structure Conserved (s : SchedState) : Prop where
  /-- A READY thread is on the queue of its priority, once, and on no other. -/
  ready : ∀ t < s.kNextTcbIndex, (s.kTcbPool t).state = .ready →
    (s.queue (s.kTcbPool t).priority).count t = 1 ∧
      ∀ p, p ≠ (s.kTcbPool t).priority → t ∉ s.queue p
  /-- Only READY threads are on a queue. -/
  queued : ∀ p, ∀ t ∈ s.queue p, p < numPriorities ∧ t < s.kNextTcbIndex ∧
    (s.kTcbPool t).state = .ready
  current : ∀ p, s.kCurrentThread ∉ s.queue p
  dead : ∀ t, (s.kTcbPool t).state = .dead → ∀ p, t ∉ s.queue p
  /-- The chain from the head of a queue ends, and the tail is its last node. -/
  chain : ∀ p, Seg s.next (s.kReadyQueues p).head (s.queue p) none
  acyclic : ∀ p, (s.queue p).Nodup
  tail : ∀ p, (s.kReadyQueues p).tail = (s.queue p).getLast?
  total : s.kTotalReady = ∑ p ∈ Finset.range numPriorities, (s.queue p).length

lemma Ok.conserved (h : Ok s q) : Conserved s := by
  have hq := h.queue_eq
  have hqueued : ∀ p, ∀ t ∈ s.queue p, p < numPriorities ∧ t < s.kNextTcbIndex ∧
      (s.kTcbPool t).state = .ready := by
    intro p t ht
    rw [hq] at ht
    obtain ⟨hp, hlt⟩ := h.holds.bounded p t ht
    have hprio := h.holds.priority p t ht
    exact ⟨hp, hlt, (h.queued t hlt).mp (hprio ▸ ht)⟩
  exact
    { ready := fun t ht hr => by
        rw [hq]
        have hmem := (h.queued t ht).mpr hr
        refine ⟨List.count_eq_one_of_mem (h.holds.fifo _).nodup hmem, fun p hp => ?_⟩
        exact h.holds.disjoint (Ne.symm hp) t hmem
      queued := hqueued
      current := fun p => by
        rw [hq]
        exact h.current_not_mem p
      dead := fun t hd p hm => by
        have hr := (hqueued p t hm).2.2
        rw [hd] at hr
        cases hr
      chain := fun p => by
        rw [hq]
        exact (h.holds.fifo p).seg
      acyclic := fun p => by
        rw [hq]
        exact (h.holds.fifo p).nodup
      tail := fun p => by
        rw [hq]
        exact (h.holds.fifo p).tail_eq
      total := by
        rw [hq]
        exact h.holds.total }

/-- Threads are conserved along every run, and a run goes on as long as there
is memory for the stacks. -/
theorem sched_run_conserves (kTicksPerMs kHhdmOffset : Nat) (ops : List Op)
    (hlegal : ∀ op ∈ ops, op.Legal) :
    (∀ s, runFrom kTicksPerMs kHhdmOffset ops = some s → Conserved s) ∧
      ((∀ op ∈ ops, op.HasStack) → ∃ s, runFrom kTicksPerMs kHhdmOffset ops = some s) := by
  refine ⟨fun s hrun => ?_, Ok.run_returns kTicksPerMs kHhdmOffset hlegal⟩
  obtain ⟨q, hq⟩ := Ok.run hlegal hrun
  exact hq.conserved

theorem sched_run_conserves_mixed :
    (∀ s, runFrom 1000 0 [.create 120 .dl 7 0x100000, .start, .yield, .tick, .exit] = some s →
      Conserved s) ∧
      ((∀ op ∈ [Op.create 120 .dl 7 0x100000, .start, .yield, .tick, .exit], op.HasStack) →
        ∃ s, runFrom 1000 0 [.create 120 .dl 7 0x100000, .start, .yield, .tick, .exit] = some s) :=
  sched_run_conserves 1000 0 _ (by decide)

/-! ## A thread that has exited -/

/-- An exited FIFO thread keeps the CPU unless a higher real-time priority has
a thread. -/
theorem tick_after_exit {kTicksPerMs kHhdmOffset : Nat} {ops : List Op}
    (hlegal : ∀ op ∈ ops, op.Legal) (hrun : runFrom kTicksPerMs kHhdmOffset ops = some s)
    (hen : s.kSchedulingEnabled = true) (hdead : (s.kTcbPool s.kCurrentThread).state = .dead) :
    ∃ s', timerTick s = some s' ∧ ((s'.kTcbPool s'.kCurrentThread).state ≠ .dead ↔
      (s.kTcbPool s.kCurrentThread).policy ≠ .fifo ∨
        ∃ p, (s.kTcbPool s.kCurrentThread).priority < p ∧ p ≤ 99 ∧ s.queue p ≠ []) := by
  obtain ⟨q, h⟩ := Ok.run hlegal hrun
  rw [h.queue_eq]
  by_cases hk : s.KeepsCpu q
  · refine ⟨_, timerTick_of_keeps h hk, iff_of_false (fun hne => hne hdead) ?_⟩
    rintro (hp | ⟨p, hlt, hle, hne⟩)
    · exact hp hk.1
    · exact hne (hk.2 p hlt hle)
  · obtain ⟨s', hs, hsw, -⟩ := schedule_spec (h.setTimer 0) hen
    refine ⟨s', (timerTick_of_not_keeps h hk).trans hs, iff_of_true ?_ ?_⟩
    · rw [hsw.current, hsw.pool]
      simp
    · by_contra hno
      push Not at hno
      exact hk hno

def exitRun : List Op := [.create 50 .rr 0 0x100000, .start, .yield, .exit]

def exitState : SchedState := (runFrom 1000 0 exitRun).get (by decide)

lemma runFrom_exitRun : runFrom 1000 0 exitRun = some exitState := (Option.some_get _).symm

theorem tick_after_exit_rr : ∃ s', timerTick exitState = some s' ∧
    ((s'.kTcbPool s'.kCurrentThread).state ≠ .dead ↔
      (exitState.kTcbPool exitState.kCurrentThread).policy ≠ .fifo ∨
        ∃ p, (exitState.kTcbPool exitState.kCurrentThread).priority < p ∧ p ≤ 99 ∧
        exitState.queue p ≠ []) :=
  tick_after_exit (by decide) runFrom_exitRun (by decide) (by decide)

/-- A thread of policy FIFO, which is what `kthread_create` leaves, keeps
the CPU after it has exited: no priority above its own is ready. -/
theorem tick_after_exit_stuck :
    (runFrom 1000 0 [.create 10 .fifo 0 0x100000, .start, .yield, .exit]).map
      (fun s => ((s.kTcbPool s.kCurrentThread).state, s.timer)) = some (.dead, 1000) ∧
    (runFrom 1000 0 [.create 10 .fifo 0 0x100000, .start, .yield, .exit, .tick]).map
      (fun s => (s.kTcbPool s.kCurrentThread).state) = some .dead := by
  decide

/-! ## The next timer interrupt -/

/-- The timer is set at a timer interrupt: the current thread keeps the CPU,
or another thread is switched to that has been switched away from before. -/
def SchedState.Rearms (s : SchedState) : Prop :=
  s.KeepsCpu s.queue ∨
    s.chosen s.queue ≠ s.kCurrentThread ∧
      ∃ next, (s.kTcbPool (s.chosen s.queue)).context = some (.schedule next) ∧
        ((s.kTcbPool next).policy = .fifo → s.kTicksPerMs * 10 % 2 ^ 32 ≠ 0)

lemma ticks_interval_ne_zero (hpos : 0 < s.kTicksPerMs) (hlt : s.kTicksPerMs < 2 ^ 32) :
    s.ticks tickIntervalMs ≠ 0 := by
  unfold SchedState.ticks tickIntervalMs
  omega

/-- A timer interrupt that switches to a new thread, or to none, is the last. -/
theorem tick_rearms {kTicksPerMs kHhdmOffset : Nat} {ops : List Op}
    (hlegal : ∀ op ∈ ops, op.Legal) (hrun : runFrom kTicksPerMs kHhdmOffset ops = some s)
    (hen : s.kSchedulingEnabled = true) (hpos : 0 < s.kTicksPerMs) (hlt : s.kTicksPerMs < 2 ^ 32) :
    ∃ s', timerTick s = some s' ∧ (s'.timer ≠ 0 ↔ s.Rearms) := by
  obtain ⟨q, h⟩ := Ok.run hlegal hrun
  unfold SchedState.Rearms
  rw [h.queue_eq]
  by_cases hk : s.KeepsCpu q
  · exact ⟨_, timerTick_of_keeps h hk, iff_of_true (ticks_interval_ne_zero hpos hlt) (Or.inl hk)⟩
  · obtain ⟨s', hs, hsw, -⟩ := schedule_spec (h.setTimer 0) hen
    refine ⟨s', (timerTick_of_not_keeps h hk).trans hs, ?_⟩
    have htimer : s'.timer = if s.chosen q = s.kCurrentThread then 0
        else SchedState.timerAfter { s with timer := 0 } (s.chosen q) := hsw.timer
    rw [or_iff_right hk, htimer]
    by_cases hc : s.chosen q = s.kCurrentThread
    · simp [hc]
    · rw [if_neg hc]
      refine Iff.trans ?_ (and_iff_right hc).symm
      unfold SchedState.timerAfter
      cases hctx : (s.kTcbPool (s.chosen q)).context with
      | none => simp
      | some r =>
        cases r with
        | trampoline => simp
        | schedule next =>
          have hone := ticks_interval_ne_zero hpos hlt
          by_cases hp : (s.kTcbPool next).policy = .fifo
          · simp [hp, SchedState.ticks]
          · simpa [hp, SchedState.ticks] using hone

/-- The idle thread has been switched away from and waits for its turn; the
running thread, of policy RR, has exited. -/
theorem tick_rearms_rr : ∃ s', timerTick exitState = some s' ∧ (s'.timer ≠ 0 ↔ exitState.Rearms) :=
  tick_rearms (by decide) runFrom_exitRun (by decide) (by decide)
    (by decide)

/-- The first interrupt after `scheduler_start` switches to a new thread,
and `thread_trampoline` does not set the timer. -/
theorem tick_not_rearmed : (runFrom 1000 0 [.create 10 .fifo 0 0x100000, .start]).map
      (fun s => (s.kCurrentThread, s.timer)) = some (0, 1000) ∧
    (runFrom 1000 0 [.create 10 .fifo 0 0x100000, .start, .tick]).map
      (fun s => (s.kCurrentThread, s.timer)) = some (1, 0) := by
  decide

end VortexOS.Sched
