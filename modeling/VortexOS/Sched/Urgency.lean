/-
VortexOS.Sched.Urgency — is the most urgent thread running?

`Tcb.rank` is the order in which `schedule` serves the threads: deadline
threads by their deadline, then the priorities 99 down to 0, then 100 up
to 139. For every state that the scheduler can reach:

  `tick_preempts`   when no queued thread is more urgent than the running
                    one after a timer interrupt. For FIFO threads the
                    handler's own scan knows neither deadlines nor the
                    priorities from 100 on.
  `idle_runs_last`  when `schedule` makes the idle thread, which has
                    priority 0, current only if nothing else is queued.
-/
import VortexOS.Sched.SchedulerRuns

namespace VortexOS.Sched

open Lib

variable {s : SchedState} {q : Queues}

/-! ## Which thread is picked -/

section

variable (pool : Nat → Tcb)

lemma Queues.pick_deadline (h : ∃ u ∈ q.all, (pool u).hasDeadline) : ∃ t, q.pick pool = some t ∧
    t ∈ q.all ∧ (pool t).hasDeadline ∧ ∀ u ∈ q.all, (pool u).hasDeadline →
    (pool t).absDeadline.toNat ≤ (pool u).absDeadline.toNat := by
  obtain ⟨v, hv, hvd⟩ := h
  have hmem := Queues.mem_deadlines.mpr ⟨hv, hvd⟩
  cases hmin : (q.deadlines pool).argmin fun t => (pool t).absDeadline.toNat with
  | none =>
    rw [List.argmin_eq_none.mp hmin] at hmem
    simp at hmem
  | some t =>
    obtain ⟨htall, htd⟩ := Queues.mem_deadlines.mp (List.argmin_mem hmin)
    refine ⟨t, by simp [Queues.pick, hmin], htall, htd, fun u hu hud => ?_⟩
    exact List.le_of_mem_argmin (f := fun t => (pool t).absDeadline.toNat)
      (Queues.mem_deadlines.mpr ⟨hu, hud⟩) hmin

lemma Queues.pick_priority (h : ∀ u ∈ q.all, ¬ (pool u).hasDeadline) :
    q.pick pool = q.byPriority.head? := by
  have hnil : q.deadlines pool = [] := List.eq_nil_iff_forall_not_mem.mpr fun t ht =>
    h t (Queues.mem_deadlines.mp ht).1 (Queues.mem_deadlines.mp ht).2
  simp [Queues.pick, hnil]

end

/-- Where a priority stands in the order of the scan of the priorities. -/
def priorityRank (p : Nat) : Nat := if p < 100 then 99 - p else p

lemma priorities_sorted :
    (rtPriorities ++ normalPriorities).Pairwise fun p p' => priorityRank p < priorityRank p' := by
  decide +kernel

lemma Queues.head?_rank {ps : List Nat} {t u : Nat} (prio : Nat → Nat)
    (hsort : ps.Pairwise fun p p' => priorityRank p < priorityRank p')
    (hprio : ∀ p, ∀ t ∈ q p, prio t = p) (ht : (ps.flatMap q).head? = some t)
    (hu : u ∈ ps.flatMap q) : priorityRank (prio t) ≤ priorityRank (prio u) := by
  induction ps with
  | nil => simp at hu
  | cons p ps ih =>
    obtain ⟨hfirst, hsort⟩ := List.pairwise_cons.mp hsort
    cases hq : q p with
    | nil =>
      rw [List.flatMap_cons, hq, List.nil_append] at ht hu
      exact ih hsort ht hu
    | cons v l =>
      have hvt : v = t := by simpa [hq] using ht
      have hp : prio t = p := hprio p t (by simp [hq, hvt])
      rw [hp]
      rcases List.mem_append.mp (List.flatMap_cons ▸ hu) with hu | hu
      · rw [hprio p u hu]
      · obtain ⟨p', hp', hu⟩ := List.mem_flatMap.mp hu
        rw [hprio p' u hu]
        exact Nat.le_of_lt (hfirst p' hp')

lemma Ok.mem_requeued_all (h : Ok s q) {t : Nat} :
    t ∈ (s.requeued q).all ↔ ∃ p, t ∈ s.requeued q p := by
  rw [Queues.mem_all]
  refine exists_congr fun p => and_iff_right_of_imp fun ht => ?_
  obtain ⟨rfl, hlt⟩ := h.requeued_bounded ht
  exact h.priority_lt t hlt

/-- Of the threads that can run, the first by priority has the best one. -/
lemma Ok.priorityRank_le (h : Ok s q) {t u : Nat} (ht : (s.requeued q).byPriority.head? = some t)
    (hu : u ∈ (s.requeued q).all) :
    priorityRank (s.kTcbPool t).priority ≤ priorityRank (s.kTcbPool u).priority :=
  Queues.head?_rank (fun t => (s.kTcbPool t).priority) priorities_sorted
    (fun _ _ ht => (h.requeued_bounded ht).1.symm) ht (Queues.mem_byPriority.mpr hu)

/-! ## The idle thread -/

/-- With the runnable threads `q`, one of these holds: the idle thread is
not among them, no other thread is, there is a deadline or a real-time
priority above `0`, or another thread of priority `0` has waited longer. -/
def SchedState.IdleLast (s : SchedState) (q : Queues) : Prop :=
  s.kIdleThread ∉ q.all ∨ (∀ t ∈ q.all, t = s.kIdleThread) ∨
    (∃ t ∈ q.all, (s.kTcbPool t).hasDeadline) ∨ (∃ p, 0 < p ∧ p ≤ 99 ∧ q p ≠ []) ∨
    (q 0).head? ≠ some s.kIdleThread

lemma Ok.rest_empty (h : Ok s q) (hall : ∀ t ∈ (s.requeued q).all, t = s.chosen q) (p : Nat) :
    s.rest q p = [] := by
  refine List.eq_nil_iff_forall_not_mem.mpr fun u hu => ?_
  obtain ⟨hmem, hne⟩ := h.mem_rest.mp hu
  exact hne (hall u (h.mem_requeued_all.mpr ⟨p, hmem⟩))

lemma Ok.rest_empty_of_idleLast (h : Ok s q) (hidle : s.chosen q = s.kIdleThread)
    (hlast : s.IdleLast (s.requeued q)) : ∀ p, s.rest q p = [] := by
  refine h.rest_empty fun t ht => ?_
  rw [hidle]
  by_cases hdl : ∃ u ∈ (s.requeued q).all, (s.kTcbPool u).hasDeadline
  · -- the choice has a deadline, which the idle thread has not
    obtain ⟨v, hpick, -, hv, -⟩ := Queues.pick_deadline s.kTcbPool hdl
    have hvi : v = s.kIdleThread := by simpa [SchedState.chosen, hpick] using hidle
    rw [hvi] at hv
    have hpolicy := hv.1
    rw [h.idle_policy] at hpolicy
    cases hpolicy
  · have hpick := Queues.pick_priority (q := s.requeued q) s.kTcbPool
      fun u hu hd => hdl ⟨u, hu, hd⟩
    cases hhead : (s.requeued q).byPriority.head? with
    | none =>
      have hmem := Queues.mem_byPriority.mpr ht
      rw [List.head?_eq_none_iff.mp hhead] at hmem
      simp at hmem
    | some v =>
      have hvi : v = s.kIdleThread := by simpa [SchedState.chosen, hpick, hhead] using hidle
      subst hvi
      have hvall := Queues.mem_byPriority.mp (List.mem_of_mem_head? hhead)
      rcases hlast with hno | honly | hd | ⟨p, hp0, hp99, hne⟩ | hfirst
      · exact absurd hvall hno
      · exact honly t ht
      · exact absurd hd hdl
      · obtain ⟨u, hu⟩ := List.exists_mem_of_ne_nil _ hne
        have hup := (h.requeued_bounded hu).1
        have hle := h.priorityRank_le hhead (h.mem_requeued_all.mpr ⟨p, hu⟩)
        rw [h.idle_priority, ← hup, priorityRank, priorityRank, if_pos (by omega),
          if_pos (by omega)] at hle
        omega
      · obtain ⟨p, l, hq⟩ := Queues.head?_flatMap hhead
        have hp : p = 0 := (h.requeued_bounded (p := p) (by simp [hq])).1.trans h.idle_priority
        subst hp
        exact absurd (by rw [hq]; rfl) hfirst

lemma Ok.chosen_of_not_idleLast (h : Ok s q) (hlast : ¬ s.IdleLast (s.requeued q)) :
    s.chosen q = s.kIdleThread ∧ ∃ p, s.rest q p ≠ [] := by
  simp only [SchedState.IdleLast, not_or, not_not, not_exists, not_and, not_forall] at hlast
  obtain ⟨hidle, ⟨u, hu, hne⟩, hdl, hrt, hfirst⟩ := hlast
  have hpick := Queues.pick_priority s.kTcbPool hdl
  have hchosen : s.chosen q = s.kIdleThread := by
    cases hhead : (s.requeued q).byPriority.head? with
    | none => simp [SchedState.chosen, hpick, hhead]
    | some v =>
      -- `v` is not behind the idle thread, so it stands on queue `0` as well, in front
      have hle := h.priorityRank_le hhead hidle
      obtain ⟨p, l, hq⟩ := Queues.head?_flatMap hhead
      have hp := (h.requeued_bounded (p := p) (t := v) (by simp [hq])).1
      have hp99 : p ≤ 99 := by
        rw [h.idle_priority, ← hp, priorityRank, priorityRank, if_pos (by omega : 0 < 100)] at hle
        split at hle <;> omega
      have hp0 : p = 0 := by
        by_contra hpos
        exact absurd (hrt p (Nat.pos_of_ne_zero hpos) hp99) (by simp [hq])
      subst hp0
      have hvi : v = s.kIdleThread := by simpa [hq] using hfirst
      simp [SchedState.chosen, hpick, hhead, hvi]
  obtain ⟨p, hp⟩ := h.mem_requeued_all.mp hu
  refine ⟨hchosen, p, List.ne_nil_of_mem (h.mem_rest.mpr ⟨hp, ?_⟩)⟩
  rw [hchosen]
  exact hne

/-- The idle thread has priority `0`, and so comes before the priorities from
100 on. -/
theorem idle_runs_last {kTicksPerMs kHhdmOffset : Nat} {ops : List Op}
    (hlegal : ∀ op ∈ ops, op.Legal) (hrun : runFrom kTicksPerMs kHhdmOffset ops = some s)
    (hen : s.kSchedulingEnabled = true) (timer : Nat) :
    ∃ s', schedule { s with timer := timer } = some s' ∧
      ((s'.kCurrentThread = s'.kIdleThread → ∀ p, s'.queue p = []) ↔
        s.IdleLast (s.requeued s.queue)) := by
  obtain ⟨q, h⟩ := Ok.run hlegal hrun
  obtain ⟨s', hs, hsw, hok⟩ := schedule_spec (h.setTimer timer) hen
  have hcur : s'.kCurrentThread = s.chosen q := hsw.current
  have hidle : s'.kIdleThread = s.kIdleThread := hsw.idle
  have hqueue : s'.queue = s.rest q := hok.queue_eq
  refine ⟨s', hs, ?_⟩
  rw [hcur, hidle, hqueue, h.queue_eq]
  refine ⟨fun hprop => ?_, fun hlast hidle => h.rest_empty_of_idleLast hidle hlast⟩
  by_contra hlast
  obtain ⟨hchosen, p, hp⟩ := h.chosen_of_not_idleLast hlast
  exact hp (hprop hchosen p)

/-- A thread of policy RR has exited and the idle thread is all there is. -/
theorem idle_runs_last_rr : ∃ s', schedule { exitState with timer := 0 } = some s' ∧
    ((s'.kCurrentThread = s'.kIdleThread → ∀ p, s'.queue p = []) ↔
      exitState.IdleLast (exitState.requeued exitState.queue)) :=
  idle_runs_last (by decide) runFrom_exitRun (by decide) 0

/-- When the RR thread exits, the idle thread (0) is made current although
thread 2 is queued with priority 120. -/
theorem idle_runs_first :
    (runFrom 1000 0 [.create 50 .rr 0 0x100000, .create 120 .normal 0 0x200000, .start, .yield,
        .exit]).map (fun s => (s.kCurrentThread, s.timer)) = some (1, 1000) ∧
      (runFrom 1000 0 [.create 50 .rr 0 0x100000, .create 120 .normal 0 0x200000, .start, .yield,
        .exit, .tick]).map (fun s => (s.kCurrentThread, s.kIdleThread, s.queue 120)) =
          some (0, 0, [2]) := by
  decide +kernel

/-! ## Preemption -/

/-- The place of a thread in the order of urgency, the most urgent first. -/
def Tcb.rank (t : Tcb) : Lex (Nat × Nat) :=
  if t.policy = .dl then toLex (0, t.absDeadline.toNat) else toLex (1, priorityRank t.priority)

def Tcb.MoreUrgent (t u : Tcb) : Prop := t.rank < u.rank

lemma Tcb.moreUrgent_iff {t u : Tcb} :
    t.MoreUrgent u ↔ t.policy = .dl ∧ (u.policy = .dl → t.absDeadline.toNat < u.absDeadline.toNat) ∨
      t.policy ≠ .dl ∧ u.policy ≠ .dl ∧ priorityRank t.priority < priorityRank u.priority := by
  unfold Tcb.MoreUrgent Tcb.rank
  by_cases ht : t.policy = .dl
  · by_cases hu : u.policy = .dl <;> simp [ht, hu, Prod.Lex.toLex_lt_toLex]
  · by_cases hu : u.policy = .dl <;> simp [ht, hu, Prod.Lex.toLex_lt_toLex]

/-- What a timer interrupt has to find with `q` on the queues. If the
current thread keeps the CPU: no deadline thread is queued, and for a
priority from 100 on no better one. If it does not: the deadline scan finds
a thread, there is no deadline thread, or the first thread by priority is
one. -/
def SchedState.Preempts (s : SchedState) (q : Queues) : Prop :=
  (s.KeepsCpu q →
    (∀ t ∈ q.all, (s.kTcbPool t).policy ≠ .dl) ∧
      (100 ≤ (s.kTcbPool s.kCurrentThread).priority →
        ∀ p < (s.kTcbPool s.kCurrentThread).priority, q p = [])) ∧
  (¬ s.KeepsCpu q →
    (∃ t ∈ (s.requeued q).all, (s.kTcbPool t).hasDeadline) ∨
      (∀ t ∈ (s.requeued q).all, (s.kTcbPool t).policy ≠ .dl) ∨
      ∃ t, (s.requeued q).byPriority.head? = some t ∧ (s.kTcbPool t).policy = .dl)

lemma Ok.preempts_keeps (h : Ok s q) (hk : s.KeepsCpu q) :
    (∀ p, ∀ t ∈ q p, ¬ (s.kTcbPool t).MoreUrgent (s.kTcbPool s.kCurrentThread)) ↔
      (∀ t ∈ q.all, (s.kTcbPool t).policy ≠ .dl) ∧ (100 ≤ (s.kTcbPool s.kCurrentThread).priority →
      ∀ p < (s.kTcbPool s.kCurrentThread).priority, q p = []) := by
  have hcur : (s.kTcbPool s.kCurrentThread).policy ≠ .dl := by simp [hk.1]
  refine ⟨fun hno => ⟨fun t ht hdl => ?_, fun h100 p hp => ?_⟩, fun ⟨hdl, hhigh⟩ p t ht hmore => ?_⟩
  · obtain ⟨p, hp⟩ := h.holds.mem_all.mp ht
    exact hno p t hp (Tcb.moreUrgent_iff.mpr (Or.inl ⟨hdl, fun hc => absurd hc hcur⟩))
  · refine List.eq_nil_iff_forall_not_mem.mpr fun t ht => hno p t ht (Tcb.moreUrgent_iff.mpr ?_)
    by_cases hdl : (s.kTcbPool t).policy = .dl
    · exact Or.inl ⟨hdl, fun hc => absurd hc hcur⟩
    · refine Or.inr ⟨hdl, hcur, ?_⟩
      rw [h.holds.priority p t ht]
      unfold priorityRank
      split <;> split <;> omega
  · rcases Tcb.moreUrgent_iff.mp hmore with ⟨hd, -⟩ | ⟨-, -, hlt⟩
    · exact hdl t (h.holds.mem_all.mpr ⟨p, ht⟩) hd
    · rw [h.holds.priority p t ht] at hlt
      by_cases h100 : 100 ≤ (s.kTcbPool s.kCurrentThread).priority
      · have hp : ¬ p < (s.kTcbPool s.kCurrentThread).priority := fun hp => by
          simp [hhigh h100 p hp] at ht
        unfold priorityRank at hlt
        split at hlt <;> split at hlt <;> omega
      · have hp : ¬ ((s.kTcbPool s.kCurrentThread).priority < p ∧ p ≤ 99) := fun hp => by
          simp [hk.2 p hp.1 hp.2] at ht
        unfold priorityRank at hlt
        split at hlt <;> split at hlt <;> omega

lemma Ok.preempts_chosen (h : Ok s q) :
    (∀ p, ∀ t ∈ s.rest q p, ¬ (s.kTcbPool t).MoreUrgent (s.kTcbPool (s.chosen q))) ↔
      (∃ t ∈ (s.requeued q).all, (s.kTcbPool t).hasDeadline) ∨
      (∀ t ∈ (s.requeued q).all, (s.kTcbPool t).policy ≠ .dl) ∨
      ∃ t, (s.requeued q).byPriority.head? = some t ∧ (s.kTcbPool t).policy = .dl := by
  by_cases hdl : ∃ t ∈ (s.requeued q).all, (s.kTcbPool t).hasDeadline
  · -- the deadline scan has found the earliest deadline
    refine iff_of_true (fun p u hu hmore => ?_) (Or.inl hdl)
    obtain ⟨t, hpick, -, htd, hmin⟩ := Queues.pick_deadline s.kTcbPool hdl
    have hchosen : s.chosen q = t := by simp [SchedState.chosen, hpick]
    have hu' := h.mem_requeued_all.mpr ⟨p, (h.mem_rest.mp hu).1⟩
    rw [hchosen] at hmore
    rcases Tcb.moreUrgent_iff.mp hmore with ⟨hud, hlt⟩ | ⟨-, hno, -⟩
    · have hlt := hlt htd.1
      have hud := Tcb.hasDeadline_of_lt hud (UInt64.lt_iff_toNat_lt.mpr hlt)
      exact Nat.not_lt.mpr (hmin u hu' hud) hlt
    · exact hno htd.1
  · have hno : ∀ u ∈ (s.requeued q).all, ¬ (s.kTcbPool u).hasDeadline := fun u hu hd =>
      hdl ⟨u, hu, hd⟩
    have hpick := Queues.pick_priority s.kTcbPool hno
    rw [or_iff_right hdl]
    cases hhead : (s.requeued q).byPriority.head? with
    | none =>
      have hempty : ∀ t, t ∉ (s.requeued q).all := fun t ht => by
        have hmem := Queues.mem_byPriority.mpr ht
        simp [List.head?_eq_none_iff.mp hhead] at hmem
      refine iff_of_true (fun p u hu => ?_) (Or.inl fun t ht => absurd ht (hempty t))
      exact absurd (h.mem_requeued_all.mpr ⟨p, (h.mem_rest.mp hu).1⟩) (hempty u)
    | some t =>
      have hchosen : s.chosen q = t := by simp [SchedState.chosen, hpick, hhead]
      have ht := Queues.mem_byPriority.mp (List.mem_of_mem_head? hhead)
      rw [hchosen]
      constructor
      · intro hbest
        by_cases htd : (s.kTcbPool t).policy = .dl
        · exact Or.inr ⟨t, rfl, htd⟩
        · refine Or.inl fun u hu hud => ?_
          obtain ⟨p, hp⟩ := h.mem_requeued_all.mp hu
          have hne : u ≠ s.chosen q := by
            rintro rfl
            exact htd (hchosen ▸ hud)
          exact hbest p u (h.mem_rest.mpr ⟨hp, hne⟩)
            (Tcb.moreUrgent_iff.mpr (Or.inl ⟨hud, fun hc => absurd hc htd⟩))
      · intro hcond p u hu hmore
        have hu' := h.mem_requeued_all.mpr ⟨p, (h.mem_rest.mp hu).1⟩
        rcases Tcb.moreUrgent_iff.mp hmore with ⟨hud, hlt⟩ | ⟨-, -, hlt⟩
        · -- two deadline threads, neither of which the scan can choose
          have htd : (s.kTcbPool t).policy = .dl := by
            rcases hcond with hnone | ⟨v, hv, hvd⟩
            · exact absurd hud (hnone u hu')
            · exact Option.some.inj hv ▸ hvd
          exact hno u hu' (Tcb.hasDeadline_of_lt hud (UInt64.lt_iff_toNat_lt.mpr (hlt htd)))
        · exact Nat.not_lt.mpr (h.priorityRank_le hhead hu') hlt

lemma rank_switched {s' : SchedState} {t : Nat} (hsw : Switched s t s') (u v : Nat) :
    (s'.kTcbPool u).MoreUrgent (s'.kTcbPool v) ↔ (s.kTcbPool u).MoreUrgent (s.kTcbPool v) := by
  unfold Tcb.MoreUrgent Tcb.rank
  rw [hsw.pool u, hsw.pool v]

/-- After a timer interrupt no queued thread is more urgent than the current
one, exactly in the cases of `SchedState.Preempts`. -/
theorem tick_preempts {kTicksPerMs kHhdmOffset : Nat} {ops : List Op}
    (hlegal : ∀ op ∈ ops, op.Legal) (hrun : runFrom kTicksPerMs kHhdmOffset ops = some s)
    (hen : s.kSchedulingEnabled = true) : ∃ s', timerTick s = some s' ∧
      ((∀ p, ∀ t ∈ s'.queue p, ¬ (s'.kTcbPool t).MoreUrgent (s'.kTcbPool s'.kCurrentThread)) ↔
        s.Preempts s.queue) := by
  obtain ⟨q, h⟩ := Ok.run hlegal hrun
  rw [h.queue_eq]
  unfold SchedState.Preempts
  by_cases hk : s.KeepsCpu q
  · refine ⟨_, timerTick_of_keeps h hk, ?_⟩
    rw [(h.setTimer (s.ticks tickIntervalMs)).queue_eq]
    simpa [hk] using h.preempts_keeps hk
  · obtain ⟨s', hs, hsw, hok⟩ := schedule_spec (h.setTimer 0) hen
    refine ⟨s', (timerTick_of_not_keeps h hk).trans hs, ?_⟩
    have hcur : s'.kCurrentThread = s.chosen q := hsw.current
    have hqueue : s'.queue = s.rest q := hok.queue_eq
    rw [hqueue, hcur]
    simp only [rank_switched hsw]
    simpa [hk] using h.preempts_chosen

theorem tick_preempts_rr : ∃ s', timerTick exitState = some s' ∧
    ((∀ p, ∀ t ∈ s'.queue p, ¬ (s'.kTcbPool t).MoreUrgent (s'.kTcbPool s'.kCurrentThread)) ↔
      exitState.Preempts exitState.queue) :=
  tick_preempts (by decide) runFrom_exitRun (by decide)

/-- A deadline thread of priority 0 is queued; the interrupt leaves the idle
thread running, whose policy is FIFO. -/
theorem tick_not_preempted :
    (runFrom 1000 0 [.create 0 .dl 5 0x100000, .start]).map (fun s => s.timer) = some 1000 ∧
      (runFrom 1000 0 [.create 0 .dl 5 0x100000, .start, .tick]).map
      (fun s => (s.kCurrentThread, s.queue 0,
          decide
            ((s.kTcbPool 1).rank < (s.kTcbPool s.kCurrentThread).rank))) = some (0, [1], true) := by
  decide

end VortexOS.Sched
