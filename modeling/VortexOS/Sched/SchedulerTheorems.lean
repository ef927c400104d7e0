/-
VortexOS.Sched.SchedulerTheorems — what one call does to the threads.

`Ok s q` is the invariant of the scheduler: the queues hold exactly the
READY threads, each on the queue of its priority, the current thread is
not READY, and every other thread has a context to go on with. The central
result is `schedule_spec`: `schedule` returns, makes the thread
`SchedState.chosen` current, and keeps the invariant. `Switched` says
everything else about the new state.
-/
import VortexOS.Sched.ReadyQueues

namespace VortexOS.Sched

open Function Lib

variable {pool pool' : Nat → Tcb} {t p u priority stackPhys : Nat} {s' : SchedState}
  {policy : SchedPolicy} {absDeadline : UInt64} {ops : List Op}

@[simp] lemma modTcb_pool (s : SchedState) (x : Nat) (f : Tcb → Tcb) (u : Nat) :
    (s.modTcb x f).kTcbPool u = if u = x then f (s.kTcbPool u) else s.kTcbPool u := by
  by_cases hu : u = x
  · subst hu
    simp [SchedState.modTcb]
  · simp [SchedState.modTcb, hu]

lemma next_modTcb (s : SchedState) (x : Nat) {f : Tcb → Tcb} (hf : ∀ t, (f t).next = t.next) :
    (s.modTcb x f).next = s.next := by
  funext u
  by_cases hu : u = x <;> simp [SchedState.next, hu, hf]

/-! ## The invariant -/

/-- The invariant of the scheduler, for the contents `q` of the queues. -/
structure Ok (s : SchedState) (q : Queues) : Prop where
  holds : Holds s q
  current_lt : s.kCurrentThread < s.kNextTcbIndex
  idle_lt : s.kIdleThread < s.kNextTcbIndex
  idle_priority : (s.kTcbPool s.kIdleThread).priority = 0
  idle_policy : (s.kTcbPool s.kIdleThread).policy = .fifo
  priority_lt : ∀ t < s.kNextTcbIndex, (s.kTcbPool t).priority < numPriorities
  queued : ∀ t < s.kNextTcbIndex,
    t ∈ q (s.kTcbPool t).priority ↔ (s.kTcbPool t).state = .ready
  current_state : (s.kTcbPool s.kCurrentThread).state ≠ .ready
  context : ∀ t < s.kNextTcbIndex, t ≠ s.kCurrentThread → (s.kTcbPool t).context ≠ none

lemma Ok.current_not_mem {s : SchedState} {q : Queues} (h : Ok s q) (p : Nat) :
    s.kCurrentThread ∉ q p := by
  intro hmem
  have hp := h.holds.priority p _ hmem
  rw [← hp] at hmem
  exact h.current_state ((h.queued _ h.current_lt).mp hmem)

/-! ## Which thread `schedule` makes current -/

def SchedState.requeued (s : SchedState) (q : Queues) : Queues :=
  if (s.kTcbPool s.kCurrentThread).state = .running then
    q.push (s.kTcbPool s.kCurrentThread).priority s.kCurrentThread
  else q

/-- The thread that `schedule` makes current. -/
def SchedState.chosen (s : SchedState) (q : Queues) : Nat :=
  ((s.requeued q).pick s.kTcbPool).getD s.kIdleThread

def SchedState.rest (s : SchedState) (q : Queues) : Queues :=
  (s.requeued q).without s.kTcbPool ((s.requeued q).pick s.kTcbPool)

lemma Queues.pick_congr (q : Queues)
    (h : ∀ t, (pool' t).policy = (pool t).policy ∧ (pool' t).absDeadline = (pool t).absDeadline) :
    q.pick pool' = q.pick pool := by
  have hd : q.deadlines pool' = q.deadlines pool := by
    refine List.filter_congr fun t _ => decide_eq_decide.mpr ?_
    simp [Tcb.hasDeadline, h t]
  unfold Queues.pick
  rw [hd]
  simp [h]

lemma Queues.without_congr (q : Queues) (h : ∀ t, (pool' t).priority = (pool t).priority)
    (o : Option Nat) : q.without pool' o = q.without pool o := by
  cases o with
  | none => rfl
  | some t => simp [Queues.without, h]

variable {s : SchedState} {q : Queues}

lemma Ok.mem_requeued (h : Ok s q) (ht : t < s.kNextTcbIndex) :
    t ∈ s.requeued q (s.kTcbPool t).priority ↔
      (s.kTcbPool t).state = .ready ∨ t = s.kCurrentThread ∧ (s.kTcbPool t).state = .running := by
  unfold SchedState.requeued
  split
  · rename_i hrun
    rw [Queues.mem_push, h.queued t ht]
    refine or_congr Iff.rfl ⟨fun ⟨_, he⟩ => ⟨he, he ▸ hrun⟩, fun ⟨he, _⟩ => ⟨by rw [he], he⟩⟩
  · rename_i hrun
    rw [h.queued t ht]
    refine (or_iff_left ?_).symm
    rintro ⟨rfl, hr⟩
    exact hrun hr

lemma Ok.requeued_bounded (h : Ok s q) (ht : t ∈ s.requeued q p) :
    p = (s.kTcbPool t).priority ∧ t < s.kNextTcbIndex := by
  unfold SchedState.requeued at ht
  split at ht
  · rcases Queues.mem_push.mp ht with ht | ⟨rfl, rfl⟩
    · exact ⟨(h.holds.priority p t ht).symm, (h.holds.bounded p t ht).2⟩
    · exact ⟨rfl, h.current_lt⟩
  · exact ⟨(h.holds.priority p t ht).symm, (h.holds.bounded p t ht).2⟩

lemma Ok.chosen_lt (h : Ok s q) : s.chosen q < s.kNextTcbIndex := by
  unfold SchedState.chosen
  cases hp : (s.requeued q).pick s.kTcbPool with
  | none => exact h.idle_lt
  | some t =>
    obtain ⟨p, -, ht⟩ := Queues.mem_all.mp (Queues.pick_mem hp)
    exact (h.requeued_bounded ht).2

lemma Ok.requeued_nodup (h : Ok s q) (p : Nat) : (s.requeued q p).Nodup := by
  have hnd := (h.holds.fifo p).nodup
  unfold SchedState.requeued Queues.push
  split
  · by_cases hp : p = (s.kTcbPool s.kCurrentThread).priority
    · subst hp
      simpa using List.Nodup.concat (h.current_not_mem _) hnd
    · rw [update_of_ne hp]
      exact hnd
  · exact hnd

lemma Ok.mem_rest (h : Ok s q) : u ∈ s.rest q p ↔ u ∈ s.requeued q p ∧ u ≠ s.chosen q := by
  unfold SchedState.rest SchedState.chosen
  cases hp : (s.requeued q).pick s.kTcbPool with
  | none =>
    have hempty : ∀ t ∈ s.requeued q p, False := fun t ht => by
      obtain ⟨rfl, hlt⟩ := h.requeued_bounded ht
      have hall : t ∈ (s.requeued q).all := Queues.mem_all.mpr ⟨_, h.priority_lt t hlt, ht⟩
      simp [Queues.pick_eq_none.mp hp] at hall
    exact ⟨fun hu => (hempty u hu).elim, fun hu => (hempty u hu.1).elim⟩
  | some t =>
    simp only [Queues.without, Option.getD_some]
    by_cases hut : u = t
    · -- the chosen thread was on the queue of its priority only, and there once
      subst hut
      refine iff_of_false (fun hu => ?_) fun hu => hu.2 rfl
      obtain ⟨rfl, -⟩ := h.requeued_bounded (Queues.mem_of_mem_remove hu)
      simp only [Queues.remove, update_self] at hu
      exact (h.requeued_nodup _).not_mem_erase hu
    · rw [Queues.mem_remove_of_ne hut]
      exact (and_iff_left hut).symm

/-! ## `schedule` -/

/-- What the timer is set to when the context of `t` is loaded. -/
def SchedState.timerAfter (s : SchedState) (t : Nat) : Nat :=
  match (s.kTcbPool t).context with
  | some (.schedule next) => s.ticks
      (if (s.kTcbPool next).policy = .fifo then 10 else tickIntervalMs)
  | _ => s.timer

/-- What `schedule` does besides the queues when it makes `t` current. -/
structure Switched (s : SchedState) (t : Nat) (s' : SchedState) : Prop where
  current : s'.kCurrentThread = t
  idle : s'.kIdleThread = s.kIdleThread
  index : s'.kNextTcbIndex = s.kNextTcbIndex
  enabled : s'.kSchedulingEnabled = s.kSchedulingEnabled
  ticksPerMs : s'.kTicksPerMs = s.kTicksPerMs
  pool : ∀ u, s'.kTcbPool u =
    { s.kTcbPool u with
      next := s'.next u
      state :=
        if u = t then .running
        else if u = s.kCurrentThread ∧ (s.kTcbPool u).state = .running then .ready
        else (s.kTcbPool u).state
      context :=
        if u = s.kCurrentThread ∧ t ≠ s.kCurrentThread then some (.schedule t)
        else (s.kTcbPool u).context }
  timer : s'.timer =
    if t = s.kCurrentThread then s.timer else s.timerAfter t

/-- The state after the store of step 1 of `schedule`. -/
def SchedState.marked (s : SchedState) : SchedState :=
  { s with
    kTcbPool := fun u =>
      { s.kTcbPool u with
        state := if u = s.kCurrentThread ∧ (s.kTcbPool u).state = .running then .ready
          else (s.kTcbPool u).state } }

lemma modTcb_ready (h : (s.kTcbPool s.kCurrentThread).state = .running) :
    (s.modTcb s.kCurrentThread fun t => { t with state := .ready }) = s.marked := by
  unfold SchedState.modTcb SchedState.marked
  congr 1
  funext u
  by_cases hu : u = s.kCurrentThread
  · subst hu
    simp [h]
  · simp [hu]

lemma marked_of_not_running (h : (s.kTcbPool s.kCurrentThread).state ≠ .running) :
    s.marked = s := by
  have hpool : s.marked.kTcbPool = s.kTcbPool := by
    funext u
    have hu : ¬ (u = s.kCurrentThread ∧ (s.kTcbPool u).state = .running) := by
      rintro ⟨rfl, hr⟩
      exact h hr
    simp [SchedState.marked, hu]
  exact congrArg (fun pool => { s with kTcbPool := pool }) hpool

/-- What `schedule` needs to do its work: the queues are well formed, a
RUNNING current thread is on none of them, and every other thread that may
become current has a context to go on with. -/
structure Schedulable (s : SchedState) (q : Queues) : Prop where
  holds : Holds s q
  current : (s.kTcbPool s.kCurrentThread).state = .running →
    s.kCurrentThread < s.kNextTcbIndex ∧
      (s.kTcbPool s.kCurrentThread).priority < numPriorities ∧ ∀ p, s.kCurrentThread ∉ q p
  context : ∀ t, t ∈ q.all ∨ t = s.kIdleThread → t ≠ s.kCurrentThread →
    (s.kTcbPool t).context ≠ none

lemma Ok.schedulable (h : Ok s q) : Schedulable s q where
  holds := h.holds
  current _ := ⟨h.current_lt, h.priority_lt _ h.current_lt, h.current_not_mem⟩
  context t ht hne := by
    have hlt : t < s.kNextTcbIndex := by
      rcases ht with ht | rfl
      · obtain ⟨p, -, ht⟩ := Queues.mem_all.mp ht
        exact (h.holds.bounded p t ht).2
      · exact h.idle_lt
    exact h.context t hlt hne

lemma requeueCurrent_spec (h : Schedulable s q) :
    ∃ s', requeueCurrent s = some s' ∧ Relinked s.marked s' ∧ Holds s' (s.requeued q) := by
  unfold requeueCurrent SchedState.requeued
  by_cases hrun : (s.kTcbPool s.kCurrentThread).state = .running
  · obtain ⟨hlt, hprio, hnew⟩ := h.current hrun
    have hmark : Holds s.marked q :=
      h.holds.congr (fun _ _ => rfl) (fun _ _ => rfl) rfl rfl (Nat.le_refl _) h.holds.index_le
    have hpush := hmark.push hprio hlt rfl hnew
    simp only [hrun, if_true, modTcb_ready hrun]
    exact ⟨_, queuePushBack_eq hprio, ⟨_, _, _, rfl⟩, hpush⟩
  · simp only [hrun, if_false]
    exact ⟨s, rfl, ⟨s.next, s.kReadyQueues, s.kTotalReady, by rw [marked_of_not_running hrun]; rfl⟩,
      h.holds⟩

lemma setRsp0_eq (t : Nat) (s : SchedState) : ∃ r, setRsp0 t s = { s with rsp0 := r } := by
  by_cases h : (s.kTcbPool t).stackBase ≠ 0
  · exact ⟨_, if_pos h⟩
  · exact ⟨s.rsp0, if_neg h⟩

lemma contextSwitch_eq {current : Nat} (hne : t ≠ current) (hctx : (s.kTcbPool t).context ≠ none) :
    contextSwitch current t s = some { s.modTcb current fun x =>
      { x with context := some (.schedule t) } with timer := s.timerAfter t } := by
  unfold contextSwitch SchedState.timerAfter
  simp only [modTcb_pool, if_neg hne]
  cases hc : (s.kTcbPool t).context with
  | none => exact absurd hc hctx
  | some r =>
    cases r with
    | trampoline => rfl
    | schedule next =>
      by_cases hn : next = current <;> simp [armTimer, apicTimerOneshot, SchedState.ticks,
        hn] <;> rfl

lemma timerAfter_congr (t : Nat) (hctx : (s'.kTcbPool t).context = (s.kTcbPool t).context)
    (hpol : ∀ u, (s'.kTcbPool u).policy = (s.kTcbPool u).policy) (htimer : s'.timer = s.timer)
    (hticks : s'.kTicksPerMs = s.kTicksPerMs) : s'.timerAfter t = s.timerAfter t := by
  unfold SchedState.timerAfter SchedState.ticks
  rw [hctx, htimer, hticks]
  simp only [hpol]

lemma switchTo_of_ne (hne : t ≠ s.kCurrentThread) (hctx : (s.kTcbPool t).context ≠ none) :
    ∃ r, switchTo t s = some
      { (s.modTcb t fun x => { x with state := .running }).modTcb s.kCurrentThread fun x =>
          { x with context := some (.schedule t) } with
        kCurrentThread := t, rsp0 := r, timer := s.timerAfter t } := by
  obtain ⟨r, hr⟩ := setRsp0_eq t
    { s.modTcb t fun x => { x with state := .running } with kCurrentThread := t }
  have hswitch : switchTo t s = contextSwitch s.kCurrentThread t
      { s.modTcb t fun x => { x with state := .running } with kCurrentThread := t, rsp0 := r } :=
    (if_neg hne).trans (congrArg (contextSwitch s.kCurrentThread t) hr)
  have htimer : SchedState.timerAfter
      { s.modTcb t fun x => { x with state := .running } with kCurrentThread := t, rsp0 := r } t =
        s.timerAfter t := by
    refine timerAfter_congr t (by simp) (fun u => ?_) rfl rfl
    by_cases hu : u = t <;> simp [hu]
  refine ⟨r, ?_⟩
  rw [hswitch, contextSwitch_eq hne (by simpa using hctx), htimer]
  rfl

/-- Step 3 of `schedule`, from a state that has gone through the first two. -/
lemma switchTo_spec {s2 : SchedState} (hrel : Relinked s.marked s2)
    (hctx : t ≠ s.kCurrentThread → (s.kTcbPool t).context ≠ none) :
    ∃ s', switchTo t s2 = some s' ∧ Switched s t s' ∧ s'.next = s2.next ∧
    s'.kReadyQueues = s2.kReadyQueues ∧ s'.kTotalReady = s2.kTotalReady := by
  obtain ⟨next, queues, total, rfl⟩ := hrel
  by_cases ht : t = s.kCurrentThread
  · subst ht
    refine ⟨_, if_pos rfl, ⟨rfl, rfl, rfl, rfl, rfl, fun u => ?_, (if_pos rfl).symm⟩,
      next_modTcb _ _ fun _ => rfl, rfl, rfl⟩
    by_cases hu : u = s.kCurrentThread
    · simp [SchedState.next, SchedState.relink, SchedState.marked, hu]
    · simp [SchedState.next, SchedState.relink, SchedState.marked, hu]
  · obtain ⟨r, hr⟩ := switchTo_of_ne (s := s.marked.relink next queues total) ht (hctx ht)
    refine ⟨_, hr, ⟨rfl, rfl, rfl, rfl, rfl, fun u => ?_, (if_neg ht).symm⟩,
      (next_modTcb (f := fun x => { x with context := some (.schedule t) }) _ _ fun _ => rfl).trans
        (next_modTcb (f := fun x => { x with state := .running }) _ _ fun _ => rfl), rfl, rfl⟩
    by_cases hut : u = t
    · subst hut
      simp [SchedState.next, SchedState.relink, SchedState.marked, ht]
    · by_cases hu : u = s.kCurrentThread
      · simp [SchedState.next, SchedState.relink, SchedState.marked, ht, hu, Ne.symm ht]
      · simp [SchedState.next, SchedState.relink, SchedState.marked, hut, hu]

lemma Ok.queued_rest (h : Ok s q) (hsw : Switched s (s.chosen q) s') (hu : u < s.kNextTcbIndex) :
    u ∈ s.rest q (s.kTcbPool u).priority ↔ (s'.kTcbPool u).state = .ready := by
  rw [h.mem_rest, h.mem_requeued hu, hsw.pool u]
  by_cases huc : u = s.chosen q
  · simp [huc]
  · simp only [ne_eq, huc, not_false_eq_true, and_true]
    by_cases hrun : u = s.kCurrentThread ∧ (s.kTcbPool u).state = .running
    · rw [if_pos hrun]
      exact iff_of_true (Or.inr hrun) rfl
    · rw [if_neg hrun]
      exact or_iff_left hrun

/-- The thread that is made current was queued, or is the idle thread. -/
lemma Schedulable.chosen_context (h : Schedulable s q) (hne : s.chosen q ≠ s.kCurrentThread) :
    (s.kTcbPool (s.chosen q)).context ≠ none := by
  refine h.context _ ?_ hne
  unfold SchedState.chosen at hne ⊢
  cases hpick : (s.requeued q).pick s.kTcbPool with
  | none => exact Or.inr rfl
  | some t =>
    rw [hpick, Option.getD_some] at hne
    obtain ⟨p, hp, ht⟩ := Queues.mem_all.mp (Queues.pick_mem hpick)
    unfold SchedState.requeued at ht
    split at ht
    · rcases Queues.mem_push.mp ht with ht | ⟨-, rfl⟩
      · exact Or.inl (Queues.mem_all.mpr ⟨p, hp, ht⟩)
      · exact absurd rfl hne
    · exact Or.inl (Queues.mem_all.mpr ⟨p, hp, ht⟩)

lemma schedule_switches (h : Schedulable s q) (hen : s.kSchedulingEnabled = true) :
    ∃ s', schedule s = some s' ∧ Switched s (s.chosen q) s' ∧ Holds s' (s.rest q) := by
  obtain ⟨s1, h1, hrel1, hq1⟩ := requeueCurrent_spec h
  obtain ⟨s2, h2, hrel2, hq2⟩ := pickNext_spec hq1
  obtain ⟨n1, k1, c1, rfl⟩ := hrel1
  obtain ⟨n2, k2, c2, rfl⟩ := hrel2
  have hpick : (s.requeued q).pick (s.marked.relink n1 k1 c1).kTcbPool =
      (s.requeued q).pick s.kTcbPool := Queues.pick_congr _ fun t => ⟨rfl, rfl⟩
  have hrest : (s.requeued q).without (s.marked.relink n1 k1 c1).kTcbPool
      ((s.requeued q).pick s.kTcbPool) = s.rest q := Queues.without_congr _ (fun t => rfl) _
  rw [hpick] at h2 hq2
  rw [hrest] at hq2
  obtain ⟨s', h3, hsw, hnext, hqueues, htotal⟩ :=
    switchTo_spec (t := s.chosen q) ⟨n2, k2, c2, rfl⟩ h.chosen_context
  have hprio : ∀ u, (s'.kTcbPool u).priority = (s.kTcbPool u).priority := fun u => by rw [hsw.pool]
  refine ⟨s', ?_, hsw, ?_⟩
  · unfold schedule
    rw [if_pos hen, h1]
    simp only [Option.bind_eq_bind, Option.bind_some, h2]
    exact h3
  · exact hq2.congr (fun t _ => congrFun hnext t) (fun t _ => hprio t) hqueues htotal
      (Nat.le_of_eq hsw.index.symm) (hsw.index ▸ h.holds.index_le)

lemma schedule_spec (h : Ok s q) (hen : s.kSchedulingEnabled = true) :
    ∃ s', schedule s = some s' ∧ Switched s (s.chosen q) s' ∧ Ok s' (s.rest q) := by
  obtain ⟨s', hsched, hsw, hholds⟩ := schedule_switches h.schedulable hen
  have hprio : ∀ u, (s'.kTcbPool u).priority = (s.kTcbPool u).priority := fun u => by rw [hsw.pool]
  refine ⟨s', hsched, hsw, ?_⟩
  exact
    { holds := hholds
      current_lt := by
        rw [hsw.current, hsw.index]
        exact h.chosen_lt
      idle_lt := by
        rw [hsw.idle, hsw.index]
        exact h.idle_lt
      idle_priority := by
        rw [hsw.idle, hprio]
        exact h.idle_priority
      idle_policy := by
        rw [hsw.idle, hsw.pool]
        exact h.idle_policy
      priority_lt := fun t ht => by
        rw [hprio]
        exact h.priority_lt t (hsw.index ▸ ht)
      queued := fun t ht => by
        rw [hprio]
        exact h.queued_rest hsw (hsw.index ▸ ht)
      current_state := by
        rw [hsw.current, hsw.pool]
        simp
      context := fun t ht hne => by
        rw [hsw.current] at hne
        rw [hsw.pool]
        by_cases htc : t = s.kCurrentThread
        · simp [htc, htc ▸ Ne.symm hne]
        · simpa [htc] using h.context t (hsw.index ▸ ht) htc }

/-! ## The timer interrupt -/

lemma Ok.enable (h : Ok s q) (w : Nat) (b : Bool) :
    Ok { s with timer := w, kSchedulingEnabled := b } q where
  holds := h.holds.congr (fun _ _ => rfl) (fun _ _ => rfl) rfl rfl (Nat.le_refl _) h.holds.index_le
  current_lt := h.current_lt
  idle_lt := h.idle_lt
  idle_priority := h.idle_priority
  idle_policy := h.idle_policy
  priority_lt := h.priority_lt
  queued := h.queued
  current_state := h.current_state
  context := h.context

lemma Ok.setTimer (h : Ok s q) (w : Nat) : Ok { s with timer := w } q := h.enable w _

/-- The current thread keeps the CPU at a timer interrupt. -/
def SchedState.KeepsCpu (s : SchedState) (q : Queues) : Prop :=
  (s.kTcbPool s.kCurrentThread).policy = .fifo ∧
    ∀ p, (s.kTcbPool s.kCurrentThread).priority < p → p ≤ 99 → q p = []

lemma higherReady_iff (h : Holds s q) (priority : Nat) :
    higherReady s priority = true ↔ ∃ p, priority < p ∧ p ≤ 99 ∧ q p ≠ [] := by
  unfold higherReady rtPriorities
  simp only [List.any_eq_true, List.mem_reverse, List.mem_range, Bool.and_eq_true,
    decide_eq_true_eq]
  refine exists_congr fun p => ?_
  rw [(h.fifo p).seg.head]
  cases q p with
  | nil => simp
  | cons t l =>
    simp
    omega

lemma shouldResched_iff (h : Holds s q) : shouldResched s = true ↔ ¬ s.KeepsCpu q := by
  unfold shouldResched SchedState.KeepsCpu
  by_cases hp : (s.kTcbPool s.kCurrentThread).policy = .fifo
  · simp [hp, higherReady_iff h]
  · simp [hp]

lemma timerTick_of_keeps (h : Ok s q) (hk : s.KeepsCpu q) :
    timerTick s = some { s with timer := s.ticks tickIntervalMs } := by
  have hr : shouldResched { s with timer := 0 } = false := by
    rw [Bool.eq_false_iff]
    exact fun hr => (shouldResched_iff (h.setTimer 0).holds).mp hr hk
  unfold timerTick apicTimerHandler
  rw [hr]
  rfl

lemma timerTick_of_not_keeps (h : Ok s q) (hk : ¬ s.KeepsCpu q) :
    timerTick s = schedule { s with timer := 0 } := by
  have hr : shouldResched { s with timer := 0 } = true :=
    (shouldResched_iff (h.setTimer 0).holds).mpr hk
  unfold timerTick apicTimerHandler
  rw [hr]
  rfl

/-! ## The other calls -/

def newTcb (id priority : Nat) (policy : SchedPolicy) (absDeadline : UInt64) (stackPhys : Nat) :
    Tcb where
  context := some .trampoline
  stackBase := stackPhys
  stackPages := kthreadStackPages
  state := .ready
  policy := policy
  priority := priority
  absDeadline := absDeadline
  id := id
  next := none

/-- One more thread, with the record `r`. -/
def SchedState.added (s : SchedState) (r : Tcb) : SchedState :=
  { s with
    kTcbPool := update s.kTcbPool s.kNextTcbIndex r
    kNextTcbIndex := s.kNextTcbIndex + 1
    kNextThreadId := (s.kNextThreadId + 1) % 2 ^ 32 }

lemma createThread_full (hfull : maxThreads ≤ s.kNextTcbIndex) :
    createThread priority policy absDeadline stackPhys s = some s := by
  simp [createThread, kthreadCreate, allocTcb, hfull]

lemma createThread_no_stack (hroom : s.kNextTcbIndex < maxThreads) :
    createThread priority policy absDeadline 0 s = none := by
  simp [createThread, kthreadCreate, allocTcb, Nat.not_le.mpr hroom]

lemma createThread_eq (hroom : s.kNextTcbIndex < maxThreads) (hstack : stackPhys ≠ 0)
    (hp : priority < numPriorities) :
    createThread priority policy absDeadline stackPhys s = some
      ((s.added (newTcb s.kNextThreadId priority policy absDeadline stackPhys)).pushed
        priority s.kNextTcbIndex) := by
  rw [← queuePushBack_eq hp]
  simp [createThread, kthreadCreate, allocTcb, Nat.not_le.mpr hroom, hstack, enqueueThread,
    SchedState.modTcb, SchedState.added, newTcb]

lemma Ok.create (h : Ok s q) {r : Tcb} (hroom : s.kNextTcbIndex < maxThreads)
    (hp : r.priority < numPriorities) (hready : r.state = .ready) (hctx : r.context ≠ none) :
    Ok ((s.added r).pushed r.priority s.kNextTcbIndex) (q.push r.priority s.kNextTcbIndex) := by
  have hold : ∀ t < s.kNextTcbIndex, (s.added r).kTcbPool t = s.kTcbPool t := fun t ht => by
    simp [SchedState.added, Nat.ne_of_lt ht]
  have hnew : (s.added r).kTcbPool s.kNextTcbIndex = r := by simp [SchedState.added]
  have hadded : Holds (s.added r) q :=
    h.holds.congr (fun t ht => by rw [SchedState.next, hold t ht, SchedState.next])
      (fun t ht => by rw [hold t ht]) rfl rfl (Nat.le_succ _) hroom
  have hfresh : ∀ p, s.kNextTcbIndex ∉ q p := fun p hm =>
    Nat.lt_irrefl _ (h.holds.bounded p _ hm).2
  exact
    { holds := hadded.push hp (Nat.lt_succ_self _) (by rw [hnew]) hfresh
      current_lt := Nat.lt_succ_of_lt h.current_lt
      idle_lt := Nat.lt_succ_of_lt h.idle_lt
      idle_priority := by
        show ((s.added r).kTcbPool s.kIdleThread).priority = 0
        rw [hold _ h.idle_lt, h.idle_priority]
      idle_policy := by
        show ((s.added r).kTcbPool s.kIdleThread).policy = .fifo
        rw [hold _ h.idle_lt, h.idle_policy]
      priority_lt := fun t ht => by
        show ((s.added r).kTcbPool t).priority < numPriorities
        rcases Nat.lt_succ_iff_lt_or_eq.mp ht with ht | rfl
        · rw [hold t ht]
          exact h.priority_lt t ht
        · rw [hnew]
          exact hp
      queued := fun t ht => by
        show t ∈ q.push r.priority s.kNextTcbIndex ((s.added r).kTcbPool t).priority ↔
          ((s.added r).kTcbPool t).state = .ready
        rw [Queues.mem_push]
        rcases Nat.lt_succ_iff_lt_or_eq.mp ht with ht | rfl
        · rw [hold t ht, ← h.queued t ht]
          exact or_iff_left fun he => Nat.ne_of_lt ht he.2
        · rw [hnew, hready]
          simp
      current_state := by
        show ((s.added r).kTcbPool s.kCurrentThread).state ≠ .ready
        rw [hold _ h.current_lt]
        exact h.current_state
      context := fun t ht hne => by
        show ((s.added r).kTcbPool t).context ≠ none
        rcases Nat.lt_succ_iff_lt_or_eq.mp ht with ht | rfl
        · rw [hold t ht]
          exact h.context t ht hne
        · rw [hnew]
          exact hctx }

lemma threadExit_pool (s : SchedState) (u : Nat) : (threadExit s).kTcbPool u = { s.kTcbPool u with
    state := if u = s.kCurrentThread then .dead else (s.kTcbPool u).state } := by
  by_cases hu : u = s.kCurrentThread <;> simp [threadExit, hu]

lemma Ok.exit (h : Ok s q) : Ok (threadExit s) q where
  holds := h.holds.congr (fun t _ => by rw [SchedState.next, threadExit_pool, SchedState.next])
    (fun t _ => by rw [threadExit_pool]) rfl rfl (Nat.le_refl _) h.holds.index_le
  current_lt := h.current_lt
  idle_lt := h.idle_lt
  idle_priority := by
    rw [threadExit_pool]
    exact h.idle_priority
  idle_policy := by
    rw [threadExit_pool]
    exact h.idle_policy
  priority_lt t ht := by
    rw [threadExit_pool]
    exact h.priority_lt t ht
  queued t ht := by
    rw [threadExit_pool]
    by_cases hc : t = s.kCurrentThread
    · -- the current thread was on no queue
      simpa [hc] using h.current_not_mem _
    · simpa [hc] using h.queued t ht
  current_state := by
    rw [threadExit_pool]
    simp [threadExit, SchedState.modTcb]
  context t ht hne := by
    rw [threadExit_pool]
    exact h.context t ht hne

lemma Ok.start (h : Ok s q) : Ok (schedulerStart s) q := h.enable _ true

def initState (kTicksPerMs kHhdmOffset : Nat) : SchedState :=
  { bootState kTicksPerMs kHhdmOffset with
    kTcbPool := update (fun _ => zeroTcb) 0 { zeroTcb with id := 1, state := .running }
    kNextTcbIndex := 1
    kNextThreadId := 2 }

lemma threadInit_eq (kTicksPerMs kHhdmOffset : Nat) :
    threadInit (bootState kTicksPerMs kHhdmOffset) = some (initState kTicksPerMs kHhdmOffset) := by
  simp [threadInit, allocTcb, SchedState.modTcb, bootState, initState, maxThreads, zeroTcb]

lemma Ok.init (kTicksPerMs kHhdmOffset : Nat) :
    Ok (initState kTicksPerMs kHhdmOffset) fun _ => [] := by
  have hidle : (initState kTicksPerMs kHhdmOffset).kTcbPool 0 =
      { zeroTcb with id := 1, state := .running } := by simp [initState]
  exact
    { holds :=
        { fifo := fun _ => Fifo.empty
          priority := by simp
          bounded := by simp
          index_le := show 1 ≤ maxThreads by decide
          total := by simp [Queues.count, initState, bootState] }
      current_lt := Nat.zero_lt_one
      idle_lt := Nat.zero_lt_one
      idle_priority := congrArg Tcb.priority hidle
      idle_policy := congrArg Tcb.policy hidle
      priority_lt := fun t ht => by
        obtain rfl : t = 0 := Nat.lt_one_iff.mp ht
        rw [hidle]
        decide
      queued := fun t ht => by
        obtain rfl : t = 0 := Nat.lt_one_iff.mp ht
        rw [hidle]
        simp
      current_state := by
        show ((initState kTicksPerMs kHhdmOffset).kTcbPool 0).state ≠ .ready
        rw [hidle]
        simp
      context := fun t ht hne => absurd (Nat.lt_one_iff.mp ht) hne }

/-! ## Runs -/

/-- An operation the callers of the scheduler may perform: a new thread has
one of the priorities there are. -/
def Op.Legal : Op → Prop
  | .create priority _ _ _ => priority < numPriorities
  | _ => True

instance : ∀ op : Op, Decidable op.Legal
  | .create priority _ _ _ => inferInstanceAs (Decidable (priority < numPriorities))
  | .start | .yield | .tick | .exit => inferInstanceAs (Decidable True)

/-- `pmm_alloc_pages` finds the pages for the stack. -/
def Op.HasStack : Op → Prop
  | .create _ _ _ stackPhys => stackPhys ≠ 0
  | _ => True

/-- Every operation keeps the invariant, and returns unless it is a
`kthread_create` that finds no memory for the stack. -/
lemma Ok.step (h : Ok s q) {op : Op} (hop : op.Legal) :
    (∀ s', step s op = some s' → ∃ q', Ok s' q') ∧ (op.HasStack → ∃ s', step s op = some s') := by
  have returns : ∀ {s' : SchedState} {q' : Queues}, Sched.step s op = some s' → Ok s' q' →
      (∀ s', Sched.step s op = some s' → ∃ q', Ok s' q') ∧
        (op.HasStack → ∃ s', Sched.step s op = some s') := fun hs hq =>
    ⟨fun _ ht => ⟨_, Option.mem_unique hs ht ▸ hq⟩, fun _ => ⟨_, hs⟩⟩
  have sched : ∀ {s0 : SchedState}, Ok s0 q → ∃ s' q', schedule s0 = some s' ∧ Ok s' q' := by
    intro s0 h0
    by_cases hen : s0.kSchedulingEnabled = true
    · obtain ⟨s', hs, -, hok⟩ := schedule_spec h0 hen
      exact ⟨s', _, hs, hok⟩
    · exact ⟨s0, q, if_neg hen, h0⟩
  cases op with
  | create priority policy absDeadline stackPhys =>
    by_cases hroom : s.kNextTcbIndex < maxThreads
    · by_cases hstack : stackPhys = 0
      · subst hstack
        have hnone : Sched.step s (.create priority policy absDeadline 0) = none :=
          createThread_no_stack hroom
        exact ⟨fun s' hs => by simp [hnone] at hs, fun hno => absurd rfl hno⟩
      · have hp : priority < numPriorities := hop
        exact returns (createThread_eq hroom hstack hop) (h.create hroom hp rfl (by simp [newTcb]))
    · exact returns (createThread_full (Nat.not_lt.mp hroom)) h
  | start => exact returns rfl h.start
  | yield =>
    obtain ⟨s', q', hs, hok⟩ := sched h
    exact returns hs hok
  | tick =>
    by_cases hk : s.KeepsCpu q
    · exact returns (timerTick_of_keeps h hk) (h.setTimer _)
    · obtain ⟨s', q', hs, hok⟩ := sched (h.setTimer 0)
      exact returns ((timerTick_of_not_keeps h hk).trans hs) hok
  | exit => exact returns rfl h.exit

lemma Ok.run {kTicksPerMs kHhdmOffset : Nat} (hlegal : ∀ op ∈ ops, op.Legal)
    (hrun : runFrom kTicksPerMs kHhdmOffset ops = some s) : ∃ q, Ok s q := by
  have hrun' : Lib.run Sched.step (initState kTicksPerMs kHhdmOffset) ops = some s := by
    simpa [runFrom, threadInit_eq] using hrun
  exact run_preserves (fun s => ∃ q, Ok s q)
    (fun s op s' ⟨_, hq⟩ hop hs => (hq.step hop).1 s' hs) ⟨_, Ok.init _ _⟩
    (Along.of_forall hlegal) hrun'

lemma Ok.run_returns (kTicksPerMs kHhdmOffset : Nat) (hlegal : ∀ op ∈ ops, op.Legal)
    (hstack : ∀ op ∈ ops, op.HasStack) : ∃ s, runFrom kTicksPerMs kHhdmOffset ops = some s := by
  have hops : ∀ op ∈ ops, op.Legal ∧ op.HasStack := fun op h => ⟨hlegal op h, hstack op h⟩
  have hinv : ∃ s, Lib.run Sched.step (initState kTicksPerMs kHhdmOffset) ops = some s ∧
      ∃ q, Ok s q := by
    refine run_invariant (fun s => ∃ q, Ok s q) ?_ ⟨_, Ok.init _ _⟩ (Along.of_forall hops)
    intro s op ⟨_, hq⟩ ⟨hl, hst⟩
    obtain ⟨s', hs'⟩ := (hq.step hl).2 hst
    exact ⟨s', hs', (hq.step hl).1 s' hs'⟩
  obtain ⟨s, hs, -⟩ := hinv
  exact ⟨s, by simpa [runFrom, threadInit_eq] using hs⟩

end VortexOS.Sched
