/-
VortexOS.Proc.ThreadPool — what becomes of the records and the stacks of
threads that have ended.

`kthread_create` takes the next record of the pool and four pages, and no
function gives either back: `thread_exit` only marks the thread DEAD, and
`schedule` leaves it out (`no_exit_reclaimed`).

Apart from `thread_exit` no function makes a thread DEAD, in any state
(`Lives`), since `enqueue_thread` may be called with any thread.
-/
import VortexOS.Proc.ForkTheorems
import VortexOS.Sched.SchedulerTheorems

namespace VortexOS.Proc

open Function Lib Mm Sched

/-! ## Calls -/

/-- The kernel, and the stacks that `kthread_create` has got from the page
allocator. `pmm_free_pages` is not called for any of them. -/
structure ThreadSys where
  kernel : Kernel
  heldStacks : List Nat

inductive ThreadOp where
  | create (priority : Nat)
  /-- The caller of `kthread_create` sets the policy. -/
  | configure (tcb : Nat) (policy : SchedPolicy) (absDeadline : UInt64)
  | enqueue (tcb : Nat)
  | start
  | yield
  | tick
  | exit
  deriving DecidableEq

def ThreadSys.setSched (w : ThreadSys) (sched : SchedState) : ThreadSys :=
  { w with kernel := { w.kernel with sched := sched } }

def threadStep (w : ThreadSys) : ThreadOp → Option ThreadSys
  | .create priority => (kthreadCreate priority w.kernel).map fun r =>
    ⟨r.2, match r.1 with
      | none => w.heldStacks
      | some tcb => (r.2.sched.kTcbPool tcb).stackBase :: w.heldStacks⟩
  | .configure tcb policy absDeadline => some (w.setSched
      (w.kernel.sched.modTcb tcb fun t => { t with policy := policy, absDeadline := absDeadline }))
  | .enqueue tcb => (enqueueThread tcb w.kernel.sched).map w.setSched
  | .start => some (w.setSched (schedulerStart w.kernel.sched))
  | .yield => (Sched.yield w.kernel.sched).map w.setSched
  | .tick => (timerTick w.kernel.sched).map w.setSched
  | .exit => some (w.setSched (threadExit w.kernel.sched))

def liveThreads (s : SchedState) : Nat :=
  (List.range s.kNextTcbIndex).countP fun t => (s.kTcbPool t).state ≠ .dead

/-- A null pointer means that there are `MAX_THREADS` threads, and stacks
belong to threads that may still run on them. -/
def Reclaimed (w : ThreadSys) : Prop :=
  (∀ priority k, kthreadCreate priority w.kernel = some (none, k) →
    liveThreads w.kernel.sched = maxThreads) ∧
  ∀ phys ∈ w.heldStacks, ∃ t, t < w.kernel.sched.kNextTcbIndex ∧
    (w.kernel.sched.kTcbPool t).stackBase = phys ∧
    ((w.kernel.sched.kTcbPool t).state ≠ .dead ∨ t = w.kernel.sched.kCurrentThread)

/-! ## Nobody dies -/

/-- No thread is created, gets another stack or dies. -/
structure Lives (s s' : SchedState) : Prop where
  index : s'.kNextTcbIndex = s.kNextTcbIndex
  stack : ∀ t, (s'.kTcbPool t).stackBase = (s.kTcbPool t).stackBase
  dead : ∀ t, (s'.kTcbPool t).state = .dead → (s.kTcbPool t).state = .dead

namespace Lives

variable {s s' s'' : SchedState}

lemma refl (s : SchedState) : Lives s s := ⟨rfl, fun _ => rfl, fun _ h => h⟩

lemma trans (h : Lives s s') (h' : Lives s' s'') : Lives s s'' :=
  ⟨h'.index.trans h.index, fun t => (h'.stack t).trans (h.stack t),
    fun t hd => h.dead t (h'.dead t hd)⟩

lemma of_pool (hindex : s'.kNextTcbIndex = s.kNextTcbIndex) (hpool : s'.kTcbPool = s.kTcbPool) :
    Lives s s' :=
  ⟨hindex, fun t => by rw [hpool], fun t => by rw [hpool]; exact id⟩

section

variable (h : Lives s s')
include h

lemma modTcb (x : Nat) {f : Tcb → Tcb} (hstack : ∀ t, (f t).stackBase = t.stackBase)
    (hdead : ∀ t, (f t).state = .dead → t.state = .dead) : Lives s (s'.modTcb x f) := by
  have hpool : (s'.modTcb x f).kTcbPool = update s'.kTcbPool x (f (s'.kTcbPool x)) := rfl
  refine ⟨h.index, fun t => ?_, fun t hd => h.dead t ?_⟩
  · rw [hpool, ← h.stack t]
    by_cases ht : t = x
    · rw [ht, update_self, hstack]
    · rw [update_of_ne ht]
  · rw [hpool] at hd
    by_cases ht : t = x
    · rw [ht, update_self] at hd
      exact ht ▸ hdead _ hd
    · rwa [update_of_ne ht] at hd

lemma modTcb_same (x : Nat) {f : Tcb → Tcb} (hstack : ∀ t, (f t).stackBase = t.stackBase)
    (hstate : ∀ t, (f t).state = t.state) : Lives s (s'.modTcb x f) :=
  h.modTcb x hstack fun t hd => hstate t ▸ hd

lemma modNext (x : Nat) (v : Option Nat) : Lives s (s'.modTcb x fun t => { t with next := v }) :=
  h.modTcb_same x (fun _ => rfl) fun _ => rfl

lemma modQueue (p : Nat) (f : ReadyQueue → ReadyQueue) : Lives s (s'.modQueue p f) :=
  h.trans (of_pool rfl rfl)

lemma setTotalReady (n : Nat) : Lives s (s'.setTotalReady n) :=
  h.trans (of_pool rfl rfl)

lemma modState (x : Nat) {v : ThreadState} (hv : v ≠ .dead) :
    Lives s (s'.modTcb x fun t => { t with state := v }) :=
  h.modTcb x (fun _ => rfl) fun _ hd => absurd hd hv

end

lemma queuePushBack {prio tcb : Nat} (h : Sched.queuePushBack prio tcb s = some s') :
    Lives s s' := by
  unfold Sched.queuePushBack at h
  split at h
  · cases h
  · rw [Option.some.injEq] at h
    rw [← h]
    refine (modQueue ?_ prio _).setTotalReady _
    split
    · exact ((refl s).modNext _ _).modNext _ _
    · exact ((refl s).modNext _ _).modQueue _ _

lemma queuePopFront (prio : Nat) (s : SchedState) : Lives s (Sched.queuePopFront prio s).2 := by
  unfold Sched.queuePopFront
  split
  · exact refl s
  · refine (modNext ?_ _ none).setTotalReady _
    split
    · exact ((refl s).modQueue _ _).modQueue _ _
    · exact (refl s).modQueue _ _

lemma popFirst (ps : List Nat) : ∀ s : SchedState, Lives s (Sched.popFirst ps s).2 := by
  induction ps with
  | nil => exact refl
  | cons p ps ih =>
    intro s
    have hpop := queuePopFront p s
    unfold Sched.popFirst
    split
    · rename_i heq
      rwa [heq] at hpop
    · rename_i heq
      rw [heq] at hpop
      exact hpop.trans (ih _)

lemma popByPriority (s : SchedState) : Lives s (Sched.popByPriority s).2 := by
  have hrt := popFirst rtPriorities s
  unfold Sched.popByPriority
  split
  · rename_i heq
    rwa [heq] at hrt
  · rename_i heq
    rw [heq] at hrt
    exact hrt.trans (popFirst _ _)

lemma dlRemove {next : Nat} (h : Sched.dlRemove next s = some s') : Lives s s' := by
  unfold Sched.dlRemove at h
  obtain ⟨prev, -, h⟩ := Option.bind_eq_some_iff.mp h
  rw [Option.some.injEq] at h
  rw [← h]
  refine (modNext ?_ next none).setTotalReady _
  cases prev with
  | some prev =>
    have hlink := (refl s).modNext prev (s.next next)
    dsimp only
    split
    · exact hlink.modQueue _ _
    · exact hlink
  | none =>
    have hlink := (refl s).modQueue (s.kTcbPool next).priority fun q =>
      { q with head := s.next next }
    dsimp only
    split
    · exact hlink.modQueue _ _
    · exact hlink

lemma pickNext {o : Option Nat} (h : Sched.pickNext s = some (o, s')) : Lives s s' := by
  unfold Sched.pickNext at h
  obtain ⟨r, -, h⟩ := Option.bind_eq_some_iff.mp h
  split at h
  · obtain ⟨s1, hrem, h⟩ := Option.bind_eq_some_iff.mp h
    cases h
    exact dlRemove hrem
  · rw [Option.some.injEq] at h
    have hpop := popByPriority s
    rwa [h] at hpop

lemma requeueCurrent (h : Sched.requeueCurrent s = some s') : Lives s s' := by
  unfold Sched.requeueCurrent at h
  simp only at h
  split at h
  · have hready := (refl s).modState s.kCurrentThread (show ThreadState.ready ≠ .dead by decide)
    exact hready.trans (queuePushBack h)
  · cases h
    exact refl s

lemma armTimer (next : Nat) (s : SchedState) : Lives s (Sched.armTimer next s) := of_pool rfl rfl

lemma setRsp0 (next : Nat) (s : SchedState) : Lives s (Sched.setRsp0 next s) := by
  obtain ⟨r, hr⟩ := setRsp0_eq next s
  rw [hr]
  exact of_pool rfl rfl

lemma contextSwitch {current next : Nat} (h : Sched.contextSwitch current next s = some s') :
    Lives s s' := by
  have hsave : Lives s (s.modTcb current fun t => { t with context := some (.schedule next) }) :=
    (refl s).modTcb_same current (fun _ => rfl) fun _ => rfl
  unfold Sched.contextSwitch at h
  simp only at h
  split at h
  · cases h
  · cases h
    exact hsave
  · cases h
    exact hsave.trans (armTimer _ _)

lemma switchTo {next : Nat} (h : Sched.switchTo next s = some s') : Lives s s' := by
  have hrun := (refl s).modState next (show ThreadState.running ≠ .dead by decide)
  unfold Sched.switchTo at h
  simp only at h
  split at h
  · cases h
    exact hrun
  · have hswitch := contextSwitch h
    have hcurrent : Lives (s.modTcb next fun t => { t with state := .running })
        { s.modTcb next fun t => { t with state := .running } with kCurrentThread := next } :=
      of_pool rfl rfl
    exact hrun.trans (hcurrent.trans ((setRsp0 next _).trans hswitch))

lemma schedule (h : Sched.schedule s = some s') : Lives s s' := by
  unfold Sched.schedule at h
  split at h
  · obtain ⟨s1, h1, h⟩ := Option.bind_eq_some_iff.mp h
    obtain ⟨⟨next, s2⟩, h2, h⟩ := Option.bind_eq_some_iff.mp h
    exact (requeueCurrent h1).trans ((pickNext h2).trans (switchTo h))
  · cases h
    exact refl s

lemma timerTick (h : Sched.timerTick s = some s') : Lives s s' := by
  have hdown : Lives s { s with timer := 0 } := of_pool rfl rfl
  unfold Sched.timerTick apicTimerHandler at h
  split at h
  · exact hdown.trans (schedule h)
  · cases h
    exact hdown.trans (of_pool rfl rfl)

lemma enqueueThread {tcb : Nat} (h : Sched.enqueueThread tcb s = some s') : Lives s s' :=
  ((refl s).modState tcb (by decide)).trans (queuePushBack h)

end Lives

/-! ## The invariant -/

/-- All threads that exist are alive, and each stack is the stack of one of
them. -/
structure AllLive (w : ThreadSys) : Prop where
  index_le : w.kernel.sched.kNextTcbIndex ≤ maxThreads
  alive : ∀ t < w.kernel.sched.kNextTcbIndex, (w.kernel.sched.kTcbPool t).state ≠ .dead
  owned : ∀ phys ∈ w.heldStacks, ∃ t < w.kernel.sched.kNextTcbIndex,
    (w.kernel.sched.kTcbPool t).stackBase = phys

section

variable {w w' : ThreadSys}

lemma AllLive.of_lives (h : AllLive w) {s : SchedState} (hl : Lives w.kernel.sched s) :
    AllLive (w.setSched s) where
  index_le := hl.index ▸ h.index_le
  alive t ht hd := h.alive t (hl.index ▸ ht) (hl.dead t hd)
  owned phys hp := by
    obtain ⟨t, ht, hbase⟩ := h.owned phys hp
    exact ⟨t, hl.index ▸ ht, (hl.stack t).trans hbase⟩

lemma kthreadCreate_some {priority tcb : Nat} {k k' : Kernel}
    (h : kthreadCreate priority k = some (some tcb, k')) : tcb = k.sched.kNextTcbIndex ∧
    tcb < maxThreads ∧ k'.sched.kNextTcbIndex = tcb + 1 ∧ (k'.sched.kTcbPool tcb).state = .ready ∧
    ∀ t ≠ tcb, k'.sched.kTcbPool t = k.sched.kTcbPool t := by
  unfold kthreadCreate at h
  split at h
  · cases h
  · rename_i hidx
    split at h
    · cases h
    · simp only [Sched.kthreadCreate, allocTcb, if_neg hidx] at h
      split at h
      · cases h
      · simp only [Option.map_some, Option.some.injEq, Prod.mk.injEq] at h
        obtain ⟨rfl, rfl⟩ := h
        refine ⟨rfl, Nat.not_le.mp hidx, rfl, by simp [SchedState.modTcb], fun t ht => ?_⟩
        simp [SchedState.modTcb, update_of_ne ht]

lemma AllLive.step (h : AllLive w) {op : ThreadOp} (hop : op ≠ .exit)
    (hstep : threadStep w op = some w') : AllLive w' := by
  cases op with
  | exit => exact absurd rfl hop
  | configure tcb policy absDeadline =>
    cases hstep
    exact h.of_lives ((Lives.refl _).modTcb_same _ (fun _ => rfl) fun _ => rfl)
  | enqueue tcb =>
    obtain ⟨s, hs, rfl⟩ := Option.map_eq_some_iff.mp hstep
    exact h.of_lives (Lives.enqueueThread hs)
  | start =>
    cases hstep
    exact h.of_lives (Lives.of_pool rfl rfl)
  | yield =>
    obtain ⟨s, hs, rfl⟩ := Option.map_eq_some_iff.mp hstep
    exact h.of_lives (Lives.schedule hs)
  | tick =>
    obtain ⟨s, hs, rfl⟩ := Option.map_eq_some_iff.mp hstep
    exact h.of_lives (Lives.timerTick hs)
  | create priority =>
    obtain ⟨⟨o, k⟩, hcall, rfl⟩ := Option.map_eq_some_iff.mp hstep
    cases o with
    | none =>
      obtain rfl := kthreadCreate_none hcall
      exact h
    | some tcb =>
      obtain ⟨htcb, hlt, hindex, hready, hother⟩ := kthreadCreate_some hcall
      refine ⟨?_, fun t ht => ?_, fun phys hp => ?_⟩
      · simp only [hindex]
        omega
      · simp only [hindex] at ht ⊢
        by_cases heq : t = tcb
        · rw [heq, hready]
          decide
        · rw [hother t heq]
          exact h.alive t (by omega)
      · simp only [hindex]
        cases List.mem_cons.mp hp with
        | inl hnew => exact ⟨tcb, Nat.lt_succ_self tcb, hnew.symm⟩
        | inr hold =>
          obtain ⟨t, ht, hbase⟩ := h.owned phys hold
          refine ⟨t, by omega, ?_⟩
          rw [hother t (by omega)]
          exact hbase

lemma AllLive.reclaimed (h : AllLive w) : Reclaimed w := by
  constructor
  · intro priority k hnull
    -- a null pointer means that the pool is used up
    have hfull : maxThreads ≤ w.kernel.sched.kNextTcbIndex := by
      by_contra hroom
      unfold kthreadCreate at hnull
      rw [if_neg (by omega)] at hnull
      split at hnull
      · cases hnull
      · simp only [Sched.kthreadCreate, allocTcb,
          if_neg (show ¬ w.kernel.sched.kNextTcbIndex ≥ maxThreads by
          omega)] at hnull
        split at hnull <;> simp at hnull
    have hall : liveThreads w.kernel.sched = (List.range w.kernel.sched.kNextTcbIndex).length := by
      rw [liveThreads, List.countP_eq_length]
      intro t ht
      simpa using h.alive t (List.mem_range.mp ht)
    rw [hall, List.length_range]
    exact Nat.le_antisymm h.index_le hfull
  · intro phys hp
    obtain ⟨t, ht, hbase⟩ := h.owned phys hp
    exact ⟨t, ht, hbase, Or.inl (h.alive t ht)⟩

end

lemma allLive_init (k : Kernel) (kTicksPerMs kHhdmOffset : Nat) :
    AllLive ⟨{ k with sched := initState kTicksPerMs kHhdmOffset }, []⟩ where
  index_le := show 1 ≤ maxThreads by decide
  alive t ht hd := by
    have h0 : t = 0 := Nat.lt_one_iff.mp ht
    subst h0
    cases hd
  owned phys hp := by cases hp

/-- As long as no thread ends, records and stacks belong to threads that are
not DEAD, whatever memory there is and however threads are put into queues. -/
theorem no_exit_reclaimed (k : Kernel) (kTicksPerMs kHhdmOffset : Nat) (ops : List ThreadOp)
    (hboot : threadInit (bootState kTicksPerMs kHhdmOffset) = some k.sched)
    (hno : ∀ op ∈ ops, op ≠ .exit) (w : ThreadSys) (hrun : run threadStep ⟨k, []⟩ ops = some w) :
    Reclaimed w := by
  rw [threadInit_eq, Option.some.injEq] at hboot
  have hinit := allLive_init k kTicksPerMs kHhdmOffset
  rw [hboot] at hinit
  have hstep : ∀ w op w', AllLive w → op ≠ .exit → threadStep w op = some w' → AllLive w' :=
    fun w op w' h hop hs => h.step hop hs
  exact (run_preserves AllLive hstep hinit (Along.of_forall hno) hrun).reclaimed

/-! ## A machine with room for all stacks -/

def poolMap : List MemmapEntry := [⟨16 * pageSize, 512 * pageSize, .usable⟩]

def poolStart : Pmm := (pmmInit poolMap 0 fun _ => blankFrame).get (by decide)

def poolKernel : Kernel := { bootKernel poolStart (fun _ => 0) with sched := initState 1000 0 }

theorem no_exit_reclaimed_two : ∃ w,
    run threadStep ⟨poolKernel, []⟩ [.create 50, .enqueue 1, .start, .yield, .create 50] = some w ∧
    Reclaimed w := by
  have hsome : (run threadStep ⟨poolKernel, []⟩
      [.create 50, .enqueue 1, .start, .yield, .create 50]).isSome := by decide
  obtain ⟨w, hw⟩ := Option.isSome_iff_exists.mp hsome
  exact ⟨w, hw, no_exit_reclaimed poolKernel 1000 0 _ (threadInit_eq 1000 0) (by decide) w hw⟩

/-- A thread runs and ends, and then 62 more are made. -/
def endedRun : List ThreadOp :=
  [.create 50, .configure 1 .rr 0, .enqueue 1, .start, .yield, .exit, .tick] ++
    List.replicate 62 (.create 50)

/-- The thread that has ended keeps its stack and its record: there is no
64th thread. -/
theorem ended_not_reclaimed : ∃ w, run threadStep ⟨poolKernel, []⟩ endedRun = some w ∧
    (w.kernel.sched.kTcbPool 1).state = .dead ∧ w.kernel.sched.kCurrentThread = 0 ∧
    (w.kernel.sched.kTcbPool 1).stackBase ∈ w.heldStacks ∧
    (kthreadCreate 50 w.kernel).map Prod.fst = some none ∧ liveThreads w.kernel.sched = 63 ∧
    ¬ Reclaimed w := by
  have hfacts : (run threadStep ⟨poolKernel, []⟩ endedRun).map (fun w =>
      (decide ((w.kernel.sched.kTcbPool 1).state = .dead), w.kernel.sched.kCurrentThread,
        decide ((w.kernel.sched.kTcbPool 1).stackBase ∈ w.heldStacks),
        (kthreadCreate 50 w.kernel).map Prod.fst, liveThreads w.kernel.sched)) =
      some (true, 0, true, some none, 63) := by decide +kernel
  obtain ⟨w, hw, hfacts⟩ := Option.map_eq_some_iff.mp hfacts
  simp only [Prod.mk.injEq, decide_eq_true_eq] at hfacts
  obtain ⟨hdead, hcurrent, hstack, hnull, hlive⟩ := hfacts
  refine ⟨w, hw, hdead, hcurrent, hstack, hnull, hlive, fun hr => ?_⟩
  obtain ⟨⟨o, k⟩, hcall, ho⟩ := Option.map_eq_some_iff.mp hnull
  obtain rfl : o = none := ho
  rw [hr.1 50 k hcall] at hlive
  cases hlive

end VortexOS.Proc
