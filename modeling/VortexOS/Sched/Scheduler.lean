/-
VortexOS.Sched.Scheduler — kernel threads and the scheduler of
`kernel/thread.cpp` and `kernel/scheduler.cpp`.

A `ThreadControlBlock*` is the index of the record in `kTcbPool`, a null
pointer `none`. `none` as the result of a function means that it does not
return: a panic, a null dereference, or a loop over a chain without end.

* A saved `CpuContext` stands for the place where `context_switch` goes on
  when it loads it (`Resume`): a new thread's stack makes `ret` enter
  `thread_trampoline`, every other stack returns behind the call inside
  `schedule`, with the local variable `next` of that frame.
* `timer` is the count in the one-shot timer of the local APIC; it is `0`
  when no interrupt is to come.
* `kthreadCreate` takes the result of `pmm_alloc_pages` as a parameter.
  `name`, `process` and the real-time parameters other than
  `abs_deadline` are read by none of these functions and left out.
-/
import VortexOS.Lib.Queue
import VortexOS.Lib.Run
import VortexOS.Lib.Word
import VortexOS.Mm.Pmm

namespace VortexOS.Sched

open Lib
open Mm (pageSize)

/-! ## Threads (`thread.hpp`) -/

inductive ThreadState where
  | ready
  | running
  | blocked
  | dead
  deriving DecidableEq, Repr

inductive SchedPolicy where
  | fifo
  | rr
  | dl
  | normal
  deriving DecidableEq, Repr

/-- Where loading a saved context goes on. -/
inductive Resume where
  | trampoline
  /-- In `schedule`, behind `context_switch`, in a frame with this `next`. -/
  | schedule (next : Nat)
  deriving DecidableEq, Repr

structure Tcb where
  context : Option Resume
  stackBase : Nat
  stackPages : Nat
  state : ThreadState
  policy : SchedPolicy
  priority : Nat
  absDeadline : UInt64
  id : Nat
  next : Option Nat
  deriving DecidableEq, Repr

def kthreadStackPages : Nat := 4
def maxThreads : Nat := 64
def tickIntervalMs : Nat := 1

structure ReadyQueue where
  head : Option Nat
  tail : Option Nat
  deriving DecidableEq, Repr

/-- The static variables of `thread.cpp` and `scheduler.cpp`, the stack
pointer in the TSS, the APIC timer, and the two constants of the machine
that these files read. -/
structure SchedState where
  kTcbPool : Nat → Tcb
  kNextTcbIndex : Nat
  kNextThreadId : Nat
  kCurrentThread : Nat
  kIdleThread : Nat
  kReadyQueues : Nat → ReadyQueue
  kTotalReady : Nat
  kSchedulingEnabled : Bool
  rsp0 : Nat
  timer : Nat
  kTicksPerMs : Nat
  kHhdmOffset : Nat

def SchedState.modTcb (s : SchedState) (tcb : Nat) (f : Tcb → Tcb) : SchedState :=
  { s with kTcbPool := Function.update s.kTcbPool tcb (f (s.kTcbPool tcb)) }

def SchedState.modQueue (s : SchedState) (prio : Nat) (f : ReadyQueue → ReadyQueue) : SchedState :=
  { s with kReadyQueues := Function.update s.kReadyQueues prio (f (s.kReadyQueues prio)) }

def SchedState.setTotalReady (s : SchedState) (n : Nat) : SchedState := { s with kTotalReady := n }

def SchedState.next (s : SchedState) (tcb : Nat) : Option Nat := (s.kTcbPool tcb).next

/-! ## `thread.cpp` -/

def zeroTcb : Tcb where
  context := none
  stackBase := 0
  stackPages := 0
  state := .ready
  policy := .fifo
  priority := 0
  absDeadline := 0
  id := 0
  next := none

def allocTcb (s : SchedState) : Option Nat × SchedState :=
  if s.kNextTcbIndex ≥ maxThreads then (none, s)
  else
    let tcb := s.kNextTcbIndex
    let s := { s with kNextTcbIndex := tcb + 1 }
    let s := s.modTcb tcb fun _ => zeroTcb
    let s := s.modTcb tcb fun t => { t with id := s.kNextThreadId }
    (some tcb, { s with kNextThreadId := (s.kNextThreadId + 1) % 2 ^ 32 })

def bootState (kTicksPerMs kHhdmOffset : Nat) : SchedState where
  kTcbPool _ := zeroTcb
  kNextTcbIndex := 0
  kNextThreadId := 1
  kCurrentThread := 0
  kIdleThread := 0
  kReadyQueues _ := ⟨none, none⟩
  kTotalReady := 0
  kSchedulingEnabled := false
  rsp0 := 0
  timer := 0
  kTicksPerMs := kTicksPerMs
  kHhdmOffset := kHhdmOffset

def threadInit (s : SchedState) : Option SchedState :=
  match allocTcb s with
  | (none, _) => none
  | (some idle, s) =>
    let s := { s with kIdleThread := idle }
    let s := s.modTcb idle fun t =>
      { t with priority := 0, state := .running, stackBase := 0, stackPages := 0 }
    some { s with kCurrentThread := idle }

/-- `stackPhys` is what `pmm_alloc_pages(KTHREAD_STACK_PAGES)` returns. -/
def kthreadCreate (priority stackPhys : Nat) (s : SchedState) : Option (Option Nat × SchedState) :=
  match allocTcb s with
  | (none, s) => some (none, s)
  | (some tcb, s) =>
    if stackPhys = 0 then none
    else
      let s := s.modTcb tcb fun t =>
        { t with
          priority := priority, state := .ready, stackBase := stackPhys
          stackPages := kthreadStackPages, next := none }
      some (some tcb, s.modTcb tcb fun t => { t with context := some .trampoline })

def threadExit (s : SchedState) : SchedState :=
  s.modTcb s.kCurrentThread fun t => { t with state := .dead }

/-! ## Ready queues (`scheduler.cpp`) -/

def numPriorities : Nat := 140

def queuePushBack (prio tcb : Nat) (s : SchedState) : Option SchedState :=
  if prio ≥ numPriorities then none
  else
    let s := s.modTcb tcb fun t => { t with next := none }
    let s := match (s.kReadyQueues prio).tail with
      | some tail => s.modTcb tail fun t => { t with next := some tcb }
      | none => s.modQueue prio fun q => { q with head := some tcb }
    let s := s.modQueue prio fun q => { q with tail := some tcb }
    some (s.setTotalReady ((s.kTotalReady + 1) % 2 ^ 32))

def queuePopFront (prio : Nat) (s : SchedState) : Option Nat × SchedState :=
  match (s.kReadyQueues prio).head with
  | none => (none, s)
  | some tcb =>
    let s := s.modQueue prio fun q => { q with head := s.next tcb }
    let s := if (s.kReadyQueues prio).head = none then
        s.modQueue prio fun q => { q with tail := none }
      else s
    let s := s.modTcb tcb fun t => { t with next := none }
    (some tcb, s.setTotalReady ((s.kTotalReady + (2 ^ 32 - 1)) % 2 ^ 32))

/-! ## `schedule` -/

/-- The initial value of `earliest_deadline`, the largest 64-bit number. -/
def noDeadline : UInt64 := 0xFFFFFFFFFFFFFFFF

/-- The variables `next` and `earliest_deadline` of the deadline scan. -/
structure DlScan where
  next : Option Nat
  earliestDeadline : UInt64
  deriving DecidableEq, Repr

def dlVisit (s : SchedState) (r : DlScan) (curr : Nat) : DlScan :=
  if (s.kTcbPool curr).policy = .dl ∧ (s.kTcbPool curr).absDeadline < r.earliestDeadline then
    { next := some curr, earliestDeadline := (s.kTcbPool curr).absDeadline }
  else r

/-- The deadline scan over all ready queues. A chain of more than
`MAX_THREADS` nodes has a cycle. -/
def dlScan (s : SchedState) : Option DlScan :=
  (List.range numPriorities).foldlM
    (fun r p => foldChain s.next (dlVisit s) maxThreads (s.kReadyQueues p).head r)
    { next := none, earliestDeadline := noDeadline }

/-- The branch that takes the thread of the deadline scan out of its queue. -/
def dlRemove (next : Nat) (s : SchedState) : Option SchedState := do
  let prio := (s.kTcbPool next).priority
  let prev ← findPrev s.next next maxThreads none (s.kReadyQueues prio).head
  let s := match prev with
    | some prev => s.modTcb prev fun t => { t with next := s.next next }
    | none => s.modQueue prio fun q => { q with head := s.next next }
  let s := if s.next next = none then s.modQueue prio fun q => { q with tail := prev } else s
  let s := s.modTcb next fun t => { t with next := none }
  some (s.setTotalReady ((s.kTotalReady + (2 ^ 32 - 1)) % 2 ^ 32))

/-- `for (p : prios) { next = queue_pop_front(p); if (next) break; }` -/
def popFirst : List Nat → SchedState → Option Nat × SchedState
  | [], s => (none, s)
  | p :: ps, s =>
    match queuePopFront p s with
    | (some next, s) => (some next, s)
    | (none, s) => popFirst ps s

def rtPriorities : List Nat := (List.range 100).reverse

def normalPriorities : List Nat := List.range' 100 40

def popByPriority (s : SchedState) : Option Nat × SchedState :=
  match popFirst rtPriorities s with
  | (some next, s) => (some next, s)
  | (none, s) => popFirst normalPriorities s

/-- Step 2 of `schedule`: pick a thread and take it off its queue. -/
def pickNext (s : SchedState) : Option (Option Nat × SchedState) := do
  let r ← dlScan s
  match r.next with
  | some next =>
    let s ← dlRemove next s
    some (some next, s)
  | none => some (popByPriority s)

def apicTimerOneshot (ticks : Nat) (s : SchedState) : SchedState := { s with timer := ticks }

/-- `apic_ticks_per_ms() * quantum`, a 32-bit product. -/
def SchedState.ticks (s : SchedState) (quantum : Nat) : Nat := s.kTicksPerMs * quantum % 2 ^ 32

/-- The end of `schedule`, behind the call of `context_switch`. -/
def armTimer (next : Nat) (s : SchedState) : SchedState :=
  let quantum := if (s.kTcbPool next).policy = .fifo then 10 else tickIntervalMs
  apicTimerOneshot (s.ticks quantum) s

/-- `context_switch(&current->context, &next->context)` and what is
executed from there until control is back in a thread. -/
def contextSwitch (current next : Nat) (s : SchedState) : Option SchedState :=
  let s := s.modTcb current fun t => { t with context := some (.schedule next) }
  match (s.kTcbPool next).context with
  | none => none
  | some .trampoline => some s
  | some (.schedule next') => some (armTimer next' s)

def setRsp0 (next : Nat) (s : SchedState) : SchedState :=
  let t := s.kTcbPool next
  if t.stackBase ≠ 0 then
    { s with rsp0 := add64 (add64 t.stackBase s.kHhdmOffset) (t.stackPages * pageSize) }
  else s

/-- Step 3 of `schedule`. -/
def switchTo (next : Nat) (s : SchedState) : Option SchedState :=
  let current := s.kCurrentThread
  let s := s.modTcb next fun t => { t with state := .running }
  if next = current then some s
  else contextSwitch current next (setRsp0 next { s with kCurrentThread := next })

/-- Step 1 of `schedule`. -/
def requeueCurrent (s : SchedState) : Option SchedState :=
  let current := s.kCurrentThread
  if (s.kTcbPool current).state = .running then
    let s := s.modTcb current fun t => { t with state := .ready }
    queuePushBack (s.kTcbPool current).priority current s
  else some s

def schedule (s : SchedState) : Option SchedState :=
  if s.kSchedulingEnabled then do
    let s ← requeueCurrent s
    let (next, s) ← pickNext s
    switchTo (next.getD s.kIdleThread) s
  else some s

/-! ## The interrupt handler and the calls -/

/-- `for (int p = 99; p > current->priority; --p) if (kReadyQueues[p].head) ...` -/
def higherReady (s : SchedState) (priority : Nat) : Bool :=
  rtPriorities.any fun p => priority < p && (s.kReadyQueues p).head.isSome

def shouldResched (s : SchedState) : Bool :=
  let current := s.kTcbPool s.kCurrentThread
  if current.policy = .fifo then higherReady s current.priority else true

def apicTimerHandler (s : SchedState) : Option SchedState :=
  if shouldResched s then schedule s
  else some (apicTimerOneshot (s.ticks tickIntervalMs) s)

/-- A timer interrupt: the one-shot timer has run down. -/
def timerTick (s : SchedState) : Option SchedState := apicTimerHandler { s with timer := 0 }

def yield (s : SchedState) : Option SchedState := schedule s

def enqueueThread (tcb : Nat) (s : SchedState) : Option SchedState :=
  let s := s.modTcb tcb fun t => { t with state := .ready }
  queuePushBack (s.kTcbPool tcb).priority tcb s

def schedulerStart (s : SchedState) : SchedState :=
  let s := { s with kSchedulingEnabled := true }
  apicTimerOneshot (s.ticks tickIntervalMs) s

/-! ## Runs -/

/-- What happens to the scheduler. `create` is a `kthread_create` whose
caller sets the policy and the deadline of the new thread and passes it to
`enqueue_thread`. -/
inductive Op where
  | create (priority : Nat) (policy : SchedPolicy) (absDeadline : UInt64) (stackPhys : Nat)
  | start
  | yield
  | tick
  | exit
  deriving DecidableEq, Repr

/-- A caller of `kthread_create` that gets a null pointer gives up. -/
def createThread (priority : Nat) (policy : SchedPolicy) (absDeadline : UInt64) (stackPhys : Nat)
    (s : SchedState) : Option SchedState := do
  let (tcb, s) ← kthreadCreate priority stackPhys s
  match tcb with
  | none => some s
  | some tcb =>
    enqueueThread tcb (s.modTcb tcb
      fun t => { t with policy := policy, absDeadline := absDeadline })

def step (s : SchedState) : Op → Option SchedState
  | .create priority policy absDeadline stackPhys =>
    createThread priority policy absDeadline stackPhys s
  | .start => some (schedulerStart s)
  | .yield => yield s
  | .tick => timerTick s
  | .exit => some (threadExit s)

def runFrom (kTicksPerMs kHhdmOffset : Nat) (ops : List Op) : Option SchedState := do
  let s ← threadInit (bootState kTicksPerMs kHhdmOffset)
  run step s ops

end VortexOS.Sched
