/-
VortexOS.Proc.Process — processes and `fork`: `kernel/process.cpp` and the
part of `kernel/syscall.cpp` that makes a process.

A `Process*` is the address of the record in the kernel heap, a null
pointer is `none`. The fields of the records stand in a table of their own
(`procs`), apart from `Kmem.mem`; no function reads a record it has freed. A
new record holds what was at its place before. `none` as the result of a
function means that it does not return.

* `process` is the field of that name in every `ThreadControlBlock`.
* `kthread_create` also prepares the new stack, which the scheduler's model
  keeps in the saved context.
* `cpu_time_ns` is stored to by none of these functions. The texts sent to
  the serial port are left out.
-/
import VortexOS.Arch.Entry
import VortexOS.Mm.Vmm
import VortexOS.Sched.Scheduler

namespace VortexOS.Proc

open Function Lib Mm Sched Arch

inductive ProcessState where
  | alive
  | zombie
  | terminated
  deriving DecidableEq, Repr

structure Process where
  pid : UInt32
  ppid : UInt32
  state : ProcessState
  addrSpace : Nat
  mainThread : Option Nat
  uid : UInt32
  gid : UInt32
  euid : UInt32
  egid : UInt32
  cpuTimeNs : UInt64
  forkFrame : InterruptFrame
  next : Option Nat
  deriving DecidableEq, Repr

/-- `sizeof(Process)`, of which the saved frame takes 22 words. -/
def sizeofProcess : Nat := 240

structure Kernel where
  kmem : Kmem
  sched : SchedState
  process : Nat → Option Nat
  procs : Nat → Process
  kNextPid : UInt32
  kProcessList : Option Nat
  kProcessCount : UInt32
  cr3 : Nat

namespace Kernel

def modProc (k : Kernel) (proc : Nat) (f : Process → Process) : Kernel :=
  { k with procs := update k.procs proc (f (k.procs proc)) }

def setKmem (k : Kernel) (s : Kmem) : Kernel := { k with kmem := s }

def next (k : Kernel) (proc : Nat) : Option Nat := (k.procs proc).next

/-- A list with more nodes than memory has bytes has a cycle. -/
def listBound (k : Kernel) : Nat := k.kmem.pmm.kTotalPages * pageSize

def link (k : Kernel) : Option Nat → Option Nat
  | none => k.kProcessList
  | some prev => k.next prev

def setLink (k : Kernel) (pp v : Option Nat) : Kernel :=
  match pp with
  | none => { k with kProcessList := v }
  | some prev => k.modProc prev fun p => { p with next := v }

end Kernel

/-! ## `process.cpp` -/

def procCurrent (k : Kernel) : Option Nat := k.process k.sched.kCurrentThread

def procFind (pid : UInt32) (k : Kernel) : Option (Option Nat) :=
  searchChain k.next (fun p => (k.procs p).pid == pid) k.listBound k.kProcessList

def procAdd (proc : Nat) (k : Kernel) : Kernel :=
  let k := k.modProc proc fun p => { p with next := k.kProcessList }
  { k with kProcessList := some proc, kProcessCount := k.kProcessCount + 1 }

def removeLoop (proc : Nat) : Nat → Option Nat → Kernel → Option Kernel
  | 0, _, _ => none
  | n + 1, pp, k =>
    match k.link pp with
    | none => some k
    | some q =>
      if q = proc then
        let k := k.setLink pp (k.next proc)
        some { k with kProcessCount := k.kProcessCount - 1 }
      else removeLoop proc n (some q) k

def procRemove (proc : Nat) (k : Kernel) : Option Kernel := removeLoop proc (k.listBound + 1) none k

/-- The stores to a new record before it gets its address space. -/
def initProcess (proc : Nat) (ppid : Kernel → UInt32) (k : Kernel) : Kernel :=
  let k := k.modProc proc fun p => { p with pid := k.kNextPid }
  let k := { k with kNextPid := k.kNextPid + 1 }
  k.modProc proc fun p => { p with ppid := ppid k, state := .alive }

def setSpace (proc as : Nat) (k : Kernel) : Kernel :=
  k.modProc proc fun p => { p with addrSpace := as, mainThread := none }

/-- `proc_create` and `proc_create_from_parent`. They differ in the
parent's id, in how the address space is made, and in what the new process
gets from its parent. -/
def makeProcess (ppid : Kernel → UInt32) (space : Kernel → Option (Nat × Kmem))
    (inherit : Kernel → Process → Process) (k : Kernel) : Option (Option Nat × Kernel) :=
  match kmalloc sizeofProcess k.kmem with
  | none => none
  | some (proc, s) =>
    if proc = 0 then some (none, k.setKmem s)
    else
      let k := initProcess proc ppid (k.setKmem s)
      match space k with
      | none => none
      | some (as, s) =>
        let k := setSpace proc as (k.setKmem s)
        if as = 0 then some (none, k.setKmem (kfree proc k.kmem))
        else some (some proc, procAdd proc (k.modProc proc (inherit k)))

def procCreate : Kernel → Option (Option Nat × Kernel) :=
  makeProcess (fun _ => 0) (fun k => vmmCreateAddressSpace k.cr3 k.kmem) fun _ p => p

def procCreateFromParent (parent : Nat) : Kernel → Option (Option Nat × Kernel) :=
  makeProcess (fun k => (k.procs parent).pid)
    (fun k => vmmCloneAddressSpace (k.procs parent).addrSpace k.cr3 k.kmem)
    fun k p =>
      { p with
        uid := (k.procs parent).uid, gid := (k.procs parent).gid
        euid := (k.procs parent).euid, egid := (k.procs parent).egid }

/-- `vmm_destroy_address_space` does nothing. -/
def procDestroy (proc : Nat) (k : Kernel) : Option Kernel :=
  (procRemove proc k).map fun k => k.setKmem (kfree proc k.kmem)

/-! ## `fork` -/

/-- `kthread_create` on the page allocator. With no record left in the pool
it returns before it asks for a stack. -/
def kthreadCreate (priority : Nat) (k : Kernel) : Option (Option Nat × Kernel) :=
  if k.sched.kNextTcbIndex ≥ maxThreads then some (none, k)
  else
    match pmmAllocPages kthreadStackPages k.kmem.pmm with
    | none => none
    | some (stackPhys, pmm) =>
      (Sched.kthreadCreate priority stackPhys k.sched).map fun (tcb, sched) =>
        let process := match tcb with
          | none => k.process
          | some tcb => update k.process tcb none
        (tcb, { k with kmem := { k.kmem with pmm := pmm }, sched := sched, process := process })

def minusOne : Nat := 2 ^ 64 - 1

/-- `sys_fork`; `frame` is what the parent's frame on the stack holds. -/
def sysFork (frame : InterruptFrame) (k : Kernel) : Option (Nat × Kernel) :=
  match procCurrent k with
  | none => some (minusOne, k)
  | some parent =>
    match procCreateFromParent parent k with
    | none => none
    | some (none, k) => some (minusOne, k)
    | some (some child, k) =>
      let k := k.modProc child fun p => { p with forkFrame := Arch.forkFrame frame }
      match kthreadCreate 0 k with
      | none => none
      | some (none, k) => (procDestroy child k).map fun k => (minusOne, k)
      | some (some tcb, k) =>
        let k := { k with process := update k.process tcb (some child) }
        let k := k.modProc child fun p => { p with mainThread := some tcb }
        (enqueueThread tcb k.sched).map fun sched =>
          ((k.procs child).pid.toNat, { k with sched := sched })

end VortexOS.Proc
