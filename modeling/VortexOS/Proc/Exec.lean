/-
VortexOS.Proc.Exec — `execve` and the system-call dispatcher of
`kernel/syscall.cpp`.

`sys_execve_impl` follows pointers of the program in kernel mode, on the
tables CR3 points to at the time: below `2 ^ 47` a load needs a present
entry at every level and a store a writable one, and a fault is a panic,
since `page_fault_handler` handles user-mode faults only (nothing switches
SMAP on). What a load from the upper half gives is a parameter, `upper`. A
store to the upper half is taken to fault: no string in memory is long
enough to get from below the stack's top there.

`vfs` is `vfs_open` with what reading the whole file gives. The file is not
stored to its heap block, which only the loader reads.

`none` as the result of a function means that it does not return.
-/
import VortexOS.Mm.VmmUser
import VortexOS.Proc.Elf
import VortexOS.Proc.Process

namespace VortexOS.Proc

open Lib Mm Sched Arch

/-! ## Accesses through CR3 -/

/-- What a load from the upper half gives in a state of memory. -/
abbrev Upper := Kmem → Nat → Option (BitVec 8)

/-- PRESENT and WRITE: what a store in kernel mode needs. -/
def nextStored (e : BitVec 64) : Option Nat :=
  if present e && isWrite e then some (frameOf e) else none

namespace Kernel

def cr3Root (k : Kernel) : Nat := physToPfn k.cr3

def peek (upper : Upper) (k : Kernel) (va : Nat) : Option (BitVec 8) :=
  if va < 2 ^ 47 then k.kmem.readUser k.cr3Root va else upper k.kmem va

def poke (va : Nat) (b : BitVec 8) (k : Kernel) : Option Kernel :=
  if va < 2 ^ 47 then
    (walk nextStored (entryAt k.kmem.mem) k.cr3Root (pathOf va)).map fun f =>
      k.setKmem { k.kmem with mem := writeByte k.kmem.mem (f * pageSize + va % pageSize) b }
  else none

def peekWord (upper : Upper) (k : Kernel) (va : Nat) : Option Nat :=
  run (fun v i => (k.peek upper (add64 va i)).map fun b => v + b.toNat * 256 ^ i) 0 (List.range 8)

def pokeWord (va v : Nat) (k : Kernel) : Option Kernel :=
  run (fun k i => k.poke (add64 va i) (BitVec.ofNat 8 (v / 256 ^ i))) k (List.range 8)

/-- The string at `va`, up to its end or up to `n` bytes. -/
def peekString (upper : Upper) (k : Kernel) (va : Nat) : Nat → Option (List (BitVec 8))
  | 0 => some []
  | n + 1 =>
    match k.peek upper va with
    | none => none
    | some c => if c = 0 then some [] else (k.peekString upper (add64 va 1) n).map (c :: ·)

end Kernel

/-! ## `setup_user_stack` -/

/-- A loop that runs longer than this does not end. -/
def loopBound : Nat := 2 ^ 64

def countLoop (upper : Upper) (k : Kernel) (array : Nat) : Nat → Nat → Option Nat
  | 0, _ => none
  | fuel + 1, n =>
    match k.peekWord upper (add64 array (8 * n)) with
    | none => none
    | some p => if p ≠ 0 then countLoop upper k array fuel (n + 1) else some n

/-- The number of strings in an array; a null pointer has none. -/
def countStrings (upper : Upper) (k : Kernel) (array : Nat) : Option Nat :=
  if array = 0 then some 0 else countLoop upper k array loopBound 0

def lengthLoop (upper : Upper) (k : Kernel) (str : Nat) : Nat → Nat → Option Nat
  | 0, _ => none
  | fuel + 1, len =>
    match k.peek upper (add64 str len) with
    | none => none
    | some c => if c ≠ 0 then lengthLoop upper k str fuel (len + 1) else some (len + 1)

def copyString (upper : Upper) (str sp len : Nat) (k : Kernel) : Option Kernel :=
  run (fun k j => (k.peek upper (add64 str j)).bind fun c => k.poke (add64 sp j) c) k
    (List.range (len + 1))

/-- One string of an array, and its address in the array `ptrs`. -/
def pushString (upper : Upper) (array ptrs : Nat) (st : Nat × Kernel) (i : Nat) :
    Option (Nat × Kernel) := do
  let str ← st.2.peekWord upper (add64 array (8 * i))
  let len ← lengthLoop upper st.2 str loopBound 0
  let sp := sub64 st.1 (len + 1)
  let sp := sp - sp % 16
  let k ← copyString upper str sp len st.2
  let k ← k.pokeWord (add64 ptrs (8 * i)) sp
  some (sp, k)

/-- The strings of an array. Their addresses go to the memory above `sp`. -/
def pushStrings (upper : Upper) (array count sp : Nat) (k : Kernel) : Option (Nat × Kernel) :=
  run (pushString upper array sp) (sp, k) (List.range count)

def pushWord (v : Nat) (st : Nat × Kernel) : Option (Nat × Kernel) :=
  let sp := sub64 st.1 8
  (st.2.pokeWord sp v).map fun k => (sp, k)

/-- A null pointer, and before it the addresses in `ptrs`, last one first. -/
def pushArray (upper : Upper) (ptrs count : Nat) (st : Nat × Kernel) : Option (Nat × Kernel) :=
  (pushWord 0 st).bind fun st =>
    run (fun st i => (st.2.peekWord upper (add64 ptrs (8 * i))).bind fun p => pushWord p st) st
      (List.range count).reverse

def setupUserStack (upper : Upper) (stackTop argv envp : Nat) (k : Kernel) :
    Option (Nat × Kernel) := do
  let argc ← countStrings upper k argv
  let envc ← countStrings upper k envp
  let argvPtrs := stackTop
  let st ← pushStrings upper argv argc argvPtrs k
  let envpPtrs := st.1
  let st ← pushStrings upper envp envc envpPtrs st.2
  let st ← pushArray upper envpPtrs envc st
  let st ← pushArray upper argvPtrs argc st
  let st ← pushWord st.1 st
  pushWord argc st

/-! ## `sys_execve_impl` -/

/-- A node of the file system: its type and size, how many bytes a read of
the whole file gives, and these bytes with what is behind them. -/
structure FileNode where
  isFile : Bool
  size : Nat
  bytesRead : Nat
  image : Image

abbrev Vfs := List (BitVec 8) → Option FileNode

def vmmSwitchAddressSpace (as : Nat) (k : Kernel) : Kernel :=
  { k with cr3 := sub64 (k.kmem.pml4 as) k.kmem.hhdm }

def stackBase : Nat := 0x00007FFFFFF00000

def stackFlags : BitVec 32 := pageUser.setWidth 32 ||| pageWrite.setWidth 32

def stackPage (i : Nat) : Nat := stackBase - (i + 1) * pageSize

/-- Stack page `i`; false when there is no page. -/
def mapStackPage (as i : Nat) (s : Kmem) : Option (Bool × Kmem) :=
  match s.allocPage with
  | none => none
  | some (phys, s) =>
    if phys = 0 then some (false, s)
    else (vmmMapPage as (stackPage i) phys stackFlags s).map fun (_, s) => (true, s)

/-- How `sys_execve_impl` ends: it returns, or `syscall_child_return` enters
the program with a frame. -/
inductive ExecEnd where
  | returned (k : Kernel)
  | started (frame : InterruptFrame) (k : Kernel)

/-- From `proc->addr_space = new_as` on. -/
def enterProgram (upper : Upper) (frame : InterruptFrame) (proc newAs entry : Nat) (k : Kernel) :
    Option ExecEnd :=
  let k := k.modProc proc fun p => { p with addrSpace := newAs }
  match forSlots (mapStackPage newAs) (List.range 4) k.kmem with
  | none => none
  | some (false, s) => some (.returned (k.setKmem s))
  | some (true, s) =>
    (setupUserStack upper stackBase frame.rsi.toNat frame.rdx.toNat (k.setKmem s)).map fun (sp,
      k) =>
      .started (execveFrame frame (BitVec.ofNat 64 entry) (BitVec.ofNat 64 sp)) k

/-- From `vmm_create_address_space` on, with the file at `elfData`. -/
def replaceProgram (upper : Upper) (frame : InterruptFrame) (proc elfData : Nat) (elf : Image)
    (k : Kernel) : Option ExecEnd :=
  match vmmCreateAddressSpace k.cr3 k.kmem with
  | none => none
  | some (newAs, s) =>
    if newAs = 0 then some (.returned (k.setKmem (kfree elfData s)))
    else
      let k := vmmSwitchAddressSpace newAs (k.setKmem s)
      -- the loader maps into the address space the process still has
      match elfLoad elf (k.procs proc).addrSpace k.kmem with
      | none => none
      | some (entry, s) =>
        let k := k.setKmem (kfree elfData s)
        if entry = 0 then some (.returned k) else enterProgram upper frame proc newAs entry k

/-- From the call of `vfs_open` on. -/
def execFile (upper : Upper) (frame : InterruptFrame) (proc : Nat) (node : Option FileNode)
    (k : Kernel) : Option ExecEnd :=
  match node with
  | none => some (.returned k)
  | some node =>
    if node.isFile = false then some (.returned k)
    else if node.size = 0 ∨ node.size > 1024 * 1024 then some (.returned k)
    else
      match kmalloc node.size k.kmem with
      | none => none
      | some (elfData, s) =>
        let k := k.setKmem s
        if elfData = 0 then some (.returned k)
        else if node.bytesRead ≠ node.size then some (.returned (k.setKmem (kfree elfData k.kmem)))
        else replaceProgram upper frame proc elfData node.image k

/-- `sys_execve_impl`. The path is read twice, first for the message. -/
def sysExecveImpl (upper : Upper) (vfs : Vfs) (frame : InterruptFrame) (k : Kernel) :
    Option ExecEnd :=
  let path := frame.rdi.toNat
  match if path = 0 then some [] else k.peekString upper path 64 with
  | none => none
  | some _ =>
    match procCurrent k with
    | none => none
    | some proc =>
      if path = 0 then some (.returned k)
      else
        match k.peekString upper path 255 with
        | none => none
        | some kernelPath => execFile upper frame proc (vfs kernelPath) k

/-! ## `syscall_handler` -/

inductive SyscallEnd where
  | returned (rax : Nat) (k : Kernel)
  | entered (frame : InterruptFrame) (k : Kernel)

def sysWrite (upper : Upper) (fd buf count : Nat) (k : Kernel) : Option Nat :=
  if fd = 1 ∨ fd = 2 then
    run (fun n i => (k.peek upper (add64 buf i)).map fun _ => n) count (List.range count)
  else some count

def sysGetpid (k : Kernel) : Nat :=
  match procCurrent k with
  | none => 0
  | some proc => (k.procs proc).pid.toNat

def sysGetppid (k : Kernel) : Nat :=
  match procCurrent k with
  | none => 0
  | some proc => (k.procs proc).ppid.toNat

/-- `syscall_handler`. `read`, `open`, `close`, `mmap`, `munmap` and
`mprotect` are stubs; `exit` halts in `thread_exit`. What `sched_yield`
returns it returns when the thread runs again. -/
def syscallHandler (upper : Upper) (vfs : Vfs) (frame : InterruptFrame) (k : Kernel) :
    Option SyscallEnd :=
  match frame.rax.toNat with
  | 0 | 2 | 3 | 9 | 10 | 11 => some (.returned 0 k)
  | 1 =>
    (sysWrite upper frame.rdi.toNat frame.rsi.toNat frame.rdx.toNat k).map fun n => .returned n k
  | 39 => some (.returned (sysGetpid k) k)
  | 110 => some (.returned (sysGetppid k) k)
  | 57 => (sysFork frame k).map fun (r, k) => .returned r k
  | 59 =>
    (sysExecveImpl upper vfs frame k).map fun
      | .returned k => .returned 0 k
      | .started frame k => .entered frame k
  | 60 => none
  | 24 => (yield k.sched).map fun sched => .returned 0 { k with sched := sched }
  | _ => some (.returned minusOne k)

end VortexOS.Proc
