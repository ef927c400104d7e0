/-
VortexOS.Arch.ThreadStart — the stack that `kthread_create` prepares, and
the first switch to it.

`kthread_create` pushes the words in the order R15, R14, R13, R12, RBP, RBX,
so that RBX is on top, while `context_switch` pops R15 first. The entry
function, pushed for R12, comes out in R13 (`first_switch_regs`), and
`thread_trampoline` calls what is in R12.

The static pool of records is at the address `kTcbPool`. A record begins
with its `CpuContext`, which is in memory here; its other fields are those
of `VortexOS.Sched.Scheduler`.
-/
import VortexOS.Arch.ContextSwitch
import VortexOS.Mm.Pmm
import VortexOS.Sched.Scheduler

namespace VortexOS.Arch

open Function Lib.X86

/-! ## `kthread_create` -/

structure ThreadMem where
  pmm : Mm.Pmm
  sched : Sched.SchedState
  /-- The words of the stacks and of the contexts. -/
  mem : Word → Word

def sizeofTcb : Nat := 144

def contextAddr (kTcbPool : Word) (tcb : Nat) : Word := kTcbPool + BitVec.ofNat 64 (sizeofTcb * tcb)

def ThreadMem.stackTop (s : ThreadMem) (tcb : Nat) : Word :=
  BitVec.ofNat 64 (s.sched.kTcbPool tcb).stackBase + BitVec.ofNat 64 s.pmm.kHhdmOffset +
    BitVec.ofNat 64 ((s.sched.kTcbPool tcb).stackPages * Mm.pageSize)

/-- The part of `alloc_tcb` that clears the record. -/
def clearContext (ctx : Word) (m : Word → Word) : Word → Word :=
  (List.range 7).foldl (fun m k => update m (ctx + BitVec.ofNat 64 (8 * k)) 0) m

def pushTo (p : Word × (Word → Word)) (w : Word) : Word × (Word → Word) :=
  (p.1 - 8, update p.2 (p.1 - 8) w)

/-- What is pushed, in this order: the return address, and the words for
R15, R14, R13, R12, RBP and RBX. -/
def initialWords (trampoline func : Word) : List Word := [trampoline, 0, 0, 0, func, 0, 0]

/-- `kthread_create(func, name, priority)`. -/
def kthreadCreate (kTcbPool trampoline func : Word) (priority : Nat) (s : ThreadMem) :
    Option (Option Nat × ThreadMem) :=
  if s.sched.kNextTcbIndex ≥ Sched.maxThreads then some (none, s)
  else
    match Mm.pmmAllocPages Sched.kthreadStackPages s.pmm with
    | none => none
    | some (stackPhys, pmm) =>
      match Sched.kthreadCreate priority stackPhys s.sched with
      | none => none
      | some (none, sched) => some (none, { s with pmm := pmm, sched := sched })
      | some (some tcb, sched) =>
        let s : ThreadMem := ⟨pmm, sched, clearContext (contextAddr kTcbPool tcb) s.mem⟩
        let p := (initialWords trampoline func).foldl pushTo (s.stackTop tcb, s.mem)
        some (some tcb, { s with mem := update p.2 (contextAddr kTcbPool tcb + 48) p.1 })

/-! ## The new stack -/

variable {kTcbPool trampoline func : Word} {priority tcb : Nat} {s s' : ThreadMem} {c : Cpu}

lemma foldl_pushTo {ws : List Word} (vs : List Word) {sp : Word} {m : Word → Word}
    (h : Stored m sp ws) (hlen : ws.length + vs.length ≤ 2 ^ 60) :
    Stored (vs.foldl pushTo (sp, m)).2 (vs.foldl pushTo (sp, m)).1 (vs.reverse ++ ws) := by
  induction vs generalizing sp m ws with
  | nil => exact h
  | cons v vs ih =>
    simp only [List.length_cons] at hlen
    have hrest := ih (h.push (by omega) v) (by simp only [List.length_cons]; omega)
    rw [List.foldl_cons, pushTo, List.reverse_cons, List.append_assoc]
    exact hrest

def startWords (ctx top : Word) : List Word := (ctx + 48) :: (List.range 7).map (below top)

section

variable (hcall : kthreadCreate kTcbPool trampoline func priority s = some (some tcb, s'))
include hcall

lemma kthreadCreate_mem : ∃ m, s'.mem = update
    ((initialWords trampoline func).foldl pushTo (s'.stackTop tcb, m)).2
    (contextAddr kTcbPool tcb + 48)
    ((initialWords trampoline func).foldl pushTo (s'.stackTop tcb, m)).1 := by
  unfold kthreadCreate at hcall
  split at hcall
  · simp at hcall
  · split at hcall
    · simp at hcall
    · split at hcall
      · simp at hcall
      · simp at hcall
      · simp only [Option.some.injEq, Prod.mk.injEq] at hcall
        obtain ⟨rfl, rfl⟩ := hcall
        exact ⟨_, rfl⟩

/-- What `kthread_create` leaves, if the record is not on the stack. -/
lemma kthreadCreate_spec
    (hown : ∀ k < 7, below (s'.stackTop tcb) k ≠ contextAddr kTcbPool tcb + 48) :
    s'.mem (contextAddr kTcbPool tcb + 48) = s'.stackTop tcb - 56 ∧
    Stored s'.mem (s'.stackTop tcb - 56) [0, 0, func, 0, 0, 0, trampoline] := by
  obtain ⟨m, hmem⟩ := kthreadCreate_mem hcall
  generalize s'.stackTop tcb = top at *
  have hsp : ((initialWords trampoline func).foldl pushTo (top, m)).1 = top - 56 := by
    simp [initialWords, pushTo, BitVec.sub_sub]
  have hstart : Stored m top [] := trivial
  have hwords := foldl_pushTo (initialWords trampoline func) hstart (by simp [initialWords])
  rw [hsp] at hwords hmem
  rw [hmem]
  refine ⟨update_self _ _ _, Stored.congr (by simpa [initialWords] using hwords) ?_⟩
  intro i hi
  have hi' : i < 7 := by simpa using hi
  refine update_of_ne ?_ _ _
  rw [add_eq_below _ hi']
  exact hown _ (by omega)

end

/-- A machine about to call `context_switch` for the first time with the
context of a new thread: nothing has written to what `kthread_create` left,
and neither do the stores of the call to the stack and the context of the
thread that makes it. -/
structure FirstSwitch (kTcbPool : Word) (tcb : Nat) (s : ThreadMem) (c : Cpu) : Prop where
  arg : c.reg .rsi = contextAddr kTcbPool tcb
  own : ∀ k < 7, below (s.stackTop tcb) k ≠ contextAddr kTcbPool tcb + 48
  kept : ∀ a ∈ startWords (contextAddr kTcbPool tcb) (s.stackTop tcb), c.mem a = s.mem a
  saved : c.reg .rdi + 48 ∉ startWords (contextAddr kTcbPool tcb) (s.stackTop tcb)
  pushed : ∀ k < 6, below (c.reg .rsp) k ∉ startWords (contextAddr kTcbPool tcb) (s.stackTop tcb)

lemma first_switch_regs
    (hcall : kthreadCreate kTcbPool trampoline func priority s = some (some tcb, s'))
    (h : FirstSwitch kTcbPool tcb s' c) : (run c contextSwitch).rip = trampoline ∧
    (run c contextSwitch).reg .rsp = s'.stackTop tcb ∧ (run c contextSwitch).reg .r13 = func ∧
    ∀ r ∈ [Reg.rbx, .rbp, .r12, .r14, .r15], (run c contextSwitch).reg r = 0 := by
  obtain ⟨hctx, hwords⟩ := kthreadCreate_spec hcall h.own
  -- the first half of the switch leaves the words of the new thread alone
  have hkept : ∀ a ∈ startWords (contextAddr kTcbPool tcb) (s'.stackTop tcb),
      (saveHalf c).mem a = s'.mem a := by
    intro a ha
    rw [saveHalf_frame (fun heq => h.saved (heq ▸ ha)) (fun k hk heq => h.pushed k hk (heq ▸ ha))]
    exact h.kept a ha
  have hload : (saveHalf c).mem ((saveHalf c).reg .rsi + 48) = s'.stackTop tcb - 56 := by
    rw [saveHalf_rsi, h.arg, hkept _ (by simp [startWords]), hctx]
  have hnew : Stored (saveHalf c).mem (s'.stackTop tcb - 56)
      (savedRegs.map (fun r => if r = .r13 then func else 0) ++ [trampoline]) := by
    refine Stored.congr hwords fun i hi => hkept _ ?_
    have hi' : i < 7 := hi
    rw [add_eq_below _ hi']
    simp only [startWords, List.mem_cons, List.mem_map, List.mem_range]
    exact Or.inr ⟨6 - i, by omega, rfl⟩
  obtain ⟨hreg, hrsp, hrip⟩ := restore_spec hload hnew
  rw [run_contextSwitch]
  refine ⟨hrip, hrsp.trans (BitVec.sub_add_cancel _ _), hreg .r13 (by decide), fun r hr => ?_⟩
  have hsaved : r ∈ savedRegs ∧ r ≠ .r13 := by
    revert hr
    cases r <;> decide
  rw [hreg r hsaved.1, if_neg hsaved.2]

/-- A thread starts in its entry function: `thread_trampoline` finds it in
R12, on an empty stack. -/
structure StartsIn (trampoline func top : Word) (c : Cpu) : Prop where
  rip : c.rip = trampoline
  r12 : c.reg .r12 = func
  zero : ∀ r ∈ [Reg.rbx, .rbp, .r13, .r14, .r15], c.reg r = 0
  rsp : c.reg .rsp = top

/-- The entry function is in R13 and not in R12. -/
theorem first_switch_iff
    (hcall : kthreadCreate kTcbPool trampoline func priority s = some (some tcb, s'))
    (h : FirstSwitch kTcbPool tcb s' c) :
    StartsIn trampoline func (s'.stackTop tcb) (run c contextSwitch) ↔ func = 0 := by
  obtain ⟨hrip, hrsp, hr13, hzero⟩ := first_switch_regs hcall h
  constructor
  · intro hstart
    rw [← hstart.r12]
    exact hzero .r12 (by decide)
  · intro hfunc
    refine ⟨hrip, (hzero .r12 (by decide)).trans hfunc.symm, fun r hr => ?_, hrsp⟩
    by_cases h13 : r = .r13
    · rw [h13, hr13, hfunc]
    · refine hzero r ?_
      revert hr h13
      cases r <;> decide

/-! ## A machine -/

/-- Before the first thread is created: four free pages from 0x8000 on. -/
def bootMem : ThreadMem where
  pmm := (Mm.pmmInit [⟨7 * Mm.pageSize, 5 * Mm.pageSize, .usable⟩] 0
    fun _ => ⟨0, 0, 0, 0, 0, none, none⟩).get (by decide)
  sched := Sched.bootState 1000 0
  mem _ := 0

/-- After `kthread_create(func, name, 10)`, with the pool of records at
0x100000 and the trampoline at 0x200000. -/
def createdMem (func : Word) : ThreadMem :=
  ((kthreadCreate 0x100000 0x200000 func 10 bootMem).getD (none, bootMem)).2

lemma kthreadCreate_createdMem {func : Word}
    (h : (kthreadCreate 0x100000 0x200000 func 10 bootMem).map Prod.fst = some (some 0)) :
    kthreadCreate 0x100000 0x200000 func 10 bootMem = some (some 0, createdMem func) := by
  unfold createdMem
  obtain ⟨r, hr, hfst⟩ := Option.map_eq_some_iff.mp h
  rw [hr, Option.getD_some, ← hfst]

/-- The creator's registers when it switches: its stack ends at 0x300000,
its context is at 0x310000. -/
def creatorRegs : Reg → Word
  | .rsp => 0x300000
  | .rdi => 0x310000
  | .rsi => 0x100000
  | _ => 7

def creator (func : Word) : Cpu where
  reg := creatorRegs
  rip := 0
  rflags := .load 2
  cs := 8
  ss := 16
  mem := (createdMem func).mem
  gs _ := 0
  kernelGs _ := 0
  star := 0

lemma creator_firstSwitch {func : Word} (htop : (createdMem func).stackTop 0 = 0xC000) :
    FirstSwitch 0x100000 0 (createdMem func) (creator func) := by
  have hreg : (creator func).reg = creatorRegs := rfl
  refine ⟨rfl, ?_, fun _ _ => rfl, ?_, ?_⟩
  · rw [htop]
    decide
  · rw [htop, hreg]
    decide
  · rw [htop, hreg]
    decide

theorem first_switch_null : StartsIn 0x200000 0 ((createdMem 0).stackTop 0)
    (run (creator 0) contextSwitch) ↔ (0 : Word) = 0 :=
  first_switch_iff (kthreadCreate_createdMem (by decide))
    (creator_firstSwitch (by decide))

/-- A thread that is to start at 0x400000: `thread_trampoline` finds 0 in
R12, and the entry function is in R13. -/
theorem first_switch_loses_entry :
    kthreadCreate 0x100000 0x200000 0x400000 10 bootMem = some (some 0, createdMem 0x400000) ∧
      FirstSwitch 0x100000 0 (createdMem 0x400000) (creator 0x400000) ∧
      (run (creator 0x400000) contextSwitch).rip = 0x200000 ∧
      (run (creator 0x400000) contextSwitch).reg .r12 = 0 ∧
      (run (creator 0x400000) contextSwitch).reg .r13 = 0x400000 := by
  have hcall : kthreadCreate 0x100000 0x200000 0x400000 10 bootMem =
      some (some 0, createdMem 0x400000) := kthreadCreate_createdMem (by decide)
  have hfirst : FirstSwitch 0x100000 0 (createdMem 0x400000) (creator 0x400000) :=
    creator_firstSwitch (by decide)
  obtain ⟨hrip, -, hr13, hzero⟩ := first_switch_regs hcall hfirst
  exact ⟨hcall, hfirst, hrip, hzero .r12 (by decide), hr13⟩

end VortexOS.Arch
