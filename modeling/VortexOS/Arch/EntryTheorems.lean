/-
VortexOS.Arch.EntryTheorems — what the entry code hands to the kernel, and
what a program gets back.

  `interrupt_transparent`   an interrupt: the frame that `isr_dispatch`
                            gets, and the state that `iretq` resumes
  `syscall_frame_faithful`  the frame that `syscall_handler` gets
  `syscall_returns`         the state the program goes on with
  `child_return_exact`      `syscall_child_return`, for `fork` and `execve`

Each theorem states exactly when its property holds, and a state in which
it fails follows it. All rest on the frame that the entry sequences leave
(`isrEntry_frame`, `syscallEntry_frame`) and the registers that the exit
sequences load (`isrExit_spec`, `syscallExit_spec`).
-/
import VortexOS.Arch.Entry

namespace VortexOS.Arch

open Lib.X86

variable {c : Cpu} {f : InterruptFrame}

/-! ## Saving and restoring the registers -/

lemma saveRegs_spec {ws : List Word} (h : c.OnStack ws) (hlen : ws.length ≤ 100) :
    (run c (popOrder.reverse.map .push)).OnStack (popOrder.map c.reg ++ ws) ∧
    ∀ r, (run c (popOrder.reverse.map .push)).reg r =
      if r = .rsp then c.reg .rsp - 120 else c.reg r := by
  have hrsp : .rsp ∉ popOrder.reverse := by decide
  have hpush := run_pushes popOrder.reverse hrsp h
    (by simp only [List.length_reverse, popOrder, List.length_cons, List.length_nil]; omega)
  simpa [popOrder] using hpush

lemma restoreRegs_spec (h : InterruptFrame.read c.mem (c.reg .rsp) = f) :
    (run c (popOrder.map .pop)).OnStack
      [f.vector, f.errorCode, f.rip, f.cs, f.rflags, f.rsp, f.ss] ∧
    (run c (popOrder.map .pop)).mem = c.mem ∧ ∀ r, (run c (popOrder.map .pop)).reg r =
      if r = .rsp then c.reg .rsp + 120 else f.gpr r := by
  have hframe : c.OnStack (popOrder.map f.gpr ++
      [f.vector, f.errorCode, f.rip, f.cs, f.rflags, f.rsp, f.ss]) :=
    InterruptFrame.stored_iff.mpr h
  obtain ⟨hstack, hmem, hreg⟩ := run_pops f.gpr (by decide) hframe
  refine ⟨hstack, hmem, fun r => ?_⟩
  rw [hreg r]
  by_cases hr : r = .rsp
  · subst hr
    rfl
  · simp [mem_popOrder, hr]

/-! ## Interrupts -/

def hasErrorCode (vector : BitVec 8) : Bool :=
  vector ∈ [8, 10, 11, 12, 13, 14, 17, 21, 29, 30]

/-- The machine when `isr_dispatch` is called: the CPU has delivered the
interrupt, and the stub and `isr_common_handler` have run. `code` is the
error code, for a vector that has one. -/
def isrEntry (c : Cpu) (vector : BitVec 8) (sp code : Word) : Cpu :=
  run (c.deliver sp (if hasErrorCode vector then some code else none))
    (isrStub vector ++ isrCommonEntry)

/-- The words the CPU pushes, and the word on the stack before that. -/
def delivered (c : Cpu) (sp : Word) : List Word :=
  [c.rip, c.cs.setWidth 64, c.rflags.val, c.reg .rsp, c.ss.setWidth 64, c.mem sp]

lemma deliver_spec (sp : Word) (err : Option Word) :
    (c.deliver sp err).OnStack (err.toList ++ delivered c sp) ∧ ∀ r, r ≠ .rsp →
    (c.deliver sp err).reg r = c.reg r := by
  have h0 : (c.set .rsp sp).OnStack [c.mem sp] := by simp [Cpu.OnStack, Stored]
  have h5 := ((((h0.push (by simp) (c.ss.setWidth 64)).push (by simp) (c.reg .rsp)).push
    (by simp) c.rflags.val).push (by simp) (c.cs.setWidth 64)).push (by simp) c.rip
  cases err with
  | none =>
    refine ⟨h5, fun r hr => ?_⟩
    simp [Cpu.deliver, hr]
  | some e =>
    refine ⟨h5.push (by simp) e, fun r hr => ?_⟩
    simp [Cpu.deliver, hr]

lemma isrEntry_spec (vector : BitVec 8) (sp code : Word) :
    (isrEntry c vector sp code).OnStack (popOrder.map c.reg ++ vector.setWidth 64 ::
      ((if hasErrorCode vector then some code else none).toList ++ delivered c sp)) ∧
    (isrEntry c vector sp code).reg .rdi = (isrEntry c vector sp code).reg .rsp := by
  obtain ⟨hstack, hreg⟩ := deliver_spec (c := c) sp (if hasErrorCode vector then
    some code else none)
  have hlen : ((if hasErrorCode vector then some code else none).toList ++ delivered c sp).length ≤
    7 := by
    split <;> simp [delivered]
  have hpush := hstack.push (by omega) (vector.setWidth 64)
  obtain ⟨hsave, -⟩ := saveRegs_spec hpush (by simp only [List.length_cons]; omega)
  have hgpr : popOrder.map ((c.deliver sp (if hasErrorCode vector then
    some code else none)).pushWord
      (vector.setWidth 64)).reg = popOrder.map c.reg :=
    List.map_congr_left fun r hr => by
      have hne := (mem_popOrder r).mp hr
      simp [hne, hreg r hne]
  rw [hgpr] at hsave
  have hrun : isrEntry c vector sp code = exec (run ((c.deliver sp
      (if hasErrorCode vector then some code else none)).pushWord (vector.setWidth 64))
        (popOrder.reverse.map .push)) (.mov .rdi .rsp) := rfl
  rw [hrun]
  exact ⟨hsave.set (by decide) _, by simp [exec]⟩

/-- The frame that `isr_dispatch` gets. Without an error code every field
from `error_code` on holds what belongs into the next one. -/
lemma isrEntry_frame (vector : BitVec 8) (sp code : Word) :
    InterruptFrame.read (isrEntry c vector sp code).mem ((isrEntry c vector sp code).reg .rdi) =
      { r15 := c.reg .r15, r14 := c.reg .r14, r13 := c.reg .r13, r12 := c.reg .r12
        r11 := c.reg .r11, r10 := c.reg .r10, r9 := c.reg .r9, r8 := c.reg .r8
        rbp := c.reg .rbp, rdi := c.reg .rdi, rsi := c.reg .rsi, rdx := c.reg .rdx
        rcx := c.reg .rcx, rbx := c.reg .rbx, rax := c.reg .rax
        vector := vector.setWidth 64
        errorCode := if hasErrorCode vector then code else c.rip
        rip := if hasErrorCode vector then c.rip else c.cs.setWidth 64
        cs := if hasErrorCode vector then c.cs.setWidth 64 else c.rflags.val
        rflags := if hasErrorCode vector then c.rflags.val else c.reg .rsp
        rsp := if hasErrorCode vector then c.reg .rsp else c.ss.setWidth 64
        ss := if hasErrorCode vector then c.ss.setWidth 64 else c.mem sp } := by
  obtain ⟨hstack, hrdi⟩ := isrEntry_spec (c := c) vector sp code
  rw [hrdi]
  unfold Cpu.OnStack at hstack
  cases hv : hasErrorCode vector with
  | false =>
    rw [hv] at hstack
    refine InterruptFrame.read_of_stored [] ?_
    simpa [InterruptFrame.words, delivered, popOrder] using hstack
  | true =>
    rw [hv] at hstack
    refine InterruptFrame.read_of_stored [c.mem sp] ?_
    simpa [InterruptFrame.words, delivered, popOrder] using hstack

/-- What `isr_common_handler` resumes with the frame `f` on the stack: it
removes one word before `iretq`, so `error_code` is taken for `RIP`. -/
lemma isrExit_spec (h : InterruptFrame.read c.mem (c.reg .rsp) = f) :
    (run c isrCommonExit).rip = f.errorCode ∧ (run c isrCommonExit).cs = f.rip.setWidth 16 ∧
    (run c isrCommonExit).rflags = Flags.load f.cs ∧ (run c isrCommonExit).ss = f.rsp.setWidth 16 ∧
    ∀ r, (run c isrCommonExit).reg r = if r = .rsp then f.rflags else f.gpr r := by
  obtain ⟨⟨-, h1, h2, h3, h4, h5, -⟩, -, hreg⟩ := restoreRegs_spec h
  have hrun : run c isrCommonExit =
      exec (exec (run c (popOrder.map .pop)) (.addImm .rsp 8)) .iretq := rfl
  simp only [BitVec.add_assoc, BitVec.reduceAdd] at h1 h2 h3 h4 h5
  rw [hrun]
  refine ⟨by simpa [exec] using h1, by simp [exec, BitVec.add_assoc, h2],
    by simp [exec, BitVec.add_assoc, h3], by simp [exec, BitVec.add_assoc, h5], fun r => ?_⟩
  by_cases hr : r = .rsp
  · simp [exec, hr, BitVec.add_assoc, h4]
  · simp [exec, hr, hreg r]

/-- `f` holds the interrupted state of `c`. -/
structure Faithful (f : InterruptFrame) (c : Cpu) (vector : BitVec 8) (code : Word) : Prop where
  vector_eq : f.vector = vector.setWidth 64
  errorCode : f.errorCode = if hasErrorCode vector then code else 0
  rip : f.rip = c.rip
  cs : f.cs = c.cs.setWidth 64
  rflags : f.rflags = c.rflags.val
  ss : f.ss = c.ss.setWidth 64
  /-- The fifteen registers and `rsp`. -/
  gpr : ∀ r, f.gpr r = c.reg r

/-- `c'` goes on where `c` was interrupted. -/
structure Resumed (c c' : Cpu) : Prop where
  rip : c'.rip = c.rip
  cs : c'.cs = c.cs
  rflags : c'.rflags = c.rflags
  ss : c'.ss = c.ss
  gpr : ∀ r, c'.reg r = c.reg r

/-- The words that `iretq` takes for others happen to be equal. -/
structure Coincides (c : Cpu) (code : Word) : Prop where
  rip : code = c.rip
  cs : c.rip.setWidth 16 = c.cs
  rflags : Flags.load (c.cs.setWidth 64) = c.rflags
  rsp : c.rflags.val = c.reg .rsp
  ss : (c.reg .rsp).setWidth 16 = c.ss

lemma faithful_iff (vector : BitVec 8) (sp code : Word) :
    Faithful (InterruptFrame.read (isrEntry c vector sp code).mem
      ((isrEntry c vector sp code).reg .rdi)) c vector code ↔ hasErrorCode vector = true := by
  rw [isrEntry_frame]
  cases hv : hasErrorCode vector with
  | true =>
    refine iff_of_true ⟨rfl, by simp [hv], by simp, by simp, by simp, by simp, fun r => ?_⟩ rfl
    cases r <;> simp [InterruptFrame.gpr]
  | false =>
    refine iff_of_false (fun h => ?_) (by decide)
    -- RIP is 0, so CS is, so RFLAGS is
    have hrip := h.errorCode
    have hcs := h.rip
    have hfl := h.cs
    simp only [hv, Bool.false_eq_true, if_false] at hrip hcs hfl
    exact c.rflags.val_ne_zero (hfl.trans (hcs.trans hrip))

lemma resumed_exit_iff {c' : Cpu} (h : InterruptFrame.read c'.mem (c'.reg .rsp) = f) :
    Resumed c (run c' isrCommonExit) ↔
      f.errorCode = c.rip ∧ f.rip.setWidth 16 = c.cs ∧ Flags.load f.cs = c.rflags ∧
      f.rsp.setWidth 16 = c.ss ∧ f.rflags = c.reg .rsp ∧ ∀ r, r ≠ .rsp → f.gpr r = c.reg r := by
  obtain ⟨hrip, hcs, hrflags, hss, hreg⟩ := isrExit_spec h
  constructor
  · intro hres
    have hgpr := fun r => (hreg r).symm.trans (hres.gpr r)
    refine ⟨hrip.symm.trans hres.rip, hcs.symm.trans hres.cs, hrflags.symm.trans hres.rflags,
      hss.symm.trans hres.ss, by simpa using hgpr .rsp, fun r hr => by simpa [hr] using hgpr r⟩
  · rintro ⟨e1, e2, e3, e4, e5, e6⟩
    refine ⟨hrip.trans e1, hcs.trans e2, hrflags.trans e3, hss.trans e4, fun r => ?_⟩
    rw [hreg r]
    by_cases hr : r = .rsp
    · simp [hr, e5]
    · simp [hr, e6 r hr]

/-- `c'` is a state in which `isr_dispatch` may return: it has not modified
the frame. -/
structure FrameKept (c c' : Cpu) : Prop where
  rsp : c'.reg .rsp = c.reg .rsp
  frame : InterruptFrame.read c'.mem (c'.reg .rsp) = InterruptFrame.read c.mem (c.reg .rsp)

lemma resumed_iff (vector : BitVec 8) (sp code : Word) :
    (∀ c', FrameKept (isrEntry c vector sp code) c' → Resumed c (run c' isrCommonExit)) ↔
      (hasErrorCode vector = true → Coincides c code) := by
  have hframe := isrEntry_frame (c := c) vector sp code
  rw [(isrEntry_spec (c := c) vector sp code).2] at hframe
  have hkept : ∀ c', FrameKept (isrEntry c vector sp code) c' →
      (Resumed c (run c' isrCommonExit) ↔ (hasErrorCode vector = true → Coincides c code)) := by
    intro c' hk
    rw [resumed_exit_iff (hk.frame.trans hframe)]
    cases hv : hasErrorCode vector with
    | false =>
      refine iff_of_true ⟨rfl, ?_, ?_, ?_, rfl, fun r hr => ?_⟩ (by simp)
      · simp
      · simp
      · simp
      · cases r <;> first | rfl | exact absurd rfl hr
    | true =>
      constructor
      · rintro ⟨e1, e2, e3, e4, e5, -⟩ -
        exact ⟨e1, e2, e3, e5, e4⟩
      · intro h
        obtain ⟨e1, e2, e3, e5, e4⟩ := h rfl
        refine ⟨e1, e2, e3, e4, e5, fun r _ => ?_⟩
        cases r <;> rfl
  exact ⟨fun h => (hkept _ ⟨rfl, rfl⟩).mp (h _ ⟨rfl, rfl⟩), fun h c' hk => (hkept c' hk).mpr h⟩

/-- An interrupt is transparent if `isr_dispatch` sees the interrupted state
and `iretq` resumes it. The stubs push no error code for the vectors that
have none, and the exit code removes none for the others. -/
theorem interrupt_transparent (c : Cpu) (vector : BitVec 8) (sp code : Word) :
    Faithful (InterruptFrame.read (isrEntry c vector sp code).mem
        ((isrEntry c vector sp code).reg .rdi)) c vector code ∧
      (∀ c', FrameKept (isrEntry c vector sp code) c' → Resumed c (run c' isrCommonExit)) ↔
    hasErrorCode vector = true ∧ Coincides c code := by
  rw [faithful_iff, resumed_iff]
  exact ⟨fun ⟨hv, h⟩ => ⟨hv, h hv⟩, fun ⟨hv, h⟩ => ⟨hv, fun _ => h⟩⟩

def userCpu : Cpu where
  reg
    | .rsp => 0x7FFFF000
    | .rax => 59
    | _ => 0
  rip := 0x401000
  rflags := Flags.load 0x202
  cs := 0x33
  ss := 0x2B
  mem _ := 0
  gs _ := 0
  kernelGs a := if a = 0x18 then 0xFFFF800000010000 else 0
  star := 0x0020000800000000

/-- For the timer interrupt (32) the handler sees CS as `rip` and RIP as
`error_code`. After a page fault (14) with error code 7 the program goes on
at address 7. -/
theorem interrupt_not_transparent :
    (InterruptFrame.read (isrEntry userCpu 32 0xFFFF800000010000 0).mem
      ((isrEntry userCpu 32 0xFFFF800000010000 0).reg .rdi)).rip = 0x33 ∧
    (InterruptFrame.read (isrEntry userCpu 32 0xFFFF800000010000 0).mem
      ((isrEntry userCpu 32 0xFFFF800000010000 0).reg .rdi)).errorCode = userCpu.rip ∧
    (run (isrEntry userCpu 14 0xFFFF800000010000 7) isrCommonExit).rip = 7 := by
  decide

/-! ## System calls -/

def kernelStack (c : Cpu) : Word := c.kernelGs 0x18

/-- The first part of `syscall_entry`, which builds the part of the frame
that the CPU would push for an interrupt. -/
def syscallPrologue : List Instr := syscallEntry.take 10

lemma syscallPrologue_spec :
    (run c syscallPrologue).OnStack [0x1B, c.reg .rcx, c.reg .r11, c.reg .rsp, 0x1B] ∧
      ∀ r, (run c syscallPrologue).reg r =
        if r = .rsp then kernelStack c - 40 else if r = .rax then c.reg .rsp else c.reg r := by
  constructor
  · simp [syscallPrologue, syscallEntry, exec, Cpu.OnStack, Stored, Cpu.store, BitVec.add_assoc]
  · intro r
    cases r <;> simp [syscallPrologue, syscallEntry, exec, kernelStack, Cpu.store]

/-- The machine when `syscall_handler` is called, for a program in the state
`c` at a `syscall` instruction. -/
def syscallEntered (c : Cpu) : Cpu := run (c.syscall fmask) syscallEntry

/-- The frame that `syscall_handler` gets. `RAX` has been used to copy the
stack pointer by then, and the words for `rip` and `cs` are stored the
wrong way round. -/
lemma syscallEntry_frame (c : Cpu) :
    InterruptFrame.read (syscallEntered c).mem ((syscallEntered c).reg .rdi) =
        { r15 := c.reg .r15, r14 := c.reg .r14, r13 := c.reg .r13, r12 := c.reg .r12
          r11 := c.rflags.val, r10 := c.reg .r10, r9 := c.reg .r9, r8 := c.reg .r8
          rbp := c.reg .rbp, rdi := c.reg .rdi, rsi := c.reg .rsi, rdx := c.reg .rdx
          rcx := c.rip, rbx := c.reg .rbx, rax := c.reg .rsp
          vector := 0x80, errorCode := 0
          rip := 0x1B, cs := c.rip, rflags := c.rflags.val, rsp := c.reg .rsp, ss := 0x1B } ∧
      (syscallEntered c).reg .rdi = kernelStack c - 176 ∧
      (syscallEntered c).reg .rsp = kernelStack c - 176 := by
  obtain ⟨hpro, hreg⟩ := syscallPrologue_spec (c := c.syscall fmask)
  have hpush := (hpro.push (by simp) 0).push (by simp) 0x80
  obtain ⟨hsave, hreg'⟩ := saveRegs_spec hpush (by simp)
  have hrun : syscallEntered c = exec (exec (run (((run (c.syscall fmask) syscallPrologue).pushWord
      0).pushWord 0x80) (popOrder.reverse.map .push)) (.mov .rdi .rsp)) .cld := rfl
  generalize run (((run (c.syscall fmask) syscallPrologue).pushWord 0).pushWord 0x80)
    (popOrder.reverse.map .push) = d at hsave hreg' hrun
  have hsp : d.reg .rsp = kernelStack c - 176 := by
    have hk : kernelStack (c.syscall fmask) = kernelStack c := rfl
    rw [hreg', if_pos rfl]
    simp only [pushWord_reg, if_true, hreg, hk]
    bv_omega
  have hrsp : (syscallEntered c).reg .rsp = d.reg .rsp := by simp [hrun, exec]
  have hrdi : (syscallEntered c).reg .rdi = d.reg .rsp := by simp [hrun, exec]
  have hmem : (syscallEntered c).mem = d.mem := by simp [hrun, exec]
  refine ⟨?_, hrdi.trans hsp, hrsp.trans hsp⟩
  rw [hrdi, hmem]
  refine InterruptFrame.read_of_stored [] ?_
  unfold Cpu.OnStack at hsave
  simpa [InterruptFrame.words, popOrder, hreg] using hsave

/-- `f` holds what a program passed to the kernel with `syscall`. -/
structure SyscallFaithful (f : InterruptFrame) (c : Cpu) : Prop where
  /-- The number that `syscall_handler` dispatches on. -/
  number : f.rax = c.reg .rax
  gpr : ∀ r, r ≠ .rax → f.gpr r = (c.syscall fmask).reg r
  rip : f.rip = c.rip
  rflags : f.rflags = c.rflags.val

/-- RAX is lost to the copy of the stack pointer, and `rip` and `cs` change
places. -/
theorem syscall_frame_faithful (c : Cpu) : SyscallFaithful
      (InterruptFrame.read (syscallEntered c).mem ((syscallEntered c).reg .rdi)) c ↔
    c.reg .rax = c.reg .rsp ∧ c.rip = 0x1B := by
  rw [(syscallEntry_frame c).1]
  constructor
  · intro h
    exact ⟨h.number.symm, h.rip.symm⟩
  · rintro ⟨hrax, hrip⟩
    refine ⟨hrax.symm, fun r hr => ?_, hrip.symm, rfl⟩
    cases r <;> first | exact absurd rfl hr | simp [InterruptFrame.gpr]

/-- For `execve` (59) the handler finds the stack pointer as the number. -/
theorem syscall_frame_not_faithful :
    (InterruptFrame.read (syscallEntered userCpu).mem ((syscallEntered userCpu).reg .rdi)).rax =
        0x7FFFF000 ∧ userCpu.reg .rax = 59 ∧
      (InterruptFrame.read (syscallEntered userCpu).mem ((syscallEntered userCpu).reg .rdi)).rip =
        0x1B ∧ userCpu.rip = 0x401000 := by
  decide

/-! ## Returning with `sysret` -/

/-- Where `sysret` goes on with `w` in `RCX`. -/
def sysretTarget (o64 : Bool) (w : Word) : Word := if o64 then w else (w.setWidth 32).setWidth 64

lemma syscallExit_spec {sp : Word} (o64 : Bool) (hsp : c.reg .rsp = sp)
    (h : InterruptFrame.read c.mem sp = f) : (run c (syscallExit o64)).rip =
      sysretTarget o64 f.rcx ∧ (run c (syscallExit o64)).rflags = Flags.sysret f.r11 ∧
    ∀ r, (run c (syscallExit o64)).reg r = if r = .rsp then sp + 176 else f.gpr r := by
  subst hsp
  obtain ⟨-, -, hreg⟩ := restoreRegs_spec h
  have hrun : run c (syscallExit o64) = exec (exec (exec (exec (run c (popOrder.map .pop))
      (.addImm .rsp 16)) (.addImm .rsp 40)) .swapgs) (.sysret o64) := rfl
  generalize run c (popOrder.map .pop) = d at hreg hrun
  rw [hrun]
  refine ⟨by simp [exec, hreg, sysretTarget, InterruptFrame.gpr],
    by simp [exec, hreg, InterruptFrame.gpr], fun r => ?_⟩
  by_cases hr : r = .rsp
  · simp [exec, hr, hreg, BitVec.add_assoc]
  · simp [exec, hr, hreg]

/-- `c'` is the state in which `syscall_handler` returns `r` from a call made
in `c`, with the frame left as it was built. -/
structure Handled (c c' : Cpu) (r : Word) : Prop extends FrameKept c c' where
  rax : c'.reg .rax = r

/-- `c'` is how the program `c` goes on after a system call with the result `r`. -/
structure Returned (c c' : Cpu) (r : Word) : Prop where
  rax : c'.reg .rax = r
  rip : c'.rip = c.rip
  rflags : c'.rflags = c.rflags
  /-- All registers but those that hold the result and what `syscall` saves. -/
  gpr : ∀ x, x ≠ .rax → x ≠ .rcx → x ≠ .r11 → c'.reg x = c.reg x

/-- The way out pops RAX from the frame, where the stack pointer is, and leaves
the kernel stack in RSP: the program goes on as it should only if these are
the same values. -/
theorem syscall_returns (c : Cpu) (r : Word) (o64 : Bool) :
    (∀ c', Handled (syscallEntered c) c' r → Returned c (run c' (syscallExit o64)) r) ↔
      r = c.reg .rsp ∧ kernelStack c = c.reg .rsp ∧ sysretTarget o64 c.rip = c.rip ∧
        Flags.sysret c.rflags.val = c.rflags := by
  obtain ⟨hframe, hrdi, hrsp⟩ := syscallEntry_frame c
  rw [hrdi, ← hrsp] at hframe
  have hk : kernelStack c - 176 + 176 = kernelStack c := BitVec.sub_add_cancel ..
  have hkept : ∀ c', Handled (syscallEntered c) c' r →
      (Returned c (run c' (syscallExit o64)) r ↔
        r = c.reg .rsp ∧ kernelStack c = c.reg .rsp ∧ sysretTarget o64 c.rip = c.rip ∧
          Flags.sysret c.rflags.val = c.rflags) := by
    intro c' hc
    obtain ⟨hrip, hflags, hreg⟩ := syscallExit_spec o64 rfl (hc.frame.trans hframe)
    rw [hc.rsp, hrsp, hk] at hreg
    constructor
    · intro h
      have hrax := (hreg .rax).symm.trans h.rax
      have hsp := (hreg .rsp).symm.trans (h.gpr .rsp (by decide) (by decide) (by decide))
      exact ⟨hrax.symm, hsp, hrip.symm.trans h.rip, hflags.symm.trans h.rflags⟩
    · rintro ⟨e1, e2, e3, e4⟩
      refine ⟨(hreg .rax).trans e1.symm, hrip.trans e3, hflags.trans e4, fun x h1 h2 h3 => ?_⟩
      rw [hreg x]
      cases x <;>
        first | rfl | exact absurd rfl h1 | exact absurd rfl h2 | exact absurd rfl h3 | exact e2
  have hself : Handled (syscallEntered c) ((syscallEntered c).set .rax r) r :=
    ⟨⟨by simp, by simp⟩, by simp⟩
  exact ⟨fun h => (hkept _ hself).mp (h _ hself), fun h c' hc => (hkept c' hc).mpr h⟩

/-- The result 5 is overwritten by `pop rax`, and the program goes on with
the kernel's stack pointer. -/
theorem syscall_not_returned :
    (run ((syscallEntered userCpu).set .rax 5) (syscallExit true)).reg .rax = 0x7FFFF000 ∧
      (run ((syscallEntered userCpu).set .rax 5) (syscallExit true)).reg .rsp = 0xFFFF800000010000 ∧
      userCpu.reg .rsp = 0x7FFFF000 := by
  decide

/-! ## `syscall_child_return` -/

/-- `c'` is user mode as the frame `f` describes it. -/
structure Entered (f : InterruptFrame) (c' : Cpu) : Prop where
  rip : c'.rip = f.rip
  rflags : c'.rflags.val = f.rflags
  /-- All registers, `rsp` among them, but those that `sysret` uses. -/
  gpr : ∀ x, x ≠ .rcx → x ≠ .r11 → c'.reg x = f.gpr x

lemma childReturn_spec (o64 : Bool) (h : InterruptFrame.read c.mem (c.reg .rdi) = f) :
    (run c (syscallChildReturn o64)).rip = sysretTarget o64 f.rcx ∧
    (run c (syscallChildReturn o64)).rflags = Flags.sysret f.r11 ∧ ∀ r,
      (run c (syscallChildReturn o64)).reg r = if r = .rsp then c.reg .rdi + 176 else f.gpr r := by
  have hcode : syscallChildReturn o64 = .mov .rsp .rdi :: syscallExit o64 := rfl
  rw [hcode, run_cons]
  exact syscallExit_spec o64 (by simp [exec]) (by simpa [exec] using h)

/-- The code resumes at `rcx`, with `r11` as flags and the stack pointer
behind the frame. A child of `fork` therefore gets the address behind its
`fork_frame` as stack pointer, and `execve` goes on behind its own `syscall`
instruction, on the kernel stack. -/
theorem child_return_exact (o64 : Bool) : (∀ c f, InterruptFrame.read c.mem (c.reg .rdi) = f →
      (Entered f (run c (syscallChildReturn o64)) ↔
        sysretTarget o64 f.rcx = f.rip ∧ (Flags.sysret f.r11).val = f.rflags ∧
          c.reg .rdi + 176 = f.rsp)) ∧ (∀ u c, InterruptFrame.read c.mem (c.reg .rdi) =
        forkFrame (InterruptFrame.read (syscallEntered u).mem ((syscallEntered u).reg .rdi)) →
      ((run c (syscallChildReturn o64)).rip = u.rip ∧
        (run c (syscallChildReturn o64)).reg .rax = 0 ∧
          (run c (syscallChildReturn o64)).reg .rsp = u.reg .rsp ↔
        sysretTarget o64 u.rip = u.rip ∧ c.reg .rdi + 176 = u.reg .rsp)) ∧
    (∀ u c entry userSp, c.reg .rdi = (syscallEntered u).reg .rdi →
      InterruptFrame.read c.mem (c.reg .rdi) = execveFrame
        (InterruptFrame.read (syscallEntered u).mem ((syscallEntered u).reg .rdi)) entry userSp →
      ((run c (syscallChildReturn o64)).rip = entry ∧
        (run c (syscallChildReturn o64)).reg .rsp = userSp ↔
        sysretTarget o64 u.rip = entry ∧ kernelStack u = userSp)) := by
  refine ⟨fun c f h => ?_, fun u c h => ?_, fun u c entry userSp hrdi h => ?_⟩
  · obtain ⟨hrip, hflags, hreg⟩ := childReturn_spec o64 h
    constructor
    · intro he
      have hsp := (hreg .rsp).symm.trans (he.gpr .rsp (by decide) (by decide))
      exact ⟨hrip.symm.trans he.rip, by rw [← hflags, he.rflags], hsp⟩
    · rintro ⟨e1, e2, e3⟩
      refine ⟨hrip.trans e1, by rw [hflags, e2], fun x _ _ => ?_⟩
      rw [hreg x]
      by_cases hx : x = .rsp
      · rw [if_pos hx, e3, hx]
        rfl
      · rw [if_neg hx]
  · rw [(syscallEntry_frame u).1] at h
    obtain ⟨hrip, -, hreg⟩ := childReturn_spec o64 h
    rw [hrip, hreg, hreg]
    simp [forkFrame, InterruptFrame.gpr]
  · obtain ⟨hframe, hk, -⟩ := syscallEntry_frame u
    rw [hframe] at h
    obtain ⟨hrip, -, hreg⟩ := childReturn_spec o64 h
    have hsp : c.reg .rdi + 176 = kernelStack u := by
      rw [hrdi, hk, BitVec.sub_add_cancel]
    rw [hrip, hreg, if_pos rfl, hsp]
    rfl

/-- The state of `userCpu` after a system call, with its frame made the one
that `execve` sets up for the entry point 0x400000. -/
def execveCpu : Cpu :=
  { syscallEntered userCpu with
    mem := fun a =>
      if a = 0xFFFF80000000FFD8 then 0x400000
      else if a = 0xFFFF80000000FFF0 then 0x7FFFFFF0
      else (syscallEntered userCpu).mem a }

/-- The new program starts at the return address of the call, on the kernel
stack. -/
theorem child_return_not_exact :
    (InterruptFrame.read execveCpu.mem (execveCpu.reg .rdi)).rip = 0x400000 ∧
    (InterruptFrame.read execveCpu.mem (execveCpu.reg .rdi)).rsp = 0x7FFFFFF0 ∧
    (run execveCpu (syscallChildReturn true)).rip = 0x401000 ∧
    (run execveCpu (syscallChildReturn true)).reg .rsp = 0xFFFF800000010000 := by
  decide

end VortexOS.Arch
