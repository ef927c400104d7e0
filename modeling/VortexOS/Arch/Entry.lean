/-
VortexOS.Arch.Entry — the assembly at the border between user programs,
interrupts and the kernel: `isr_stubs.cpp` and `syscall_entry.asm`.

The code is transcribed instruction by instruction. A call of a C++
function splits it: the part before the call ends with the argument in
`RDI`, the part behind it starts from any state in which the callee has
kept `RSP` and, where that is assumed, the frame.

`sysret` is written without a size in the source. What the assembler makes
of it (`o64`) is a parameter of the code.
-/
import VortexOS.Lib.X86

namespace VortexOS.Arch

open Lib.X86

/-! ## `InterruptFrame` (`idt.hpp`) -/

structure InterruptFrame where
  r15 : Word
  r14 : Word
  r13 : Word
  r12 : Word
  r11 : Word
  r10 : Word
  r9 : Word
  r8 : Word
  rbp : Word
  rdi : Word
  rsi : Word
  rdx : Word
  rcx : Word
  rbx : Word
  rax : Word
  vector : Word
  errorCode : Word
  rip : Word
  cs : Word
  rflags : Word
  rsp : Word
  ss : Word
  deriving DecidableEq, Repr

namespace InterruptFrame

def words (f : InterruptFrame) : List Word :=
  [f.r15, f.r14, f.r13, f.r12, f.r11, f.r10, f.r9, f.r8, f.rbp, f.rdi, f.rsi, f.rdx, f.rcx, f.rbx,
    f.rax, f.vector, f.errorCode, f.rip, f.cs, f.rflags, f.rsp, f.ss]

def gpr (f : InterruptFrame) : Reg → Word
  | .rax => f.rax
  | .rbx => f.rbx
  | .rcx => f.rcx
  | .rdx => f.rdx
  | .rsi => f.rsi
  | .rdi => f.rdi
  | .rbp => f.rbp
  | .rsp => f.rsp
  | .r8 => f.r8
  | .r9 => f.r9
  | .r10 => f.r10
  | .r11 => f.r11
  | .r12 => f.r12
  | .r13 => f.r13
  | .r14 => f.r14
  | .r15 => f.r15

def read (m : Word → Word) (a : Word) : InterruptFrame where
  r15 := m a
  r14 := m (a + 8)
  r13 := m (a + 16)
  r12 := m (a + 24)
  r11 := m (a + 32)
  r10 := m (a + 40)
  r9 := m (a + 48)
  r8 := m (a + 56)
  rbp := m (a + 64)
  rdi := m (a + 72)
  rsi := m (a + 80)
  rdx := m (a + 88)
  rcx := m (a + 96)
  rbx := m (a + 104)
  rax := m (a + 112)
  vector := m (a + 120)
  errorCode := m (a + 128)
  rip := m (a + 136)
  cs := m (a + 144)
  rflags := m (a + 152)
  rsp := m (a + 160)
  ss := m (a + 168)

end InterruptFrame

/-! ## `isr_stubs.cpp` -/

/-- `DEFINE_ISR_STUB(n)`, up to its jump. -/
def isrStub (n : BitVec 8) : List Instr := [.pushImm (n.setWidth 64)]

/-- `isr_common_handler` up to `callq isr_dispatch`. -/
def isrCommonEntry : List Instr :=
  [.push .rax, .push .rbx, .push .rcx, .push .rdx, .push .rsi, .push .rdi, .push .rbp,
    .push .r8, .push .r9, .push .r10, .push .r11, .push .r12, .push .r13, .push .r14, .push .r15,
    .mov .rdi .rsp]

/-- `isr_common_handler` behind the call. -/
def isrCommonExit : List Instr :=
  [.pop .r15, .pop .r14, .pop .r13, .pop .r12, .pop .r11, .pop .r10, .pop .r9, .pop .r8,
    .pop .rbp, .pop .rdi, .pop .rsi, .pop .rdx, .pop .rcx, .pop .rbx, .pop .rax,
    .addImm .rsp 8, .iretq]

/-! ## `syscall_entry.asm` -/

/-- `syscall_entry` up to `call syscall_handler`. -/
def syscallEntry : List Instr :=
  [.swapgs,
    .storeGs 0x10 .rsp,
    .loadGs .rsp 0x18,
    .subImm .rsp 40,
    .storeImm .rsp 32 0x1B,
    .loadGs .rax 0x10,
    .store .rsp 24 .rax,
    .store .rsp 16 .r11,
    .store .rsp 8 .rcx,
    .storeImm .rsp 0 0x1B,
    .pushImm 0, .pushImm 0x80,
    .push .rax, .push .rbx, .push .rcx, .push .rdx, .push .rsi, .push .rdi, .push .rbp,
    .push .r8, .push .r9, .push .r10, .push .r11, .push .r12, .push .r13, .push .r14, .push .r15,
    .mov .rdi .rsp,
    .cld]

/-- `syscall_entry` behind the call. -/
def syscallExit (o64 : Bool) : List Instr :=
  [.pop .r15, .pop .r14, .pop .r13, .pop .r12, .pop .r11, .pop .r10, .pop .r9, .pop .r8,
    .pop .rbp, .pop .rdi, .pop .rsi, .pop .rdx, .pop .rcx, .pop .rbx, .pop .rax,
    .addImm .rsp 16, .addImm .rsp 40, .swapgs, .sysret o64]

def syscallChildReturn (o64 : Bool) : List Instr :=
  [.mov .rsp .rdi,
    .pop .r15, .pop .r14, .pop .r13, .pop .r12, .pop .r11, .pop .r10, .pop .r9, .pop .r8,
    .pop .rbp, .pop .rdi, .pop .rsi, .pop .rdx, .pop .rcx, .pop .rbx, .pop .rax,
    .addImm .rsp 16, .addImm .rsp 40, .swapgs, .sysret o64]

def fmask : Word := 0x200

/-! ## The C++ side -/

/-- `child->fork_frame = *frame; child->fork_frame.rax = 0;` in `sys_fork`. -/
def forkFrame (f : InterruptFrame) : InterruptFrame := { f with rax := 0 }

/-- The return frame that `sys_execve_impl` sets up. -/
def execveFrame (f : InterruptFrame) (entry userSp : Word) : InterruptFrame :=
  { f with rip := entry, rsp := userSp, rax := 0, cs := 0x1B, ss := 0x1B, rflags := 0x202 }

/-! ## Frames on the stack -/

def popOrder : List Reg :=
  [.r15, .r14, .r13, .r12, .r11, .r10, .r9, .r8, .rbp, .rdi, .rsi, .rdx, .rcx, .rbx, .rax]

lemma mem_popOrder (r : Reg) : r ∈ popOrder ↔ r ≠ .rsp := by
  cases r <;> decide

lemma InterruptFrame.stored_iff {m : Word → Word} {a : Word} {f : InterruptFrame} :
    Stored m a f.words ↔ InterruptFrame.read m a = f := by
  cases f
  simp [InterruptFrame.words, InterruptFrame.read, Stored, BitVec.add_assoc]

lemma InterruptFrame.read_of_stored {m : Word → Word} {a : Word} {f : InterruptFrame}
    (ws : List Word) (h : Stored m a (f.words ++ ws)) : InterruptFrame.read m a = f :=
  InterruptFrame.stored_iff.mp (stored_append.mp h).1

end VortexOS.Arch
