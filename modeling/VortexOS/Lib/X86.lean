/-
VortexOS.Lib.X86 — the part of the x86-64 instruction set that interrupt
and system call entry code and thread switches are written in.

Memory is read and written by 64-bit words at addresses that one piece of
code keeps a multiple of eight apart, so words do not overlap. The two areas
behind the GS base are kept apart from it.

`RIP` and the selectors are set by the instructions that change the
privilege level and not kept up to date in between; neither are the
arithmetic flags. Nothing below reads them before the next `iretq` or
`sysret` loads them again.
-/
import Mathlib

namespace VortexOS.Lib.X86

open Function

abbrev Word := BitVec 64

inductive Reg where
  | rax | rbx | rcx | rdx | rsi | rdi | rbp | rsp
  | r8 | r9 | r10 | r11 | r12 | r13 | r14 | r15
  deriving DecidableEq, Repr

/-! ## RFLAGS -/

/-- The bits of RFLAGS that are not reserved (VM, which is 0 in 64-bit mode,
counts as reserved), and bit 1, which is always 1. -/
def flagBits : Word := 0x3D7FD7

/-- The bits that `sysret` loads: `flagBits` without RF. -/
def sysretBits : Word := 0x3C7FD7

@[ext]
structure Flags where
  val : Word
  ok : val &&& flagBits ||| 2 = val
  deriving DecidableEq, Repr

lemma and_or_idem (w m n : Word) (hm : m &&& n = m) (hn : (2 : Word) &&& n = 2) :
    (w &&& m ||| 2) &&& n ||| 2 = w &&& m ||| 2 := by
  have hdistrib : (w &&& m ||| 2) &&& n = w &&& m &&& n ||| (2 &&& n) := by
    ext i hi
    simp [Bool.and_or_distrib_right]
  rw [hdistrib, BitVec.and_assoc, hm, hn, BitVec.or_assoc, BitVec.or_self]

def Flags.load (w : Word) : Flags :=
  ⟨w &&& flagBits ||| 2, and_or_idem w _ _ (by decide) (by decide)⟩

def Flags.sysret (w : Word) : Flags :=
  ⟨w &&& sysretBits ||| 2, and_or_idem w _ _ (by decide) (by decide)⟩

@[simp] lemma Flags.load_val (f : Flags) : Flags.load f.val = f :=
  Flags.ext f.ok

lemma Flags.val_ne_zero (f : Flags) : f.val ≠ 0 := by
  intro h
  have hok := f.ok
  rw [h] at hok
  revert hok
  decide

/-! ## The machine -/

structure Cpu where
  reg : Reg → Word
  rip : Word
  rflags : Flags
  cs : BitVec 16
  ss : BitVec 16
  mem : Word → Word
  /-- The area behind the GS base, and the one `swapgs` exchanges it with. -/
  gs : Word → Word
  kernelGs : Word → Word
  /-- The register `IA32_STAR`. -/
  star : Word

def Cpu.set (c : Cpu) (r : Reg) (w : Word) : Cpu := { c with reg := update c.reg r w }

def Cpu.store (c : Cpu) (a w : Word) : Cpu := { c with mem := update c.mem a w }

def Cpu.pushWord (c : Cpu) (w : Word) : Cpu :=
  (c.store (c.reg .rsp - 8) w).set .rsp (c.reg .rsp - 8)

inductive Instr where
  | push (r : Reg)
  | pushImm (w : Word)
  | pop (r : Reg)
  | mov (dst src : Reg)
  | load (dst base : Reg) (disp : Word)
  | store (base : Reg) (disp : Word) (src : Reg)
  | storeImm (base : Reg) (disp w : Word)
  | loadGs (dst : Reg) (disp : Word)
  | storeGs (disp : Word) (src : Reg)
  | addImm (r : Reg) (w : Word)
  | subImm (r : Reg) (w : Word)
  | cld
  | swapgs
  /-- A near return. -/
  | ret
  | iretq
  /-- `sysret`, with or without the prefix for a 64-bit operand. Without it
  only the low half of `RCX` is loaded. -/
  | sysret (o64 : Bool)
  deriving DecidableEq, Repr

def exec (c : Cpu) : Instr → Cpu
  | .push r => c.pushWord (c.reg r)
  | .pushImm w => c.pushWord w
  | .pop r => (c.set .rsp (c.reg .rsp + 8)).set r (c.mem (c.reg .rsp))
  | .mov dst src => c.set dst (c.reg src)
  | .load dst base disp => c.set dst (c.mem (c.reg base + disp))
  | .store base disp src => c.store (c.reg base + disp) (c.reg src)
  | .storeImm base disp w => c.store (c.reg base + disp) w
  | .loadGs dst disp => c.set dst (c.gs disp)
  | .storeGs disp src => { c with gs := update c.gs disp (c.reg src) }
  | .addImm r w => c.set r (c.reg r + w)
  | .subImm r w => c.set r (c.reg r - w)
  | .cld => { c with rflags := Flags.load (c.rflags.val &&& ~~~0x400) }
  | .swapgs => { c with gs := c.kernelGs, kernelGs := c.gs }
  | .ret => { c.set .rsp (c.reg .rsp + 8) with rip := c.mem (c.reg .rsp) }
  | .iretq =>
    let sp := c.reg .rsp
    { c.set .rsp (c.mem (sp + 24)) with
      rip := c.mem sp
      cs := (c.mem (sp + 8)).setWidth 16
      rflags := Flags.load (c.mem (sp + 16))
      ss := (c.mem (sp + 32)).setWidth 16 }
  | .sysret o64 =>
    { c with
      rip := if o64 then c.reg .rcx else ((c.reg .rcx).setWidth 32).setWidth 64
      rflags := Flags.sysret (c.reg .r11)
      cs := ((c.star >>> 48).setWidth 16 + if o64 then 16 else 0) ||| 3
      ss := ((c.star >>> 48).setWidth 16 + 8) ||| 3 }

def run (c : Cpu) (code : List Instr) : Cpu := code.foldl exec c

/-- `syscall`, as far as the code behind the entry point can see. -/
def Cpu.syscall (c : Cpu) (fmask : Word) : Cpu :=
  { (c.set .rcx c.rip).set .r11 c.rflags.val with
    rflags := Flags.load (c.rflags.val &&& ~~~fmask)
    cs := (c.star >>> 32).setWidth 16
    ss := (c.star >>> 32).setWidth 16 + 8 }

/-- An interrupt or exception whose handler's stack starts at `sp`, with the
error code `err` if it has one. -/
def Cpu.deliver (c : Cpu) (sp : Word) (err : Option Word) : Cpu :=
  let c' := (((((c.set .rsp sp).pushWord (c.ss.setWidth 64)).pushWord (c.reg .rsp)).pushWord
    c.rflags.val).pushWord (c.cs.setWidth 64)).pushWord c.rip
  match err with
  | some e => c'.pushWord e
  | none => c'

@[simp] lemma run_nil (c : Cpu) : run c [] = c := rfl

@[simp] lemma run_cons (c : Cpu) (i : Instr) (p : List Instr) :
    run c (i :: p) = run (exec c i) p := rfl

lemma run_append (c : Cpu) (p q : List Instr) : run c (p ++ q) = run (run c p) q :=
  List.foldl_append

/-! ## Words in memory -/

/-- The words `ws` stand in memory from address `a` on. -/
def Stored (m : Word → Word) : Word → List Word → Prop
  | _, [] => True
  | a, w :: ws => m a = w ∧ Stored m (a + 8) ws

variable {m m' : Word → Word} {a : Word} {ws vs : List Word}

lemma Stored.congr (h : Stored m a ws)
    (hag : ∀ i < ws.length, m' (a + BitVec.ofNat 64 (8 * i)) = m (a + BitVec.ofNat 64 (8 * i))) :
    Stored m' a ws := by
  induction ws generalizing a with
  | nil => trivial
  | cons w ws ih =>
    obtain ⟨hw, hws⟩ := h
    have h0 := hag 0 (by simp)
    refine ⟨by simpa [hw] using h0, ih hws fun i hi => ?_⟩
    have hi' := hag (i + 1) (by simpa using hi)
    have ha : a + BitVec.ofNat 64 (8 * (i + 1)) = a + 8 + BitVec.ofNat 64 (8 * i) := by
      apply BitVec.eq_of_toNat_eq
      simp [BitVec.toNat_add]
      omega
    rwa [ha] at hi'

lemma stored_append :
    Stored m a (ws ++ vs) ↔ Stored m a ws ∧ Stored m (a + BitVec.ofNat 64 (8 * ws.length)) vs := by
  induction ws generalizing a with
  | nil => simp [Stored]
  | cons w ws ih =>
    have ha : a + BitVec.ofNat 64 (8 * (ws.length + 1)) =
        a + 8 + BitVec.ofNat 64 (8 * ws.length) := by
      apply BitVec.eq_of_toNat_eq
      simp [BitVec.toNat_add]
      omega
    simp [Stored, ih, and_assoc, ha]

/-! ## Rules -/

variable {c : Cpu}

@[simp] lemma set_reg (r : Reg) (w : Word) (r' : Reg) :
    (c.set r w).reg r' = if r' = r then w else c.reg r' := by
  simp [Cpu.set, update_apply]

@[simp] lemma set_mem (r : Reg) (w : Word) : (c.set r w).mem = c.mem := rfl

@[simp] lemma set_gs (r : Reg) (w : Word) : (c.set r w).gs = c.gs := rfl

@[simp] lemma pushWord_reg (w : Word) (r : Reg) :
    (c.pushWord w).reg r = if r = .rsp then c.reg .rsp - 8 else c.reg r := by
  simp [Cpu.pushWord, Cpu.store]

@[simp] lemma syscall_reg (fmask : Word) (r : Reg) : (c.syscall fmask).reg r =
      if r = .r11 then c.rflags.val else if r = .rcx then c.rip else c.reg r := by
  simp [Cpu.syscall]

/-- The words on the stack, the last pushed first. -/
def Cpu.OnStack (c : Cpu) (ws : List Word) : Prop := Stored c.mem (c.reg .rsp) ws

lemma Cpu.OnStack.set (h : c.OnStack ws) {r : Reg} (hr : r ≠ .rsp) (w : Word) :
    (c.set r w).OnStack ws := by
  unfold Cpu.OnStack at h ⊢
  simpa [Ne.symm hr] using h

lemma Stored.push (h : Stored m a ws) (hlen : ws.length < 2 ^ 60) (w : Word) :
    Stored (update m (a - 8) w) (a - 8) (w :: ws) := by
  have hback : a - 8 + 8 = a := BitVec.sub_add_cancel ..
  refine ⟨update_self _ _ _, ?_⟩
  rw [hback]
  refine h.congr fun i hi => update_of_ne ?_ _ _
  intro e
  have he := congrArg BitVec.toNat e
  simp [BitVec.toNat_add, BitVec.toNat_sub] at he
  omega

lemma Cpu.OnStack.push (h : c.OnStack ws) (hlen : ws.length < 2 ^ 60) (w : Word) :
    (c.pushWord w).OnStack (w :: ws) := by
  unfold Cpu.OnStack at h ⊢
  simp only [pushWord_reg, if_true]
  exact h.push hlen w

lemma Cpu.OnStack.pop {w : Word} (h : c.OnStack (w :: ws)) {r : Reg} (hr : r ≠ .rsp) :
    (exec c (.pop r)).OnStack ws ∧ ∀ r', (exec c (.pop r)).reg r' =
      if r' = r then w else if r' = .rsp then c.reg .rsp + 8 else c.reg r' := by
  obtain ⟨hw, hws⟩ := h
  constructor
  · unfold Cpu.OnStack
    simpa [exec, hr.symm] using hws
  · intro r'
    simp [exec, hw]

lemma run_pushes (rs : List Reg) (hr : .rsp ∉ rs) (h : c.OnStack ws)
    (hlen : ws.length + rs.length ≤ 2 ^ 60) :
    (run c (rs.map .push)).OnStack ((rs.map c.reg).reverse ++ ws) ∧
    ∀ r, (run c (rs.map .push)).reg r =
      if r = .rsp then c.reg .rsp - BitVec.ofNat 64 (8 * rs.length) else c.reg r := by
  induction rs generalizing c ws with
  | nil =>
    refine ⟨by simpa using h, fun r => ?_⟩
    by_cases hr : r = .rsp <;> simp [hr]
  | cons r0 rs ih =>
    obtain ⟨hne, hr⟩ : Reg.rsp ≠ r0 ∧ .rsp ∉ rs := by simpa using hr
    simp only [List.length_cons] at hlen
    obtain ⟨hstack, hreg⟩ := ih (c := exec c (.push r0)) hr (h.push (by omega) (c.reg r0))
      (by simp only [List.length_cons]; omega)
    have hsame : rs.map (exec c (.push r0)).reg = rs.map c.reg :=
      List.map_congr_left fun r hmem => by
        have hne : r ≠ .rsp := fun e => hr (e ▸ hmem)
        simp [exec, hne]
    rw [hsame] at hstack
    refine ⟨by simpa using hstack, fun r => ?_⟩
    rw [List.map_cons, run_cons, hreg r]
    by_cases hrsp : r = .rsp
    · simp only [hrsp, if_true, exec, pushWord_reg, List.length_cons]
      apply BitVec.eq_of_toNat_eq
      simp [BitVec.toNat_sub]
      omega
    · simp [hrsp, exec]

lemma run_pushes_mem (rs : List Reg) {a : Word}
    (ha : ∀ k < rs.length, a ≠ c.reg .rsp - BitVec.ofNat 64 (8 * (k + 1))) :
    (run c (rs.map .push)).mem a = c.mem a := by
  induction rs generalizing c with
  | nil => rfl
  | cons r rs ih =>
    have hrest : ∀ k < rs.length,
        a ≠ (exec c (.push r)).reg .rsp - BitVec.ofNat 64 (8 * (k + 1)) := by
      intro k hk heq
      refine ha (k + 1) (by simpa using hk) (heq.trans ?_)
      simp only [exec, pushWord_reg, if_true]
      apply BitVec.eq_of_toNat_eq
      simp [BitVec.toNat_sub]
      omega
    rw [List.map_cons, run_cons, ih hrest]
    refine update_of_ne (fun heq => ha 0 (by simp) ?_) _ _
    simpa using heq

lemma run_pops_mem (c : Cpu) (rs : List Reg) : (run c (rs.map .pop)).mem = c.mem := by
  induction rs generalizing c with
  | nil => rfl
  | cons r rs ih =>
    rw [List.map_cons, run_cons, ih]
    rfl

lemma run_pops {rs : List Reg} (f : Reg → Word) (hr : .rsp ∉ rs) (h : c.OnStack (rs.map f ++ ws)) :
    (run c (rs.map .pop)).OnStack ws ∧ (run c (rs.map .pop)).mem = c.mem ∧
    ∀ r, (run c (rs.map .pop)).reg r = if r ∈ rs then f r else if r = .rsp then
      c.reg .rsp + BitVec.ofNat 64 (8 * rs.length) else c.reg r := by
  induction rs generalizing c with
  | nil =>
    refine ⟨by simpa using h, rfl, fun r => ?_⟩
    by_cases hr : r = .rsp <;> simp [hr]
  | cons r0 rs ih =>
    obtain ⟨hne, hr⟩ : Reg.rsp ≠ r0 ∧ .rsp ∉ rs := by simpa using hr
    obtain ⟨hstack, hpop⟩ := Cpu.OnStack.pop h (Ne.symm hne)
    obtain ⟨hstack', hmem, hreg⟩ := ih hr hstack
    refine ⟨hstack', hmem, fun r => ?_⟩
    rw [List.map_cons, run_cons, hreg r]
    by_cases hmem : r ∈ rs
    · simp [hmem]
    · by_cases hr0 : r = r0
      · have hrsp : r ≠ .rsp := fun e => hne (e ▸ hr0)
        simp [hr0, hpop, Ne.symm hne]
      · by_cases hrsp : r = .rsp
        · subst hrsp
          simp only [hmem, if_false, hpop, hr0, if_true, List.mem_cons, or_self, List.length_cons]
          apply BitVec.eq_of_toNat_eq
          simp [BitVec.toNat_add]
          omega
        · simp [hmem, hr0, hrsp, hpop]

end VortexOS.Lib.X86
