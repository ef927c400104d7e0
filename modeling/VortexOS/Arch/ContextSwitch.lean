/-
VortexOS.Arch.ContextSwitch — `context_switch.S`, and threads that call it.

`context_switch` pushes the registers a caller may rely on, and stores
nothing but `RSP` in the thread's `CpuContext`. So what a suspended thread
will go on with stands on its own stack, and it is the separation of the
stacks that keeps it there.

`save_spec` says which words it leaves behind and `restore_spec` which
registers it loads. The invariant of a system of threads is that the words
of every suspended thread are still in place (`Suspended`).
-/
import VortexOS.Lib.Run
import VortexOS.Lib.X86

namespace VortexOS.Arch

open Function Lib Lib.X86

/-! ## The code -/

/-- `context_switch(old_ctx, new_ctx)`. -/
def contextSwitch : List Instr :=
  [.push .rbx, .push .rbp, .push .r12, .push .r13, .push .r14, .push .r15,
    .store .rdi 48 .rsp,
    .load .rsp .rsi 48,
    .pop .r15, .pop .r14, .pop .r13, .pop .r12, .pop .rbp, .pop .rbx,
    .ret]

/-- The registers that are saved, in the order in which they stand in
memory. -/
def savedRegs : List Reg := [.r15, .r14, .r13, .r12, .rbp, .rbx]

/-- `context_switch` up to the load of the new stack pointer. -/
def saveHalf (c : Cpu) : Cpu :=
  exec (Lib.X86.run c (savedRegs.reverse.map .push)) (.store .rdi 48 .rsp)

def restoreHalf (c : Cpu) : Cpu :=
  exec (Lib.X86.run (exec c (.load .rsp .rsi 48)) (savedRegs.map .pop)) .ret

lemma run_contextSwitch (c : Cpu) : Lib.X86.run c contextSwitch = restoreHalf (saveHalf c) := by
  have hcode : contextSwitch =
    savedRegs.reverse.map .push ++ .store .rdi 48 .rsp :: .load .rsp .rsi 48 ::
      (savedRegs.map .pop ++ [.ret]) := rfl
  rw [hcode, X86.run_append, X86.run_cons, X86.run_cons, X86.run_append, X86.run_cons, X86.run_nil]
  rfl

def below (sp : Word) (k : Nat) : Word := sp - BitVec.ofNat 64 (8 * (k + 1))

lemma sub_add_eq_below (sp : Word) {i : Nat} (hi : i < 6) :
    sp - 48 + BitVec.ofNat 64 (8 * i) = below sp (5 - i) := by
  apply BitVec.eq_of_toNat_eq
  simp [below, BitVec.toNat_add, BitVec.toNat_sub]
  omega

lemma below_bounds {sp a : Word} {n : Nat} (hn : 8 * n ≤ sp.toNat) (ha : ∃ k < n, a = below sp k) :
    sp.toNat - 8 * n ≤ a.toNat ∧ a.toNat < sp.toNat := by
  obtain ⟨k, hk, rfl⟩ := ha
  rw [below, BitVec.toNat_sub, BitVec.toNat_ofNat]
  omega

variable {c : Cpu}

lemma saveHalf_frame {a : Word} (hctx : a ≠ c.reg .rdi + 48)
    (ha : ∀ k < 6, a ≠ below (c.reg .rsp) k) : (saveHalf c).mem a = c.mem a := by
  have h0 : c.OnStack [] := trivial
  obtain ⟨-, hreg⟩ := run_pushes savedRegs.reverse (by decide) h0 (by decide)
  have hmem := run_pushes_mem savedRegs.reverse ha
  rw [saveHalf, exec, ← hmem]
  refine update_of_ne ?_ _ _
  rw [hreg]
  exact hctx

lemma saveHalf_rsi (c : Cpu) : (saveHalf c).reg .rsi = c.reg .rsi := by
  have h0 : c.OnStack [] := trivial
  obtain ⟨-, hreg⟩ := run_pushes savedRegs.reverse (by decide) h0 (by decide)
  rw [saveHalf, exec, Cpu.store, hreg, if_neg (by decide)]

/-- What it leaves in memory: the caller's registers in front of the return
address, and the address of these words in the old context. -/
lemma save_spec (hctx : ∀ k < 6, c.reg .rdi + 48 ≠ below (c.reg .rsp) k)
    (hret : c.reg .rdi + 48 ≠ c.reg .rsp) :
    Stored (saveHalf c).mem (c.reg .rsp - 48) (savedRegs.map c.reg ++ [c.mem (c.reg .rsp)]) ∧
    (saveHalf c).mem (c.reg .rdi + 48) = c.reg .rsp - 48 := by
  have h0 : c.OnStack [c.mem (c.reg .rsp)] := by simp [Cpu.OnStack, Stored]
  obtain ⟨hstack, hreg⟩ := run_pushes savedRegs.reverse (by decide) h0 (by simp [savedRegs])
  have hrsp : (Lib.X86.run c (savedRegs.reverse.map .push)).reg .rsp = c.reg .rsp - 48 := hreg .rsp
  have hrdi : (Lib.X86.run c (savedRegs.reverse.map .push)).reg .rdi = c.reg .rdi := hreg .rdi
  unfold saveHalf
  generalize Lib.X86.run c (savedRegs.reverse.map .push) = d at *
  rw [exec, hrdi, hrsp]
  refine ⟨?_, by simp [Cpu.store]⟩
  rw [Cpu.OnStack, hrsp] at hstack
  -- the saved stack pointer goes to none of these words
  refine Stored.congr (by simpa using hstack) fun i hi => update_of_ne ?_ _ _
  have hi' : i < 7 := by simpa [savedRegs] using hi
  by_cases h6 : i < 6
  · rw [sub_add_eq_below _ h6]
    exact (hctx (5 - i) (by omega)).symm
  · have hlast : i = 6 := by omega
    subst hlast
    rw [show c.reg .rsp - 48 + BitVec.ofNat 64 (8 * 6) = c.reg .rsp from BitVec.sub_add_cancel _ 48]
    exact hret.symm

lemma restoreHalf_mem (c : Cpu) : (restoreHalf c).mem = c.mem := by
  have hpops := run_pops_mem (exec c (.load .rsp .rsi 48)) savedRegs
  unfold restoreHalf
  generalize Lib.X86.run (exec c (.load .rsp .rsi 48)) (savedRegs.map .pop) = d at hpops ⊢
  exact hpops

lemma restore_spec {f : Reg → Word} {sp ret : Word} (hsp : c.mem (c.reg .rsi + 48) = sp)
    (hwords : Stored c.mem sp (savedRegs.map f ++ [ret])) :
    (∀ r ∈ savedRegs, (restoreHalf c).reg r = f r) ∧ (restoreHalf c).reg .rsp = sp + 56 ∧
    (restoreHalf c).rip = ret := by
  subst hsp
  have hstack : (exec c (.load .rsp .rsi 48)).OnStack (savedRegs.map f ++ [ret]) := by
    simpa [Cpu.OnStack, exec] using hwords
  have hload : (exec c (.load .rsp .rsi 48)).reg .rsp = c.mem (c.reg .rsi + 48) := by simp [exec]
  obtain ⟨hret, -, hreg⟩ := run_pops f (by decide) hstack
  unfold restoreHalf
  generalize Lib.X86.run (exec c (.load .rsp .rsi 48)) (savedRegs.map .pop) = d at *
  have hrsp : d.reg .rsp = c.mem (c.reg .rsi + 48) + 48 := by
    rw [hreg, hload]
    rfl
  refine ⟨fun r hr => ?_, ?_, hret.1⟩
  · have hne : r ≠ .rsp := fun heq => absurd (heq ▸ hr) (by decide)
    simp [exec, hne, hreg, hr]
  · simp [exec, hrsp, BitVec.add_assoc]

/-! ## Threads -/

def record (ctx : Word) : Set Word := {a | ∃ k < 7, a = ctx + BitVec.ofNat 64 (8 * k)}

lemma record_bounds {ctx a : Word} (hctx : ctx.toNat + 48 < 2 ^ 64) (ha : a ∈ record ctx) :
    ctx.toNat ≤ a.toNat ∧ a.toNat ≤ ctx.toNat + 48 := by
  obtain ⟨k, hk, rfl⟩ := ha
  rw [BitVec.toNat_add, BitVec.toNat_ofNat]
  omega

lemma rsp_mem_record (ctx : Word) : ctx + 48 ∈ record ctx := ⟨6, by decide, rfl⟩

/-- Where the threads' stacks and contexts are. -/
structure Layout (ι : Type) where
  stack : ι → Set Word
  context : ι → Word
  stackApart : ∀ i j, i ≠ j → Disjoint (stack i) (stack j)
  contextApart : ∀ i j, i ≠ j → Disjoint (record (context i)) (record (context j))
  apart : ∀ i j, Disjoint (stack i) (record (context j))

/-- A call of `context_switch`: the caller's registers, and where it is to
return to. -/
structure Call where
  reg : Reg → Word
  ret : Word

/-- The call has returned: the caller goes on behind it with its stack and
the registers it may rely on. -/
structure Call.Returned (call : Call) (c : Cpu) : Prop where
  reg : ∀ r ∈ savedRegs, c.reg r = call.reg r
  rsp : c.reg .rsp = call.reg .rsp
  rip : c.rip = call.ret

structure Threads (ι : Type) where
  cpu : Cpu
  current : ι
  /-- The calls that have not returned. -/
  pending : ι → Option Call

inductive ThreadEvent (ι : Type) where
  /-- The running thread computes; the machine is then in state `c`. -/
  | work (c : Cpu)
  /-- The running thread calls `context_switch(&context, &next->context)`
  with the return address `ret`. -/
  | switch (next : ι) (ret : Word)

section

variable {ι : Type} (L : Layout ι)

/-- The machine when `context_switch` starts: its arguments are in `RDI` and
`RSI`, the return address is on the stack. -/
def callSwitch (i next : ι) (ret : Word) (c : Cpu) : Cpu :=
  ((c.set .rdi (L.context i)).set .rsi (L.context next)).pushWord ret

def afterSwitch (i next : ι) (ret : Word) (c : Cpu) : Cpu :=
  Lib.X86.run (callSwitch L i next ret c) contextSwitch

/-- A thread writes to its own stack only, also when it calls. -/
def ThreadsLegal (s : Threads ι) : ThreadEvent ι → Prop
  | .work c => ∀ a ∉ L.stack s.current, c.mem a = s.cpu.mem a
  | .switch _ _ => ∀ k < 7, below (s.cpu.reg .rsp) k ∈ L.stack s.current

/-- The calls that have not returned when the running thread makes one. -/
def Threads.calling [DecidableEq ι] (s : Threads ι) (ret : Word) : ι → Option Call :=
  update s.pending s.current (some ⟨s.cpu.reg, ret⟩)

def threadsStep [DecidableEq ι] (s : Threads ι) : ThreadEvent ι → Option (Threads ι)
  | .work c => some { s with cpu := c }
  | .switch next ret => some
      { cpu := afterSwitch L s.current next ret s.cpu
        current := next
        pending := update (s.calling ret) next none }

/-! ## What a suspended thread left -/

/-- The words that `call` left stand on the stack of thread `i`, and the
context of the thread points to them. -/
structure Suspended (m : Word → Word) (i : ι) (call : Call) : Prop where
  room : ∀ k < 7, below (call.reg .rsp) k ∈ L.stack i
  words : Stored m (call.reg .rsp - 56) (savedRegs.map call.reg ++ [call.ret])
  context : m (L.context i + 48) = call.reg .rsp - 56

/-- The running thread is in no call, and what every other one left is in
place. -/
structure ThreadsInv (s : Threads ι) : Prop where
  running : s.pending s.current = none
  suspended : ∀ i call, s.pending i = some call → Suspended L s.cpu.mem i call

variable {L} {i j : ι} {call : Call} {m m' : Word → Word}

lemma below_sub (sp : Word) (k : Nat) : below (sp - 8) k = below sp (k + 1) := by
  apply BitVec.eq_of_toNat_eq
  simp [below, BitVec.toNat_sub]
  omega

lemma add_eq_below (sp : Word) {i : Nat} (hi : i < 7) :
    sp - 56 + BitVec.ofNat 64 (8 * i) = below sp (6 - i) := by
  apply BitVec.eq_of_toNat_eq
  simp [below, BitVec.toNat_add, BitVec.toNat_sub]
  omega

lemma Layout.not_mem_stack (L : Layout ι) (i j : ι) : L.context j + 48 ∉ L.stack i := fun h =>
  Set.disjoint_left.mp (L.apart i j) h (rsp_mem_record _)

lemma Suspended.congr (h : Suspended L m i call) (hstack : ∀ a ∈ L.stack i, m' a = m a)
    (hctx : m' (L.context i + 48) = m (L.context i + 48)) : Suspended L m' i call := by
  refine ⟨h.room, h.words.congr fun k hk => hstack _ ?_, hctx.trans h.context⟩
  have hk' : k < 7 := by simpa [savedRegs] using hk
  rw [add_eq_below _ hk']
  exact h.room _ (by omega)

lemma Suspended.of_other (h : Suspended L m j call) (hne : j ≠ i)
    (hmem : ∀ a ∉ L.stack i, a ≠ L.context i + 48 → m' a = m a) : Suspended L m' j call := by
  refine h.congr (fun a ha => hmem a (Set.disjoint_left.mp (L.stackApart j i hne) ha) ?_)
    (hmem _ (L.not_mem_stack i j) ?_)
  · rintro rfl
    exact L.not_mem_stack j i ha
  · intro heq
    exact Set.disjoint_left.mp (L.contextApart j i hne) (rsp_mem_record _) (heq ▸ rsp_mem_record _)

lemma callSwitch_spec {c : Cpu} (next : ι) (ret : Word)
    (hroom : ∀ k < 7, below (c.reg .rsp) k ∈ L.stack i) :
    Suspended L (saveHalf (callSwitch L i next ret c)).mem i ⟨c.reg, ret⟩ ∧ (∀ a ∉ L.stack i,
      a ≠ L.context i + 48 → (saveHalf (callSwitch L i next ret c)).mem a = c.mem a) ∧
    (saveHalf (callSwitch L i next ret c)).reg .rsi = L.context next := by
  have hrsp : (callSwitch L i next ret c).reg .rsp = c.reg .rsp - 8 := by simp [callSwitch]
  have hrdi : (callSwitch L i next ret c).reg .rdi = L.context i := by simp [callSwitch]
  have hrsi : (callSwitch L i next ret c).reg .rsi = L.context next := by simp [callSwitch]
  have hret : (callSwitch L i next ret c).mem (c.reg .rsp - 8) = ret := by
    simp [callSwitch, Cpu.pushWord, Cpu.store]
  have hregs : savedRegs.map (callSwitch L i next ret c).reg = savedRegs.map c.reg := by
    simp [savedRegs, callSwitch]
  have hfirst : below (c.reg .rsp) 0 = c.reg .rsp - 8 := rfl
  have hmem : ∀ a ∉ L.stack i, (callSwitch L i next ret c).mem a = c.mem a := by
    intro a ha
    have hne : a ≠ c.reg .rsp - 8 := fun heq => ha (heq ▸ hfirst ▸ hroom 0 (by decide))
    simp only [callSwitch, Cpu.pushWord, Cpu.store, set_mem, set_reg]
    exact update_of_ne hne _ _
  -- the context is on no stack, so that the stored stack pointer hits no pushed word
  have hne : ∀ a ∈ L.stack i, L.context i + 48 ≠ a := fun a ha heq =>
    L.not_mem_stack i i (heq ▸ ha)
  have hsave := save_spec (c := callSwitch L i next ret c)
  rw [hrdi, hrsp, hret, hregs] at hsave
  simp only [below_sub] at hsave
  obtain ⟨hwords, hctx⟩ := hsave (fun k hk => hne _ (hroom (k + 1) (by omega)))
    (hne _ (hfirst ▸ hroom 0 (by decide)))
  have hsp : c.reg .rsp - 8 - 48 = c.reg .rsp - 56 := BitVec.sub_sub _ _ _
  rw [hsp] at hwords hctx
  refine ⟨⟨hroom, hwords, hctx⟩, fun a ha hactx => ?_, (saveHalf_rsi _).trans hrsi⟩
  rw [saveHalf_frame (hrdi ▸ hactx), hmem a ha]
  intro k hk heq
  rw [hrsp, below_sub] at heq
  exact ha (heq ▸ hroom (k + 1) (by omega))

variable [DecidableEq ι] {s : Threads ι}

lemma ThreadsInv.calling (h : ThreadsInv L s) {next : ι} {ret : Word}
    (hl : ThreadsLegal L s (.switch next ret)) (hcall : s.calling ret j = some call) :
    Suspended L (saveHalf (callSwitch L s.current next ret s.cpu)).mem j call := by
  obtain ⟨hself, hother, -⟩ := callSwitch_spec next ret hl
  by_cases hj : j = s.current
  · subst hj
    rw [Threads.calling, update_self] at hcall
    exact Option.some.inj hcall ▸ hself
  · rw [Threads.calling, update_of_ne hj] at hcall
    exact (h.suspended j call hcall).of_other hj hother

lemma ThreadsInv.returned (h : ThreadsInv L s) {next : ι} {ret : Word}
    (hl : ThreadsLegal L s (.switch next ret)) (hcall : s.calling ret next = some call) :
    call.Returned (afterSwitch L s.current next ret s.cpu) := by
  have hs := h.calling hl hcall
  obtain ⟨-, -, hrsi⟩ := callSwitch_spec next ret hl
  obtain ⟨hreg, hrsp, hrip⟩ := restore_spec (hrsi ▸ hs.context) hs.words
  refine ⟨hreg, hrsp.trans ?_, hrip⟩
  exact BitVec.sub_add_cancel _ _

lemma ThreadsInv.step (h : ThreadsInv L s) {e : ThreadEvent ι} (hl : ThreadsLegal L s e) :
    ∃ s', threadsStep L s e = some s' ∧ ThreadsInv L s' := by
  cases e with
  | work c =>
    refine ⟨_, rfl, h.running, fun j call hcall => ?_⟩
    have hj : j ≠ s.current := by
      rintro rfl
      rw [h.running] at hcall
      cases hcall
    exact (h.suspended j call hcall).of_other hj fun a ha _ => hl a ha
  | switch next ret =>
    refine ⟨_, rfl, update_self _ _ _, fun j call hcall => ?_⟩
    have hj : j ≠ next := by
      rintro rfl
      simp at hcall
    simp only [update_of_ne hj] at hcall
    rw [afterSwitch, run_contextSwitch, restoreHalf_mem]
    exact h.calling hl hcall

end

/-! ## Runs -/

/-- Threads with stacks and contexts of their own, each of which writes to
its own stack only. A call of `context_switch` that returns leaves its
caller's registers, stack pointer and return address as they were when it
was made, whatever has run in between. -/
theorem context_switch_transparent {ι : Type} [DecidableEq ι] (L : Layout ι) (s0 : Threads ι)
    (hstart : ∀ i, s0.pending i = none) (events : List (ThreadEvent ι))
    (hlegal : Along (threadsStep L) (ThreadsLegal L) s0 events) :
    ∃ s, Lib.run (threadsStep L) s0 events = some s ∧
      ∀ next ret call, ThreadsLegal L s (.switch next ret) → s.calling ret next = some call →
        call.Returned (afterSwitch L s.current next ret s.cpu) := by
  have hinit : ThreadsInv L s0 := by
    refine ⟨hstart _, fun i call hcall => ?_⟩
    rw [hstart i] at hcall
    cases hcall
  obtain ⟨s, hrun, hinv⟩ := run_invariant (ThreadsInv L) (fun s e h hl => h.step hl) hinit hlegal
  exact ⟨s, hrun, fun next ret call hl hcall => hinv.returned hl hcall⟩

def pairLayout : Layout Bool where
  stack i := {a | ∃ k < 16, a = below (if i then 0x2000 else 0x1000) k}
  context i := if i then 0x4000 else 0x3000
  stackApart i j hij := Set.disjoint_left.mpr fun a hi hj => by
    have hi := below_bounds (by cases i <;> decide) hi
    have hj := below_bounds (by cases j <;> decide) hj
    cases i <;> cases j <;> simp at hij hi hj <;> omega
  contextApart i j hij := Set.disjoint_left.mpr fun a hi hj => by
    have hi := record_bounds (by cases i <;> decide) hi
    have hj := record_bounds (by cases j <;> decide) hj
    cases i <;> cases j <;> simp at hij hi hj <;> omega
  apart i j := Set.disjoint_left.mpr fun a hi hj => by
    have hi := below_bounds (by cases i <;> decide) hi
    have hj := record_bounds (by cases j <;> decide) hj
    cases i <;> cases j <;> simp at hi hj <;> omega

/-- The first thread runs at the top of its stack; the second one's context
points to seven words at the top of its own. -/
def pairStart : Threads Bool where
  cpu :=
    { reg := fun r => if r = .rsp then 0x1000 else 5
      rip := 0, rflags := ⟨2, by decide⟩, cs := 8, ss := 16
      mem := fun a => if a = 0x4030 then 0x1FC8 else 0
      gs := fun _ => 0, kernelGs := fun _ => 0, star := 0 }
  current := false
  pending _ := none

/-- The first thread switches to the second one. -/
theorem context_switch_transparent_pair :
    ∃ s, Lib.run (threadsStep pairLayout) pairStart [.switch true 0x99] = some s ∧
      ∀ next ret call, ThreadsLegal pairLayout s (.switch next ret) →
      s.calling ret next = some call →
        call.Returned (afterSwitch pairLayout s.current next ret s.cpu) :=
  context_switch_transparent pairLayout pairStart (fun _ => rfl) _
    ⟨fun k hk => ⟨k, by omega, rfl⟩, fun _ _ => trivial⟩

end VortexOS.Arch
