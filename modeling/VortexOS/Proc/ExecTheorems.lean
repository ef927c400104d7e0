/-
VortexOS.Proc.ExecTheorems — what `execve` does to the process.

`sys_execve_impl` creates an address space, switches CR3 to it, and calls
the loader, which maps the file into the address space that
`proc->addr_space` names. That is still the old one. The new one has no page
yet.

A call that gives up before it switches CR3 leaves the process as it was;
one that gives up later leaves CR3 at the new address space
(`execFile_returned`). `syscall_handler` returns 0 in both cases.
-/
import VortexOS.Proc.ProcessTheorems
import VortexOS.Proc.UserStack

namespace VortexOS.Proc

open Lib Mm Sched Arch

/-! ## The file -/

def execNode (upper : Upper) (vfs : Vfs) (frame : InterruptFrame) (k : Kernel) : Option FileNode :=
  if frame.rdi.toNat = 0 then none else (k.peekString upper frame.rdi.toNat 255).bind vfs

lemma sysExecveImpl_eq {upper : Upper} {vfs : Vfs} {frame : InterruptFrame} {k : Kernel}
    {proc : Nat} {e : ExecEnd} (hproc : procCurrent k = some proc)
    (hcall : sysExecveImpl upper vfs frame k = some e) :
    execFile upper frame proc (execNode upper vfs frame k) k = some e := by
  unfold sysExecveImpl at hcall
  simp only [hproc] at hcall
  unfold execNode
  split at hcall
  · cases hcall
  · split at hcall
    · rename_i hnull
      rw [if_pos hnull]
      exact hcall
    · rename_i hnull
      rw [if_neg hnull]
      split at hcall
      · cases hcall
      · rename_i path hpath
        rw [hpath]
        exact hcall

/-- The call finds a file, reads it, and has the memory for it and for an
address space: it switches CR3. -/
def reachesSwitch (node : Option FileNode) (k : Kernel) : Bool :=
  match node with
  | none => false
  | some node =>
    node.isFile && node.size != 0 && decide (node.size ≤ 1024 * 1024) &&
      node.bytesRead == node.size &&
      match kmalloc node.size k.kmem with
      | none => false
      | some (elfData, s) =>
        elfData != 0 && match vmmCreateAddressSpace k.cr3 s with
          | none => false
          | some (newAs, _) => newAs != 0

/-- Memory has changed to `s'`, but nothing that was in use or in a
client's hands. -/
def Untouched (S : Set Nat) (k : Kernel) (a : AHeap) (held : Set Block) (s' : Kmem) : Prop :=
  ∃ a' fl' held' W D, KernelInv S s' a' fl' held' ∧ Frame W D k.kmem a held s' a' held' ∧
    (∀ b ∈ held, b.base ∉ W) ∧ ∀ p ∈ D, ∀ f, ¬ a.Handed f p

/-- The state in which CR3 is switched. The new address space has no pages,
and neither it nor the block with the file were in use. -/
structure Switched (S : Set Nat) (k : Kernel) (a : AHeap) (held : Set Block)
    (elfData newAs root : Nat) (s : Kmem) (a' : AHeap) (fl' : Nat → List Nat) (held' : Set Block) :
    Prop where
  space : VmInv S s a' fl' held' newAs root
  empty : ∀ i < 256, entryAt s.mem root i = 0
  frame : Frame ∅ ∅ k.kmem a held s a' held'
  fresh : (⟨0, root⟩ : Block) ∉ held
  owns : a'.Owns held' elfData
  apart : elfData ≠ newAs ∧ elfData ≠ pagePtr a.hhdm root
  page : ∀ b ∈ held, elfData ≠ pagePtr a.hhdm b.base

section

variable {upper : Upper} {frame : InterruptFrame} {S : Set Nat} {k k' : Kernel} {a a1 : AHeap}
  {fl fl1 : Nat → List Nat} {held held1 : Set Block} {l : List Nat} {proc elfData : Nat} {s1 : Kmem}

lemma Untouched.of_frame (h1 : KernelInv S s1 a1 fl1 held1)
    (hf : Frame ∅ ∅ k.kmem a held s1 a1 held1) : Untouched S k a held s1 :=
  ⟨a1, fl1, held1, ∅, ∅, h1, hf, by simp, by simp⟩

lemma Untouched.giveBack (h1 : KernelInv S s1 a1 fl1 held1)
    (hf : Frame ∅ ∅ k.kmem a held s1 a1 held1) (hown : a1.Owns held1 elfData)
    (hobj : ∀ f, ¬ a.Handed f elfData) (hpage : ∀ b ∈ held, elfData ≠ pagePtr a.hhdm b.base) :
    Untouched S k a held (kfree elfData s1) := by
  obtain ⟨a', fl', held', h', hf', -⟩ := h1.kfree hown
  refine ⟨a', fl', held', _, _, h', hf.trans hf', fun b hb hin => ?_, fun p hp => ?_⟩
  · rw [Set.empty_union, Set.mem_ofPred_eq, hf.hhdm] at hin
    exact hpage b hb hin
  · rw [Set.empty_union, Set.mem_singleton_iff] at hp
    rw [hp]
    exact hobj

lemma NewSpace.apart {newAs root : Nat} {s2 : Kmem} {a2 : AHeap} {fl2 : Nat → List Nat}
    {held2 : Set Block} (h1 : KernelInv S s1 a1 fl1 held1)
    (hnew : NewSpace S s1 a1 held1 newAs root s2 a2 fl2 held2) (hfresh : ∀ f, ¬ a1.Handed f newAs)
    (hown : a1.Owns held1 elfData) : elfData ≠ newAs ∧ elfData ≠ pagePtr a1.hhdm root := by
  obtain ⟨g, hobj⟩ := hnew.inv.object
  cases hown with
  | inl hown =>
    obtain ⟨f, hf⟩ := hown
    exact ⟨fun heq => hfresh f (heq ▸ hf), h1.inv.object_ne_page hf⟩
  | inr hown =>
    obtain ⟨b, hb, -, rfl⟩ := hown
    refine ⟨fun heq => ?_, fun heq => ?_⟩
    · have hpage : newAs ≠ pagePtr a2.hhdm b.base := hnew.inv.inv.object_ne_page hobj
      rw [hnew.hhdm] at hpage
      exact hpage heq.symm
    · -- the table was not in use, the block was
      have hroot := (hnew.inv.owned root ⟨[], tablePaths_nil, rfl⟩).1
      have hb2 : b ∈ held2 := hnew.frame.kept b hb (by simp)
      have heq' := hnew.inv.inv.pmmInv.held_eq hb2 hroot (pagePtr_inj.mp heq)
      exact hnew.fresh (heq' ▸ hb)

/-- Up to the switch: the call returns and nothing of the process has
changed, or it goes on with a new address space. -/
lemma execFile_cases (upper : Upper) (frame : InterruptFrame) (proc : Nat)
    (h : ProcInv S k a fl held l) (node : Option FileNode) :
    (reachesSwitch node k = false ∧ ∃ s', Untouched S k a held s' ∧
      execFile upper frame proc node k = some (.returned (k.setKmem s'))) ∨
    (reachesSwitch node k = true ∧ ∃ file elfData newAs root s a' fl' held',
      node = some file ∧ Switched S k a held elfData newAs root s a' fl' held' ∧
      (findCache file.size ≠ none → (∃ f, a'.Handed f elfData) ∧
        k.kmem.pmm.kFreePages ≤ s.pmm.kFreePages + 3) ∧ execFile upper frame proc node k =
        match elfLoad file.image (k.procs proc).addrSpace s with
          | none => none
          | some (entry, s') =>
            let k := (vmmSwitchAddressSpace newAs (k.setKmem s)).setKmem (kfree elfData s')
          if entry = 0 then some (.returned k)
          else enterProgram upper frame proc newAs entry k) := by
  have hsame : Untouched S k a held k.kmem := .of_frame h.toKernelInv (.refl _ _ _ _ _)
  cases node with
  | none => exact Or.inl ⟨rfl, k.kmem, hsame, rfl⟩
  | some file =>
    unfold execFile reachesSwitch
    dsimp only
    by_cases hfile : file.isFile = false
    · exact Or.inl ⟨by simp [hfile], k.kmem, hsame, by rw [if_pos hfile]; rfl⟩
    by_cases hsize : file.size = 0 ∨ file.size > 1024 * 1024
    · refine Or.inl ⟨?_, k.kmem, hsame, by rw [if_neg hfile, if_pos hsize]; rfl⟩
      cases hsize with
      | inl h0 => simp [h0]
      | inr hbig => simp [Nat.not_le.mpr hbig]
    rw [if_neg hfile, if_neg hsize]
    obtain ⟨elfData, s1, a1, fl1, held1, hmalloc, -, hk1, hf1, hown⟩ :=
      h.toKernelInv.kmalloc file.size
    simp only [hmalloc]
    by_cases hnull : elfData = 0
    · exact Or.inl ⟨by simp [hnull], s1, .of_frame hk1 hf1, by rw [if_pos hnull]⟩
    obtain ⟨hown, hobj, hpage, hsmall⟩ := hown hnull
    rw [if_neg hnull]
    by_cases hread : file.bytesRead ≠ file.size
    · refine Or.inl ⟨by simp [hread], kfree elfData s1, .giveBack hk1 hf1 hown hobj hpage, ?_⟩
      rw [if_pos hread]
      rfl
    rw [if_neg hread]
    -- the address space
    obtain ⟨newAs, s2, a2, fl2, held2, hcreate, -, hk2, hf2, hres⟩ := hk1.create k.cr3
    have hf : Frame ∅ ∅ k.kmem a held s2 a2 held2 := (hf1.trans hf2).mono (by simp) (by simp)
    have hown2 : a2.Owns held2 elfData := hf2.owns hk2 hown (by simp) (by simp)
    have hcreate' : vmmCreateAddressSpace (k.setKmem s1).cr3 (k.setKmem s1).kmem =
        some (newAs, s2) := hcreate
    unfold replaceProgram
    simp only [hcreate, hcreate']
    by_cases hnew : newAs = 0
    · refine Or.inl ⟨by simp [hnew], kfree elfData s2, .giveBack hk2 hf hown2 hobj hpage, ?_⟩
      rw [if_pos hnew]
      rfl
    · obtain ⟨hfreshAs, root, hspace⟩ := hres.resolve_left hnew
      refine Or.inr ⟨?_, file, elfData, newAs, root, s2, a2, fl2, held2, rfl, ?_,
        fun hcache => ?_, ?_⟩
      · rw [not_or, Nat.not_lt] at hsize
        simp [Bool.eq_true_of_not_eq_false hfile, hsize, not_not.mp hread, hnull, hnew]
      · refine ⟨hspace.inv, hspace.empty, hf, fun hin => ?_, hown2, ?_, hpage⟩
        · exact hspace.fresh (hf1.kept _ hin (by simp))
        · rw [← hf1.hhdm]
          exact NewSpace.apart hk1 hspace hfreshAs hown
      · obtain ⟨f, hobj1⟩ := hsmall hcache
        obtain ⟨i, hi⟩ := Option.ne_none_iff_exists'.mp hcache
        have hcount1 := (h.toKernelInv.kmalloc_count hi (not_or.mp hsize).1 hmalloc).2.1
        have hcount2 := (hk1.create_count hcreate).2.2.1
        rw [if_neg hnull] at hcount1
        rw [if_neg hnew] at hcount2
        have hone1 := k.kmem.slabsNeeded_le_one i
        have hone2 := s1.slabsNeeded_le_one 1
        exact ⟨⟨f, (hf2.handed f elfData hobj1 (by simp)).1⟩, by omega⟩
      · rw [if_neg hnew]
        rfl

/-- The process has the address space, the pages and the CR3 it had. -/
structure SameCaller (k k' : Kernel) (proc : Nat) : Prop where
  space : (k'.procs proc).addrSpace = (k.procs proc).addrSpace
  pages : ∀ virt < 2 ^ 47, k'.kmem.translate (k'.procs proc).addrSpace virt =
    k.kmem.translate (k.procs proc).addrSpace virt
  cr3 : k'.cr3 = k.cr3

lemma Untouched.sameCaller (h : ProcInv S k a fl held l) (hp : proc ∈ l) {s' : Kmem}
    (hs : Untouched S k a held s') : SameCaller k (k.setKmem s') proc := by
  obtain ⟨a', fl', held', W, D, h', hf, hW, hD⟩ := hs
  obtain ⟨root, hspace⟩ := h.space proc hp
  obtain ⟨f, hobj⟩ := hspace.object
  obtain ⟨hspace', hsame⟩ := hspace.frame hf (fun hin => hD _ hin f hobj) fun t ht =>
    hW _ (hspace.owned t ht).1
  exact ⟨rfl, fun virt hv => SameTables.translate_eq (h.vmInv hspace) ⟨h', hspace'⟩ hsame hv, rfl⟩

lemma enterProgram_returned {newAs entry : Nat}
    (hcall : enterProgram upper frame proc newAs entry k = some (.returned k')) :
    k'.cr3 = k.cr3 := by
  unfold enterProgram at hcall
  dsimp only at hcall
  split at hcall
  · cases hcall
  · cases hcall
    rfl
  · rw [Option.map_eq_some_iff] at hcall
    obtain ⟨st, -, hend⟩ := hcall
    cases hend

lemma vmmSwitchAddressSpace_cr3 {s : Kmem} {as root : Nat} (h : VmInv S s a fl held as root) :
    (vmmSwitchAddressSpace as (k.setKmem s)).cr3 = pfnToPhys root := by
  have hok := h.pageOk h.root_table
  have hsub := hok.sub64_ptr (o := 0) (by decide)
  rw [Nat.add_zero, Nat.add_zero] at hsub
  show sub64 (s.pml4 as) s.hhdm = pfnToPhys root
  rw [h.pml4, h.hhdm, hsub, pfnToPhys, Nat.shiftLeft_eq, show pageSize = 2 ^ pageShift by decide]

lemma execFile_returned (h : ProcInv S k a fl held l) (hp : proc ∈ l)
    (hcr3 : k.cr3 = pfnToPhys (k.kmem.root (k.procs proc).addrSpace)) {node : Option FileNode}
    (hcall : execFile upper frame proc node k = some (.returned k')) :
    SameCaller k k' proc ↔ reachesSwitch node k = false := by
  cases execFile_cases upper frame proc h node with
  | inl hearly =>
    obtain ⟨hno, s', hs, heq⟩ := hearly
    rw [hcall] at heq
    cases heq
    exact ⟨fun _ => hno, fun _ => hs.sameCaller h hp⟩
  | inr hlate =>
    obtain ⟨hyes, file, elfData, newAs, root', s, a', fl', held', -, hsw, -, heq⟩ := hlate
    rw [hyes]
    refine ⟨fun hsame => ?_, fun hno => by cases hno⟩
    have hswitch : k'.cr3 = (vmmSwitchAddressSpace newAs (k.setKmem s)).cr3 := by
      rw [heq] at hcall
      split at hcall
      · cases hcall
      · dsimp only at hcall
        split at hcall
        · cases hcall
          rfl
        · exact (enterProgram_returned hcall).trans rfl
    -- the new table was not in use, the old one was
    obtain ⟨root, hspace⟩ := h.space proc hp
    have hroot : k.kmem.root (k.procs proc).addrSpace = root := (h.vmInv hspace).root_eq
    have hcr3' := hsame.cr3
    rw [hswitch, vmmSwitchAddressSpace_cr3 hsw.space, hcr3, hroot] at hcr3'
    have hrr : root' = root := by
      simp only [pfnToPhys, Nat.shiftLeft_eq, pageShift] at hcr3'
      omega
    exact absurd (hrr ▸ (hspace.owned root ⟨[], tablePaths_nil, rfl⟩).1) hsw.fresh

/-- A call of `execve` that returns gives the caller 0. Whether it is as it
was depends on CR3. -/
theorem execve_failure_unreported {vfs : Vfs} (h : ProcInv S k a fl held l)
    (hproc : procCurrent k = some proc) (hp : proc ∈ l)
    (hcr3 : k.cr3 = pfnToPhys (k.kmem.root (k.procs proc).addrSpace)) (hrax : frame.rax = 59)
    {rax : Nat} (hcall : syscallHandler upper vfs frame k = some (.returned rax k')) :
    ¬ (SameCaller k k' proc ∧ rax ≠ 0) ∧
      (SameCaller k k' proc ↔ reachesSwitch (execNode upper vfs frame k) k = false) := by
  have hnum : frame.rax.toNat = 59 := by rw [hrax]; rfl
  unfold syscallHandler at hcall
  simp only [hnum, Option.map_eq_some_iff] at hcall
  obtain ⟨e, hexec, hend⟩ := hcall
  have hfile := sysExecveImpl_eq hproc hexec
  cases e with
  | returned k'' =>
    simp only [SyscallEnd.returned.injEq] at hend
    obtain ⟨rfl, rfl⟩ := hend
    exact ⟨fun hclaim => hclaim.2 rfl, execFile_returned h hp hcr3 hfile⟩
  | started f k'' => cases hend

def nullFrame : InterruptFrame := { zeroProcess.forkFrame with rax := 59 }

theorem execve_failure_unreported_forkMap : ∃ k k',
    procCreate (bootKernel forkStart fun _ => 0) = some (some forkRecord.1, k) ∧
    syscallHandler (fun _ _ => none) (fun _ => none) nullFrame
      (vmmSwitchAddressSpace (k.procs forkRecord.1).addrSpace (k.running forkRecord.1 1)) =
        some (.returned 0 k') ∧
    SameCaller
      (vmmSwitchAddressSpace (k.procs forkRecord.1).addrSpace (k.running forkRecord.1 1)) k'
      forkRecord.1 := by
  obtain ⟨k, fl, held, hcreate, h⟩ := firstProcess_forkMap 1
  obtain ⟨root, hspace⟩ := h.space forkRecord.1 (by simp)
  have hswitch : (vmmSwitchAddressSpace (k.procs forkRecord.1).addrSpace
      (k.running forkRecord.1 1)).cr3 = pfnToPhys root :=
    vmmSwitchAddressSpace_cr3 (k := k.running forkRecord.1 1) (h.vmInv hspace)
  have hroot : k.kmem.root (k.procs forkRecord.1).addrSpace = root := (h.vmInv hspace).root_eq
  have h' : ProcInv forkStart.freePages (vmmSwitchAddressSpace (k.procs forkRecord.1).addrSpace
      (k.running forkRecord.1 1)) forkFirst.2 fl held [forkRecord.1] :=
    h.congr rfl rfl fun _ _ => rfl
  have hcall : syscallHandler (fun _ _ => none) (fun _ => none) nullFrame
      (vmmSwitchAddressSpace (k.procs forkRecord.1).addrSpace (k.running forkRecord.1 1)) =
        some (.returned 0 (vmmSwitchAddressSpace (k.procs forkRecord.1).addrSpace
          (k.running forkRecord.1 1))) := rfl
  have hfail := execve_failure_unreported h' rfl (by simp)
    (hswitch.trans (congrArg pfnToPhys hroot.symm)) rfl hcall
  exact ⟨k, _, hcreate, hcall, hfail.2.mpr rfl⟩

/-- The caller is told that the call with the null path has succeeded. -/
theorem execve_null_path_returns_zero : ∃ k k' rax,
    procCreate (bootKernel forkStart fun _ => 0) = some (some forkRecord.1, k) ∧
    syscallHandler (fun _ _ => none) (fun _ => none) nullFrame (k.running forkRecord.1 1) =
      some (.returned rax k') ∧
      ¬ (SameCaller (k.running forkRecord.1 1) k' forkRecord.1 ∧ rax ≠ 0) := by
  obtain ⟨k, fl, held, hcreate, h⟩ := firstProcess_forkMap 1
  exact ⟨k, _, 0, hcreate, rfl, fun hclaim => hclaim.2 rfl⟩

end

end VortexOS.Proc
