/-
VortexOS.Proc.StaleRecord — what a new process has from the memory its
record was in before.

`SameButFree` relates two kernels that differ in free pages and free heap
objects only. `proc_create` takes the same steps in both
(`makeProcess_pair`), and the new records are the old contents of one
object with the fields that are stored to. `uid`, `gid`, `euid`, `egid` and
`cpu_time_ns` are not among them in `proc_create`, and
`proc_create_from_parent` leaves out `cpu_time_ns`.
-/
import VortexOS.Proc.ProcessTheorems

namespace VortexOS.Mm

open Lib

/-! ## Free memory -/

/-- Word `w` is in a free page, or in a free object behind the link to the
next one. -/
def FreeWord (a : AHeap) (w : Nat) : Prop :=
  w / 512 ∈ a.pmm.freePages ∨
  ∃ f ∈ a.slabs, ∃ o ∈ a.free f,
    sub64 o a.hhdm / 8 < w ∧ w < (sub64 o a.hhdm + objectSize (a.cacheOf f)) / 8

section

variable {S : Set Nat} {s : Kmem} {a : AHeap} {fl : Nat → List Nat} {held : Set Block} {w f p : Nat}

section

variable (h : KernelInv S s a fl held)
include h

lemma KernelInv.freeObject_word {o : Nat} (hf : f ∈ a.slabs)
    (ho : o ∈ objects a.hhdm (a.cacheOf f) f) : ∃ k, 5 ≤ k ∧ o = pagePtr a.hhdm f + 8 * k ∧
    sub64 o a.hhdm = f * 4096 + 8 * k ∧ 8 * k + objectSize (a.cacheOf f) ≤ 4096 := by
  obtain ⟨i, l, hl⟩ := hf
  obtain ⟨hi, hc⟩ := h.inv.cache i l f hl
  obtain ⟨k, h5, hok, hend⟩ := mem_objects (hc ▸ hi) ho
  have hpos := objectSize_pos (hc ▸ hi)
  simp only [pageSize] at hend
  have hsub := (h.inv.page f ⟨i, l, hl⟩).sub64_ptr (o := 8 * k) (by simp only [pageSize]; omega)
  rw [← hok] at hsub
  simp only [pageSize] at hsub
  exact ⟨k, h5, hok, hsub, hend⟩

lemma KernelInv.unused_of_free (hw : FreeWord a w) : Unused a w := by
  cases hw with
  | inl hpage =>
    exact h.inv.unused_of_notMem fun hin => h.not_free (h.inv.slabHeld _ hin) (h.rep.pmm ▸ hpage)
  | inr hobj =>
    obtain ⟨f, hf, o, ho, hlo, hhi⟩ := hobj
    obtain ⟨k, h5, hok, hsub, hend⟩ := h.freeObject_word hf (h.inv.objMem f hf o ho)
    rw [hsub] at hlo hhi
    intro g hg
    by_cases hgf : w / 512 = g
    · obtain rfl : f = g := by omega
      refine ⟨fun j hj heq => by omega, fun o' ho' heq => ?_⟩
      obtain ⟨k', h5', hok', hsub', hend'⟩ := h.freeObject_word hf (h.inv.objMem f hf o' ho')
      have hne : o ≠ o' := fun heq' => by
        subst heq'
        omega
      have hap := objects_apart (h.inv.objMem f hf o ho) (h.inv.objMem f hf o' ho') hne
      omega
    · exact h.inv.unused_of_ne hg hgf

lemma KernelInv.handed_not_free (hp : a.Handed f p) : ¬ FreeWord a (sub64 p a.hhdm / 8) := by
  obtain ⟨k, h5, hpk, hsub, hend⟩ := h.freeObject_word hp.slab hp.object
  rintro (hpage | ⟨g, hg, o, ho, hlo, hhi⟩)
  · have hword : sub64 p a.hhdm / 8 / 512 = f := by
      obtain ⟨j, _, hj, _, hw⟩ := h.inv.object_word hp.slab hp.object
      omega
    exact h.not_free (h.inv.slabHeld f hp.slab) (h.rep.pmm ▸ hword ▸ hpage)
  · obtain ⟨j, -, hoj, hsub', hend'⟩ := h.freeObject_word hg (h.inv.objMem g hg o ho)
    obtain ⟨j1, _, hj1, _, hw1⟩ := h.inv.object_word hp.slab hp.object
    obtain rfl : g = f := by omega
    have hne : o ≠ p := fun heq => hp.taken (heq ▸ ho)
    have hap := objects_apart (h.inv.objMem g hg o ho) hp.object hne
    omega

lemma KernelInv.held_not_free (hheld : (⟨0, w / 512⟩ : Block) ∈ held) (hslab : w / 512 ∉ a.slabs) :
    ¬ FreeWord a w := by
  rintro (hpage | ⟨f, hf, o, ho, hlo, hhi⟩)
  · exact h.not_free hheld (h.rep.pmm ▸ hpage)
  · obtain ⟨k, -, -, hsub, hend⟩ := h.freeObject_word hf (h.inv.objMem f hf o ho)
    have hfw : w / 512 = f := by omega
    exact hslab (hfw ▸ hf)

end

end

end VortexOS.Mm

namespace VortexOS.Proc

open Lib Mm Sched Arch

/-! ## Two kernels -/

/-- The kernels differ in free memory only; `a` is the heap of both. -/
structure SameButFree (k1 k2 : Kernel) (a : AHeap) : Prop where
  pmm : k2.kmem.pmm = k1.kmem.pmm
  kCaches : k2.kmem.kCaches = k1.kmem.kCaches
  mem : ∀ w, ¬ FreeWord a w → k2.kmem.mem w = k1.kmem.mem w
  procs : ∀ f p, a.Handed f p → k2.procs p = k1.procs p
  sched : k2.sched = k1.sched
  process : k2.process = k1.process
  kNextPid : k2.kNextPid = k1.kNextPid
  kProcessList : k2.kProcessList = k1.kProcessList
  kProcessCount : k2.kProcessCount = k1.kProcessCount
  cr3 : k2.cr3 = k1.cr3

section

variable {S : Set Nat} {k1 k2 : Kernel} {a : AHeap} {fl fl2 : Nat → List Nat}
    {held held2 : Set Block}
  {l : List Nat}

lemma SameButFree.procInv (hsame : SameButFree k1 k2 a) (h : ProcInv S k1 a fl held l) :
    ProcInv S k2 a fl held l := by
  have hmem : ∀ w, ¬ Unused a w → k2.kmem.mem w = k1.kmem.mem w := fun w hw =>
    hsame.mem w fun hfree => hw (h.toKernelInv.unused_of_free hfree)
  have hkmem : ({ k1.kmem with mem := k2.kmem.mem } : Kmem) = k2.kmem := by
    cases hk : k2.kmem with
    | mk pmm mem kCaches =>
      have hpmm := hsame.pmm
      have hcaches := hsame.kCaches
      rw [hk] at hpmm hcaches
      simp only at hpmm hcaches ⊢
      rw [hpmm, hcaches]
  have hk2 : KernelInv S k2.kmem a fl held := ⟨hkmem ▸ h.rep.setMem hmem, h.inv, h.small⟩
  have hf : Frame ∅ ∅ k1.kmem a held k2.kmem a held := by
    refine ⟨rfl, fun _ hb _ => hb, fun _ hg hn _ => absurd hg hn, fun f p hp _ => ⟨hp, ?_⟩,
      fun w hw hslab _ => hsame.mem w (h.toKernelInv.held_not_free hw hslab)⟩
    have hhdm : k2.kmem.hhdm = k1.kmem.hhdm := by rw [Kmem.hhdm, Kmem.hhdm, hsame.pmm]
    simp only [Kmem.pml4, Kmem.load, Kmem.wordAt, hhdm, h.hhdm]
    rw [hsame.mem _ (h.toKernelInv.handed_not_free hp)]
  refine (h.frame hk2 hf (by simp) (by simp)).congr rfl hsame.kProcessList fun q hq => ?_
  obtain ⟨f, hobj⟩ := h.object q hq
  exact hsame.procs f q hobj

lemma makeProcess_pair (h1 : ProcInv S k1 a fl held l) (h2 : ProcInv S k2 a fl2 held2 l)
    (ppid : Kernel → UInt32) (space : Kernel → Option (Nat × Kmem))
    (inherit : Kernel → Process → Process) (hinherit : ∀ k r, (inherit k r).addrSpace = r.addrSpace)
    (hspace1 : ∀ k a1 fl' held', ProcInv S k a1 fl' held' l → (∀ q ∈ l, k.procs q = k1.procs q) →
      Frame ∅ ∅ k1.kmem a held k.kmem a1 held' → MakesSpace S k.kmem a1 held' (space k))
    (hspace2 : ∀ k a1 fl' held', ProcInv S k a1 fl' held' l → (∀ q ∈ l, k.procs q = k2.procs q) →
      Frame ∅ ∅ k2.kmem a held2 k.kmem a1 held' → MakesSpace S k.kmem a1 held' (space k)) :
    ∃ o k1' k2', makeProcess ppid space inherit k1 = some (o, k1') ∧
    makeProcess ppid space inherit k2 = some (o, k2') ∧ ∀ p, o = some p →
    ∃ a1 a' fl1' held1' fl2' held2', ProcInv S k1' a' fl1' held1' (p :: l) ∧
      ProcInv S k2' a' fl2' held2' (p :: l) ∧ Made k1 k1' a a1 a' held1' l p ppid inherit ∧
      Made k2 k2' a a1 a' held2' l p ppid inherit := by
  obtain ⟨p, a1, o1, k1', a1', fl1', held1', hacall, hcall1, hinv1, -, -, hres1⟩ :=
    h1.makeProcess_spec ppid space inherit hinherit hspace1
  obtain ⟨p2, a2, o2, k2', a2', fl2', held2', hacall2, hcall2, hinv2, -, -, hres2⟩ :=
    h2.makeProcess_spec ppid space inherit hinherit hspace2
  obtain ⟨rfl, rfl⟩ := Prod.mk.inj (Option.mem_unique hacall hacall2)
  -- whether there is a process depends on the abstract heap only
  have hboth : ∀ {k k' k3 k3' : Kernel} {a' : AHeap} {held' : Set Block}, NotMade k k' a1 p →
    p ≠ 0 →
      Made k3 k3' a a1 a' held' l p ppid inherit → False := by
    intro k k' k3 k3' a' held' hnot hp0 hm
    obtain ⟨as, _, _, -, -, has, -, hnew, -⟩ := hm.record
    cases hnot.why with
    | inl hnull => exact hp0 hnull.1
    | inr hno =>
      obtain ⟨⟨a3, ha3⟩, -⟩ := hno
      exact has (Prod.mk.inj (Option.mem_unique hnew ha3)).1
  rcases hres1 with ⟨rfl, hnot1⟩ | ⟨rfl, hp0, hm1⟩ <;> rcases hres2 with ⟨rfl, hnot2⟩ | ⟨rfl, hp0',
    hm2⟩
  · exact ⟨none, k1', k2', hcall1, hcall2, fun p hp => by cases hp⟩
  · exact (hboth hnot1 hp0' hm2).elim
  · exact (hboth hnot2 hp0 hm1).elim
  · refine ⟨some p, k1', k2', hcall1, hcall2, fun q hq => ?_⟩
    cases hq
    obtain ⟨as1, _, _, -, -, -, -, hnew1, -⟩ := hm1.record
    obtain ⟨as2, _, _, -, -, -, -, hnew2, -⟩ := hm2.record
    obtain ⟨-, rfl⟩ := Prod.mk.inj (Option.mem_unique hnew1 hnew2)
    exact ⟨a1, a1', fl1', held1', fl2', held2', hinv1, hinv2, hm1, hm2⟩

end

/-! ## The fields -/

def Process.shown (r : Process) :
    UInt32 × UInt32 × ProcessState × UInt32 × UInt32 × UInt32 × UInt32 × UInt64 :=
  (r.pid, r.ppid, r.state, r.uid, r.gid, r.euid, r.egid, r.cpuTimeNs)

/-- Those of them that `proc_create` does not store to. -/
def Process.kept (r : Process) : UInt32 × UInt32 × UInt32 × UInt32 × UInt64 :=
  (r.uid, r.gid, r.euid, r.egid, r.cpuTimeNs)

section

variable {k k' : Kernel} {a a1 a' : AHeap} {held' : Set Block} {l : List Nat} {p c : Nat}

lemma Made.shown_create (hm : Made k k' a a1 a' held' l p (fun _ => 0) fun _ r => r) :
    (k'.procs p).shown = (k.kNextPid, 0, .alive, (k.procs p).kept) := by
  obtain ⟨as, _, _, -, -, -, -, -, -, -, hrec⟩ := hm.record
  rw [hrec]
  rfl

lemma Made.shown_fork (hp : p ∈ l)
    (hm : Made k k' a a1 a' held' l c (fun k => (k.procs p).pid) fun k r => { r with
        uid := (k.procs p).uid, gid := (k.procs p).gid
        euid := (k.procs p).euid, egid := (k.procs p).egid }) :
    (k'.procs c).shown = (k.kNextPid, (k.procs p).pid, .alive, (k.procs p).uid, (k.procs p).gid,
      (k.procs p).euid, (k.procs p).egid, (k.procs c).cpuTimeNs) := by
  obtain ⟨as, k1, k2, hk1, hk2, -, -, -, -, -, hrec⟩ := hm.record
  rw [hrec, hk1 p hp, hk2 p hp]
  rfl

lemma Made.empty {S : Set Nat} {fl' : Nat → List Nat} {ppid : Kernel → UInt32}
    {inherit : Kernel → Process → Process} (hm : Made k k' a a1 a' held' l p ppid inherit)
    (hinherit : ∀ k r, (inherit k r).addrSpace = r.addrSpace)
    (h' : ProcInv S k' a' fl' held' (p :: l)) :
    ∀ i < 256, entryAt k'.kmem.mem (k'.kmem.root (k'.procs p).addrSpace) i = 0 := by
  obtain ⟨as, _, _, -, -, -, -, -, -, ⟨root, hs, hempty⟩, hrec⟩ := hm.record
  have hself : (k'.procs p).addrSpace = as := by rw [hrec, hinherit]
  rw [(h'.vmInv (p := p) (hself.symm ▸ hs)).root_eq]
  exact hempty

end

/-- **Stale records.** In two kernels that differ in free memory only,
`proc_create` returns the same pointer `p`, and a fork of the new process
the same pointer `c`. The processes agree exactly if the memory of `p` had
the same ids and time before, and the memory of `c` the same time. -/
theorem staleRecord_iff {S : Set Nat} {k1 k2 : Kernel} {a : AHeap} {fl : Nat → List Nat}
    {held : Set Block} {l : List Nat} (h : ProcInv S k1 a fl held l) (hsame : SameButFree k1 k2 a) :
    ∃ o k1' k2', procCreate k1 = some (o, k1') ∧ procCreate k2 = some (o, k2') ∧ ∀ p, o = some p →
        ((k1'.procs p).shown = (k2'.procs p).shown ↔ (k1.procs p).kept = (k2.procs p).kept) ∧
        ∃ o' k1'' k2'', procCreateFromParent p k1' = some (o', k1'') ∧
          procCreateFromParent p k2' = some (o', k2'') ∧ ∀ c, o' = some c →
            (((k1'.procs p).shown = (k2'.procs p).shown ∧
              (k1''.procs c).shown = (k2''.procs c).shown) ↔
              (k1.procs p).kept = (k2.procs p).kept ∧ (k1.procs c).cpuTimeNs =
              (k2.procs c).cpuTimeNs) := by
  obtain ⟨o, k1', k2', hcall1, hcall2, hmade⟩ := makeProcess_pair h (hsame.procInv h) (fun _ => 0)
    (fun k => vmmCreateAddressSpace k.cr3 k.kmem) (fun _ r => r) (fun _ _ => rfl)
    (fun k _ _ _ hk _ _ => hk.toKernelInv.makesSpace k.cr3)
    (fun k _ _ _ hk _ _ => hk.toKernelInv.makesSpace k.cr3)
  refine ⟨o, k1', k2', hcall1, hcall2, fun p hp => ?_⟩
  obtain ⟨a1, a', fl1', held1', fl2', held2', h1', h2', hm1, hm2⟩ := hmade p hp
  have hiff : (k1'.procs p).shown = (k2'.procs p).shown ↔
    (k1.procs p).kept = (k2.procs p).kept := by
    rw [hm1.shown_create, hm2.shown_create, hsame.kNextPid]
    simp only [Prod.mk.injEq, true_and]
  have hin : p ∈ p :: l := List.mem_cons_self
  refine ⟨hiff, ?_⟩
  obtain ⟨o', k1'', k2'', hfork1, hfork2, hchild⟩ := makeProcess_pair h1' h2'
    (fun k => (k.procs p).pid) (fun k => vmmCloneAddressSpace (k.procs p).addrSpace k.cr3 k.kmem)
    (fun k r =>
      { r with
        uid := (k.procs p).uid, gid := (k.procs p).gid
        euid := (k.procs p).euid, egid := (k.procs p).egid })
    (fun _ _ => rfl) (h1'.cloneMakesSpace hin (hm1.empty (fun _ _ => rfl) h1'))
    (h2'.cloneMakesSpace hin (hm2.empty (fun _ _ => rfl) h2'))
  refine ⟨o', k1'', k2'', hfork1, hfork2, fun c hc => ?_⟩
  obtain ⟨_, _, _, _, _, _, -, -, hc1, hc2⟩ := hchild c hc
  have hcp : c ≠ p := by
    rintro rfl
    obtain ⟨f, hobj⟩ := h1'.object c hin
    exact hc1.fresh f hobj
  have hnext : k2'.kNextPid = k1'.kNextPid := by rw [hm1.nextPid, hm2.nextPid, hsame.kNextPid]
  rw [hc1.shown_fork hin, hc2.shown_fork hin, ← hm1.others c hcp, ← hm2.others c hcp, hnext, ← hiff]
  simp only [Process.shown, Prod.mk.injEq, true_and]
  constructor
  · rintro ⟨hparent, hids⟩
    exact ⟨hparent, hids.2.2.2.2.2⟩
  · rintro ⟨hparent, htime⟩
    exact ⟨hparent, hparent.1, hparent.2.2.2.1, hparent.2.2.2.2.1, hparent.2.2.2.2.2.1,
      hparent.2.2.2.2.2.2.1, htime⟩

/-! At the start of the kernel every record is free memory. -/

/-- The first kernel, with `r` in the memory of every record. -/
def bootWith (r : Process) :
    Kernel := { bootKernel forkStart (fun _ => 0) with procs := fun _ => r }

lemma bootWith_same (r1 r2 : Process) :
    SameButFree (bootWith r1) (bootWith r2) (AHeap.start forkStart) := by
  refine ⟨rfl, rfl, fun _ _ => rfl, fun f p hp => ?_, rfl, rfl, rfl, rfl, rfl, rfl⟩
  obtain ⟨i, l, hl⟩ := hp.slab
  cases hl

lemma bootWith_inv (r : Process) :
    ∃ fl held, ProcInv forkStart.freePages (bootWith r) (AHeap.start forkStart) fl held [] := by
  obtain ⟨fl, held, h⟩ := bootKernel_inv forkMap_ok pmmInit_forkMap fun _ => 0
  exact ⟨fl, held, h.congr rfl rfl (by simp)⟩

/-- What is left in the pointer to the main thread does not matter. -/
theorem staleRecord_mainThread : ∃ o k1 k2, procCreate (bootWith zeroProcess) = some (o, k1) ∧
    procCreate (bootWith { zeroProcess with mainThread := some 5 }) = some (o, k2) ∧
    ∀ p, o = some p → (k1.procs p).shown = (k2.procs p).shown := by
  obtain ⟨fl, held, h⟩ := bootWith_inv zeroProcess
  obtain ⟨o, k1, k2, hcall1, hcall2, hiff⟩ := staleRecord_iff h
    (bootWith_same zeroProcess { zeroProcess with mainThread := some 5 })
  exact ⟨o, k1, k2, hcall1, hcall2, fun p hp => (hiff p hp).1.mpr rfl⟩

/-- The first process has the user id that was in its memory. -/
theorem uid_from_memory :
    SameButFree (bootWith zeroProcess) (bootWith { zeroProcess with uid := 1000 })
      (AHeap.start forkStart) ∧
    ∃ p k1 k2, procCreate (bootWith zeroProcess) = some (some p, k1) ∧
      procCreate (bootWith { zeroProcess with uid := 1000 }) = some (some p, k2) ∧
      (k1.procs p).uid = 0 ∧ (k2.procs p).uid = 1000 := by
  have hfirst : ∀ r : Process, ∃ k, procCreate (bootWith r) = some (some forkRecord.1, k) ∧
      (k.procs forkRecord.1).uid = r.uid := by
    intro r
    obtain ⟨fl, held, h⟩ := bootWith_inv r
    obtain ⟨p, a1, o, k, a', fl', held', hacall, hcall, -, -, -, hres⟩ :=
      h.makeProcess_spec (fun _ => 0) (fun k => vmmCreateAddressSpace k.cr3 k.kmem) (fun _ r => r)
        (fun _ _ => rfl) fun k _ _ _ hk _ _ => hk.toKernelInv.makesSpace k.cr3
    have hrec : forkRecord = (p, a1) := Option.mem_unique kmalloc_forkStart hacall
    obtain rfl : forkRecord.1 = p := by rw [hrec]
    obtain rfl : forkRecord.2 = a1 := by rw [hrec]
    rcases hres with ⟨rfl, hnot⟩ | ⟨rfl, -, hm⟩
    · exfalso
      cases hnot.why with
      | inl hnull => exact absurd hnull.1 (by decide)
      | inr hno =>
        obtain ⟨⟨a2, ha2⟩, -⟩ := hno
        have hne : forkFirst.1 ≠ 0 := by decide
        exact hne (Prod.mk.inj (Option.mem_unique newSpace_forkRecord ha2)).1
    · refine ⟨k, hcall, ?_⟩
      have hshown := hm.shown_create
      simp only [Process.shown, Process.kept, Prod.mk.injEq] at hshown
      exact hshown.2.2.2.1
  obtain ⟨k1, hcall1, huid1⟩ := hfirst zeroProcess
  obtain ⟨k2, hcall2, huid2⟩ := hfirst { zeroProcess with uid := 1000 }
  exact ⟨bootWith_same _ _, forkRecord.1, k1, k2, hcall1, hcall2, huid1, huid2⟩

end VortexOS.Proc
