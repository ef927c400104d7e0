/-
VortexOS.Proc.ProcessTheorems — the process list and its address spaces.

`ProcInv` is what the kernel keeps: the process list is a chain of heap
objects that ends, every process has an address space of its own tables,
and no page that a process maps is free. It survives every call that stays
inside of a frame without the process's objects and tables
(`ProcInv.frame`), so that `proc_create` keeps it whether or not it finds
memory (`procCreate_spec`).
-/
import VortexOS.Mm.VmmFrame
import VortexOS.Proc.Process

namespace VortexOS.Proc

open Function Lib Mm Sched Arch

namespace Kernel

variable (k : Kernel) (p : Nat) (f : Process → Process) (s : Kmem)

@[simp] lemma modProc_kmem : (k.modProc p f).kmem = k.kmem := rfl

@[simp] lemma modProc_same : (k.modProc p f).procs p = f (k.procs p) := update_self _ _ _

lemma modProc_of_ne {q : Nat} (h : q ≠ p) : (k.modProc p f).procs q = k.procs q :=
  update_of_ne h _ _

@[simp] lemma modProc_kProcessList : (k.modProc p f).kProcessList = k.kProcessList := rfl

@[simp] lemma setKmem_kmem : (k.setKmem s).kmem = s := rfl

@[simp] lemma setKmem_procs : (k.setKmem s).procs = k.procs := rfl

end Kernel

structure ProcInv (S : Set Nat) (k : Kernel) (a : AHeap) (fl : Nat → List Nat) (held : Set Block)
    (l : List Nat) : Prop extends KernelInv S k.kmem a fl held where
  list : Seg k.next k.kProcessList l none
  object : ∀ p ∈ l, ∃ f, a.Handed f p
  space : ∀ p ∈ l, ∃ root, SpaceInv k.kmem a held (k.procs p).addrSpace root
  pages : ∀ p ∈ l, ∀ virt < 2 ^ 47, ∀ f,
    k.kmem.translate (k.procs p).addrSpace virt = some f → f ∉ k.kmem.pmm.freePages

section

variable {S W D : Set Nat} {k k' : Kernel} {s' : Kmem} {a a' : AHeap} {fl fl' : Nat → List Nat}
  {held held' : Set Block} {l : List Nat} {p root : Nat}

lemma ProcInv.vmInv (h : ProcInv S k a fl held l)
    (hs : SpaceInv k.kmem a held (k.procs p).addrSpace root) :
    VmInv S k.kmem a fl held (k.procs p).addrSpace root :=
  ⟨h.toKernelInv, hs⟩

lemma ProcInv.congr (h : ProcInv S k a fl held l) (hmem : k'.kmem = k.kmem)
    (hlist : k'.kProcessList = k.kProcessList) (hprocs : ∀ q ∈ l, k'.procs q = k.procs q) :
    ProcInv S k' a fl held l := by
  refine ⟨hmem ▸ h.toKernelInv, ?_, h.object, fun q hq => ?_, fun q hq => ?_⟩
  · rw [hlist]
    exact h.list.congr fun q hq => congrArg Process.next (hprocs q hq)
  · rw [hmem, hprocs q hq]
    exact h.space q hq
  · rw [hmem, hprocs q hq]
    exact h.pages q hq

lemma freePages_frame (h : KernelInv S k.kmem a fl held) (h' : KernelInv S s' a' fl' held')
    (hf : Frame W D k.kmem a held s' a' held') (hW : ∀ b ∈ held, b.base ∉ W) :
    s'.pmm.freePages ⊆ k.kmem.pmm.freePages := by
  exact h.freePages_subset h' fun b hb => hf.kept b hb (hW b hb)

section

variable (h : ProcInv S k a fl held l)
include h

/-- A call whose frame has no page that was in use and no object of a
process. -/
lemma ProcInv.frame (h' : KernelInv S s' a' fl' held') (hf : Frame W D k.kmem a held s' a' held')
    (hW : ∀ b ∈ held, b.base ∉ W) (hD : ∀ q ∈ l, q ∉ D ∧ (k.procs q).addrSpace ∉ D) :
    ProcInv S (k.setKmem s') a' fl' held' l := by
  have hspace : ∀ q ∈ l, ∃ root, SpaceInv k.kmem a held (k.procs q).addrSpace root ∧
      SpaceInv s' a' held' (k.procs q).addrSpace root ∧ SameTables k.kmem.mem s'.mem root := by
    intro q hq
    obtain ⟨root, hs⟩ := h.space q hq
    refine ⟨root, hs, hs.frame hf (hD q hq).2 fun t ht => ?_⟩
    exact hW _ (hs.owned t ht).1
  refine ⟨h', h.list, fun q hq => ?_, fun q hq => ?_, fun q hq virt hv f hmap hfree => ?_⟩
  · obtain ⟨g, hobj⟩ := h.object q hq
    exact ⟨g, (hf.handed g q hobj (hD q hq).1).1⟩
  · obtain ⟨root, -, hs', -⟩ := hspace q hq
    exact ⟨root, hs'⟩
  · obtain ⟨root, hs, hs', hsame⟩ := hspace q hq
    rw [Kernel.setKmem_kmem, Kernel.setKmem_procs,
      SameTables.translate_eq (h.vmInv hs) ⟨h', hs'⟩ hsame hv] at hmap
    exact h.pages q hq virt hv f hmap (freePages_frame h.toKernelInv h' hf hW hfree)

lemma ProcInv.fresh (hp : ∀ f, ¬ a.Handed f p) : ∀ q ∈ l, q ≠ p ∧ (k.procs q).addrSpace ≠ p := by
  intro q hq
  obtain ⟨f, hobj⟩ := h.object q hq
  obtain ⟨root, hs⟩ := h.space q hq
  obtain ⟨g, has⟩ := hs.object
  exact ⟨fun heq => hp f (heq ▸ hobj), fun heq => hp g (heq ▸ has)⟩

lemma ProcInv.modProc (hp : ∀ q ∈ l, q ≠ p) (f : Process → Process) :
    ProcInv S (k.modProc p f) a fl held l :=
  h.congr rfl rfl fun q hq => Kernel.modProc_of_ne _ _ _ (hp q hq)

lemma ProcInv.kfree {f : Nat} (hobj : a.Handed f p)
    (hp : ∀ q ∈ l, q ≠ p ∧ (k.procs q).addrSpace ≠ p) :
    ∃ a' fl' held', ProcInv S (k.setKmem (Mm.kfree p k.kmem)) a' fl' held' l ∧
    Frame ∅ {p} k.kmem a held (Mm.kfree p k.kmem) a' held' ∧
    (Mm.kfree p k.kmem).pmm = k.kmem.pmm := by
  obtain ⟨a', fl', held', hk, hf, hpmm⟩ := h.toKernelInv.kfree (Or.inl ⟨f, hobj⟩)
  have hbase : ∀ b ∈ held, b.base ∉ {t | p = pagePtr a.hhdm t} := fun b _ hin =>
    h.inv.object_ne_page hobj hin
  refine ⟨a', fl', held', h.frame hk hf hbase fun q hq => ?_, ?_, hpmm ⟨f, hobj⟩⟩
  · exact ⟨fun hin => (hp q hq).1 hin, fun hin => (hp q hq).2 hin⟩
  · exact hf.mono (fun b hb hin => absurd hin (hbase b hb)) (Set.Subset.refl _)

lemma ProcInv.top_frame (h' : KernelInv S k'.kmem a' fl' held')
    (hf : Frame ∅ D k.kmem a held k'.kmem a' held') {q i : Nat} (hq : q ∈ l)
    (hD : (k.procs q).addrSpace ∉ D) (hi : i < 512) :
    entryAt k'.kmem.mem (k'.kmem.root (k.procs q).addrSpace) i =
      entryAt k.kmem.mem (k.kmem.root (k.procs q).addrSpace) i := by
  obtain ⟨root, hs⟩ := h.space q hq
  obtain ⟨hs', hsame⟩ := hs.frame hf hD (by simp)
  have hvm' : VmInv S k'.kmem a' fl' held' (k.procs q).addrSpace root := ⟨h', hs'⟩
  rw [(h.vmInv hs).root_eq, hvm'.root_eq]
  exact hsame root ⟨[], tablePaths_nil, rfl⟩ i hi

end

end

/-! ## New processes -/

section

variable {S : Set Nat} {k : Kernel} {a : AHeap} {fl : Nat → List Nat} {held : Set Block}
    {l : List Nat}
  {p root : Nat}

lemma ProcInv.add (h : ProcInv S k a fl held l) (hobj : ∃ f, a.Handed f p) (hp : ∀ q ∈ l, q ≠ p)
    (hspace : SpaceInv k.kmem a held (k.procs p).addrSpace root)
    (hempty : ∀ i < 256, entryAt k.kmem.mem root i = 0) :
    ProcInv S (procAdd p k) a fl held (p :: l) := by
  have hprocs : ∀ q ∈ l, (procAdd p k).procs q = k.procs q := fun q hq =>
    update_of_ne (hp q hq) _ _
  have hself : (procAdd p k).procs p = { k.procs p with next := k.kProcessList } :=
    update_self _ _ _
  have hlist : Seg (procAdd p k).next k.kProcessList l none :=
    h.list.congr fun q hq => congrArg Process.next (hprocs q hq)
  refine ⟨h.toKernelInv, ⟨rfl, ?_⟩, ?_, ?_, ?_⟩
  · rw [Kernel.next, hself]
    exact hlist
  · rw [List.forall_mem_cons]
    exact ⟨hobj, h.object⟩
  · rw [List.forall_mem_cons, hself]
    refine ⟨⟨root, hspace⟩, fun q hq => ?_⟩
    rw [hprocs q hq]
    exact h.space q hq
  · rw [List.forall_mem_cons, hself]
    refine ⟨fun virt hv f hmap => ?_, fun q hq => ?_⟩
    · have hroot : k.kmem.root (k.procs p).addrSpace = root := (h.vmInv hspace).root_eq
      rw [Kmem.translate] at hmap
      replace hmap : tableAt k.kmem.mem (k.kmem.root (k.procs p).addrSpace) (pathOf virt) =
        some f := hmap
      rw [hroot, tableAt_of_empty hempty (userPath_pathOf hv) (by simp [pathOf])] at hmap
      cases hmap
    · rw [hprocs q hq]
      exact h.pages q hq

lemma initProcess_of_ne {p q : Nat} (hq : q ≠ p) (ppid : Kernel → UInt32) (k : Kernel) :
    (initProcess p ppid k).procs q = k.procs q := by
  simp only [initProcess, Kernel.modProc_of_ne _ _ _ hq]

/-- A new process up to the call that makes its address space: there is no
room for the record, or there is and the call decides. -/
lemma ProcInv.makeProcess (h : ProcInv S k a fl held l) (ppid : Kernel → UInt32)
    (space : Kernel → Option (Nat × Kmem)) (inherit : Kernel → Process → Process) :
    ∃ p s1 a1 fl1 held1, kmalloc sizeofProcess k.kmem = some (p, s1) ∧
      a.kmalloc sizeofProcess = some (p, a1) ∧ Frame ∅ ∅ k.kmem a held s1 a1 held1 ∧
      ProcInv S (k.setKmem s1) a1 fl1 held1 l ∧
      if p = 0 then Proc.makeProcess ppid space inherit k = some (none, k.setKmem s1) else
        ∃ f, a1.Handed f p ∧ (∀ g, ¬ a.Handed g p) ∧ (∀ q ∈ l, q ≠ p ∧ (k.procs q).addrSpace ≠ p) ∧
          ProcInv S (initProcess p ppid (k.setKmem s1)) a1 fl1 held1 l ∧
          (∀ q ∈ l, (initProcess p ppid (k.setKmem s1)).procs q = k.procs q) ∧
          ∀ as s2, space (initProcess p ppid (k.setKmem s1)) = some (as, s2) →
            Proc.makeProcess ppid space inherit k =
              let k := setSpace p as ((initProcess p ppid (k.setKmem s1)).setKmem s2)
            if as = 0 then some (none, k.setKmem (Mm.kfree p s2))
            else some (some p, procAdd p (k.modProc p (inherit k))) := by
  obtain ⟨p, s1, a1, fl1, held1, hcall, hacall, hk1, hf1, hown⟩ :=
    h.toKernelInv.kmalloc sizeofProcess
  have h1 : ProcInv S (k.setKmem s1) a1 fl1 held1 l := h.frame hk1 hf1 (by simp) (by simp)
  refine ⟨p, s1, a1, fl1, held1, hcall, hacall, hf1, h1, ?_⟩
  unfold Proc.makeProcess
  simp only [hcall]
  split
  · rfl
  · rename_i hp0
    obtain ⟨-, hnew, -, hobj⟩ := hown hp0
    obtain ⟨f, hobj⟩ := hobj (by decide)
    have hfresh := h.fresh hnew
    have hprocs : ∀ q ∈ l, (initProcess p ppid (k.setKmem s1)).procs q = k.procs q := fun q hq =>
      initProcess_of_ne (hfresh q hq).1 _ _
    refine ⟨f, hobj, hnew, hfresh, h1.congr rfl rfl hprocs, hprocs, fun as s2 hspace => ?_⟩
    simp only [hspace]
    rfl

@[simp] lemma setSpace_same (p as : Nat) (k : Kernel) :
    (setSpace p as k).procs p = { k.procs p with addrSpace := as, mainThread := none } :=
  Kernel.modProc_same _ _ _

@[simp] lemma setSpace_kmem (p as : Nat) (k : Kernel) : (setSpace p as k).kmem = k.kmem := rfl

@[simp] lemma procAdd_same (p : Nat) (k : Kernel) :
    (procAdd p k).procs p = { k.procs p with next := k.kProcessList } :=
  update_self _ _ _

/-- The parent's id is read when the new record has its own. -/
lemma initProcess_same (p : Nat) (ppid : Kernel → UInt32) (k : Kernel) :
    ∃ k1 : Kernel, (∀ q, q ≠ p → k1.procs q = k.procs q) ∧ (initProcess p ppid k).procs p =
      { k.procs p with pid := k.kNextPid, ppid := ppid k1, state := .alive } := by
  refine ⟨{ k.modProc p fun r => { r with pid := k.kNextPid } with kNextPid := k.kNextPid + 1 },
    fun q hq => update_of_ne hq _ _, ?_⟩
  rw [initProcess, Kernel.modProc_same]
  simp only [Kernel.modProc_same]
  rfl

/-- No process was made: the list is as before, and a number may have been
used up. -/
structure NotMade (k k' : Kernel) (a1 : AHeap) (p : Nat) : Prop where
  list : k'.kProcessList = k.kProcessList
  count : k'.kProcessCount = k.kProcessCount
  why : (p = 0 ∧ k'.kNextPid = k.kNextPid) ∨
    ((∃ a2, a1.newSpace = some (0, a2)) ∧ k'.kNextPid = k.kNextPid + 1)

/-- The record `p` heads the list, with an address space that has no pages.
What the fields of other processes are read for are those of `l`. -/
structure Made (k k' : Kernel) (a a1 a' : AHeap) (held' : Set Block) (l : List Nat) (p : Nat)
    (ppid : Kernel → UInt32) (inherit : Kernel → Process → Process) : Prop where
  count : k'.kProcessCount = k.kProcessCount + 1
  nextPid : k'.kNextPid = k.kNextPid + 1
  fresh : ∀ f, ¬ a.Handed f p
  others : ∀ q, q ≠ p → k'.procs q = k.procs q
  record : ∃ as k1 k2, (∀ q ∈ l, k1.procs q = k.procs q) ∧ (∀ q ∈ l, k2.procs q = k.procs q) ∧
    as ≠ 0 ∧ as ≠ p ∧ a1.newSpace = some (as, a') ∧ (∀ f, ¬ a.Handed f as) ∧
    (∃ root, SpaceInv k'.kmem a' held' as root ∧ ∀ i < 256, entryAt k'.kmem.mem root i = 0) ∧
    k'.procs p =
      { inherit k2
          { k.procs p with
            pid := k.kNextPid, ppid := ppid k1, state := .alive, addrSpace := as,
              mainThread := none } with
        next := k.kProcessList }

/-- A new process whose address space has no pages, however it is made. -/
lemma ProcInv.makeProcess_spec (h : ProcInv S k a fl held l) (ppid : Kernel → UInt32)
    (space : Kernel → Option (Nat × Kmem)) (inherit : Kernel → Process → Process)
    (hinherit : ∀ k r, (inherit k r).addrSpace = r.addrSpace)
    (hspace : ∀ k1 a1 fl1 held1, ProcInv S k1 a1 fl1 held1 l → (∀ q ∈ l, k1.procs q = k.procs q) →
      Frame ∅ ∅ k.kmem a held k1.kmem a1 held1 → MakesSpace S k1.kmem a1 held1 (space k1)) :
    ∃ p a1 o k' a' fl' held', a.kmalloc sizeofProcess = some (p, a1) ∧
    Proc.makeProcess ppid space inherit k = some (o, k') ∧
    ProcInv S k' a' fl' held' (o.toList ++ l) ∧ Frame ∅ ∅ k.kmem a held k'.kmem a' held' ∧
    (∀ q ∈ l, k'.procs q = k.procs q) ∧ ((o = none ∧ NotMade k k' a1 p) ∨
      (o = some p ∧ p ≠ 0 ∧ Made k k' a a1 a' held' l p ppid inherit)) := by
  obtain ⟨p, s1, a1, fl1, held1, hmalloc, hacall, hf1, h1, hcases⟩ :=
    h.makeProcess ppid space inherit
  by_cases hp0 : p = 0
  · rw [if_pos hp0] at hcases
    exact ⟨p, a1, none, _, a1, fl1, held1, hacall, hcases, h1, hf1, fun _ _ => rfl,
      Or.inl ⟨rfl, rfl, rfl, Or.inl ⟨hp0, rfl⟩⟩⟩
  · rw [if_neg hp0] at hcases
    obtain ⟨f, hobj, hnew, hfresh, h1', hprocs, hcall⟩ := hcases
    obtain ⟨as, s2, a2, fl2, held2, hmade, hnewSpace, hk2, hf2, hres⟩ :=
      hspace _ _ _ _ h1' hprocs hf1
    have hobj2 : a2.Handed f p := (hf2.handed f p hobj (by simp)).1
    have hne : ∀ q ∈ l, q ≠ p := fun q hq => (hfresh q hq).1
    have h2 : ProcInv S (setSpace p as ((initProcess p ppid (k.setKmem s1)).setKmem s2)) a2 fl2
      held2 l :=
      (h1'.frame hk2 hf2 (by simp) (by simp)).modProc hne _
    have hothers : ∀ q, q ≠ p →
        (setSpace p as ((initProcess p ppid (k.setKmem s1)).setKmem s2)).procs q = k.procs q := by
      intro q hq
      rw [setSpace, Kernel.modProc_of_ne _ _ _ hq, Kernel.setKmem_procs, initProcess_of_ne hq,
        Kernel.setKmem_procs]
    have hprocs2 := fun q hq => hothers q (hne q hq)
    have hf12 : Frame ∅ ∅ k.kmem a held s2 a2 held2 := by simpa using hf1.trans hf2
    replace hcall := hcall as s2 hmade
    by_cases has : as = 0
    · obtain ⟨a', fl', held', h', hf3, -⟩ := h2.kfree hobj2 fun q hq =>
        ⟨hne q hq, by rw [hprocs2 q hq]; exact (hfresh q hq).2⟩
      simp only [if_pos has] at hcall
      have hf : Frame ∅ {p} k.kmem a held (Mm.kfree p s2) a' held' := by
        simpa using hf12.trans hf3
      refine ⟨p, a1, none, _, a', fl', held', hacall, hcall, h', hf.drop ?_, hprocs2,
        Or.inl ⟨rfl, ?_⟩⟩
      · rintro g q rfl
        exact hnew g
      · exact ⟨rfl, rfl, Or.inr ⟨⟨a2, has ▸ hnewSpace⟩, rfl⟩⟩
    · obtain ⟨hasFresh, root, hs, hempty⟩ := hres.resolve_left has
      simp only [if_neg has] at hcall
      obtain ⟨k1, hk1, hself⟩ := initProcess_same p ppid (k.setKmem s1)
      have hadded : ∀ (g : Process → Process) q, q ≠ p →
        (procAdd p
          ((setSpace p as ((initProcess p ppid (k.setKmem s1)).setKmem s2)).modProc p g)).procs q =
            k.procs q := fun g q hq =>
        (update_of_ne hq _ _).trans ((Kernel.modProc_of_ne _ _ _ hq).trans (hothers q hq))
      refine ⟨p, a1, some p, _, a2, fl2, held2, hacall, hcall,
        (h2.modProc hne _).add ⟨f, hobj2⟩ hne ?_ hempty, hf12, fun q hq => hadded _ q (hne q hq),
        Or.inr ⟨rfl, hp0, rfl, rfl, hnew, hadded _, as, k1, _, fun q hq => hk1 q (hne q hq),
          hprocs2, has, fun heq => ?_, hnewSpace, fun g hg => ?_, ⟨root, hs, hempty⟩, ?_⟩⟩
      · simpa [hinherit] using hs
      · exact hasFresh f (heq ▸ hobj)
      · exact hasFresh g (hf1.handed g as hg (by simp)).1
      · rw [procAdd_same, Kernel.modProc_same, setSpace_same, Kernel.setKmem_procs, hself]
        rfl

/-- A process without pages can be cloned in any state that a call leaves
behind. -/
lemma ProcInv.cloneMakesSpace {parent : Nat} (h : ProcInv S k a fl held l) (hp : parent ∈ l)
    (hempty : ∀ i < 256, entryAt k.kmem.mem (k.kmem.root (k.procs parent).addrSpace) i = 0) :
    ∀ k1 a1 fl1 held1, ProcInv S k1 a1 fl1 held1 l → (∀ q ∈ l, k1.procs q = k.procs q) →
    Frame ∅ ∅ k.kmem a held k1.kmem a1 held1 → MakesSpace S k1.kmem a1 held1
      (vmmCloneAddressSpace (k1.procs parent).addrSpace k1.cr3 k1.kmem) := by
  intro k1 a1 fl1 held1 h1 hsame hf
  obtain ⟨root, hs⟩ := h1.space parent hp
  refine (h1.vmInv hs).makesSpace (fun i hi => ?_) k1.cr3
  have htop := h.top_frame h1.toKernelInv hf hp (by simp) (by omega : i < 512)
  rw [← hsame parent hp, (h1.vmInv hs).root_eq, hsame parent hp] at htop
  exact htop.trans (hempty i hi)

/-- `proc_create` returns a new process, or null when the heap or the page
allocator has no room. -/
lemma procCreate_spec (h : ProcInv S k a fl held l) :
    ∃ p a1 o k' a' fl' held', a.kmalloc sizeofProcess = some (p, a1) ∧ procCreate k = some (o, k') ∧
      ProcInv S k' a' fl' held' (o.toList ++ l) ∧
      ((o = none ∧ (p = 0 ∨ ∃ a2, a1.newSpace = some (0, a2))) ∨
        (o = some p ∧ p ≠ 0 ∧ ∃ as, as ≠ 0 ∧ a1.newSpace = some (as, a'))) := by
  obtain ⟨p, a1, o, k', a', fl', held', hacall, hcall, h', -, -, hres⟩ :=
    h.makeProcess_spec (fun _ => 0) _ (fun _ r => r) (fun _ _ => rfl)
      fun k1 _ _ _ h1 _ _ => h1.toKernelInv.makesSpace k1.cr3
  refine ⟨p, a1, o, k', a', fl', held', hacall, hcall, h', hres.imp ?_ ?_⟩
  · rintro ⟨rfl, hnot⟩
    exact ⟨rfl, hnot.why.imp And.left And.left⟩
  · rintro ⟨rfl, hp0, hmade⟩
    obtain ⟨as, -, -, -, -, has, -, hspace, -⟩ := hmade.record
    exact ⟨rfl, hp0, as, has, hspace⟩

end

/-! ## The first process -/

def zeroProcess : Process where
  pid := 0
  ppid := 0
  state := .alive
  addrSpace := 0
  mainThread := none
  uid := 0
  gid := 0
  euid := 0
  egid := 0
  cpuTimeNs := 0
  forkFrame := ⟨0, 0, 0, 0, 0, 0, 0, 0, 0, 0, 0, 0, 0, 0, 0, 0, 0, 0, 0, 0, 0, 0⟩
  next := none

def bootKernel (pmm : Pmm) (mem : WordMem) : Kernel where
  kmem := ⟨pmm, mem, fun _ _ => 0⟩
  sched := bootState 0 0
  process _ := none
  procs _ := zeroProcess
  kNextPid := 1
  kProcessList := none
  kProcessCount := 0
  cr3 := 0

/-- `p` is the process of the thread that runs, and `threads` records of
the pool have been handed out. -/
def Kernel.running (k : Kernel) (p threads : Nat) : Kernel :=
  { k with sched := { k.sched with kNextTcbIndex := threads }, process := fun _ => some p }

lemma bootKernel_inv {entries : List MemmapEntry} {hhdm : Nat} {ram : Nat → PageFrame} {pmm : Pmm}
    (hm : MachineOk entries hhdm ram) (hinit : pmmInit entries hhdm ram = some pmm)
    (mem : WordMem) :
    ∃ fl held, ProcInv pmm.freePages (bootKernel pmm mem) (AHeap.start pmm) fl held [] := by
  obtain ⟨href, hpages⟩ := hm.start hinit mem
  obtain ⟨fl, hsys⟩ := href.inv
  exact ⟨fl, _, ⟨hsys.rep, hsys.inv, fun f hf => (hpages f hf).1⟩, rfl, by simp, by simp, by simp⟩

/-- `r` is the first record with the heap then, `t` the first address space. -/
lemma exists_firstProcess {entries : List MemmapEntry} {hhdm : Nat} {ram : Nat → PageFrame}
    {pmm : Pmm} {r t : Nat × AHeap} (hm : MachineOk entries hhdm ram)
    (hinit : pmmInit entries hhdm ram = some pmm)
    (hproc : (AHeap.start pmm).kmalloc sizeofProcess = some r) (hr : r.1 ≠ 0)
    (hspace : r.2.newSpace = some t) (ht : t.1 ≠ 0) (mem : WordMem) (threads : Nat) :
    ∃ k fl held, procCreate (bootKernel pmm mem) = some (some r.1, k) ∧
    ProcInv pmm.freePages (k.running r.1 threads) t.2 fl held [r.1] := by
  obtain ⟨fl0, held0, h⟩ := bootKernel_inv hm hinit mem
  obtain ⟨p, a1, o, k, a, fl, held, hproc', hcall, hinv, hcases⟩ := procCreate_spec h
  obtain rfl := Option.mem_unique hproc hproc'
  cases hcases with
  | inl hnone =>
    cases hnone.2 with
    | inl h0 => exact absurd h0 hr
    | inr hno =>
      obtain ⟨a2, hno⟩ := hno
      obtain rfl := Option.mem_unique hspace hno
      exact absurd rfl ht
  | inr hgot =>
    obtain ⟨rfl, -, as, -, hspace'⟩ := hgot
    obtain rfl := Option.mem_unique hspace hspace'
    exact ⟨k, fl, held, hcall, hinv.congr rfl rfl fun _ _ => rfl⟩

/-! On the machine with sixteen pages. -/

/-- The first process's record there, and the heap after it was made. -/
def forkRecord : Nat × AHeap := ((AHeap.start forkStart).kmalloc sizeofProcess).get (by decide)

lemma kmalloc_forkStart : (AHeap.start forkStart).kmalloc sizeofProcess = some forkRecord :=
  (Option.some_get _).symm

def forkFirst : Nat × AHeap := forkRecord.2.newSpace.get (by decide)

lemma newSpace_forkRecord : forkRecord.2.newSpace = some forkFirst :=
  (Option.some_get _).symm

lemma firstProcess_forkMap (threads : Nat) : ∃ k fl held,
    procCreate (bootKernel forkStart fun _ => 0) = some (some forkRecord.1, k) ∧
    ProcInv forkStart.freePages (k.running forkRecord.1 threads) forkFirst.2 fl held
      [forkRecord.1] :=
  exists_firstProcess forkMap_ok pmmInit_forkMap kmalloc_forkStart (by decide)
    newSpace_forkRecord (by decide) _ threads

end VortexOS.Proc
