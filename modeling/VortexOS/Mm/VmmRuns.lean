/-
VortexOS.Mm.VmmRuns — building an address space.

What `vmm_create_address_space` returns depends on the allocators'
bookkeeping alone: `AHeap.newSpace` computes it without looking at memory.

An address space is then built by a run of calls (`VmOp`). `Built` says
that a state was reached in this way on a machine whose allocators were
started by `pmm_init` and used legally before, and `Built.inv` that
`VmInv` holds in every such state.
-/
import VortexOS.Mm.HeapRuns
import VortexOS.Mm.VmmTheorems

namespace VortexOS.Mm

open Function Lib

variable {S : Set Nat} {s s' : Kmem} {a : AHeap} {fl : Nat → List Nat} {held : Set Block}
  {m : WordMem} {root as hhdm f : Nat} {p : List Nat} {entries : List MemmapEntry}
  {ram : Nat → PageFrame} {pmm : Pmm}

/-! ## `vmm_create_address_space` -/

/-- The address space that is returned, and the heap afterwards. -/
def AHeap.newSpace (a : AHeap) : Option (Nat × AHeap) :=
  match pmmAllocPage a.pmm with
  | none => none
  | some (phys, pmm) =>
    if phys = 0 then some (0, { a with pmm := pmm })
    else AHeap.kmalloc sizeofAddressSpace { a with pmm := pmm }

structure NewSpace (S : Set Nat) (s : Kmem) (a : AHeap) (held : Set Block) (as root : Nat)
    (s' : Kmem) (a' : AHeap) (fl' : Nat → List Nat) (held' : Set Block) : Prop where
  inv : VmInv S s' a' fl' held' as root
  empty : ∀ i < 256, entryAt s'.mem root i = 0
  fresh : (⟨0, root⟩ : Block) ∉ held
  heldEq : held' = insert ⟨0, root⟩ held ∪ a'.slabBlocks
  newSlab : ∀ g ∈ a'.slabs, g ∉ a.slabs → (⟨0, g⟩ : Block) ∉ (insert ⟨0, root⟩ held : Set Block)
  mem : ∀ w, w / 512 ∉ a'.slabs → w / 512 ≠ root → s'.mem w = s.mem w
  hhdm : a'.hhdm = a.hhdm
  others : ∀ f p, a.Handed f p → a'.Handed f p ∧ s'.pml4 p = s.pml4 p

lemma tableAt_of_empty (h : ∀ i < 256, entryAt m root i = 0) (hp : UserPath p) (hne : p ≠ []) :
    tableAt m root p = none := by
  cases p with
  | nil => exact absurd rfl hne
  | cons i p =>
    rw [tableAt_cons, h i (hp.2 i rfl)]
    rfl

lemma eq_nil_of_empty {t : Nat} (h : ∀ i < 256, entryAt m root i = 0) (hp : UserPath p)
    (ht : tableAt m root p = some t) : p = [] := by
  by_contra hne
  rw [tableAt_of_empty h hp hne] at ht
  cases ht

lemma spaceInv_of_empty (hobj : ∃ f, a.Handed f as) (hpml4 : s.pml4 as = pagePtr a.hhdm root)
    (hroot : (⟨0, root⟩ : Block) ∈ held ∧ root ∉ a.slabs)
    (hempty : ∀ i < 256, entryAt s.mem root i = 0) : SpaceInv s a held as root := by
  refine ⟨hobj, hpml4, ?_, ?_⟩
  · rintro t ⟨p, hp, ht⟩
    obtain rfl := eq_nil_of_empty hempty hp.1 ht
    obtain rfl : root = t := Option.some.inj ht
    exact hroot
  · intro p hp q hq t ht hqt
    rw [eq_nil_of_empty hempty hp.1 ht, eq_nil_of_empty hempty hq.1 hqt]

lemma newPml4_spec (hs : s.hhdm = hhdm) (hok : PageOk hhdm root) (cr3 : Nat)
    (hs' : s' = (s.zeroTable (pagePtr hhdm root)).copyEntries (List.range' 256 256) cr3
      (pagePtr hhdm root)) :
    StoresTo {w | w / 512 = root} s s' ∧ ∀ i < 256, entryAt s'.mem root i = 0 := by
  obtain ⟨hzst, hzero⟩ := zeroTable_spec hs hok
  have hlt : ∀ i ∈ List.range' 256 256, i < 512 := by
    intro i hi
    rw [List.mem_range'_1] at hi
    omega
  have hcst := copyEntries_stores (hzst.hhdm.trans hs) hok.pointsTo hlt cr3
  rw [← hs'] at hcst
  constructor
  · exact (hzst.mono fun w hw => hw.1).trans (hcst.mono fun w hw => hw.1)
  · intro i hi
    have hkeep : s'.mem (root * 512 + i) =
      (s.zeroTable (pagePtr hhdm root)).mem (root * 512 + i) := by
      refine hcst.mem _ fun hin => ?_
      have hmem := List.mem_range'_1.mp hin.2
      omega
    rw [entryAt, hkeep]
    exact hzero i (by omega)
lemma KernelInv.initSpace (h : KernelInv S s a fl held) {v : Nat} (hobj : a.Handed f as)
    (hsize : objectSize (a.cacheOf f) = sizeofAddressSpace) (hv : v < 2 ^ 64)
    (hs' : s' = (s.store as v).store (as + 8) 0) :
    KernelInv S s' a fl held ∧ s'.pml4 as = v ∧ (∀ w, w / 512 ≠ f → s'.mem w = s.mem w) ∧
    ∀ g p, a.Handed g p → p ≠ as → s'.pml4 p = s.pml4 p := by
  obtain ⟨k, h5, h512, hptr, hword⟩ := h.inv.object_word hobj.slab hobj.object
  obtain ⟨i, l, hl⟩ := hobj.slab
  obtain ⟨hi, hc⟩ := h.inv.cache i l f hl
  obtain ⟨k', _, hptr', hend⟩ := mem_objects hi (hc ▸ hobj.object)
  rw [hc] at hsize
  rw [hsize] at hend
  have hkk : k' = k := by omega
  subst hkk
  have hok := h.inv.page f hobj.slab
  simp only [pageSize, sizeofAddressSpace] at hend
  have hw0 : s.wordAt as = f * 512 + k' := by rw [Kmem.wordAt, h.hhdm, hword]
  have hw1 : (s.store as v).wordAt (as + 8) = f * 512 + k' + 1 := by
    have hoff : as + 8 = pagePtr a.hhdm f + 8 * (k' + 1) := by omega
    have hhdm : (s.store as v).hhdm = a.hhdm := h.hhdm
    rw [hoff, Kmem.wordAt_entry hhdm hok (by omega)]
    omega
  have hmem : s'.mem = update (update s.mem (f * 512 + k') (BitVec.ofNat 64 v))
      (f * 512 + k' + 1) (BitVec.ofNat 64 0) := by
    rw [hs', Kmem.store, hw1, Kmem.store, hw0]
  have hkeep : ∀ w, w ≠ f * 512 + k' → w ≠ f * 512 + k' + 1 → s'.mem w = s.mem w := by
    intro w h0 h1
    rw [hmem, update_of_ne h1, update_of_ne h0]
  have hst : s' = { s with mem := s'.mem } := by
    rw [hs']
    rfl
  have hun : ∀ j, j < 2 → Unused a (f * 512 + k' + j) := by
    intro j hj
    have hva : Unused a (sub64 (as + 8 * j) a.hhdm / 8) := h.inv.unused_of_object hobj (by omega)
      (by rw [hc, hsize, sizeofAddressSpace]; omega)
    have hsub := hok.sub64_ptr (o := 8 * (k' + j)) (by simp only [pageSize]; omega)
    rw [show as + 8 * j = pagePtr a.hhdm f + 8 * (k' + j) by omega, hsub] at hva
    rwa [show (f * pageSize + 8 * (k' + j)) / 8 = f * 512 + k' + j by
      simp only [pageSize]; omega] at hva
  refine ⟨⟨?_, h.inv, h.small⟩, ?_, fun w hw => hkeep w (by omega) (by omega), fun g p hg hne => ?_⟩
  · rw [hst]
    refine h.rep.setMem fun w hw => hkeep w (fun heq => hw ?_) (fun heq => hw ?_)
    · rw [heq]
      simpa using hun 0 (by omega)
    · rw [heq]
      exact hun 1 (by omega)
  · have hhdm : s'.hhdm = s.hhdm := by rw [hst]; rfl
    simp only [Kmem.pml4, Kmem.load, Kmem.wordAt, hhdm, h.hhdm, hword]
    rw [hmem, update_of_ne (by omega), update_self, BitVec.toNat_ofNat, Nat.mod_eq_of_lt hv]
  · -- another object's first word is neither of the two words
    have hhdm : s'.hhdm = s.hhdm := by rw [hst]; rfl
    obtain ⟨j, _, hj512, hpj, hpw⟩ := h.inv.object_word hg.slab hg.object
    simp only [Kmem.pml4, Kmem.load, Kmem.wordAt, hhdm, h.hhdm, hpw]
    have hapart : g = f → p + 16 ≤ as ∨ as + 16 ≤ p := by
      rintro rfl
      have hap := objects_apart hg.object hobj.object hne
      rw [hc, hsize] at hap
      exact hap
    rw [hkeep]
    · intro heq
      have hgf : g = f := by omega
      have := hapart hgf
      subst hgf
      omega
    · intro heq
      have hgf : g = f := by omega
      have := hapart hgf
      subst hgf
      omega

/-- The first half of `vmm_create_address_space`: without a page nothing
happens; otherwise what is left is to allocate and fill the object. -/
lemma KernelInv.newPml4 (h : KernelInv S s a fl held) (cr3 : Nat) :
    (pmmAllocPage a.pmm = some (0, a.pmm) ∧ vmmCreateAddressSpace cr3 s = some (0, s)) ∨
    ∃ root pmm fl1 s1, pmmAllocPage a.pmm = some (pfnToPhys root, pmm) ∧ pfnToPhys root ≠ 0 ∧
    KernelInv S s1 { a with pmm := pmm } fl1 (insert ⟨0, root⟩ held) ∧ Pmm.Keeps a.pmm pmm ∧
    (⟨0, root⟩ : Block) ∉ held ∧ StoresTo {w | w / 512 = root} { s with pmm := pmm } s1 ∧
    (∀ i < 256, entryAt s1.mem root i = 0) ∧
    vmmCreateAddressSpace cr3 s = (kmalloc sizeofAddressSpace s1).map fun (as, s) => if as = 0 then
      (0, s) else (as, (s.store as (pagePtr a.hhdm root)).store (as + 8) 0) := by
  unfold vmmCreateAddressSpace
  cases h.allocPage with
  | inl hnull =>
    have hpmm := pmmAllocPage_of_allocPage hnull
    rw [h.rep.pmm] at hpmm
    simp only [hnull, if_true]
    exact Or.inl ⟨hpmm, trivial⟩
  | inr hgot =>
    obtain ⟨root, pmm, fl1, halloc, hphys, hk, hkeeps, hfresh⟩ := hgot
    have hpmm := pmmAllocPage_of_allocPage halloc
    rw [h.rep.pmm] at hpmm
    have hok : PageOk a.hhdm root := h.pageOk (hk.mem_pages (Or.inl rfl))
    have hh : Kmem.hhdm { s with pmm := pmm } = a.hhdm := hkeeps.hhdm
    have hcr3 : (Kmem.zeroTable (pagePtr a.hhdm root) { s with pmm := pmm }).hhdm = a.hhdm :=
      (zeroTable_spec hh hok).1.hhdm.trans hh
    simp only [halloc, if_neg hphys, hh, hok.add64_phys, hcr3]
    obtain ⟨hst, hempty⟩ := newPml4_spec hh hok (add64 cr3 a.hhdm) rfl
    generalize Kmem.copyEntries _ _ _ (Kmem.zeroTable _ _) = s1 at hst hempty ⊢
    refine Or.inr ⟨root, pmm, fl1, s1, hpmm, hphys, ?_, hkeeps, hfresh, hst, hempty, rfl⟩
    exact hk.stores hst fun w hw => (show w / 512 = root from hw) ▸ h.fresh_not_slab hfresh

lemma createAddressSpace_spec (h : KernelInv S s a fl held) (cr3 : Nat) :
    ∃ as s' a', vmmCreateAddressSpace cr3 s = some (as, s') ∧ a.newSpace = some (as, a') ∧
    (as = 0 ∨ ∃ root fl' held', NewSpace S s a held as root s' a' fl' held') := by
  unfold AHeap.newSpace
  cases h.newPml4 cr3 with
  | inl hnull =>
    obtain ⟨hpmm, hcall⟩ := hnull
    simp only [hpmm, if_true]
    exact ⟨0, s, _, hcall, rfl, Or.inl rfl⟩
  | inr hgot =>
    obtain ⟨root, pmm, fl1, s1, hpmm, hphys, hk1, hkeeps, hfresh, hst1, hempty1, hcall⟩ := hgot
    have hroot : root ∉ a.slabs := h.fresh_not_slab hfresh
    have hok : PageOk a.hhdm root := h.pageOk (hk1.mem_pages (Or.inl rfl))
    simp only [hcall, hpmm, if_neg hphys]
    -- the heap block
    obtain ⟨as, s2, a', fl', held', hmalloc, hamalloc, hrep, hinv, hres, hmem2⟩ :=
      kmalloc_spec hk1.rep hk1.inv sizeofAddressSpace
    simp only [hmalloc, hamalloc, Option.map_some]
    cases hres with
    | null => exact ⟨0, s2, _, rfl, rfl, Or.inl rfl⟩
    | large hcache => exact absurd hcache (by decide)
    | @small i f _ _ hcache hc hnew hhanded hglobals hmono hcacheOf hslabFresh =>
      obtain rfl : 1 = i := Option.some.inj ((by decide : findCache sizeofAddressSpace = some 1)
        |>.symm.trans hcache)
      have hobj : a'.Handed f as := (hhanded f as).mpr (Or.inr ⟨rfl, rfl⟩)
      have hne : as ≠ 0 := hinv.object_ne_zero hobj
      have hhdm' : a'.hhdm = a.hhdm := hglobals.hhdm.trans hkeeps.hhdm
      have hptrLt : pagePtr a.hhdm root < 2 ^ 64 := by
        simpa using hok.ptr_lt (o := 0) (by decide)
      obtain ⟨hk3, hpml4, hmem3, hothers3⟩ := KernelInv.initSpace ⟨hrep, hinv, h.small⟩ hobj
        (by rw [hc]; decide) hptrLt rfl
      simp only [if_neg hne]
      generalize Kmem.store (Kmem.store s2 as _) _ _ = s3 at hk3 hpml4 hmem3 hothers3 ⊢
      -- the table's page is no slab
      have hroot' : root ∉ a'.slabs := fun hin =>
        hslabFresh root hin hroot (Or.inl rfl)
      have hpage : ∀ w, w / 512 ∉ a'.slabs → s3.mem w = s1.mem w := by
        intro w hw
        have hwf : w / 512 ≠ f := fun heq => hw (heq ▸ hobj.slab)
        rw [hmem3 w hwf, hmem2 w fun hin => absurd hin hw]
      have hempty : ∀ i < 256, entryAt s3.mem root i = 0 := by
        intro i hi
        have hdiv : (root * 512 + i) / 512 = root := by omega
        rw [entryAt, hpage _ (by rw [hdiv]; exact hroot')]
        exact hempty1 i hi
      refine ⟨as, s3, a', rfl, rfl, Or.inr ⟨root, fl', insert ⟨0, root⟩ held ∪ a'.slabBlocks, ?_⟩⟩
      have hspace : SpaceInv s3 a' (insert ⟨0, root⟩ held ∪ a'.slabBlocks) as root :=
        spaceInv_of_empty ⟨f, hobj⟩ (by rw [hpml4, hhdm']) ⟨Or.inl (Or.inl rfl), hroot'⟩ hempty
      refine ⟨⟨hk3, hspace⟩, hempty, hfresh, rfl, hslabFresh, ?_, hhdm', ?_⟩
      · intro w hw hwroot
        rw [hpage w hw]
        exact hst1.mem w hwroot
      · intro g p hg
        have hg' : a'.Handed g p := (hhanded g p).mpr (Or.inl (hg.setPmm hkeeps))
        have hpas : p ≠ as := by
          intro heq
          subst heq
          have hgf : g = f := hinv.object_page hobj hg'.slab hg'.object
          exact hnew (hgf ▸ hg.setPmm hkeeps)
        refine ⟨hg', (hothers3 g p hg' hpas).trans ?_⟩
        have hsame : s2.hhdm = s.hhdm := by
          rw [hrep.hhdm_eq, hhdm', h.hhdm]
        refine h.pml4_congr hg hsame fun w hw h5 => ?_
        have hwroot : w / 512 ≠ root := fun heq => hroot (heq ▸ hw)
        rw [hmem2 w fun _ => ⟨hw, h5⟩]
        exact hst1.mem w hwroot

/-! ## Runs -/

inductive VmOp where
  /-- Someone takes a page and keeps it. -/
  | alloc
  | map (virt phys : Nat) (flags : BitVec 32)
  | unmap (virt : Nat)
  | walk (virt : Nat)

def vmStep (as : Nat) (s : Kmem) : VmOp → Option Kmem
  | .alloc => s.allocPage.map Prod.snd
  | .map virt phys flags => (vmmMapPage as virt phys flags s).map Prod.snd
  | .unmap virt => some (vmmUnmapPage as virt s)
  | .walk virt => (vmmWalkPageTable as virt s).map Prod.snd

/-- The calls are for addresses of the user half. -/
def VmLegal (_ : Kmem) : VmOp → Prop
  | .alloc => True
  | .map virt _ _ => virt < 2 ^ 47
  | .unmap virt => virt < 2 ^ 47
  | .walk virt => virt < 2 ^ 47

section

variable (h : VmInv S s a fl held as root)
include h

lemma VmInv.allocPage : ∃ phys s' a' fl' held', s.allocPage = some (phys, s') ∧
    VmInv S s' a' fl' held' as root ∧ Grows root s a held s' a' held' := by
  cases h.toKernelInv.allocPage with
  | inl hnull => exact ⟨0, s, a, fl, held, hnull, h, .refl root s a held⟩
  | inr hgot =>
    obtain ⟨g, pmm, fl', halloc, _, hk, hkeeps, hfresh⟩ := hgot
    refine ⟨_, _, _, fl', _, halloc, ⟨hk, ⟨?_, ?_, ?_, h.tree⟩⟩,
      ⟨rfl, hkeeps, fun b hb => Or.inr hb, .refl root s.mem⟩⟩
    · obtain ⟨f, hf⟩ := h.object
      exact ⟨f, hf.setPmm hkeeps⟩
    · obtain ⟨f, hf⟩ := h.object
      have hhdm : AHeap.hhdm { a with pmm := pmm } = a.hhdm := hkeeps.hhdm
      rw [hhdm, ← h.pml4]
      exact h.toKernelInv.pml4_congr hf (hkeeps.hhdm.trans h.hhdm.symm) fun _ _ _ => rfl
    · intro t ht
      obtain ⟨hheld, hslab⟩ := h.owned t ht
      exact ⟨Or.inr hheld, hslab⟩

lemma VmInv.free_not_used (hf : f ∈ s.pmm.freePages) : f ∉ userTables s.mem root ∧ f ∉ a.slabs := by
  rw [h.rep.pmm, h.inv.pmmInv.mem_freePages] at hf
  constructor
  · intro ht
    exact hf.2 _ (h.owned f ht).1 (Block.base_mem_cells ⟨0, f⟩)
  · intro hs
    exact hf.2 _ (h.inv.slabHeld f hs) (Block.base_mem_cells ⟨0, f⟩)

lemma VmInv.step {op : VmOp} (hl : VmLegal s op) : ∃ s' a' fl' held', vmStep as s op = some s' ∧
    VmInv S s' a' fl' held' as root ∧ (LeavesOk s.mem root → LeavesOk s'.mem root) := by
  cases op with
  | alloc =>
    obtain ⟨phys, s', a', fl', held', hcall, h', hg⟩ := h.allocPage
    exact ⟨s', a', fl', held', by simp [vmStep, hcall], h', hg.leaves.holes⟩
  | map virt phys flags =>
    obtain ⟨ok, s', a', fl', held', hcall, h', _, _, hleaves⟩ := h.mapPage_spec hl phys flags
    exact ⟨s', a', fl', held', by simp [vmStep, hcall], h', hleaves.holes⟩
  | unmap virt =>
    obtain ⟨h', hleaves⟩ := h.unmapPage_spec hl
    exact ⟨_, a, fl, held, rfl, h', hleaves.holes⟩
  | walk virt =>
    obtain ⟨r, s', a', fl', held', hcall, h', hg, _⟩ := h.walkPageTable_spec hl
    exact ⟨s', a', fl', held', by simp [vmStep, hcall], h', hg.leaves.holes⟩

end

/-! ## From the start -/

/-- The machines the kernel runs on: the direct map holds all of physical
memory, physical addresses have at most 52 bits, and the memory that
becomes the page frames has no `private_data` at the start. -/
structure MachineOk (entries : List MemmapEntry) (hhdm : Nat) (ram : Nat → PageFrame) : Prop where
  memmap : MemmapOk entries
  offset : hhdm < 2 ^ 64
  space : physToPfn (highestAddr entries) * pageSize + hhdm ≤ 2 ^ 64
  frames : ∀ q, (ram q).privateData = 0
  phys : ∀ e ∈ entries, e.base + e.length ≤ 2 ^ 52

lemma MachineOk.single {e : MemmapEntry} {hhdm : Nat} (h : MemmapOk [e]) (hspace : hhdm < 2 ^ 64 ∧
      physToPfn (highestAddr [e]) * pageSize + hhdm ≤ 2 ^ 64 ∧ e.base + e.length ≤ 2 ^ 52) :
    MachineOk [e] hhdm fun _ => blankFrame :=
  ⟨h, hspace.1, hspace.2.1, fun _ => rfl, by simpa using hspace.2.2⟩

/-- `as` is an address space that `vmm_create_address_space` made and calls
for user-half addresses built, in a kernel whose allocators had been used
legally before. Memory had any content `mem` at the start. -/
def Built (pmm : Pmm) (mem : WordMem) (as : Nat) (s : Kmem) : Prop :=
  ∃ kops sys cr3 s1 ops, Along heapStep HeapLegal (.start pmm mem) kops ∧
    run heapStep (.start pmm mem) kops = some sys ∧
    vmmCreateAddressSpace cr3 sys.kmem = some (as, s1) ∧ as ≠ 0 ∧
    Along (vmStep as) VmLegal s1 ops ∧ run (vmStep as) s1 ops = some s

lemma listedPages_small (hok : MemmapOk entries) (hphys : ∀ e ∈ entries, e.base + e.length ≤ 2 ^ 52)
    {ms me : Nat} : ∀ f ∈ listedPages ms me entries, f < 2 ^ 40 := by
  intro f hf
  obtain ⟨e, he, _, hin, _⟩ := hf
  have hpage := (hok.region_subset he hin.1 hin.2).2
  have hle := hphys e he
  simp only [pageSize] at hpage
  omega

/-- The machine when `pmm_init` has run: every page of the allocator is
free. -/
lemma MachineOk.start (hm : MachineOk entries hhdm ram)
    (hinit : pmmInit entries hhdm ram = some pmm) (mem : WordMem) :
    Refines pmm.freePages (.start pmm mem) ⟨.start pmm, [], [], []⟩ ∧
    ∀ f ∈ pmm.freePages, f < 2 ^ 40 ∧ ∃ e ∈ entries, e.type = .usable ∧ f ∈ e.pages := by
  obtain ⟨pmm', ms, me, hinit', href⟩ :=
    refines_start hm.memmap hm.offset hm.space hm.frames mem
  obtain rfl : pmm = pmm' := Option.mem_unique hinit hinit'
  obtain ⟨fl, hsys⟩ := href.inv
  have hheld : (HeapSys.start pmm mem).held (.start pmm) = ∅ := by
    simp [HeapSys.held, HeapSys.clientBlocks, HeapSys.start, AHeap.slabBlocks, AHeap.slabs_start]
  have hpages : pmm.freePages = listedPages ms me entries := by
    ext f
    have hfree := hsys.inv.pmmInv.mem_freePages (f := f)
    rw [hheld] at hfree
    exact hfree.trans (by simp)
  rw [hpages]
  refine ⟨href, fun f hf => ⟨listedPages_small hm.memmap hm.phys f hf, ?_⟩⟩
  obtain ⟨e, he, husable, hin, _⟩ := hf
  exact ⟨e, he, husable, hm.memmap.region_subset he hin.1 hin.2⟩

lemma Built.inv {mem : WordMem} (hm : MachineOk entries hhdm ram)
    (hinit : pmmInit entries hhdm ram = some pmm) (hb : Built pmm mem as s) :
    ∃ a fl held root, VmInv pmm.freePages s a fl held as root ∧ LeavesOk s.mem root := by
  obtain ⟨kops, sys, cr3, s1, ops, hlk, hrk, hcreate, hne, hlv, hrv⟩ := hb
  obtain ⟨href, hpages⟩ := hm.start hinit mem
  -- the allocators before the address space is made
  obtain ⟨sys', hrk', x, hx⟩ := run_invariant (fun s => ∃ x, Refines pmm.freePages s x)
    (fun s op hs hl => by
      obtain ⟨x, hx⟩ := hs
      obtain ⟨s', x', hstep, _, hx'⟩ := hx.step hl
      exact ⟨s', hstep, x', hx'⟩) ⟨_, href⟩ hlk
  obtain rfl : sys = sys' := Option.mem_unique hrk hrk'
  obtain ⟨fl, hsys⟩ := hx.inv
  have hk : KernelInv _ sys.kmem x.heap fl (sys.held x.heap) :=
    ⟨hsys.rep, hsys.inv, fun f hf => (hpages f hf).1⟩
  obtain ⟨as', s', a1, hcreate', _, hres⟩ := createAddressSpace_spec hk cr3
  obtain ⟨rfl, rfl⟩ := Prod.mk.inj (Option.mem_unique hcreate hcreate')
  obtain ⟨root, fl1, held1, hnew⟩ := hres.resolve_left hne
  -- the calls that build it
  have hleaves1 : LeavesOk s1.mem root := by
    intro q i u hp hu
    obtain ⟨hq, hlen, _⟩ := pagePaths_split hp
    rw [tableAt_of_empty hnew.empty hq.1 (by intro hnil; simp [hnil] at hlen)] at hu
    cases hu
  obtain ⟨s2, hrv', a2, fl2, held2, h2, hleaves2⟩ := run_invariant
    (fun s => ∃ a fl held, VmInv pmm.freePages s a fl held as root ∧ LeavesOk s.mem root)
    (fun s op hs hl => by
      obtain ⟨a, fl, held, h, hleaves⟩ := hs
      obtain ⟨s', a', fl', held', hstep, h', hkeep⟩ := h.step hl
      exact ⟨s', hstep, a', fl', held', h', hkeep hleaves⟩)
    ⟨a1, fl1, held1, hnew.inv, hleaves1⟩ hlv
  obtain rfl : s = s2 := Option.mem_unique hrv hrv'
  exact ⟨a2, fl2, held2, root, h2, hleaves2⟩

end VortexOS.Mm
