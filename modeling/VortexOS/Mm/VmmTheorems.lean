/-
VortexOS.Mm.VmmTheorems — address spaces that the kernel builds.

`VmInv` is the invariant of a kernel with an address space. Every table of
its user half is a page taken from the page allocator for this purpose, and
no table has two paths.

`descend_spec` is the one fact about `get_or_create_next_level` that the
functions on top need; `vmmMapPage`, `vmmUnmapPage`, `vmmWalkPageTable` and
`vmmCreateAddressSpace` are shown to keep or establish the invariant.
-/
import VortexOS.Mm.HeapTheorems
import VortexOS.Mm.PmmRuns
import VortexOS.Mm.VmmTrees

namespace VortexOS.Mm

open Function Lib

variable {S W : Set Nat} {s s' s'' : Kmem} {a a' a'' : AHeap} {fl fl' : Nat → List Nat}
  {held held' held'' : Set Block} {f g t i x as root j virt : Nat} {pmm : Pmm} {m m' : WordMem}
  {leaf : List Nat → Nat → Option (BitVec 64)} {q : List Nat}

/-! ## The invariant -/

/-- The allocators are in order, and frames fit an entry's address bits. -/
structure KernelInv (S : Set Nat) (s : Kmem) (a : AHeap) (fl : Nat → List Nat)
    (held : Set Block) : Prop where
  rep : HeapRep s a
  inv : HeapInv S a fl held
  small : ∀ f ∈ S, f < 2 ^ 40

/-- `as` is an address space with the tables at `root`. -/
structure SpaceInv (s : Kmem) (a : AHeap) (held : Set Block) (as root : Nat) : Prop where
  object : ∃ f, a.Handed f as
  pml4 : s.pml4 as = pagePtr a.hhdm root
  owned : ∀ t ∈ userTables s.mem root, (⟨0, t⟩ : Block) ∈ held ∧ t ∉ a.slabs
  tree : IsTree nextFrame tablePaths (entryAt s.mem) root

structure VmInv (S : Set Nat) (s : Kmem) (a : AHeap) (fl : Nat → List Nat) (held : Set Block)
    (as root : Nat) : Prop extends KernelInv S s a fl held, SpaceInv s a held as root

namespace KernelInv

section

variable (h : KernelInv S s a fl held)
include h

lemma hhdm : s.hhdm = a.hhdm := h.rep.hhdm_eq

lemma pageOk (hf : f ∈ S) : PageOk a.hhdm f := h.inv.pageOk hf

lemma mem_pages (hf : (⟨0, f⟩ : Block) ∈ held) : f ∈ S :=
  h.inv.pmmInv.mem_pages (b := ⟨0, f⟩) hf

lemma stores (hst : StoresTo W s s') (hW : ∀ w ∈ W, w / 512 ∉ a.slabs) :
    KernelInv S s' a fl held := by
  have hrep : HeapRep { s with mem := s'.mem } a := by
    refine h.rep.setMem fun w hw => hst.mem w fun hin => ?_
    exact hw (h.inv.unused_of_notMem (hW w hin))
  have heq : ({ s with mem := s'.mem } : Kmem) = s' := by
    obtain ⟨pmm, mem, kCaches⟩ := s'
    obtain ⟨rfl, rfl, _⟩ := hst
    rfl
  exact ⟨heq ▸ hrep, h.inv, h.small⟩

lemma allocPage : s.allocPage = some (0, s) ∨
    ∃ g pmm fl', s.allocPage = some (pfnToPhys g, { s with pmm := pmm }) ∧ pfnToPhys g ≠ 0 ∧
    KernelInv S { s with pmm := pmm } { a with pmm := pmm } fl' (insert ⟨0, g⟩ held) ∧
    Pmm.Keeps a.pmm pmm ∧ (⟨0, g⟩ : Block) ∉ held := by
  unfold Kmem.allocPage
  rw [h.rep.pmm]
  cases pmmAllocPage_spec h.inv.pmmInv with
  | inl hnull =>
    rw [hnull, ← h.rep.pmm]
    exact Or.inl rfl
  | inr hgot =>
    obtain ⟨g, pmm, fl', halloc, hpmm, hk, hfresh⟩ := hgot
    have hg : g ∈ S := hpmm.mem_pages (b := ⟨0, g⟩) (Or.inl rfl)
    have hphys : pfnToPhys g ≠ 0 := (h.pageOk hg).phys_ne_zero
    rw [halloc]
    refine Or.inr ⟨g, pmm, fl', rfl, hphys, ⟨h.rep.setPmm hk, ?_, h.small⟩, hk, hfresh⟩
    exact h.inv.setPmm hpmm hk fun f hf => Or.inr (h.inv.slabHeld f hf)

end

lemma fresh_ne (hfresh : (⟨0, g⟩ : Block) ∉ held) (hf : (⟨0, f⟩ : Block) ∈ held) : f ≠ g :=
  fun heq => hfresh (heq ▸ hf)

section

variable (h : KernelInv S s a fl held)
include h

lemma fresh_not_slab (hfresh : (⟨0, g⟩ : Block) ∉ held) : g ∉ a.slabs :=
  h.inv.not_slab hfresh

lemma mem_freePages : f ∈ s.pmm.freePages ↔ f ∈ S ∧ ∀ b ∈ held, f ∉ b.cells := by
  rw [h.rep.pmm, h.inv.pmmInv.mem_freePages]

lemma not_free (hheld : (⟨0, f⟩ : Block) ∈ held) : f ∉ s.pmm.freePages := fun hin =>
  (h.mem_freePages.mp hin).2 _ hheld (Block.base_mem_cells _)

lemma freePages_subset (h' : KernelInv S s' a' fl' held') (hheld : held ⊆ held') :
    s'.pmm.freePages ⊆ s.pmm.freePages := by
  intro f hf
  rw [h'.mem_freePages] at hf
  exact h.mem_freePages.mpr ⟨hf.1, fun b hb => hf.2 b (hheld hb)⟩

lemma fresh_free (h' : KernelInv S s' a' fl' held') (hheld : held ⊆ held')
    (hg : (⟨0, g⟩ : Block) ∈ held') (hfresh : (⟨0, g⟩ : Block) ∉ held) : g ∈ s.pmm.freePages := by
  refine h.mem_freePages.mpr ⟨h'.mem_pages hg, fun b hb hin => ?_⟩
  have hne : (⟨0, g⟩ : Block) ≠ b := fun heq => hfresh (heq ▸ hb)
  exact Set.disjoint_left.mp (h'.inv.pmmInv.tiles.disjoint (Or.inr hg) (Or.inr (hheld hb)) hne)
    (Block.base_mem_cells ⟨0, g⟩) hin

end

end KernelInv

lemma pmmAllocPage_of_allocPage {t : Kmem} (h : s.allocPage = some (x, t)) :
    pmmAllocPage s.pmm = some (x, t.pmm) := by
  unfold Kmem.allocPage at h
  obtain ⟨r, hr, heq⟩ := Option.map_eq_some_iff.mp h
  obtain ⟨rfl, rfl⟩ := Prod.mk.inj heq
  exact hr

lemma KernelInv.allocPage_count (h : KernelInv S s a fl held) (hcall : s.allocPage = some (x, s')) :
    (x = 0 ↔ s.pmm.kFreePages = 0) ∧
    s.pmm.kFreePages = s'.pmm.kFreePages + if x = 0 then 0 else 1 := by
  have hpmm : PmmInv S s.pmm fl held := h.rep.pmm ▸ h.inv.pmmInv
  obtain ⟨hzero, _, hcount⟩ := pmmAllocPage_count hpmm h.inv.zero (pmmAllocPage_of_allocPage hcall)
  exact ⟨hzero, hcount⟩

lemma KernelInv.allocPage_takes (h : KernelInv S s a fl held) (hcall : s.allocPage = some (x, s'))
    (hx : x ≠ 0) : s.pmm.kFreePages = s'.pmm.kFreePages + 1 := by
  have hcount := (h.allocPage_count hcall).2
  rwa [if_neg hx] at hcount

/-! ## `get_or_create_next_level` -/

lemma getOrCreateNextLevel_spec (h : KernelInv S s a fl held) (hok : PageOk a.hhdm t)
    (hfree : t ∉ s.pmm.freePages) (hslab : t ∉ a.slabs) (hi : i < 512)
    (hnext : ∀ u, nextFrame (entryAt s.mem t i) = some u → PageOk a.hhdm u) :
    (∃ u, nextFrame (entryAt s.mem t i) = some u ∧
      getOrCreateNextLevel (pagePtr a.hhdm t) i s = some (pagePtr a.hhdm u, s)) ∨
    (nextFrame (entryAt s.mem t i) = none ∧ s.allocPage = some (0, s) ∧
      getOrCreateNextLevel (pagePtr a.hhdm t) i s = some (0, s)) ∨
    ∃ g pmm fl', nextFrame (entryAt s.mem t i) = none ∧
      s.allocPage = some (pfnToPhys g, { s with pmm := pmm }) ∧
      getOrCreateNextLevel (pagePtr a.hhdm t) i s =
        some (pagePtr a.hhdm g, { s with pmm := pmm, mem := linkTable s.mem t i g }) ∧
      KernelInv S { s with pmm := pmm, mem := linkTable s.mem t i g } { a with pmm := pmm } fl'
        (insert ⟨0, g⟩ held) ∧
      Pmm.Keeps a.pmm pmm ∧ (⟨0, g⟩ : Block) ∉ held := by
  unfold getOrCreateNextLevel
  rw [Kmem.entry_page h.hhdm hok hi]
  cases hp : present (entryAt s.mem t i) with
  | true =>
    have hframe := nextFrame_eq_some.mpr ⟨hp, rfl⟩
    rw [if_pos rfl, Kmem.tablePtr_eq h.hhdm (hnext _ hframe)]
    exact Or.inl ⟨_, hframe, rfl⟩
  | false =>
    have hframe := nextFrame_eq_none.mpr hp
    rw [if_neg (by simp)]
    cases h.allocPage with
    | inl hnull =>
      rw [hnull]
      exact Or.inr (Or.inl ⟨hframe, rfl, rfl⟩)
    | inr hgot =>
      obtain ⟨g, pmm, fl', halloc, hphys, hk', hkeeps, hfresh⟩ := hgot
      have htg : t ≠ g := fun heq =>
        hfree (heq ▸ h.fresh_free hk' (Set.subset_insert _ _) (Or.inl rfl) hfresh)
      have hh : ∀ mem, Kmem.hhdm { s with pmm := pmm, mem := mem } = a.hhdm := fun _ => hkeeps.hhdm
      have hgS : g ∈ S := hk'.mem_pages (Or.inl rfl)
      have hgok : PageOk a.hhdm g := h.pageOk hgS
      have hsmall : g < 2 ^ 40 := h.small g hgS
      -- the new table's entry, read back after the page has been zeroed
      have hread : nextFrame (newTableEntry g) = some g := nextFrame_newTable hsmall
      have hptr : Kmem.tablePtr { s with pmm := pmm, mem := linkTable s.mem t i g }
          (newTableEntry g) = pagePtr a.hhdm g := by
        have hg := (nextFrame_eq_some.mp hread).2
        rw [Kmem.tablePtr_eq (hh _) (by rw [hg]; exact hgok), hg]
      have hstep : (Kmem.setEntry { s with pmm := pmm } (pagePtr a.hhdm t) i
          (newTableEntry g)).zeroTable (pagePtr a.hhdm g) =
            { s with pmm := pmm, mem := linkTable s.mem t i g } :=
        linkTable_eq (hh _) hok hgok hi
      have hentry : Kmem.entry { s with pmm := pmm, mem := linkTable s.mem t i g }
          (pagePtr a.hhdm t) i = newTableEntry g := by
        rw [Kmem.entry_page (hh _) hok hi]
        exact entryAt_linkTable_slot hi htg
      refine Or.inr (Or.inr ⟨g, pmm, fl', hframe, halloc, ?_, ?_, hkeeps, hfresh⟩)
      · rw [halloc]
        simp only [Option.map_some, if_neg hphys, Kmem.setEntry_hhdm, hh, hgok.add64_phys]
        rw [newTableEntry] at hstep hentry hptr
        simp only [hstep, hentry, hptr]
      · have hstores : StoresTo {w | w / 512 = g ∨ w / 512 = t} { s with pmm := pmm }
            { s with pmm := pmm, mem := linkTable s.mem t i g } := by
          refine ⟨rfl, rfl, fun w hw => ?_⟩
          simp only [Set.mem_ofPred_eq, not_or] at hw
          show linkTable s.mem t i g w = s.mem w
          rw [linkTable, if_neg hw.1, if_neg (by omega)]
        refine hk'.stores hstores fun w hw => ?_
        cases hw with
        | inl hg => exact hg ▸ h.fresh_not_slab hfresh
        | inr ht' => exact ht' ▸ hslab

/-! ## The invariant through a call -/

lemma AHeap.Handed.setPmm {p : Nat} (h : a.Handed f p) (hk : Pmm.Keeps a.pmm pmm) :
    AHeap.Handed { a with pmm := pmm } f p := by
  have hhdm : AHeap.hhdm { a with pmm := pmm } = a.hhdm := hk.hhdm
  refine ⟨h.slab, ?_, h.taken⟩
  rw [hhdm]
  exact h.object

/-- `as->pml4` is a word of a slab page, after the header. -/
lemma KernelInv.pml4_congr (h : KernelInv S s a fl held) (hobj : a.Handed f as)
    (hhdm : s'.hhdm = s.hhdm) (hmem : ∀ w, w / 512 ∈ a.slabs → 5 ≤ w % 512 → s'.mem w = s.mem w) :
    s'.pml4 as = s.pml4 as := by
  obtain ⟨k, h5, h512, _, hword⟩ := h.inv.object_word hobj.slab hobj.object
  simp only [Kmem.pml4, Kmem.load, Kmem.wordAt, hhdm, h.hhdm, hword]
  have hpage : (f * 512 + k) / 512 = f := by omega
  rw [hmem _ (by rw [hpage]; exact hobj.slab) (by omega)]

/-- What a call leaves of the pages and heap objects in use. `W` are the
pages it may write to or give back, `D` the objects it gives back. -/
structure Frame (W D : Set Nat) (s : Kmem) (a : AHeap) (held : Set Block) (s' : Kmem) (a' : AHeap)
    (held' : Set Block) : Prop where
  hhdm : a'.hhdm = a.hhdm
  kept : ∀ b ∈ held, b.base ∉ W → b ∈ held'
  slabs : ∀ g ∈ a'.slabs, g ∉ a.slabs → (⟨0, g⟩ : Block) ∈ held → g ∈ W
  handed : ∀ f p, a.Handed f p → p ∉ D → a'.Handed f p ∧ s'.pml4 p = s.pml4 p
  mem : ∀ w, (⟨0, w / 512⟩ : Block) ∈ held → w / 512 ∉ a.slabs → w / 512 ∉ W → s'.mem w = s.mem w

namespace Frame

variable {W' D D' : Set Nat}

lemma refl (W D : Set Nat) (s : Kmem) (a : AHeap) (held : Set Block) :
    Frame W D s a held s a held :=
  ⟨rfl, fun _ hb _ => hb, fun _ hg hn _ => absurd hg hn, fun _ _ hp _ => ⟨hp, rfl⟩,
    fun _ _ _ _ => rfl⟩

section

variable (h : Frame W D s a held s' a' held')
include h

lemma trans (h' : Frame W' D' s' a' held' s'' a'' held'') :
    Frame (W ∪ W') (D ∪ D') s a held s'' a'' held'' := by
  have hnew : ∀ t, (⟨0, t⟩ : Block) ∈ held → t ∉ a.slabs → t ∉ W → t ∉ a'.slabs :=
    fun t ht hs hW hin => hW (h.slabs t hin hs ht)
  refine ⟨h'.hhdm.trans h.hhdm, fun b hb hW => ?_, fun g hg hn hheld => ?_, fun f p hp hD => ?_,
    fun w hw hs hW => ?_⟩
  · rw [Set.mem_union, not_or] at hW
    exact h'.kept b (h.kept b hb hW.1) hW.2
  · by_contra hW
    rw [Set.mem_union, not_or] at hW
    exact hW.2 (h'.slabs g hg (hnew g hheld hn hW.1) (h.kept _ hheld hW.1))
  · rw [Set.mem_union, not_or] at hD
    obtain ⟨hp', hpml4⟩ := h.handed f p hp hD.1
    obtain ⟨hp'', hpml4'⟩ := h'.handed f p hp' hD.2
    exact ⟨hp'', hpml4'.trans hpml4⟩
  · rw [Set.mem_union, not_or] at hW
    exact (h'.mem w (h.kept _ hw hW.1) (hnew _ hw hs hW.1) hW.2).trans (h.mem w hw hs hW.1)

lemma mono (hW : ∀ b ∈ held, b.base ∈ W → b.base ∈ W') (hD : D ⊆ D') :
    Frame W' D' s a held s' a' held' :=
  ⟨h.hhdm, fun b hb hn => h.kept b hb fun hin => hn (hW b hb hin),
    fun g hg hn hheld => hW _ hheld (h.slabs g hg hn hheld),
    fun f p hp hn => h.handed f p hp fun hin => hn (hD hin),
    fun w hw hs hn => h.mem w hw hs fun hin => hn (hW _ hw hin)⟩

lemma drop (hD : ∀ f, ∀ p ∈ D, ¬ a.Handed f p) : Frame W ∅ s a held s' a' held' :=
  ⟨h.hhdm, h.kept, h.slabs, fun f p hp _ => h.handed f p hp fun hin => hD f p hin hp, h.mem⟩

end

end Frame

/-- A call that takes pages from the allocator and stores to pages in `W`
that are no slabs, or to pages that were not in use. -/
lemma KernelInv.frame (h : KernelInv S s a fl held) (hkeeps : Pmm.Keeps a.pmm pmm)
    (hpmm : s'.pmm = pmm) (hheld : held ⊆ held')
    (hmem : ∀ w, (⟨0, w / 512⟩ : Block) ∈ held → w / 512 ∉ W → s'.mem w = s.mem w)
    (hW : ∀ t ∈ W, t ∉ a.slabs) : Frame W ∅ s a held s' { a with pmm := pmm } held' := by
  refine ⟨hkeeps.hhdm, fun b hb _ => hheld hb, fun g hg hn _ => absurd hg hn, fun f p hp _ => ?_,
    fun w hw _ hn => hmem w hw hn⟩
  have hhdm : s'.hhdm = s.hhdm := by
    rw [h.hhdm, Kmem.hhdm, hpmm]
    exact hkeeps.hhdm
  refine ⟨hp.setPmm hkeeps, h.pml4_congr hp hhdm fun w hw _ => ?_⟩
  exact hmem w (h.inv.slabHeld _ hw) fun hin => hW _ hin hw

/-- In the last tables a slot that is not present is 0. -/
def LeavesOk (m : WordMem) (root : Nat) : Prop :=
  ∀ q i t, q ++ [i] ∈ pagePaths → tableAt m root q = some t → present (entryAt m t i) = false →
    entryAt m t i = 0

/-- After a call the entries for pages are `leaf`, and the kernel half of
the PML4 is what it was. -/
structure Leaves (root : Nat) (m m' : WordMem) (leaf : List Nat → Nat → Option (BitVec 64)) :
    Prop where
  pages : ∀ q i, q ++ [i] ∈ pagePaths → leafAt m' root q i = leaf q i
  kernel : ∀ i, 256 ≤ i → i < 512 → entryAt m' root i = entryAt m root i
  holes : LeavesOk m root → LeavesOk m' root

lemma Leaves.refl (root : Nat) (m : WordMem) : Leaves root m m (leafAt m root) :=
  ⟨fun _ _ _ => rfl, fun _ _ _ => rfl, fun h => h⟩

lemma Leaves.trans {m'' : WordMem} (h : Leaves root m m' (leafAt m root))
    (h' : Leaves root m' m'' leaf) : Leaves root m m'' leaf :=
  ⟨h'.pages, fun i hi hlt => (h'.kernel i hi hlt).trans (h.kernel i hi hlt),
    fun hm => h'.holes (h.holes hm)⟩

lemma Leaves.congr {leaf' : List Nat → Nat → Option (BitVec 64)} (h : Leaves root m m' leaf)
    (heq : ∀ q i, q ++ [i] ∈ pagePaths → leaf q i = leaf' q i) : Leaves root m m' leaf' :=
  ⟨fun q i hp => (h.pages q i hp).trans (heq q i hp), h.kernel, h.holes⟩

/-- What the calls below do to the kernel's state, apart from stores to
tables: pages are taken, and no page of the user half is mapped or
unmapped. -/
structure Grows (root : Nat) (s : Kmem) (a : AHeap) (held : Set Block) (s' : Kmem) (a' : AHeap)
    (held' : Set Block) : Prop where
  heap : a' = { a with pmm := a'.pmm }
  keeps : Pmm.Keeps a.pmm a'.pmm
  held : held ⊆ held'
  leaves : Leaves root s.mem s'.mem (leafAt s.mem root)

namespace Grows

lemma refl (root : Nat) (s : Kmem) (a : AHeap) (held : Set Block) : Grows root s a held s a held :=
  ⟨rfl, .refl _, fun _ hb => hb, .refl root s.mem⟩

lemma trans (h : Grows root s a held s' a' held') (h' : Grows root s' a' held' s'' a'' held'') :
    Grows root s a held s'' a'' held'' := by
  refine ⟨?_, h.keeps.trans h'.keeps, fun b hb => h'.held (h.held hb), ?_⟩
  · rw [h'.heap, h.heap]
  · exact (h.leaves.trans h'.leaves).congr h.leaves.pages

lemma hhdm (h : Grows root s a held s' a' held') : a'.hhdm = a.hhdm := h.keeps.hhdm

end Grows

/-- The entries that lead to tables allow writing. -/
def TablesWritable (m : WordMem) (root : Nat) : Prop :=
  ∀ q i t, q ++ [i] ∈ tablePaths → tableAt m root q = some t → present (entryAt m t i) = true →
    isWrite (entryAt m t i) = true

/-- Stores go to tables of the address space at `root`, apart from the upper
half of the PML4, and to pages that were free, and new tables are such
pages. -/
structure Spread (root : Nat) (s s' : Kmem) : Prop where
  free : s'.pmm.freePages ⊆ s.pmm.freePages
  tables : userTables s'.mem root ⊆ userTables s.mem root ∪ s.pmm.freePages
  mem : ∀ w, w / 512 ∉ userTables s.mem root → w / 512 ∉ s.pmm.freePages → s'.mem w = s.mem w
  kernel : ∀ i, 256 ≤ i → i < 512 → entryAt s'.mem root i = entryAt s.mem root i

lemma Spread.refl (root : Nat) (s : Kmem) : Spread root s s :=
  ⟨Set.Subset.refl _, Set.subset_union_left, fun _ _ _ => rfl, fun _ _ _ => rfl⟩

lemma Spread.trans (h : Spread root s s') (h' : Spread root s' s'') : Spread root s s'' := by
  refine ⟨h'.free.trans h.free, fun t ht => ?_, fun w ht hfree => ?_,
    fun i hi hlt => (h'.kernel i hi hlt).trans (h.kernel i hi hlt)⟩
  · cases h'.tables ht with
    | inl hold => exact h.tables hold
    | inr hnew => exact Or.inr (h.free hnew)
  · rw [h'.mem w (fun hin => (h.tables hin).elim ht hfree) fun hin => hfree (h.free hin)]
    exact h.mem w ht hfree

/-- What a call that makes tables for the address space at `root` does to
the rest: it takes `n` pages at most, and the tables it makes were not in
use. -/
structure Growth (root n : Nat) (s : Kmem) (a : AHeap) (held : Set Block) (s' : Kmem) (a' : AHeap)
    (held' : Set Block) : Prop where
  frame : Frame (userTables s.mem root) ∅ s a held s' a' held'
  tables : ∀ b ∈ held, b.base ∈ userTables s'.mem root → b.base ∈ userTables s.mem root
  pages : s.pmm.kFreePages ≤ s'.pmm.kFreePages + n
  writable : TablesWritable s.mem root → TablesWritable s'.mem root
  keeps : held ⊆ held'
  spread : Spread root s s'

namespace Growth

variable {m n : Nat}

lemma refl (root n : Nat) (s : Kmem) (a : AHeap) (held : Set Block) :
    Growth root n s a held s a held :=
  ⟨.refl _ _ s a held, fun _ _ ht => ht, Nat.le_add_right _ _, fun hw => hw,
    fun _ hb => hb, .refl root s⟩

lemma trans (h : Growth root m s a held s' a' held')
    (h' : Growth root n s' a' held' s'' a'' held'') :
    Growth root (m + n) s a held s'' a'' held'' := by
  refine ⟨(h.frame.trans h'.frame).mono (fun b hb hin => ?_) (by simp), fun b hb hin => ?_, ?_,
    fun hw => h'.writable (h.writable hw), fun b hb => h'.keeps (h.keeps hb),
      h.spread.trans h'.spread⟩
  · cases hin with
    | inl hold => exact hold
    | inr hnew => exact h.tables b hb hnew
  · exact h.tables b hb (h'.tables b (h.keeps hb) hin)
  · have hm := h.pages
    have hn := h'.pages
    omega

end Growth

/-! ## Walking without creating tables -/

section

variable {hhdm : Nat}

lemma findTable_eq (hs : s.hhdm = hhdm) (hok : ∀ f ∈ S, PageOk hhdm f)
    (hsub : userTables s.mem root ⊆ S) :
    ∀ (is : List Nat) {q : List Nat} {t : Nat}, q ++ is ∈ tablePaths → tableAt s.mem root q =
      some t → findTable is (pagePtr hhdm t) s = (tableAt s.mem t is).map (pagePtr hhdm) := by
  intro is
  induction is with
  | nil =>
    intro q t _ _
    rfl
  | cons i is ih =>
    intro q t hq ht
    obtain ⟨hqP, hi⟩ := tablePaths_within hq q i is rfl
    have htok := hok t (hsub ⟨q, hqP, ht⟩)
    unfold findTable
    rw [Kmem.entry_page hs htok hi, tableAt_cons]
    cases hp : present (entryAt s.mem t i) with
    | false =>
      rw [nextFrame_eq_none.mpr hp]
      rfl
    | true =>
      have hframe := nextFrame_eq_some.mpr ⟨hp, rfl⟩
      have hqi : tableAt s.mem root (q ++ [i]) = some (frameOf (entryAt s.mem t i)) := by
        rw [tableAt_concat, ht]
        exact hframe
      have hsplit : q ++ i :: is = q ++ [i] ++ is := by simp
      rw [hsplit] at hq
      have hqiP : q ++ [i] ∈ tablePaths := tablePaths_of_prefix ⟨is, rfl⟩ hq
      rw [hframe, if_pos rfl, Kmem.tablePtr_eq hs (hok _ (hsub ⟨q ++ [i], hqiP, hqi⟩))]
      exact ih hq hqi

lemma descend_present (hs : s.hhdm = hhdm) : ∀ (is : List Nat) {t u : Nat}, (∀ i ∈ is, i < 512) →
    (∀ p, p <+: is → ∀ v, tableAt s.mem t p = some v → PageOk hhdm v) →
    tableAt s.mem t is = some u → descend is (pagePtr hhdm t) s = some (pagePtr hhdm u, s) := by
  intro is
  induction is with
  | nil =>
    intro t u _ _ hu
    rw [← Option.some.inj hu]
    rfl
  | cons i is ih =>
    intro t u hlt hok hu
    have htok := hok [] List.nil_prefix t rfl
    rw [tableAt_cons] at hu
    obtain ⟨v, hv, hvu⟩ := Option.bind_eq_some_iff.mp hu
    obtain ⟨hp, hframe⟩ := nextFrame_eq_some.mp hv
    have hstep : ∀ p, tableAt s.mem t (i :: p) = tableAt s.mem v p := by
      intro p
      rw [tableAt_cons, hv]
      rfl
    have hrest : ∀ p, p <+: is → ∀ w, tableAt s.mem v p = some w → PageOk hhdm w := by
      intro p hpre w hw
      exact hok (i :: p) (List.cons_prefix_cons.mpr ⟨rfl, hpre⟩) w ((hstep p).trans hw)
    have hvok := hrest [] List.nil_prefix v rfl
    have hptr : s.tablePtr (entryAt s.mem t i) = pagePtr hhdm v := by
      rw [Kmem.tablePtr_eq hs (by rw [hframe]; exact hvok), hframe]
    unfold descend getOrCreateNextLevel
    rw [Kmem.entry_page hs htok (hlt i (by simp)), if_pos hp, hptr]
    simp only [if_neg hvok.ptr_ne_zero]
    exact ih (fun j hj => hlt j (by simp [hj])) hrest hvu

end

namespace VmInv

section

variable (h : VmInv S s a fl held as root)
include h

lemma table {p : List Nat} (hp : p ∈ tablePaths) (ht : tableAt s.mem root p = some t) :
    (⟨0, t⟩ : Block) ∈ held ∧ t ∉ a.slabs ∧ t ∈ S := by
  obtain ⟨hheld, hslab⟩ := h.owned t ⟨p, hp, ht⟩
  exact ⟨hheld, hslab, h.toKernelInv.mem_pages hheld⟩

lemma mem_of_table (ht : t ∈ userTables s.mem root) : t ∈ S :=
  h.toKernelInv.mem_pages (h.owned t ht).1

lemma emptySlot (hqi : q ++ [i] ∈ tablePaths) (ht : tableAt s.mem root q = some t)
    (hnone : nextFrame (entryAt s.mem t i) = none) (hg : g ∈ S) (hfresh : (⟨0, g⟩ : Block) ∉ held) :
    EmptySlot tablePaths s.mem root q t i g where
  tree := h.tree
  within _ hp := tablePaths_within hp
  path := hqi
  table := ht
  empty := hnone
  fresh p hp u hu := KernelInv.fresh_ne hfresh (h.owned u ⟨p, hp, hu⟩).1
  small := h.small g hg

lemma link (hslot : EmptySlot tablePaths s.mem root q t i g)
    (hk : KernelInv S { s with pmm := pmm, mem := linkTable s.mem t i g } { a with pmm := pmm } fl'
      (insert ⟨0, g⟩ held))
    (hkeeps : Pmm.Keeps a.pmm pmm) (hfresh : (⟨0, g⟩ : Block) ∉ held) :
    VmInv S { s with pmm := pmm, mem := linkTable s.mem t i g } { a with pmm := pmm } fl'
      (insert ⟨0, g⟩ held) as root := by
  obtain ⟨-, htslab, -⟩ := h.table hslot.mem hslot.table
  have hgslab := h.toKernelInv.fresh_not_slab hfresh
  obtain ⟨f, hf⟩ := h.object
  refine ⟨hk, ⟨⟨f, hf.setPmm hkeeps⟩, ?_, ?_, hslot.isTree⟩⟩
  · have hhdm : AHeap.hhdm { a with pmm := pmm } = a.hhdm := hkeeps.hhdm
    rw [hhdm, ← h.pml4]
    refine h.toKernelInv.pml4_congr hf (hkeeps.hhdm.trans h.hhdm.symm) fun w hw _ => ?_
    exact linkTable_of_ne hslot.index (fun heq => hgslab (heq ▸ hw)) fun heq => htslab (heq ▸ hw)
  · rintro u ⟨p, hp, hu⟩
    cases hslot.table_cases hp hu with
    | inl hnew =>
      rw [hnew.2]
      exact ⟨Or.inl rfl, hgslab⟩
    | inr hold =>
      obtain ⟨hin, hout⟩ := h.owned u ⟨p, hp, hold⟩
      exact ⟨Or.inr hin, hout⟩

end

end VmInv

section

variable (hslot : EmptySlot tablePaths m root q t i g)
include hslot

/-- The upper half of the PML4 has no slots for tables of the user half. -/
lemma EmptySlot.kernel (h256 : 256 ≤ j) (hj : j < 512) :
    entryAt (linkTable m t i g) root j = entryAt m root j := by
  refine entryAt_linkTable_of_ne hslot.index hj (hslot.fresh [] tablePaths_nil root rfl)
    fun heq => ?_
  have hnil : [] = q := hslot.tree [] tablePaths_nil q hslot.mem root rfl (heq.1 ▸ hslot.table)
  have hpath := hslot.path
  rw [← hnil] at hpath
  have hi256 : i < 256 := hpath.1.2 i rfl
  omega

lemma EmptySlot.notLast {q' : List Nat} (hp : q' ++ [j] ∈ pagePaths) : q' ≠ q := by
  rintro rfl
  have hlen := hslot.path.2
  rw [List.length_append, (pagePaths_split hp).2.1] at hlen
  simp at hlen

lemma EmptySlot.leaves : Leaves root m (linkTable m t i g) (leafAt m root) where
  pages q' j hp := by
    obtain ⟨hq', -, hj⟩ := pagePaths_split hp
    exact hslot.leafAt_link hq' (hslot.notLast hp) hj
  kernel j h256 hj := hslot.kernel h256 hj
  holes hleaves q' j u hp hu habs := by
    obtain ⟨hq', -, hj⟩ := pagePaths_split hp
    cases hslot.table_cases hq' hu with
    | inl hnew =>
      rw [hnew.2]
      exact entryAt_linkTable_new hj
    | inr hold =>
      rw [hslot.entryAt_link hq' hold (hslot.notLast hp) hj] at habs ⊢
      exact hleaves q' j u hp hold habs

lemma EmptySlot.writable (hw : TablesWritable m root) :
    TablesWritable (linkTable m t i g) root := by
  intro q' j u hqj hu hpres
  obtain ⟨hq', hj⟩ := tablePaths_within hqj q' j [] rfl
  cases hslot.table_cases hq' hu with
  | inl hnew =>
    rw [hnew.2, entryAt_linkTable_new hj] at hpres
    exact absurd hpres (by decide)
  | inr hold =>
    have hug := hslot.fresh q' hq' u hold
    by_cases heq : u = t ∧ j = i
    · rw [heq.1, heq.2, entryAt_linkTable_slot hslot.index (heq.1 ▸ hug)]
      exact isWrite_newTableEntry g
    · rw [entryAt_linkTable_of_ne hslot.index hj hug heq] at hpres ⊢
      exact hw q' j u hqj hold hpres

end

namespace VmInv

lemma link_growth (h : VmInv S s a fl held as root)
    (hslot : EmptySlot tablePaths s.mem root q t i g)
    (hk : KernelInv S { s with pmm := pmm, mem := linkTable s.mem t i g } { a with pmm := pmm } fl'
      (insert ⟨0, g⟩ held))
    (hkeeps : Pmm.Keeps a.pmm pmm) (hfresh : (⟨0, g⟩ : Block) ∉ held)
    (hcount : s.pmm.kFreePages = pmm.kFreePages + 1) :
    Growth root 1 s a held { s with pmm := pmm, mem := linkTable s.mem t i g } { a with pmm := pmm }
      (insert ⟨0, g⟩ held) := by
  have htable : t ∈ userTables s.mem root := ⟨q, hslot.mem, hslot.table⟩
  have hgfree := h.toKernelInv.fresh_free hk (Set.subset_insert _ _) (Or.inl rfl) hfresh
  have hsub := h.toKernelInv.freePages_subset hk (Set.subset_insert _ _)
  refine ⟨?_, ?_, Nat.le_of_eq hcount, hslot.writable, Set.subset_insert _ _,
    hsub, ?_, fun w hwt hwf => ?_, fun j h256 hj => hslot.kernel h256 hj⟩
  · refine h.toKernelInv.frame hkeeps rfl (fun b hb => Or.inr hb) (fun w hw hn => ?_)
      fun u hu => (h.owned u hu).2
    exact linkTable_of_ne hslot.index (fun heq => hfresh (heq ▸ hw)) fun heq => hn (heq ▸ htable)
  · rintro b hb ⟨p, hp, hpu⟩
    cases hslot.table_cases hp hpu with
    | inl hnew =>
      -- a block in use that starts at the new page would be the new block
      have hb' := hk.inv.pmmInv.held_eq (Or.inr hb) (Or.inl rfl : (⟨0, g⟩ : Block) ∈ _) hnew.2
      exact absurd (hb' ▸ hb) hfresh
    | inr hold => exact ⟨p, hp, hold⟩
  · rintro u ⟨p, hp, hpu⟩
    cases hslot.table_cases hp hpu with
    | inl hnew => exact Or.inr (hnew.2 ▸ hgfree)
    | inr hold => exact Or.inl ⟨p, hp, hold⟩
  · exact linkTable_of_ne hslot.index (fun heq => hwf (heq ▸ hgfree)) fun heq => hwt (heq ▸ htable)

lemma nextLevel (h : VmInv S s a fl held as root) (hqi : q ++ [i] ∈ tablePaths)
    (ht : tableAt s.mem root q = some t) : ∃ r s' a' fl' held',
      getOrCreateNextLevel (pagePtr a.hhdm t) i s = some (r, s') ∧ VmInv S s' a' fl' held' as root ∧
    Grows root s a held s' a' held' ∧ Growth root 1 s a held s' a' held' ∧
    ((r = 0 ∧ tableAt s'.mem root (q ++ [i]) = none ∧ s'.pmm.kFreePages = 0) ∨
      ∃ u, r = pagePtr a.hhdm u ∧ r ≠ 0 ∧ tableAt s'.mem root (q ++ [i]) = some u) := by
  have hq : q ∈ tablePaths := (tablePaths_within hqi q i [] rfl).1
  have hi : i < 512 := (tablePaths_within hqi q i [] rfl).2
  obtain ⟨htheld, htslab, _⟩ := h.table hq ht
  have hnext : ∀ u, nextFrame (entryAt s.mem t i) = some u →
      tableAt s.mem root (q ++ [i]) = some u := by
    intro u hu
    rw [tableAt_concat, ht]
    exact hu
  cases getOrCreateNextLevel_spec h.toKernelInv (h.pageOk (h.mem_pages htheld)) (h.not_free htheld)
      htslab hi fun u hu => h.pageOk (h.table hqi (hnext u hu)).2.2 with
  | inl hfound =>
    obtain ⟨u, hu, hcall⟩ := hfound
    have hok := h.pageOk (h.table hqi (hnext u hu)).2.2
    exact ⟨_, s, a, fl, held, hcall, h, .refl root s a held, .refl root 1 s a held,
      Or.inr ⟨u, rfl, hok.ptr_ne_zero, hnext u hu⟩⟩
  | inr hrest =>
    cases hrest with
    | inl hnull =>
      refine ⟨0, s, a, fl, held, hnull.2.2, h, .refl root s a held, .refl root 1 s a held,
        Or.inl ⟨rfl, ?_, (h.toKernelInv.allocPage_count hnull.2.1).1.mp rfl⟩⟩
      rw [tableAt_concat, ht]
      exact hnull.1
    | inr hnew =>
      obtain ⟨g, pmm, fl', hnone, halloc, hcall, hk, hkeeps, hfresh⟩ := hnew
      have hg : g ∈ S := hk.mem_pages (Or.inl rfl)
      have hslot := h.emptySlot hqi ht hnone hg hfresh
      have hok := h.pageOk hg
      have hcount := h.toKernelInv.allocPage_takes halloc hok.phys_ne_zero
      refine ⟨_, _, _, fl', _, hcall, h.link hslot hk hkeeps hfresh, ⟨rfl, hkeeps,
        fun b hb => Or.inr hb, hslot.leaves⟩, h.link_growth hslot hk hkeeps hfresh hcount,
        Or.inr ⟨g, rfl, hok.ptr_ne_zero, ?_⟩⟩
      exact hslot.tableAt_new

lemma descend_spec (is : List Nat) (h : VmInv S s a fl held as root) (hq : q ++ is ∈ tablePaths)
    (ht : tableAt s.mem root q = some t) : ∃ r s' a' fl' held',
      descend is (pagePtr a.hhdm t) s = some (r, s') ∧ VmInv S s' a' fl' held' as root ∧
    Grows root s a held s' a' held' ∧ Growth root is.length s a held s' a' held' ∧
    ((r = 0 ∧ tableAt s'.mem root (q ++ is) = none ∧ s'.pmm.kFreePages = 0) ∨
      ∃ u, r = pagePtr a.hhdm u ∧ r ≠ 0 ∧ tableAt s'.mem root (q ++ is) = some u) := by
  induction is generalizing s a fl held q t with
  | nil =>
    rw [List.append_nil] at hq ⊢
    have hok := h.pageOk (h.table hq ht).2.2
    exact ⟨_, s, a, fl, held, rfl, h, .refl root s a held, .refl root _ s a held,
      Or.inr ⟨t, rfl, hok.ptr_ne_zero, ht⟩⟩
  | cons i is ih =>
    have hsplit : q ++ i :: is = q ++ [i] ++ is := by simp
    rw [hsplit] at hq ⊢
    have hqi : q ++ [i] ∈ tablePaths := tablePaths_of_prefix ⟨is, rfl⟩ hq
    obtain ⟨r, s1, a1, fl1, held1, hcall, h1, hg1, hgr1, hres⟩ := h.nextLevel hqi ht
    unfold descend
    rw [hcall]
    cases hres with
    | inl hnull =>
      refine ⟨0, s1, a1, fl1, held1, by simp [hnull.1], h1, hg1, ?_, Or.inl ⟨rfl, ?_, hnull.2.2⟩⟩
      · rw [List.length_cons, Nat.add_comm]
        exact hgr1.trans (.refl root _ s1 a1 held1)
      · rw [show tableAt s1.mem root (q ++ [i] ++ is) = _ from walk_append root _ is,
          show walk _ _ _ (q ++ [i]) = none from hnull.2.1]
        rfl
    | inr hgot =>
      obtain ⟨u, hptr, hne, hu⟩ := hgot
      obtain ⟨r', s', a', fl', held', hdesc, h', hg', hgr', hres'⟩ := ih h1 hq hu
      rw [hg1.hhdm] at hdesc hres'
      refine ⟨r', s', a', fl', held', ?_, h', hg1.trans hg', ?_, hres'⟩
      · simp only [if_neg hne]
        rw [hptr]
        exact hdesc
      · rw [List.length_cons, Nat.add_comm]
        exact hgr1.trans hgr'

lemma leafSlot (h : VmInv S s a fl held as root) (hq : q ∈ tablePaths) (hlen : q.length = 3)
    (ht : tableAt s.mem root q = some t) (hi : i < 512) : LeafSlot tablePaths s.mem root q t i where
  tree := h.tree
  within _ hp := tablePaths_within hp
  last _ hp := hlen ▸ hp.2
  path := hq
  table := ht
  index := hi

end VmInv

section

variable (hslot : LeafSlot tablePaths m root q t i) (hlen : q.length = 3)
include hslot hlen

lemma LeafSlot.kernel (e : BitVec 64) (hj : j < 512) :
    entryAt (update m (t * 512 + i) e) root j = entryAt m root j := by
  rw [hslot.entryAt_set e tablePaths_nil rfl hj, if_neg]
  rintro ⟨rfl, -⟩
  cases hlen

lemma LeafSlot.writable (e : BitVec 64) (hw : TablesWritable m root) :
    TablesWritable (update m (t * 512 + i) e) root := by
  intro q' j u hqj hu hpres
  obtain ⟨hq', hj⟩ := tablePaths_within hqj q' j [] rfl
  rw [hslot.tableAt_set e hq'] at hu
  -- the slot's table is one level too low
  have hne : ¬ (q' = q ∧ j = i) := by
    rintro ⟨rfl, -⟩
    have hlen' := hqj.2
    rw [List.length_append, hlen, List.length_singleton] at hlen'
    omega
  rw [hslot.entryAt_set e hq' hu hj, if_neg hne] at hpres ⊢
  exact hw q' j u hqj hu hpres

lemma LeafSlot.leaves {e : BitVec 64} (he : present e = false → e = 0) :
    Leaves root m (update m (t * 512 + i) e) fun q' j => if q' = q ∧ j = i then
      (if present e then some e else none) else leafAt m root q' j where
  pages q' j hp := by
    obtain ⟨hq', -, hj⟩ := pagePaths_split hp
    exact hslot.leafAt_set e hq' hj
  kernel j _ hj := hslot.kernel hlen e hj
  holes hleaves q' j u hp hu habs := by
    obtain ⟨hq', -, hj⟩ := pagePaths_split hp
    rw [hslot.tableAt_set e hq'] at hu
    rw [hslot.entryAt_set e hq' hu hj] at habs ⊢
    split at habs
    · rename_i hset
      rw [if_pos hset]
      exact he habs
    · rename_i hset
      rw [if_neg hset]
      exact hleaves q' j u hp hu habs

end

namespace VmInv

section

variable (h : VmInv S s a fl held as root)
include h

lemma setLeaf_growth (hq : q ∈ tablePaths) (hlen : q.length = 3)
    (ht : tableAt s.mem root q = some t) (hi : i < 512) (e : BitVec 64) :
    Growth root 0 s a held { s with mem := update s.mem (t * 512 + i) e } a held := by
  have hslot := h.leafSlot hq hlen ht hi
  have htable : t ∈ userTables s.mem root := ⟨q, hq, ht⟩
  have hst := storesTo_slot s t hi e
  have htables : userTables (update s.mem (t * 512 + i) e) root = userTables s.mem root :=
    tables_congr fun p hp => hslot.tableAt_set e hp
  refine ⟨?_, fun b _ hu => ?_, Nat.le_refl _, hslot.writable hlen e, fun _ hb => hb,
    Set.Subset.refl _, fun u hu => ?_, fun w hwt _ => ?_, fun j _ hj => hslot.kernel hlen e hj⟩
  · exact h.toKernelInv.frame (.refl _) h.rep.pmm (fun _ hb => hb)
      (fun w _ hn => hst.mem w fun hin => hn ((show w / 512 = t from hin) ▸ htable))
      fun u hu => (h.owned u hu).2
  · rwa [htables] at hu
  · rw [htables] at hu
    exact Or.inl hu
  · exact hst.mem w fun hin => hwt ((show w / 512 = t from hin) ▸ htable)

lemma setLeaf (hq : q ∈ tablePaths) (hlen : q.length = 3) (ht : tableAt s.mem root q = some t)
    (hi : i < 512) (e : BitVec 64) :
    VmInv S { s with mem := update s.mem (t * 512 + i) e } a fl held as root ∧
    ((present e = false → e = 0) → Leaves root s.mem (update s.mem (t * 512 + i) e) fun q' j =>
      if q' = q ∧ j = i then (if present e then some e else none) else leafAt s.mem root q' j) := by
  have hslot := h.leafSlot hq hlen ht hi
  have hst := storesTo_slot s t hi e
  obtain ⟨-, htslab, -⟩ := h.table hq ht
  obtain ⟨f, hf⟩ := h.object
  refine ⟨⟨?_, ⟨⟨f, hf⟩, ?_, ?_, ?_⟩⟩, fun he => hslot.leaves hlen he⟩
  · exact h.toKernelInv.stores hst fun w hw => (show w / 512 = t from hw) ▸ htslab
  · rw [← h.pml4]
    refine h.toKernelInv.pml4_congr hf rfl fun w hw _ => hst.mem w fun hin => htslab ?_
    exact (show w / 512 = t from hin) ▸ hw
  · rw [show userTables (update s.mem (t * 512 + i) e) root = userTables s.mem root from
      tables_congr fun p hp => hslot.tableAt_set e hp]
    exact h.owned
  · exact h.tree.congr fun p hp => hslot.tableAt_set e hp

/-! ## `vmm_map_page`, `vmm_unmap_page`, `vmm_walk_page_table` -/

lemma root_table : root ∈ S :=
  (h.table tablePaths_nil (p := []) rfl).2.2

lemma descend_upper (hv : virt < 2 ^ 47) : ∃ r s' a' fl' held',
      descend (upperIdx virt) (s.pml4 as) s = some (r, s') ∧ VmInv S s' a' fl' held' as root ∧
    Grows root s a held s' a' held' ∧ Growth root 3 s a held s' a' held' ∧
    ((r = 0 ∧ tableAt s'.mem root (upperIdx virt) = none ∧ s'.pmm.kFreePages = 0) ∨
      ∃ u, r = pagePtr a'.hhdm u ∧ r ≠ 0 ∧ tableAt s'.mem root (upperIdx virt) = some u) := by
  rw [h.pml4]
  obtain ⟨r, s', a', fl', held', hd, h', hg, hgr, hres⟩ :=
    descend_spec (upperIdx virt) h (q := []) (upperIdx_mem hv) rfl
  rw [← hg.hhdm] at hres
  exact ⟨r, s', a', fl', held', hd, h', hg, hgr, hres⟩

lemma mapPage_spec (hv : virt < 2 ^ 47) (phys : Nat) (flags : BitVec 32) :
    ∃ ok s' a' fl' held', vmmMapPage as virt phys flags s = some (ok, s') ∧
    VmInv S s' a' fl' held' as root ∧ Growth root 3 s a held s' a' held' ∧
    (ok = false → s'.pmm.kFreePages = 0 ∧ tableAt s'.mem root (upperIdx virt) = none) ∧
    Leaves root s.mem s'.mem fun q i => if ok = true ∧ q = upperIdx virt ∧ i = getPtIdx virt then
      some (leafEntry phys flags) else leafAt s.mem root q i := by
  obtain ⟨r, s1, a1, fl1, held1, hd, h1, hg, hgr, hres⟩ := h.descend_upper hv
  unfold vmmMapPage mapPage
  rw [hd]
  cases hres with
  | inl hnull =>
    refine ⟨false, s1, a1, fl1, held1, by simp [hnull.1], h1, hgr,
      fun _ => ⟨hnull.2.2, hnull.2.1⟩, hg.leaves.congr ?_⟩
    simp
  | inr hgot =>
    obtain ⟨u, rfl, hne, hu⟩ := hgot
    have hok := h1.pageOk (h1.table (upperIdx_mem hv) hu).2.2
    have hidx : getPtIdx virt < 512 := and_511_lt _
    have hpres := present_leafEntry phys flags
    obtain ⟨h', hleaves⟩ := h1.setLeaf (upperIdx_mem hv) rfl hu hidx (leafEntry phys flags)
    refine ⟨true, _, a1, fl1, held1, ?_, h',
      hgr.trans (h1.setLeaf_growth (upperIdx_mem hv) rfl hu hidx _), by simp,
      (hg.leaves.trans (hleaves (by simp [hpres]))).congr fun q i hp => ?_⟩
    · simp only [Option.map_some, if_neg hne]
      rw [Kmem.setEntry_page h1.hhdm hok hidx]
      rfl
    · simp only [hpres, if_true, true_and, hg.leaves.pages q i hp]

lemma walkPageTable_spec (hv : virt < 2 ^ 47) : ∃ r s' a' fl' held', vmmWalkPageTable as virt s =
      some (r, s') ∧ VmInv S s' a' fl' held' as root ∧ Grows root s a held s' a' held' ∧
    (LeavesOk s.mem root → r = walkResult (leafAt s.mem root (upperIdx virt) (getPtIdx virt))) := by
  obtain ⟨r, s1, a1, fl1, held1, hd, h1, hg, -, hres⟩ := h.descend_upper hv
  have hpath : upperIdx virt ++ [getPtIdx virt] ∈ pagePaths := pathOf_mem hv
  unfold vmmWalkPageTable walkPageTable
  rw [hd]
  cases hres with
  | inl hnull =>
    -- a missing table means that nothing is mapped there
    refine ⟨0, s1, a1, fl1, held1, by simp [hnull.1], h1, hg, fun _ => ?_⟩
    rw [← hg.leaves.pages _ _ hpath, leafAt, hnull.2.1]
    rfl
  | inr hgot =>
    obtain ⟨u, rfl, hne, hu⟩ := hgot
    have hok := h1.pageOk (h1.table (upperIdx_mem hv) hu).2.2
    have hidx : getPtIdx virt < 512 := and_511_lt _
    refine ⟨(entryAt s1.mem u (getPtIdx virt) &&& addrMask).toNat, s1, a1, fl1, held1, ?_, h1, hg,
      fun hleaves => ?_⟩
    · simp only [Option.map_some, if_neg hne]
      rw [Kmem.entry_page h1.hhdm hok hidx]
    · rw [← hg.leaves.pages _ _ hpath, leafAt, hu, Option.bind_some]
      split
      · rfl
      · rename_i habs
        rw [hg.leaves.holes hleaves _ _ u hpath hu (Bool.eq_false_of_not_eq_true habs)]
        rfl

lemma unmapPage_spec (hv : virt < 2 ^ 47) : VmInv S (vmmUnmapPage as virt s) a fl held as root ∧
    Leaves root s.mem (vmmUnmapPage as virt s).mem fun q i =>
      if q = upperIdx virt ∧ i = getPtIdx virt then none else leafAt s.mem root q i := by
  have hfind : findTable (upperIdx virt) (s.pml4 as) s =
      (tableAt s.mem root (upperIdx virt)).map (pagePtr a.hhdm) := by
    rw [h.pml4]
    exact findTable_eq h.hhdm (fun f hf => h.pageOk hf) (fun t ht => h.mem_of_table ht)
      (upperIdx virt) (q := []) (upperIdx_mem hv) rfl
  unfold vmmUnmapPage
  rw [hfind]
  cases hu : tableAt s.mem root (upperIdx virt) with
  | none =>
    refine ⟨h, (Leaves.refl root s.mem).congr fun q i _ => ?_⟩
    split
    · rename_i heq
      rw [leafAt, heq.1, hu]
      rfl
    · rfl
  | some u =>
    have hok := h.pageOk (h.table (upperIdx_mem hv) hu).2.2
    have hidx : getPtIdx virt < 512 := and_511_lt _
    simp only [Option.map_some]
    rw [Kmem.setEntry_page h.hhdm hok hidx]
    obtain ⟨h', hleaves⟩ := h.setLeaf (upperIdx_mem hv) rfl hu hidx 0
    exact ⟨h', (hleaves fun _ => rfl).congr fun q i _ => by simp [present_eq]⟩

end

end VmInv

end VortexOS.Mm
