/-
VortexOS.Mm.HeapRuns — the heap over whole runs.

`HeapSys` is the allocators' state with the blocks their clients hold.
Clients allocate, free what they hold and write bytes of their own blocks.

Every live block has a home, the page block it lies in. Homes are blocks of
one tiling, so blocks with different homes cannot meet, and two blocks with
one home are two objects of one slab.

That client writes have no influence needs no argument about two runs:
memory represents the same abstract heap before and after a write, because
no word of its representation is in a client's block (`HeapSysInv.write`).
-/
import VortexOS.Lib.Run
import VortexOS.Mm.HeapTheorems
import VortexOS.Mm.PmmInitTheorems

namespace VortexOS.Mm

open Lib

variable {c : Block} {S : Set Nat} {a a' : AHeap} {fl fl' : Nat → List Nat}
  {va f ptr pfn hhdm order size count : Nat} {byte : BitVec 8} {pmm : Pmm} {k : Kmem}

/-! ## The system -/

structure HeapBlock where
  ptr : Nat
  size : Nat
  deriving DecidableEq, Repr

structure HeapSys where
  kmem : Kmem
  /-- The heap blocks clients hold. -/
  live : List HeapBlock
  /-- The page blocks other clients of the page allocator hold. -/
  others : List Block
  /-- What the allocations returned, the last one first. -/
  returned : List Nat

inductive HeapOp where
  | malloc (size : Nat)
  | free (ptr : Nat)
  | pageAlloc (count : Nat)
  | pageFree (phys count : Nat)
  /-- A client stores a byte at a virtual address. -/
  | write (va : Nat) (byte : BitVec 8)

def heapStep (s : HeapSys) : HeapOp → Option HeapSys
  | .malloc size => (kmalloc size s.kmem).map fun r =>
    { s with
      kmem := r.2
      live := if r.1 = 0 then s.live else ⟨r.1, size⟩ :: s.live
      returned := r.1 :: s.returned }
  | .free ptr => some
      { s with
        kmem := kfree ptr s.kmem
        live := s.live.filter fun b => b.ptr ≠ ptr }
  | .pageAlloc count => (pmmAllocPages count s.kmem.pmm).map fun r =>
    { s with
      kmem := { s.kmem with pmm := r.2 }
      others := if r.1 = 0 then s.others
        else ⟨(targetOrder count).getD 0, physToPfn r.1⟩ :: s.others
      returned := r.1 :: s.returned }
  | .pageFree phys count => some
      { s with
        kmem := { s.kmem with pmm := pmmFreePages phys count s.kmem.pmm }
        others := s.others.filter fun b => pfnToPhys b.base ≠ phys }
  | .write va byte => some
      { s with kmem := { s.kmem with mem := writeByte s.kmem.mem (sub64 va s.kmem.hhdm) byte } }

def HeapBlock.range (b : HeapBlock) : Set Nat := {x | b.ptr ≤ x ∧ x < b.ptr + b.size}

def pageRange (hhdm : Nat) (b : Block) : Set Nat :=
  {x | pagePtr hhdm b.base ≤ x ∧ x < pagePtr hhdm b.base + 2 ^ b.order * pageSize}

/-- What clients may do: free and write only what they hold. -/
def HeapLegal (s : HeapSys) : HeapOp → Prop
  | .malloc size => size < 2 ^ 64
  | .free ptr => ptr = 0 ∨ ∃ b ∈ s.live, ptr = b.ptr
  | .pageAlloc count => 1 ≤ count ∧ count ≤ 2 ^ 52
  | .pageFree phys _ => phys = 0 ∨ ∃ b ∈ s.others, phys = pfnToPhys b.base
  | .write va _ => (∃ b ∈ s.live, va ∈ b.range) ∨ ∃ b ∈ s.others, va ∈ pageRange s.kmem.hhdm b

def HeapOp.isWrite : HeapOp → Bool
  | .write _ _ => true
  | _ => false

/-! ## The invariant -/

def HeapBlock.pageBlock (hhdm : Nat) (b : HeapBlock) : Block :=
  ⟨(targetOrder (add64 b.size (pageSize - 1) / pageSize)).getD 0, physToPfn (sub64 b.ptr hhdm)⟩

inductive Home (a : AHeap) (b : HeapBlock) : Block → Prop where
  | small {f : Nat} (handed : a.Handed f b.ptr) (size : b.size ≤ objectSize (a.cacheOf f))
      (cache : findCache b.size ≠ none) : Home a b ⟨0, f⟩
  | large (cache : findCache b.size = none)
      (ptr : b.ptr = pagePtr a.hhdm (b.pageBlock a.hhdm).base)
      (size : b.size ≤ 2 ^ (b.pageBlock a.hhdm).order * pageSize)
      (noSlab : (b.pageBlock a.hhdm).base ∉ a.slabs) : Home a b (b.pageBlock a.hhdm)

/-- The page blocks clients hold, those of large heap blocks included. -/
def HeapSys.clientBlocks (s : HeapSys) (hhdm : Nat) : Set Block :=
  {c | c ∈ s.others} ∪ {c | ∃ b ∈ s.live, findCache b.size = none ∧ c = b.pageBlock hhdm}

def HeapSys.held (s : HeapSys) (a : AHeap) : Set Block := s.clientBlocks a.hhdm ∪ a.slabBlocks

structure HeapSysInv (S : Set Nat) (s : HeapSys) (a : AHeap) (fl : Nat → List Nat) : Prop where
  rep : HeapRep s.kmem a
  inv : HeapInv S a fl (s.held a)
  home : ∀ b ∈ s.live, ∃ c, Home a b c
  apart : ∀ b ∈ s.live, findCache b.size = none → b.pageBlock a.hhdm ∉ s.others
  noSlab : ∀ c ∈ s.others, c.base ∉ a.slabs
  nodup : (s.live.map HeapBlock.ptr).Nodup
  nodupOthers : s.others.Nodup

/-! ## Blocks with different homes -/

variable {held : Set Block} {b : HeapBlock}

lemma pageRange_disjoint (hhdm : Nat) {b : Block} (h : Disjoint b.cells c.cells) :
    Disjoint (pageRange hhdm b) (pageRange hhdm c) := by
  rw [Set.disjoint_left] at h ⊢
  intro x hb hc
  simp only [pageRange, pagePtr, Set.mem_ofPred_eq, pageSize] at hb hc
  refine h (a := (x - hhdm) / 4096) ?_ ?_
  · rw [Block.mem_cells]
    omega
  · rw [Block.mem_cells]
    omega

lemma Home.range_subset (hinv : HeapInv S a fl held) (h : Home a b c) :
    b.range ⊆ pageRange a.hhdm c := by
  intro x hx
  simp only [HeapBlock.range, Set.mem_ofPred_eq] at hx
  cases h with
  | small handed size cache =>
    obtain ⟨i, l, hl⟩ := handed.slab
    obtain ⟨hi, hc⟩ := hinv.cache i l _ hl
    have hobj := handed.object
    rw [hc] at hobj size
    obtain ⟨k, _, hptr, hend⟩ := mem_objects hi hobj
    simp only [pageRange, Set.mem_ofPred_eq, pow_zero, Nat.one_mul]
    omega
  | large cache ptr size noSlab =>
    simp only [pageRange, Set.mem_ofPred_eq]
    omega

lemma Home.mem_held {s : HeapSys} (hb : b ∈ s.live) (h : Home a b c) : c ∈ s.held a := by
  cases h with
  | small handed size cache => exact Or.inr ⟨_, handed.slab, rfl⟩
  | large cache ptr size noSlab => exact Or.inl (Or.inr ⟨b, hb, cache, rfl⟩)

/-! ## Safety -/

def headerRange (slab : Nat) : Set Nat := {x | slab ≤ x ∧ x < slab + sizeofSlab}

/-- Live heap blocks meet neither each other, nor a slab header, nor a page
block that somebody else owns. -/
structure HeapSafe (s : HeapSys) : Prop where
  blocks : s.live.Pairwise fun b c => Disjoint b.range c.range
  headers : ∀ b ∈ s.live, ∀ f, f < s.kmem.pmm.kTotalPages →
    (s.kmem.pmm.kFrames f).privateData ≠ 0 →
      Disjoint b.range (headerRange (s.kmem.pmm.kFrames f).privateData)
  pages : ∀ b ∈ s.live, ∀ c ∈ s.others, Disjoint b.range (pageRange s.kmem.hhdm c)

section

variable {s : HeapSys}

lemma HeapSysInv.ranges_disjoint (h : HeapSysInv S s a fl) {d : Block} (hb : b ∈ s.live)
    (hc : Home a b c) (hd : d ∈ s.held a) (hne : c ≠ d) :
    Disjoint b.range (pageRange a.hhdm d) := by
  have hcells := h.inv.pmmInv.tiles.disjoint (Or.inr (hc.mem_held hb)) (Or.inr hd) hne
  exact (pageRange_disjoint a.hhdm hcells).mono_left (hc.range_subset h.inv)

lemma HeapSysInv.blocks_disjoint (h : HeapSysInv S s a fl) {c : HeapBlock} (hb : b ∈ s.live)
    (hc : c ∈ s.live) (hne : b.ptr ≠ c.ptr) : Disjoint b.range c.range := by
  obtain ⟨p, hp⟩ := h.home b hb
  obtain ⟨q, hq⟩ := h.home c hc
  by_cases hpq : p = q
  · subst hpq
    cases hp with
    | small handed size cache =>
      rename_i f
      generalize hx : (⟨0, f⟩ : Block) = x at hq
      cases hq with
      | small handed' size' cache' =>
        -- two objects of one slab
        obtain rfl := (Block.mk.inj hx).2
        rw [Set.disjoint_left]
        intro x hxb hxc
        simp only [HeapBlock.range, Set.mem_ofPred_eq] at hxb hxc
        cases objects_apart handed.object handed'.object hne with
        | inl hle => omega
        | inr hle => omega
      | large cache' ptr' size' noSlab' =>
        rw [← hx] at noSlab'
        exact absurd handed.slab noSlab'
    | large cache ptr size noSlab =>
      generalize hx : b.pageBlock a.hhdm = x at hq
      cases hq with
      | small handed' size' cache' =>
        rw [hx] at noSlab
        exact absurd handed'.slab noSlab
      | large cache' ptr' size' noSlab' =>
        exact absurd (by rw [ptr, ptr', hx]) hne
  · exact (h.ranges_disjoint hb hp (hq.mem_held hc) hpq).mono_right (hq.range_subset h.inv)

lemma HeapSysInv.safe (h : HeapSysInv S s a fl) : HeapSafe s := by
  have hpmm := h.rep.pmm
  have hhdm := h.rep.hhdm_eq
  refine ⟨?_, fun b hb f hlt hmark => ?_, fun b hb c hc => ?_⟩
  · have hnd := List.pairwise_map.mp h.nodup
    exact hnd.imp_of_mem fun hb hc hne => h.blocks_disjoint hb hc hne
  · rw [hpmm] at hlt hmark ⊢
    -- a marked frame is a slab
    have hf : f ∈ a.slabs := by
      by_contra hf
      exact hmark (h.inv.unmarked f hlt hf)
    rw [h.inv.marked f hf]
    obtain ⟨c, hc⟩ := h.home b hb
    have hheader : headerRange (pagePtr a.hhdm f) ⊆ pageRange a.hhdm ⟨0, f⟩ := by
      intro x hx
      simp only [headerRange, pageRange, Set.mem_ofPred_eq, sizeofSlab, pageSize, pow_zero] at hx ⊢
      omega
    by_cases hcf : c = ⟨0, f⟩
    · subst hcf
      generalize hx : (⟨0, f⟩ : Block) = x at hc
      cases hc with
      | small handed size cache =>
        obtain rfl := (Block.mk.inj hx).2
        obtain ⟨k, h5, _, hptr, _⟩ := h.inv.object_word handed.slab handed.object
        rw [Set.disjoint_left]
        intro x hxb hxh
        simp only [HeapBlock.range, headerRange, Set.mem_ofPred_eq, sizeofSlab] at hxb hxh
        omega
      | large cache ptr size noSlab =>
        rw [← hx] at noSlab
        exact absurd hf noSlab
    · exact (h.ranges_disjoint hb hc (Or.inr ⟨f, hf, rfl⟩) hcf).mono_right hheader
  · rw [hhdm]
    obtain ⟨d, hd⟩ := h.home b hb
    refine h.ranges_disjoint hb hd (Or.inl (Or.inl hc)) ?_
    intro heq
    cases hd with
    | small handed size cache => exact h.noSlab c hc (heq ▸ handed.slab)
    | large cache ptr size noSlab => exact h.apart b hb cache (heq ▸ hc)

/-! ## Client writes -/

lemma HeapInv.sub64_page (h : HeapInv S a fl held) (hc : c ∈ held) (hva : va ∈ pageRange a.hhdm c) :
    a.hhdm ≤ va ∧ sub64 va a.hhdm = va - a.hhdm := by
  have hpos := Nat.two_pow_pos c.order
  have hlast : c.base + 2 ^ c.order - 1 ∈ c.cells := by
    rw [Block.mem_cells]
    omega
  have hlt := h.pmmInv.bound _ (h.pmmInv.tiles.cells_subset (Or.inr hc) hlast)
  have hspace := h.space
  simp only [pageRange, pagePtr, Set.mem_ofPred_eq, pageSize] at hva hspace
  generalize 2 ^ c.order = n at *
  have hle : a.hhdm ≤ va := by omega
  exact ⟨hle, sub64_of_le (by omega) hle⟩

lemma HeapSysInv.unused_of_page (h : HeapSysInv S s a fl) (hc : c ∈ s.held a)
    (hslab : c.base ∉ a.slabs) (hva : va ∈ pageRange a.hhdm c) :
    Unused a (sub64 va a.hhdm / 8) := by
  obtain ⟨hle, hsub⟩ := h.inv.sub64_page hc hva
  intro f hf
  have hne : c ≠ ⟨0, f⟩ := fun heq => hslab (by rw [heq]; exact hf)
  have hcells := h.inv.pmmInv.tiles.disjoint (Or.inr hc) (Or.inr (h.inv.slabHeld f hf)) hne
  have hdis := Set.disjoint_left.mp (pageRange_disjoint a.hhdm hcells) hva
  -- a word of page `f` would put the address into page `f`
  have hpage : sub64 va a.hhdm / 8 / 512 ≠ f := by
    intro heq
    refine hdis ?_
    rw [hsub] at heq
    simp only [pageRange, pagePtr, Set.mem_ofPred_eq, pageSize, pow_zero]
    omega
  exact h.inv.unused_of_ne hf hpage

lemma HeapSysInv.unused (h : HeapSysInv S s a fl) (hl : HeapLegal s (.write va byte)) :
    Unused a (sub64 va s.kmem.hhdm / 8) := by
  rw [h.rep.hhdm_eq]
  cases hl with
  | inl hlive =>
    obtain ⟨b, hb, hva⟩ := hlive
    obtain ⟨c, hc⟩ := h.home b hb
    have hpage := hc.range_subset h.inv hva
    have hheld := hc.mem_held hb
    cases hc with
    | small handed size cache =>
      exact h.inv.unused_of_object handed hva.1 (Nat.lt_of_lt_of_le hva.2 (by omega))
    | large cache ptr size noSlab => exact h.unused_of_page hheld noSlab hpage
  | inr hother =>
    obtain ⟨c, hc, hva⟩ := hother
    rw [h.rep.hhdm_eq] at hva
    exact h.unused_of_page (Or.inl (Or.inl hc)) (h.noSlab c hc) hva

end

/-! ## The abstract system -/

/-- `HeapSys` with an abstract heap in place of memory. -/
structure AHeapSys where
  heap : AHeap
  live : List HeapBlock
  others : List Block
  returned : List Nat

/-- One step of the abstract system. A write does nothing. -/
def aheapStep (x : AHeapSys) : HeapOp → Option AHeapSys
  | .malloc size => (x.heap.kmalloc size).map fun r =>
    { x with
      heap := r.2
      live := if r.1 = 0 then x.live else ⟨r.1, size⟩ :: x.live
      returned := r.1 :: x.returned }
  | .free ptr => some
      { x with
        heap := x.heap.kfree ptr
        live := x.live.filter fun b => b.ptr ≠ ptr }
  | .pageAlloc count => (pmmAllocPages count x.heap.pmm).map fun r =>
    { x with
      heap := { x.heap with pmm := r.2 }
      others := if r.1 = 0 then x.others
        else ⟨(targetOrder count).getD 0, physToPfn r.1⟩ :: x.others
      returned := r.1 :: x.returned }
  | .pageFree phys count => some
      { x with
        heap := { x.heap with pmm := pmmFreePages phys count x.heap.pmm }
        others := x.others.filter fun b => pfnToPhys b.base ≠ phys }
  | .write _ _ => some x

/-- The concrete system in state `s` represents `x`. -/
structure Refines (S : Set Nat) (s : HeapSys) (x : AHeapSys) : Prop where
  inv : ∃ fl, HeapSysInv S s x.heap fl
  live : s.live = x.live
  others : s.others = x.others
  returned : s.returned = x.returned

/-! ## Every step keeps the invariant -/

section

variable {s : HeapSys}

lemma HeapInv.fresh_not_slab (h : HeapInv S a fl held) (hpmm : PmmInv S pmm fl' (insert c held))
    (hc : c ∉ held) : c.base ∉ a.slabs := by
  intro hslab
  have hheld := h.slabHeld c.base hslab
  have heq : c = ⟨0, c.base⟩ := hpmm.held_eq (Or.inl rfl) (Or.inr hheld) rfl
  exact hc (heq ▸ hheld)

lemma HeapInv.object_ne_page (h : HeapInv S a fl held) (hh : a.Handed f ptr) :
    ptr ≠ pagePtr a.hhdm pfn := by
  obtain ⟨k, h5, h512, rfl, _⟩ := h.object_word hh.slab hh.object
  simp only [pagePtr, pageSize]
  omega

lemma HeapInv.object_page (h : HeapInv S a fl held) {g : Nat} (hf : a.Handed f ptr)
    (hg : g ∈ a.slabs) (hobj : ptr ∈ objects a.hhdm (a.cacheOf g) g) : g = f := by
  obtain ⟨k, _, hk, hkp, _⟩ := h.object_word hf.slab hf.object
  obtain ⟨j, _, hj, hjp, _⟩ := h.object_word hg hobj
  simp only [pagePtr, pageSize] at hkp hjp
  omega

lemma HeapSysInv.ptr_ne_zero (h : HeapSysInv S s a fl) (hb : b ∈ s.live) : b.ptr ≠ 0 := by
  obtain ⟨c, hc⟩ := h.home b hb
  have hheld := hc.mem_held hb
  cases hc with
  | small handed size cache => exact h.inv.object_ne_zero handed
  | large cache ptr size noSlab =>
    rw [ptr]
    exact (h.inv.pageOk (h.inv.pmmInv.mem_pages hheld)).ptr_ne_zero

lemma Home.mono (h : Home a b c) (hhdm : a'.hhdm = a.hhdm)
    (handed : ∀ f, a.Handed f b.ptr → a'.Handed f b.ptr)
    (cacheOf : ∀ f ∈ a.slabs, a'.cacheOf f = a.cacheOf f) (noSlab : findCache b.size = none →
      (b.pageBlock a.hhdm).base ∉ a.slabs → (b.pageBlock a.hhdm).base ∉ a'.slabs) :
    Home a' b c := by
  cases h with
  | small hh size cache =>
    exact .small (handed _ hh) (by rw [cacheOf _ hh.slab]; exact size) cache
  | large cache ptr size hslab =>
    have hnot := noSlab cache hslab
    rw [← hhdm] at ptr size hnot ⊢
    exact .large cache ptr size hnot

lemma Home.setPmm (h : Home a b c) (hhdm : AHeap.hhdm { a with pmm := pmm } = a.hhdm) :
    Home { a with pmm := pmm } b c :=
  h.mono hhdm (fun f hf => ⟨hf.slab, by rw [hhdm]; exact hf.object, hf.taken⟩)
    (fun _ _ => rfl) fun _ hn => hn

lemma pageBlock_ptr (hok : PageOk hhdm pfn)
    (horder : targetOrder (add64 size (pageSize - 1) / pageSize) = some order) :
    HeapBlock.pageBlock hhdm ⟨pagePtr hhdm pfn, size⟩ = ⟨order, pfn⟩ := by
  have hsub := hok.sub64_ptr (o := 0) (by decide)
  rw [Nat.add_zero, Nat.add_zero] at hsub
  rw [HeapBlock.pageBlock, horder, hsub, physToPfn_eq, Nat.mul_div_cancel _ (by decide)]
  rfl

/-- A large request that gets a block fits into it: had the rounding
wrapped, the page count would have been zero. -/
lemma large_fits (hsize : size < 2 ^ 64) (hpages : add64 size (pageSize - 1) / pageSize ≠ 0)
    (horder : targetOrder (add64 size (pageSize - 1) / pageSize) = some order) :
    size ≤ 2 ^ order * pageSize := by
  have hle := (targetOrder_spec horder).1
  have hmul := Nat.mul_le_mul_right pageSize hle
  refine Nat.le_trans ?_ hmul
  simp only [add64, pageSize] at hpages ⊢
  omega

section

variable (h : HeapSysInv S s a fl)
include h

lemma HeapSysInv.addLarge (hsize : size < 2 ^ 64) (hcache : findCache size = none)
    (hpages : add64 size (pageSize - 1) / pageSize ≠ 0)
    (horder : targetOrder (add64 size (pageSize - 1) / pageSize) = some order)
    (hfresh : (⟨order, pfn⟩ : Block) ∉ s.held a) (hk : Pmm.Keeps a.pmm pmm)
    (hrep : HeapRep k { a with pmm := pmm })
    (hinv : HeapInv S { a with pmm := pmm } fl' (insert ⟨order, pfn⟩ (s.held a))) (r : List Nat) :
    HeapSysInv S { s with kmem := k, live := ⟨pagePtr a.hhdm pfn, size⟩ :: s.live, returned := r }
      { a with pmm := pmm } fl' := by
  have hhdm : AHeap.hhdm { a with pmm := pmm } = a.hhdm := hk.hhdm
  have hok : PageOk a.hhdm pfn :=
    h.inv.pageOk (hinv.pmmInv.mem_pages (b := ⟨order, pfn⟩) (Or.inl rfl))
  have hblock := pageBlock_ptr hok horder
  have hslab : pfn ∉ a.slabs := h.inv.fresh_not_slab hinv.pmmInv hfresh
  have hheld : HeapSys.held { s with
      kmem := k, live := ⟨pagePtr a.hhdm pfn, size⟩ :: s.live, returned := r }
      { a with pmm := pmm } = insert ⟨order, pfn⟩ (s.held a) := by
    have hclient : HeapSys.clientBlocks { s with
        kmem := k, live := ⟨pagePtr a.hhdm pfn, size⟩ :: s.live, returned := r } a.hhdm =
        insert ⟨order, pfn⟩ (s.clientBlocks a.hhdm) := by
      ext c
      simp only [HeapSys.clientBlocks, Set.mem_union, Set.mem_ofPred_eq, List.mem_cons,
        exists_eq_or_imp, hcache, true_and, hblock, Set.mem_insert_iff]
      exact or_left_comm
    rw [HeapSys.held, hhdm, hclient, Set.insert_union]
    rfl
  refine ⟨hrep, hheld ▸ hinv, fun b hb => ?_, fun b hb hbc => ?_, h.noSlab, ?_, h.nodupOthers⟩
  · cases List.mem_cons.mp hb with
    | inl heq =>
      subst heq
      have hlarge : Home { a with pmm := pmm } ⟨pagePtr a.hhdm pfn, size⟩ _ :=
        .large hcache (by rw [hhdm,
          hblock]) (by rw [hhdm, hblock]; exact large_fits hsize hpages horder)
          (by rw [hhdm, hblock]; exact hslab)
      exact ⟨_, hlarge⟩
    | inr hold =>
      obtain ⟨c, hc⟩ := h.home b hold
      exact ⟨c, hc.setPmm hhdm⟩
  · rw [hhdm]
    cases List.mem_cons.mp hb with
    | inl heq =>
      subst heq
      rw [hblock]
      exact fun hin => hfresh (Or.inl (Or.inl hin))
    | inr hold => exact h.apart b hold hbc
  · rw [List.map_cons, List.nodup_cons]
    refine ⟨fun hin => ?_, h.nodup⟩
    obtain ⟨b, hb, hptr⟩ := List.mem_map.mp hin
    obtain ⟨c, hc⟩ := h.home b hb
    have hcheld := hc.mem_held hb
    cases hc with
    | small handed _ _ => exact h.inv.object_ne_page handed hptr
    | large _ ptr _ _ =>
      -- two held blocks with one first page
      rw [ptr, pagePtr_inj] at hptr
      have heq : (⟨order, pfn⟩ : Block) = b.pageBlock a.hhdm :=
        hinv.pmmInv.held_eq (Or.inl rfl) (Or.inr hcheld) hptr.symm
      exact hfresh (heq ▸ hcheld)

lemma HeapSysInv.addSmall {i p : Nat} (hcache : findCache size = some i) (hc : a'.cacheOf f = i)
    (hnew : ¬ a.Handed f p) (handed : ∀ g q, a'.Handed g q ↔ a.Handed g q ∨ (g = f ∧ q = p))
    (globals : Pmm.SameGlobals a.pmm a'.pmm) (mono : a.slabs ⊆ a'.slabs)
    (cacheOf : ∀ g ∈ a.slabs, a'.cacheOf g = a.cacheOf g)
    (fresh : ∀ g ∈ a'.slabs, g ∉ a.slabs → (⟨0, g⟩ : Block) ∉ s.held a) (hrep : HeapRep k a')
    (hinv : HeapInv S a' fl' (s.held a ∪ a'.slabBlocks)) (r : List Nat) : p ≠ 0 ∧
    HeapSysInv S { s with kmem := k, live := ⟨p, size⟩ :: s.live, returned := r } a' fl' := by
  have hhdm : a'.hhdm = a.hhdm := globals.hhdm
  have hout : a'.Handed f p := (handed f p).mpr (Or.inr ⟨rfl, rfl⟩)
  have hsome : findCache size ≠ none := by simp [hcache]
  -- a page block that was held stays clear of the new slab
  have hclear : ∀ c ∈ s.held a, c.base ∉ a.slabs → c.base ∉ a'.slabs := by
    intro c hheld hold hin
    have heq : c = ⟨0, c.base⟩ :=
      hinv.pmmInv.held_eq (Or.inl hheld) (Or.inr ⟨c.base, hin, rfl⟩) rfl
    exact fresh c.base hin hold (heq ▸ hheld)
  have hheld : HeapSys.held { s with kmem := k, live := ⟨p, size⟩ :: s.live, returned := r } a' =
      s.held a ∪ a'.slabBlocks := by
    have hsub : a.slabBlocks ⊆ a'.slabBlocks := by
      intro c hc
      obtain ⟨g, hg, rfl⟩ := hc
      exact ⟨g, mono hg, rfl⟩
    have hclient : HeapSys.clientBlocks { s with
        kmem := k, live := ⟨p, size⟩ :: s.live, returned := r } a.hhdm = s.clientBlocks a.hhdm := by
      ext c
      simp only [HeapSys.clientBlocks, Set.mem_union, Set.mem_ofPred_eq, List.mem_cons,
        exists_eq_or_imp, hsome, false_and, false_or]
    rw [HeapSys.held, HeapSys.held, hhdm, hclient, Set.union_assoc,
      Set.union_eq_self_of_subset_left hsub]
  refine ⟨?_, hrep, hheld ▸ hinv, fun b hb => ?_, fun b hb hbc => ?_,
    fun c hcin => ?_, ?_, h.nodupOthers⟩
  · exact hinv.object_ne_zero hout
  · cases List.mem_cons.mp hb with
    | inl heq =>
      subst heq
      exact ⟨_, .small hout (by rw [hc]; exact (findCache_some hcache).2) hsome⟩
    | inr hold =>
      obtain ⟨c, hc⟩ := h.home b hold
      refine ⟨c, hc.mono hhdm (fun g hg => (handed g b.ptr).mpr (Or.inl hg)) cacheOf
        fun hbc hn => hclear _ ?_ hn⟩
      exact Or.inl (Or.inr ⟨b, hold, hbc, rfl⟩)
  · rw [hhdm]
    cases List.mem_cons.mp hb with
    | inl heq =>
      subst heq
      exact absurd hbc hsome
    | inr hold => exact h.apart b hold hbc
  · exact hclear c (Or.inl (Or.inl hcin)) (h.noSlab c hcin)
  · rw [List.map_cons, List.nodup_cons]
    refine ⟨fun hin => ?_, h.nodup⟩
    obtain ⟨b, hb, hptr⟩ := List.mem_map.mp hin
    obtain ⟨c, hc⟩ := h.home b hb
    cases hc with
    | small hb' hsize' hcache' =>
      rename_i g
      rw [hptr] at hb'
      have hg' : a'.Handed g p := (handed g p).mpr (Or.inl hb')
      exact hnew (hinv.object_page hout hg'.slab hg'.object ▸ hb')
    | large _ ptr _ _ =>
      rw [hptr, ← hhdm] at ptr
      exact hinv.object_ne_page hout ptr

lemma HeapSysInv.malloc (hsize : size < 2 ^ 64) :
    ∃ p k a', kmalloc size s.kmem = some (p, k) ∧ a.kmalloc size = some (p, a') ∧
    ∃ fl', HeapSysInv S { s with
        kmem := k
        live := if p = 0 then s.live else ⟨p, size⟩ :: s.live
        returned := p :: s.returned } a' fl' := by
  obtain ⟨p, k, a', fl', held', hk, ha, hrep, hinv, hres, _⟩ := kmalloc_spec h.rep h.inv size
  refine ⟨p, k, a', hk, ha, fl', ?_⟩
  cases hres with
  | null =>
    rw [if_pos rfl]
    exact ⟨hrep, hinv, h.home, h.apart, h.noSlab, h.nodup, h.nodupOthers⟩
  | large hcache hpages horder hfresh hkeeps =>
    have hok := h.inv.pageOk (hinv.pmmInv.mem_pages (b := ⟨_, _⟩) (Or.inl rfl))
    rw [if_neg hok.ptr_ne_zero]
    exact h.addLarge hsize hcache hpages horder hfresh hkeeps hrep hinv _
  | small hcache hc hnew handed globals mono cacheOf fresh =>
    obtain ⟨hne, hsys⟩ :=
      h.addSmall hcache hc hnew handed globals mono cacheOf fresh hrep hinv (p :: s.returned)
    rw [if_neg hne]
    exact hsys

lemma HeapSysInv.eq_of_ptr_eq {c : HeapBlock} (hb : b ∈ s.live) (hc : c ∈ s.live)
    (heq : b.ptr = c.ptr) : b = c :=
  List.inj_on_of_nodup_map h.nodup hb hc heq

lemma HeapSysInv.freeSmall (hb : b ∈ s.live)
    (hh : a.Handed f b.ptr) (hcache : findCache b.size ≠ none) : HeapSysInv S { s with
      kmem := kfree b.ptr s.kmem
      live := s.live.filter fun c => c.ptr ≠ b.ptr } (a.kfree b.ptr) fl := by
  obtain ⟨hrep, hinv, hslabs, handed, hcacheOf, hpmm, _⟩ := kfree_object_spec h.rep h.inv hh
  generalize a.kfree b.ptr = a' at *
  generalize kfree b.ptr s.kmem = k at *
  have hhdm : a'.hhdm = a.hhdm := congrArg Pmm.kHhdmOffset hpmm
  have hmem : ∀ c, c ∈ s.live.filter (fun c => c.ptr ≠ b.ptr) ↔ c ∈ s.live ∧ c.ptr ≠ b.ptr := by
    simp [List.mem_filter]
  have hheld : HeapSys.held { s with
      kmem := k, live := s.live.filter fun c => c.ptr ≠ b.ptr } a' = s.held a := by
    have hclient : HeapSys.clientBlocks { s with
        kmem := k
        live := s.live.filter fun c => c.ptr ≠ b.ptr } a.hhdm = s.clientBlocks a.hhdm := by
      ext c
      simp only [HeapSys.clientBlocks, Set.mem_union, Set.mem_ofPred_eq, hmem]
      refine or_congr_right ⟨fun hc => ?_, fun hc => ?_⟩
      · obtain ⟨d, hd, hdc, hcd⟩ := hc
        exact ⟨d, hd.1, hdc, hcd⟩
      · obtain ⟨d, hd, hdc, hcd⟩ := hc
        -- a large block is not the small one being freed
        refine ⟨d, ⟨hd, fun heq => hcache ?_⟩, hdc, hcd⟩
        rw [← h.eq_of_ptr_eq hd hb heq]
        exact hdc
    rw [HeapSys.held, HeapSys.held, hhdm, hclient, AHeap.slabBlocks, hslabs]
    rfl
  refine ⟨hrep, hheld ▸ hinv, fun c hc => ?_, fun c hc hcc => ?_, fun c hc => ?_, ?_, h.nodupOthers⟩
  · obtain ⟨hlive, hne⟩ := (hmem c).mp hc
    obtain ⟨d, hd⟩ := h.home c hlive
    exact ⟨d, hd.mono hhdm (fun g hg => (handed g c.ptr).mpr ⟨hg, fun heq => hne heq.2⟩)
      (fun g _ => congrFun hcacheOf g) fun _ hn => hslabs ▸ hn⟩
  · rw [hhdm]
    exact h.apart c ((hmem c).mp hc).1 hcc
  · rw [hslabs]
    exact h.noSlab c hc
  · exact h.nodup.sublist (List.Sublist.map _ List.filter_sublist)

lemma HeapSysInv.freeLarge (hb : b ∈ s.live)
    (hcache : findCache b.size = none) (hptr : b.ptr = pagePtr a.hhdm (b.pageBlock a.hhdm).base)
    (hslab : (b.pageBlock a.hhdm).base ∉ a.slabs) : ∃ fl', HeapSysInv S { s with
      kmem := kfree b.ptr s.kmem
      live := s.live.filter fun c => c.ptr ≠ b.ptr } (a.kfree b.ptr) fl' := by
  have hb' : b.pageBlock a.hhdm ∈ s.held a := Or.inl (Or.inr ⟨b, hb, hcache, rfl⟩)
  obtain ⟨pmm, fl', hk, ha, hkeeps, _, hrep, hinv⟩ := kfree_pages_spec h.rep h.inv hb' hslab
  rw [← hptr] at hk ha
  rw [hk, ha]
  have hhdm : AHeap.hhdm { a with pmm := pmm } = a.hhdm := hkeeps.hhdm
  have hmem : ∀ c, c ∈ s.live.filter (fun c => c.ptr ≠ b.ptr) ↔ c ∈ s.live ∧ c.ptr ≠ b.ptr := by
    simp [List.mem_filter]
  have hheld : HeapSys.held { s with
      kmem := { s.kmem with pmm := pmm }, live := s.live.filter fun c => c.ptr ≠ b.ptr }
      { a with pmm := pmm } = s.held a \ {b.pageBlock a.hhdm} := by
    ext c
    simp only [HeapSys.held, HeapSys.clientBlocks, hhdm, Set.mem_union, Set.mem_ofPred_eq, hmem,
      Set.mem_sdiff, Set.mem_singleton_iff]
    constructor
    · intro hc
      rcases hc with (hc | ⟨d, ⟨hd, hne⟩, hdc, rfl⟩) | hc
      · exact ⟨Or.inl (Or.inl hc), fun heq => h.apart b hb hcache (heq ▸ hc)⟩
      · refine ⟨Or.inl (Or.inr ⟨d, hd, hdc, rfl⟩), fun heq => hne ?_⟩
        -- a large block's address is that of its page block
        obtain ⟨e, he⟩ := h.home d hd
        cases he with
        | small _ _ hsome => exact absurd hdc hsome
        | large _ hdptr _ _ => rw [hdptr, hptr, heq]
      · refine ⟨Or.inr hc, fun heq => hslab ?_⟩
        obtain ⟨g, hg, rfl⟩ := hc
        rw [← heq]
        exact hg
    · intro hc
      obtain ⟨hc, hne⟩ := hc
      rcases hc with (hc | ⟨d, hd, hdc, rfl⟩) | hc
      · exact Or.inl (Or.inl hc)
      · refine Or.inl (Or.inr ⟨d, ⟨hd, fun heq => hne ?_⟩, hdc, rfl⟩)
        rw [h.eq_of_ptr_eq hd hb heq]
      · exact Or.inr hc
  refine ⟨fl', hrep, hheld ▸ hinv, fun c hc => ?_, fun c hc hcc => ?_, h.noSlab, ?_, h.nodupOthers⟩
  · obtain ⟨d, hd⟩ := h.home c ((hmem c).mp hc).1
    exact ⟨d, hd.setPmm hhdm⟩
  · rw [hhdm]
    exact h.apart c ((hmem c).mp hc).1 hcc
  · exact h.nodup.sublist (List.Sublist.map _ List.filter_sublist)

lemma HeapSysInv.free (hl : HeapLegal s (.free ptr)) : ∃ fl', HeapSysInv S { s with
    kmem := kfree ptr s.kmem
    live := s.live.filter fun c => c.ptr ≠ ptr } (a.kfree ptr) fl' := by
  cases hl with
  | inl hnull =>
    subst hnull
    have hkeep : s.live.filter (fun c => c.ptr ≠ 0) = s.live := by
      rw [List.filter_eq_self]
      intro c hc
      simpa using h.ptr_ne_zero hc
    have hk : kfree 0 s.kmem = s.kmem := by simp [kfree]
    have ha : a.kfree 0 = a := by simp [AHeap.kfree]
    rw [hkeep, hk, ha]
    exact ⟨fl, h⟩
  | inr hlive =>
    obtain ⟨b, hb, rfl⟩ := hlive
    obtain ⟨c, hc⟩ := h.home b hb
    cases hc with
    | small handed size cache => exact ⟨fl, h.freeSmall hb handed cache⟩
    | large cache hptr size noSlab => exact h.freeLarge hb cache hptr noSlab

/-- Other clients' use of the page allocator: their blocks change, and the
page allocator's state with them. -/
lemma HeapSysInv.setOthers {others : List Block} (hk : Pmm.Keeps a.pmm pmm)
    (hinv : PmmInv S pmm fl' (HeapSys.held { s with others := others } a))
    (happart : ∀ b ∈ s.live, findCache b.size = none → b.pageBlock a.hhdm ∉ others)
    (hnoSlab : ∀ c ∈ others, c.base ∉ a.slabs) (hnd : others.Nodup) (r : List Nat) :
    HeapSysInv S
      { s with kmem := { s.kmem with pmm := pmm }, others := others, returned := r }
      { a with pmm := pmm } fl' := by
  have hhdm : AHeap.hhdm { a with pmm := pmm } = a.hhdm := hk.hhdm
  have hheld : HeapSys.held
      { s with kmem := { s.kmem with pmm := pmm }, others := others, returned := r }
      { a with pmm := pmm } = HeapSys.held { s with others := others } a := by
    rw [HeapSys.held, hhdm]
    rfl
  have hheap := h.inv.setPmm hinv hk fun f hf => Or.inr ⟨f, hf, rfl⟩
  refine ⟨h.rep.setPmm hk, hheld ▸ hheap, fun b hb => ?_, fun b hb hbc => ?_, hnoSlab, h.nodup, hnd⟩
  · obtain ⟨c, hc⟩ := h.home b hb
    exact ⟨c, hc.setPmm hhdm⟩
  · rw [hhdm]
    exact happart b hb hbc

lemma HeapSysInv.pageAlloc (hcount : count ≤ 2 ^ 52) :
    ∃ p pmm, pmmAllocPages count a.pmm = some (p, pmm) ∧ ∃ fl', HeapSysInv S { s with
          kmem := { s.kmem with pmm := pmm }
          others := if p = 0 then s.others
            else ⟨(targetOrder count).getD 0, physToPfn p⟩ :: s.others
          returned := p :: s.returned } { a with pmm := pmm } fl' := by
  cases pmmAllocPages_spec h.inv.pmmInv (Nat.le_trans hcount (by decide)) with
  | inl hnull =>
    refine ⟨0, a.pmm, hnull, fl, ?_⟩
    rw [if_pos rfl]
    exact h.setOthers (.refl a.pmm) h.inv.pmmInv h.apart h.noSlab h.nodupOthers _
  | inr hgot =>
    obtain ⟨order, _, pfn, fl', ht, _, halloc, hpmm, hk, hfresh, _⟩ := hgot
    generalize takeBlock order _ pfn a.pmm = pmm at *
    have hok := h.inv.pageOk (hpmm.mem_pages (b := ⟨order, pfn⟩) (Or.inl rfl))
    have hphys : pfnToPhys pfn ≠ 0 := hok.phys_ne_zero
    refine ⟨pfnToPhys pfn, pmm, halloc, fl', ?_⟩
    rw [if_neg hphys, ht, physToPfn_pfnToPhys, Option.getD_some]
    have hheld : HeapSys.held { s with others := ⟨order, pfn⟩ :: s.others } a =
        insert ⟨order, pfn⟩ (s.held a) := by
      ext c
      simp only [HeapSys.held, HeapSys.clientBlocks, Set.mem_union, Set.mem_ofPred_eq,
        List.mem_cons, Set.mem_insert_iff, or_assoc]
    refine h.setOthers hk (hheld ▸ hpmm) (fun b hb hbc hin => ?_) (fun c hc => ?_) ?_ _
    · cases List.mem_cons.mp hin with
      | inl heq => exact hfresh (heq ▸ Or.inl (Or.inr ⟨b, hb, hbc, rfl⟩))
      | inr hold => exact h.apart b hb hbc hold
    · cases List.mem_cons.mp hc with
      | inl heq => exact heq ▸ h.inv.fresh_not_slab hpmm hfresh
      | inr hold => exact h.noSlab c hold
    · exact List.nodup_cons.mpr ⟨fun hin => hfresh (Or.inl (Or.inl hin)), h.nodupOthers⟩

lemma HeapSysInv.pageFree {phys : Nat}
    (hl : HeapLegal s (.pageFree phys count)) : ∃ fl', HeapSysInv S { s with
        kmem := { s.kmem with pmm := pmmFreePages phys count a.pmm }
        others := s.others.filter fun c => pfnToPhys c.base ≠ phys }
      { a with pmm := pmmFreePages phys count a.pmm } fl' := by
  have hS : ∀ c ∈ s.others, c.base ∈ S := fun c hc => h.inv.pmmInv.mem_pages (Or.inl (Or.inl hc))
  cases hl with
  | inl hnull =>
    subst hnull
    have hkeep : s.others.filter (fun c => pfnToPhys c.base ≠ 0) = s.others := by
      rw [List.filter_eq_self]
      intro c hc
      simp only [ne_eq, pfnToPhys_eq_zero, decide_eq_true_eq]
      exact fun hzero => h.inv.zero (hzero ▸ hS c hc)
    have hp : pmmFreePages 0 count a.pmm = a.pmm := by simp [pmmFreePages]
    rw [hkeep, hp]
    exact ⟨fl, h.setOthers (.refl a.pmm) h.inv.pmmInv h.apart h.noSlab h.nodupOthers _⟩
  | inr hheld =>
    obtain ⟨b, hb, rfl⟩ := hheld
    obtain ⟨fl', hpmm, hk, _, _⟩ :=
      pmmFreePages_spec h.inv.pmmInv h.inv.zero (Or.inl (Or.inl hb)) count
    generalize pmmFreePages (pfnToPhys b.base) count a.pmm = pmm at *
    have hmem : ∀ c, c ∈ s.others.filter (fun c => pfnToPhys c.base ≠ pfnToPhys b.base) ↔
        c ∈ s.others ∧ c ≠ b := by
      intro c
      simp only [List.mem_filter, decide_eq_true_eq]
      refine and_congr_right fun hc => not_congr ⟨fun heq => ?_, fun heq => by rw [heq]⟩
      refine h.inv.pmmInv.held_eq (Or.inl (Or.inl hc)) (Or.inl (Or.inl hb)) ?_
      rw [← physToPfn_pfnToPhys c.base, heq, physToPfn_pfnToPhys]
    have hheld : HeapSys.held { s with
        others := s.others.filter fun c => pfnToPhys c.base ≠ pfnToPhys b.base } a =
        s.held a \ {b} := by
      ext c
      simp only [HeapSys.held, HeapSys.clientBlocks, Set.mem_union, Set.mem_ofPred_eq, hmem,
        Set.mem_sdiff, Set.mem_singleton_iff]
      constructor
      · intro hc
        rcases hc with (hc | ⟨d, hd, hdc, rfl⟩) | hc
        · exact ⟨Or.inl (Or.inl hc.1), hc.2⟩
        · exact ⟨Or.inl (Or.inr ⟨d, hd, hdc, rfl⟩), fun heq => h.apart d hd hdc (heq ▸ hb)⟩
        · refine ⟨Or.inr hc, fun heq => h.noSlab b hb ?_⟩
          obtain ⟨g, hg, rfl⟩ := hc
          rw [← heq]
          exact hg
      · intro hc
        obtain ⟨hc, hne⟩ := hc
        rcases hc with (hc | hc) | hc
        · exact Or.inl (Or.inl ⟨hc, hne⟩)
        · exact Or.inl (Or.inr hc)
        · exact Or.inr hc
    refine ⟨fl', h.setOthers hk (hheld ▸ hpmm) (fun c hc hcc hin => ?_) (fun c hc => ?_)
      (h.nodupOthers.filter _) _⟩
    · exact h.apart c hc hcc ((hmem _).mp hin).1
    · exact h.noSlab c ((hmem c).mp hc).1

lemma HeapSysInv.write (hl : HeapLegal s (.write va byte)) : HeapSysInv S { s with
    kmem := { s.kmem with mem := writeByte s.kmem.mem (sub64 va s.kmem.hhdm) byte } } a fl :=
  ⟨h.rep.setMem fun _ hv => writeByte_other byte fun heq => hv (heq ▸ h.unused hl), h.inv, h.home,
    h.apart, h.noSlab, h.nodup, h.nodupOthers⟩

end

end

/-! ## Runs -/

section

variable {s t : HeapSys} {x : AHeapSys}

lemma Refines.step (h : Refines S s x) {op : HeapOp} (hl : HeapLegal s op) :
    ∃ s' x', heapStep s op = some s' ∧ aheapStep x op = some x' ∧ Refines S s' x' := by
  obtain ⟨⟨fl, hinv⟩, hlive, hothers, hret⟩ := h
  cases op with
  | malloc size =>
    obtain ⟨p, k, a', hk, ha, hinv'⟩ := hinv.malloc hl
    simp only [heapStep, aheapStep, hk, ha, Option.map_some]
    refine ⟨_, _, rfl, rfl, hinv', ?_, hothers, ?_⟩
    · simp only [hlive]
    · simp only [hret]
  | free ptr =>
    exact ⟨_, _, rfl, rfl, hinv.free hl, by simp only [hlive], hothers, hret⟩
  | pageAlloc count =>
    obtain ⟨p, pmm, hp, hinv'⟩ := hinv.pageAlloc hl.2
    simp only [heapStep, aheapStep, hinv.rep.pmm, hp, Option.map_some]
    refine ⟨_, _, rfl, rfl, hinv', hlive, ?_, ?_⟩
    · simp only [hothers]
    · simp only [hret]
  | pageFree phys count =>
    refine ⟨_, _, rfl, rfl, ?_, hlive, by simp only [hothers], hret⟩
    rw [hinv.rep.pmm]
    exact hinv.pageFree hl
  | write va byte => exact ⟨_, _, rfl, rfl, ⟨fl, hinv.write hl⟩, hlive, hothers, hret⟩

lemma Refines.legal (hs : Refines S s x) (ht : Refines S t x) {op : HeapOp} (hl : HeapLegal s op)
    (hop : op.isWrite = false) : HeapLegal t op := by
  cases op with
  | malloc size => exact hl
  | free ptr =>
    rw [HeapLegal, ht.live, ← hs.live]
    exact hl
  | pageAlloc count => exact hl
  | pageFree phys count =>
    rw [HeapLegal, ht.others, ← hs.others]
    exact hl
  | write va byte => simp [HeapOp.isWrite] at hop

lemma Refines.run_both : ∀ (ops : List HeapOp) {s t : HeapSys} {x : AHeapSys}, Refines S s x →
    Refines S t x → Along heapStep HeapLegal s ops →
    ∃ s' t' x', run heapStep s ops = some s' ∧ run heapStep t (ops.filter fun op => !op.isWrite) =
      some t' ∧ Refines S s' x' ∧ Refines S t' x'
  | [], s, t, x, hs, ht, _ => ⟨s, t, x, rfl, rfl, hs, ht⟩
  | op :: ops, s, t, x, hs, ht, hl => by
    obtain ⟨s1, x1, hstep, hx, hs1⟩ := hs.step hl.1
    cases hop : op.isWrite with
    | true =>
      -- the abstract state does not move
      have hsame : x1 = x := by
        cases op with
        | write va byte => exact (Option.some.inj hx).symm
        | malloc _ => simp [HeapOp.isWrite] at hop
        | free _ => simp [HeapOp.isWrite] at hop
        | pageAlloc _ => simp [HeapOp.isWrite] at hop
        | pageFree _ _ => simp [HeapOp.isWrite] at hop
      obtain ⟨s', t', x', hrs, hrt, hs', ht'⟩ :=
        run_both ops hs1 (hsame ▸ ht) (hl.2 s1 hstep)
      refine ⟨s', t', x', by simp [run, hstep, hrs], ?_, hs', ht'⟩
      rw [List.filter_cons_of_neg (by simp [hop])]
      exact hrt
    | false =>
      obtain ⟨t1, y1, htstep, hy, ht1⟩ := ht.step (hs.legal ht hl.1 hop)
      obtain rfl := Option.mem_unique hx hy
      obtain ⟨s', t', x', hrs, hrt, hs', ht'⟩ := run_both ops hs1 ht1 (hl.2 s1 hstep)
      refine ⟨s', t', x', by simp [run, hstep, hrs], ?_, hs', ht'⟩
      rw [List.filter_cons_of_pos (by simp [hop])]
      simp [run, htstep, hrt]

end

/-! ## From the start -/

/-- The system after `pmm_init` and `heap_init`: no slabs, nothing handed
out, memory with any content. -/
def HeapSys.start (pmm : Pmm) (mem : WordMem) : HeapSys :=
  ⟨⟨pmm, mem, fun _ _ => 0⟩, [], [], []⟩

def AHeap.start (pmm : Pmm) : AHeap := ⟨pmm, fun _ _ => [], fun _ => [], fun _ => 0⟩

lemma AHeap.slabs_start (pmm : Pmm) : (AHeap.start pmm).slabs = ∅ := by
  simp [AHeap.slabs, AHeap.start]

lemma heapSysInv_start (hinv : PmmInv S pmm fl ∅) (hzero : 0 ∉ S)
    (hspace : pmm.kTotalPages * pageSize + pmm.kHhdmOffset ≤ 2 ^ 64)
    (hnull : ∀ q, (pmm.kFrames q).privateData = 0) (mem : WordMem) :
    HeapSysInv S (.start pmm mem) (.start pmm) fl := by
  have hslabs := AHeap.slabs_start pmm
  have hnone : ∀ f, f ∉ (AHeap.start pmm).slabs := by simp [hslabs]
  have hheld : (HeapSys.start pmm mem).held (.start pmm) = ∅ := by
    simp [HeapSys.held, HeapSys.clientBlocks, HeapSys.start, AHeap.slabBlocks, hslabs]
  refine ⟨⟨rfl, ⟨⟨fun _ => none, fun _ => none⟩, ?_⟩, fun f hf => absurd hf (hnone f)⟩, ?_, ?_, ?_,
    ?_, List.nodup_nil, List.nodup_nil⟩
  · refine ⟨⟨fun f hf => absurd hf (hnone f), fun f hf => absurd hf (hnone f),
      fun f hf => absurd hf (hnone f), fun f hf => absurd hf (hnone f),
      fun f hf => absurd hf (hnone f)⟩, fun i l => ⟨rfl, List.nodup_nil⟩, ?_, ?_, fun i l => rfl⟩
    · simp [AHeap.start]
    · simp [AHeap.start]
  · rw [hheld]
    refine ⟨⟨⟨fun f hf => absurd hf (hnone f), fun _ _ => List.nodup_nil, ?_, ?_,
      fun f hf => absurd hf (hnone f), fun f hf => absurd hf (hnone f)⟩, hinv, hzero, hspace,
      fun f hf => absurd hf (hnone f), fun f hf => absurd hf (hnone f), fun f _ _ => hnull f⟩, ?_⟩
    · simp [AHeap.start]
    · simp [AHeap.start]
    · simp [AHeap.start]
  · simp [HeapSys.start]
  · simp [HeapSys.start]
  · simp [HeapSys.start]

/-- A machine on which `pmm_init` and `heap_init` have run. Its direct map
must hold all of physical memory, and every `private_data` must be null
when the page allocator starts. -/
lemma refines_start {entries : List MemmapEntry} {ram : Nat → PageFrame} (hok : MemmapOk entries)
    (hh : hhdm < 2 ^ 64) (hspace : physToPfn (highestAddr entries) * pageSize + hhdm ≤ 2 ^ 64)
    (hnull : ∀ q, (ram q).privateData = 0) (mem : WordMem) : ∃ pmm ms me, pmmInit entries hhdm ram =
      some pmm ∧ Refines (listedPages ms me entries) (.start pmm mem) ⟨.start pmm, [], [], []⟩ := by
  obtain ⟨pmm, fl, ms, me, hinit, hstart⟩ := pmmInit_spec hok hh ram
  have hinv := heapSysInv_start hstart.inv hok.zero_notMem
    (by rw [hstart.total, hstart.hhdm]; exact hspace)
    (fun q => (hstart.privateData q).trans (hnull q)) mem
  exact ⟨pmm, ms, me, hinit, ⟨fl, hinv⟩, rfl, rfl, rfl⟩

/-- **Heap safety.** The machine's direct map must hold all of physical
memory, and every `private_data` must be null when the page allocator
starts. Then every legal run of allocations, frees, page requests and
client writes returns, ends in a safe state, and its allocations return
what they return when all writes are left out. -/
theorem heap_run_safe (entries : List MemmapEntry) (hhdm : Nat) (ram : Nat → PageFrame)
    (mem : WordMem) (hok : MemmapOk entries) (hh : hhdm < 2 ^ 64)
    (hspace : physToPfn (highestAddr entries) * pageSize + hhdm ≤ 2 ^ 64)
    (hnull : ∀ q, (ram q).privateData = 0) : ∃ pmm, pmmInit entries hhdm ram = some pmm ∧
      ∀ ops, Along heapStep HeapLegal (.start pmm mem) ops →
        ∃ s t, run heapStep (.start pmm mem) ops = some s ∧ HeapSafe s ∧
          run heapStep (.start pmm mem) (ops.filter fun op => !op.isWrite) = some t ∧
          t.returned = s.returned := by
  obtain ⟨pmm, ms, me, hinit, href⟩ := refines_start hok hh hspace hnull mem
  refine ⟨pmm, hinit, fun ops hl => ?_⟩
  obtain ⟨s, t, x, hrs, hrt, hs, ht⟩ := Refines.run_both ops href href hl
  obtain ⟨fl', hinv'⟩ := hs.inv
  exact ⟨s, t, hrs, hinv'.safe, hrt, ht.returned.trans hs.returned.symm⟩

instance (b : HeapBlock) (x : Nat) : Decidable (x ∈ b.range) :=
  inferInstanceAs (Decidable (b.ptr ≤ x ∧ x < b.ptr + b.size))

instance (hhdm : Nat) (b : Block) (x : Nat) : Decidable (x ∈ pageRange hhdm b) :=
  inferInstanceAs (Decidable (pagePtr hhdm b.base ≤ x ∧
    x < pagePtr hhdm b.base + 2 ^ b.order * pageSize))

instance (s : HeapSys) : ∀ op, Decidable (HeapLegal s op)
  | .malloc size => inferInstanceAs (Decidable (size < 2 ^ 64))
  | .free ptr => inferInstanceAs (Decidable (ptr = 0 ∨ ∃ b ∈ s.live, ptr = b.ptr))
  | .pageAlloc count => inferInstanceAs (Decidable (1 ≤ count ∧ count ≤ 2 ^ 52))
  | .pageFree phys _ =>
    inferInstanceAs (Decidable (phys = 0 ∨ ∃ b ∈ s.others, phys = pfnToPhys b.base))
  | .write va _ => inferInstanceAs (Decidable ((∃ b ∈ s.live, va ∈ b.range) ∨
      ∃ b ∈ s.others, va ∈ pageRange s.kmem.hhdm b))

/-- A block of 2000 bytes is taken, written and freed. -/
theorem heap_run_safe_smallMap : ∃ s t, run heapStep (.start smallStart fun _ => 0)
    [.malloc 2000, .write (4 * pageSize + 40) 7, .free (4 * pageSize + 40)] = some s ∧ HeapSafe s ∧
      run heapStep (.start smallStart fun _ => 0)
        [.malloc 2000, .free (4 * pageSize + 40)] = some t ∧ t.returned = s.returned := by
  obtain ⟨pmm, hinit, hsafe⟩ := heap_run_safe smallMap 0 (fun _ => blankFrame) (fun _ => 0)
    smallMap_ok (by decide) (by decide) (fun _ => rfl)
  rw [pmmInit_smallMap] at hinit
  obtain rfl := Option.some.inj hinit
  exact hsafe _ (by decide +kernel)

end VortexOS.Mm
