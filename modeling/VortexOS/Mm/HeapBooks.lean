/-
VortexOS.Mm.HeapBooks — what the slab allocator writes down in memory.

`SlabBooks` is the bookkeeping as a debugger would read it: slabs are the
addresses `slab_create` left in the frames, lists are chains of `next` and
`prev` words, and a slab's free list is a chain of words through its
objects. That memory represents an abstract heap with the invariants of
`VortexOS.Mm.HeapAbstract` gives all of it (`HeapSysInv.books`).

Slabs are never given back, so a slab of some moment of a run is a slab of
the same cache at every later one (`AHeap.Grows`).
-/
import VortexOS.Mm.HeapRuns

namespace VortexOS.Mm

open Lib

/-! ## The books -/

/-- `slab` is the address of a slab: the frame of its page says so. -/
def Pmm.IsSlab (s : Pmm) (slab : Nat) : Prop :=
  slab ≠ 0 ∧ ∃ f < s.kTotalPages, (s.kFrames f).privateData = slab

/-- Following `next` from `slab` visits exactly the slabs of the list. The
first one's `prev` is `pv`, and every later one's is the slab before it. -/
def SlabChain (s : Kmem) : Nat → Nat → List Nat → Prop
  | _, slab, [] => slab = 0
  | pv, slab, x :: xs => slab = x ∧ x ≠ 0 ∧ s.slabPrev x = pv ∧ SlabChain s x (s.slabNext x) xs

/-- Following the first words of free objects from `obj` visits exactly the
objects of the list. -/
def ObjectChain (s : Kmem) : Nat → List Nat → Prop
  | obj, [] => obj = 0
  | obj, x :: xs => obj = x ∧ x ≠ 0 ∧ ObjectChain s (s.load x) xs

def slots (i slab : Nat) : List Nat :=
  (List.range (slabCapacity i)).map fun k => slab + sizeofSlab + k * objectSize i

/-- The list a slab of cache `i` with `n` free objects belongs on. -/
def listOf (i n : Nat) : SlabList :=
  if n = 0 then .full else if n = slabCapacity i then .empty else .partly

structure SlabBooks (s : HeapSys) (lists : Nat → SlabList → List Nat) : Prop where
  /-- The lists are doubly linked, from their heads on. -/
  linked : ∀ i l, SlabChain s.kmem 0 (s.kmem.kCaches i l) (lists i l) ∧ (lists i l).Nodup
  /-- Every slab is on one list of its cache, and on one only. -/
  listed : ∀ slab, s.kmem.pmm.IsSlab slab → s.kmem.slabCache slab < numCaches ∧
    ∃! l, slab ∈ lists (s.kmem.slabCache slab) l
  /-- Nothing else is on a list. -/
  member : ∀ i l, ∀ slab ∈ lists i l, s.kmem.pmm.IsSlab slab ∧ s.kmem.slabCache slab = i
  count : ∀ i l, ∀ slab ∈ lists i l, l = listOf i (s.kmem.slabFreeCount slab)
  /-- The free list of a slab holds `free_count` of its objects, each once,
  and none of them meets a block that a client holds. -/
  free : ∀ slab, s.kmem.pmm.IsSlab slab →
    ∃ objs, ObjectChain s.kmem (s.kmem.slabFreeList slab) objs ∧ objs.Nodup ∧
      objs.length = s.kmem.slabFreeCount slab ∧
      ∀ o ∈ objs, o ∈ slots (s.kmem.slabCache slab) slab ∧
        ∀ b ∈ s.live, b.ptr ≠ o ∧
          Disjoint b.range {x | o ≤ x ∧ x < o + objectSize (s.kmem.slabCache slab)}
  /-- `kmalloc` leaves the page allocator alone, and returns an object,
  while a slab of the cache it uses has a free one. -/
  demand : ∀ size i, size ≠ 0 → findCache size = some i →
    (∃ slab, s.kmem.pmm.IsSlab slab ∧ s.kmem.slabCache slab = i ∧ s.kmem.slabFreeCount slab ≠ 0) →
      ∃ p k, kmalloc size s.kmem = some (p, k) ∧ p ≠ 0 ∧ k.pmm = s.kmem.pmm

/-! ## Reading the chains -/

section

variable {s : Kmem} {a : AHeap}

lemma LinksRep.slabChain {L : Links Nat} {P : Set Nat} (h : LinksRep s L P) :
    ∀ {fs : List Nat} {pv head : Option Nat}, L.Seg pv head fs → (∀ f ∈ fs, f ∈ P) →
    SlabChain s (pagePtr? s.hhdm pv) (pagePtr? s.hhdm head) (fs.map (pagePtr s.hhdm))
  | [], _, _, hseg, _ => by
    rw [show _ = none from hseg]
    rfl
  | f :: fs, _, _, hseg, hP => by
    obtain ⟨rfl, hprev, hrest⟩ := hseg
    have hf : f ∈ P := hP f (by simp)
    refine ⟨rfl, (h.ok f hf).ptr_ne_zero, ?_, ?_⟩
    · rw [h.slabPrev_eq hf, hprev]
    · rw [h.slabNext_eq hf]
      exact h.slabChain hrest fun g hg => hP g (by simp [hg])

lemma FreeChain.objectChain {hhdm : Nat} (hs : s.hhdm = hhdm) :
    ∀ {objs : List Nat} {w : BitVec 64}, FreeChain s.mem hhdm w objs →
    (∀ o ∈ objs, (BitVec.ofNat 64 o).toNat = o ∧ o ≠ 0) → ObjectChain s w.toNat objs
  | [], w, hchain, _ => by
    rw [show w = 0 from hchain]
    rfl
  | o :: objs, w, hchain, hok => by
    obtain ⟨rfl, hrest⟩ := hchain
    refine ⟨(hok o (by simp)).1, (hok o (by simp)).2, ?_⟩
    rw [Kmem.load, Kmem.wordAt, hs]
    exact hrest.objectChain hs fun q hq => hok q (by simp [hq])

lemma CountOk.eq_listOf {i n : Nat} {l : SlabList} (hi : i < numCaches) (h : CountOk i n l) :
    l = listOf i n := by
  have hpos := slabCapacity_pos i hi
  unfold listOf
  cases l with
  | partly =>
    have hn : 0 < n ∧ n < slabCapacity i := h
    rw [if_neg (by omega), if_neg (by omega)]
  | full =>
    have hn : n = 0 := h
    rw [if_pos hn]
  | empty =>
    have hn : n = slabCapacity i := h
    rw [if_neg (by omega), if_pos hn]

lemma HeapRep.slabFreeCount_eq (h : HeapRep s a) (ok : SlabsOk a) {f : Nat} (hf : f ∈ a.slabs) :
    s.slabFreeCount (pagePtr a.hhdm f) = (a.free f).length := by
  rw [Kmem.slabFreeCount, Kmem.wordAt_ptr h.hhdm_eq (ok.page f hf) (by decide)]
  exact (h.slab f hf).count

lemma HeapRep.objectChain (h : HeapRep s a) (ok : SlabsOk a) {f : Nat} (hf : f ∈ a.slabs) :
    ObjectChain s (s.slabFreeList (pagePtr a.hhdm f)) (a.free f) := by
  rw [Kmem.slabFreeList, Kmem.load, Kmem.wordAt_slab h.hhdm_eq (ok.page f hf)]
  refine (h.slab f hf).chain.objectChain h.hhdm_eq fun o ho => ?_
  have hobj := ok.objMem f hf o ho
  obtain ⟨k, h5, _, rfl, _⟩ := ok.object_word hf hobj
  exact ⟨ok.object_toNat hf hobj, by omega⟩

end

/-! ## The books are kept -/

section

variable {S : Set Nat} {s : HeapSys} {a : AHeap} {fl : Nat → List Nat}

lemma HeapSysInv.isSlab_iff (h : HeapSysInv S s a fl) (slab : Nat) :
    s.kmem.pmm.IsSlab slab ↔ ∃ f ∈ a.slabs, slab = pagePtr a.hhdm f := by
  rw [h.rep.pmm]
  constructor
  · rintro ⟨hne, f, hlt, rfl⟩
    have hf : f ∈ a.slabs := by
      by_contra hf
      exact hne (h.inv.unmarked f hlt hf)
    exact ⟨f, hf, h.inv.marked f hf⟩
  · rintro ⟨f, hf, rfl⟩
    exact ⟨(h.inv.page f hf).ptr_ne_zero, f, h.inv.pmmInv.base_lt (h.inv.slabHeld f hf),
      h.inv.marked f hf⟩

lemma Home.ptr_mem {held : Set Block} (hinv : HeapInv S a fl held) {b : HeapBlock} {c : Block}
    (h : Home a b c) : b.ptr ∈ pageRange a.hhdm c := by
  cases h with
  | small handed size cache =>
    obtain ⟨k, _, hk, hptr, _⟩ := hinv.object_word handed.slab handed.object
    simp only [pageRange, Set.mem_ofPred_eq, pow_zero, pageSize]
    omega
  | large cache ptr size noSlab =>
    have hpos := Nat.two_pow_pos (b.pageBlock a.hhdm).order
    simp only [pageRange, Set.mem_ofPred_eq, pageSize]
    omega

lemma HeapSysInv.free_apart (h : HeapSysInv S s a fl) {f o : Nat} (hf : f ∈ a.slabs)
    (ho : o ∈ a.free f) {b : HeapBlock} (hb : b ∈ s.live) :
    b.ptr ≠ o ∧ Disjoint b.range {x | o ≤ x ∧ x < o + objectSize (a.cacheOf f)} := by
  have hobj := h.inv.objMem f hf o ho
  obtain ⟨c, hc⟩ := h.home b hb
  by_cases hcf : c = ⟨0, f⟩
  · subst hcf
    generalize hx : (⟨0, f⟩ : Block) = x at hc
    cases hc with
    | small handed size cache =>
      -- two objects of one slab, of which one is free
      obtain rfl := (Block.mk.inj hx).2
      have hne : b.ptr ≠ o := fun heq => handed.taken (heq ▸ ho)
      refine ⟨hne, Set.disjoint_left.mpr fun x hxb hxo => ?_⟩
      simp only [HeapBlock.range, Set.mem_ofPred_eq] at hxb hxo
      cases objects_apart handed.object hobj hne with
      | inl hle => omega
      | inr hle => omega
    | large cache ptr size noSlab =>
      rw [← hx] at noSlab
      exact absurd hf noSlab
  · have hheld : (⟨0, f⟩ : Block) ∈ s.held a := Or.inr ⟨f, hf, rfl⟩
    obtain ⟨i, l, hl⟩ := hf
    obtain ⟨hi, hcache⟩ := h.inv.cache i l f hl
    rw [hcache] at hobj ⊢
    have hpos := objectSize_pos hi
    obtain ⟨k, _, rfl, hend⟩ := mem_objects hi hobj
    have hsub : ∀ x, pagePtr a.hhdm f + 8 * k ≤ x ∧ x < pagePtr a.hhdm f + 8 * k + objectSize i →
        x ∈ pageRange a.hhdm ⟨0, f⟩ := by
      intro x hx
      simp only [pageRange, Set.mem_ofPred_eq, pow_zero, Nat.one_mul]
      omega
    have hcells := h.inv.pmmInv.tiles.disjoint (Or.inr (hc.mem_held hb)) (Or.inr hheld) hcf
    refine ⟨fun heq => ?_, (h.ranges_disjoint hb hc hheld hcf).mono_right hsub⟩
    refine Set.disjoint_left.mp (pageRange_disjoint a.hhdm hcells) (hc.ptr_mem h.inv) ?_
    exact hsub _ (by omega)

lemma HeapInv.head?_of_free {held : Set Block} (h : HeapInv S a fl held) {f : Nat}
    (hf : f ∈ a.slabs) (hfree : (a.free f).length ≠ 0) :
    ¬ ((a.lists (a.cacheOf f) .partly).head? = none ∧
      (a.lists (a.cacheOf f) .empty).head? = none) := by
  obtain ⟨i, l, hl⟩ := hf
  rw [(h.cache i l f hl).2, List.head?_eq_none_iff, List.head?_eq_none_iff]
  rintro ⟨hpartly, hempty⟩
  cases l with
  | partly => simp [hpartly] at hl
  | full => exact hfree (h.count i .full f hl)
  | empty => simp [hempty] at hl

lemma HeapSysInv.books (h : HeapSysInv S s a fl) :
    SlabBooks s fun i l => (a.lists i l).map (pagePtr a.hhdm) := by
  have hok := h.inv.toSlabsOk
  have hinj : Function.Injective (pagePtr a.hhdm) := fun _ _ heq => pagePtr_inj.mp heq
  have hmem : ∀ i l f, pagePtr a.hhdm f ∈ (a.lists i l).map (pagePtr a.hhdm) ↔ f ∈ a.lists i l :=
    fun i l f => List.mem_map_of_injective hinj
  exact
    { linked := fun i l => by
        obtain ⟨L, hlists⟩ := h.rep.lists
        refine ⟨?_, (hok.nodup i l).map hinj⟩
        rw [hlists.heads i l, ← h.rep.hhdm_eq]
        exact hlists.slabChain (hlists.dlist i l).seg fun f hf => hlists.mem i l f hf
      listed := fun slab hslab => by
        obtain ⟨f, hf, rfl⟩ := (h.isSlab_iff slab).mp hslab
        rw [h.rep.slabCache_eq hok hf]
        obtain ⟨i, l, hl⟩ := hf
        obtain ⟨hi, hc⟩ := hok.cache i l f hl
        rw [hc]
        refine ⟨hi, l, (hmem i l f).mpr hl, fun k hk => ?_⟩
        exact (hok.apart f i i k l ((hmem i k f).mp hk) hl).2
      member := fun i l slab hslab => by
        obtain ⟨f, hf, rfl⟩ := List.mem_map.mp hslab
        refine ⟨(h.isSlab_iff _).mpr ⟨f, ⟨i, l, hf⟩, rfl⟩, ?_⟩
        rw [h.rep.slabCache_eq hok ⟨i, l, hf⟩]
        exact (hok.cache i l f hf).2
      count := fun i l slab hslab => by
        obtain ⟨f, hf, rfl⟩ := List.mem_map.mp hslab
        rw [h.rep.slabFreeCount_eq hok ⟨i, l, hf⟩]
        exact (h.inv.count i l f hf).eq_listOf (hok.cache i l f hf).1
      free := fun slab hslab => by
        obtain ⟨f, hf, rfl⟩ := (h.isSlab_iff slab).mp hslab
        rw [h.rep.slabCache_eq hok hf, h.rep.slabFreeCount_eq hok hf]
        exact ⟨a.free f, h.rep.objectChain hok hf, hok.objNodup f hf, rfl,
          fun o ho => ⟨hok.objMem f hf o ho, fun b hb => h.free_apart hf ho hb⟩⟩
      demand := fun size i hsize hfind ⟨slab, hslab, hcache, hfree⟩ => by
        obtain ⟨f, hf, rfl⟩ := (h.isSlab_iff slab).mp hslab
        rw [h.rep.slabCache_eq hok hf] at hcache
        rw [h.rep.slabFreeCount_eq hok hf] at hfree
        obtain ⟨p, k, a', _, _, hk, ha, hrep, -⟩ := kmalloc_spec h.rep h.inv size
        obtain ⟨o, a1, hget, hpmm, hnull⟩ := h.inv.kmalloc_pmm h.rep hfind hsize ha
        have hcase := AHeap.getSlab_pmm hget
        rw [← hcache, if_neg (h.inv.head?_of_free hf hfree)] at hcase
        refine ⟨p, k, hk, fun hp => hcase.1 (hnull.mp hp), ?_⟩
        rw [hrep.pmm, hpmm, hcase.2, h.rep.pmm] }

end

/-! ## Slabs stay slabs -/

/-- The slabs of `a` are slabs of `a'`, of the same caches. -/
structure AHeap.Grows (a a' : AHeap) : Prop where
  hhdm : a'.hhdm = a.hhdm
  slabs : a.slabs ⊆ a'.slabs
  cacheOf : ∀ f ∈ a.slabs, a'.cacheOf f = a.cacheOf f

section

variable {S : Set Nat} {s t : HeapSys} {x y : AHeapSys} {a b c : AHeap} {fl : Nat → List Nat}

lemma AHeap.Grows.refl (a : AHeap) : a.Grows a := ⟨rfl, fun _ hf => hf, fun _ _ => rfl⟩

lemma AHeap.Grows.trans (h : a.Grows b) (h' : b.Grows c) : a.Grows c :=
  ⟨h'.hhdm.trans h.hhdm, fun _ hf => h'.slabs (h.slabs hf),
    fun f hf => (h'.cacheOf f (h.slabs hf)).trans (h.cacheOf f hf)⟩

lemma AHeap.Grows.of_pmm {pmm : Pmm} (h : pmm.kHhdmOffset = a.pmm.kHhdmOffset) :
    a.Grows { a with pmm := pmm } :=
  ⟨h, fun _ hf => hf, fun _ _ => rfl⟩

lemma MallocResult.grows {size p : Nat} {held held' : Set Block}
    (h : MallocResult size a held p b held') : a.Grows b := by
  cases h with
  | null => exact .refl a
  | large _ _ _ _ hk => exact .of_pmm hk.hhdm
  | small _ _ _ _ globals mono cacheOf _ => exact ⟨globals.hhdm, mono, cacheOf⟩

lemma HeapSysInv.kfree_grows (h : HeapSysInv S s a fl) {ptr : Nat} (hl : HeapLegal s (.free ptr)) :
    a.Grows (a.kfree ptr) := by
  cases hl with
  | inl hnull =>
    rw [hnull, AHeap.kfree, if_pos rfl]
    exact .refl a
  | inr hlive =>
    obtain ⟨b, hb, rfl⟩ := hlive
    obtain ⟨d, hd⟩ := h.home b hb
    have hheld := hd.mem_held hb
    cases hd with
    | small handed size cache =>
      obtain ⟨_, _, hslabs, _, hcache, hpmm, _⟩ := kfree_object_spec h.rep h.inv handed
      exact ⟨congrArg Pmm.kHhdmOffset hpmm, hslabs.ge, fun f _ => congrFun hcache f⟩
    | large cache ptr size noSlab =>
      obtain ⟨pmm, _, _, hk, hkeeps, _⟩ := kfree_pages_spec h.rep h.inv hheld noSlab
      rw [ptr, hk]
      exact .of_pmm hkeeps.hhdm

lemma Refines.step_grows (h : Refines S s x) {op : HeapOp} (hl : HeapLegal s op) :
    ∃ t y, heapStep s op = some t ∧ Refines S t y ∧ x.heap.Grows y.heap := by
  obtain ⟨t, y, hs, hx, href⟩ := h.step hl
  refine ⟨t, y, hs, href, ?_⟩
  obtain ⟨fl, hinv⟩ := h.inv
  cases op with
  | malloc size =>
    obtain ⟨p, k, a', _, _, _, ha, _, _, hres, _⟩ := kmalloc_spec hinv.rep hinv.inv size
    simp only [aheapStep, ha, Option.map_some, Option.some.injEq] at hx
    rw [← hx]
    exact hres.grows
  | free ptr =>
    rw [← Option.some.inj hx]
    exact hinv.kfree_grows hl
  | pageAlloc count =>
    obtain ⟨r, halloc, rfl⟩ := Option.map_eq_some_iff.mp hx
    refine .of_pmm ?_
    cases pmmAllocPages_spec hinv.inv.pmmInv (Nat.le_trans hl.2 (by decide)) with
    | inl hnull => rw [← Option.mem_unique hnull halloc]
    | inr hgot =>
      obtain ⟨_, _, _, _, _, _, hsome, _, hk, _⟩ := hgot
      rw [← Option.mem_unique hsome halloc]
      exact hk.hhdm
  | pageFree phys count =>
    rw [← Option.some.inj hx]
    refine .of_pmm ?_
    cases hl with
    | inl hnull => rw [hnull, pmmFreePages, if_pos rfl]
    | inr hheld =>
      obtain ⟨b, hb, rfl⟩ := hheld
      obtain ⟨_, _, hk, _, _⟩ :=
        pmmFreePages_spec hinv.inv.pmmInv hinv.inv.zero (Or.inl (Or.inl hb)) count
      exact hk.hhdm
  | write va byte =>
    rw [← Option.some.inj hx]
    exact .refl _

lemma Refines.run_grows (h : Refines S s x) {ops : List HeapOp}
    (hl : Along heapStep HeapLegal s ops) :
    ∃ t, run heapStep s ops = some t ∧ ∃ y, Refines S t y ∧ x.heap.Grows y.heap := by
  refine run_invariant (fun t => ∃ y, Refines S t y ∧ x.heap.Grows y.heap) ?_ ⟨x, h, .refl _⟩ hl
  rintro t op ⟨y, hy, hgrow⟩ hop
  obtain ⟨t', y', hstep, hy', hgrow'⟩ := hy.step_grows hop
  exact ⟨t', hstep, y', hy', hgrow.trans hgrow'⟩

lemma Refines.isSlab_of_grows (h : Refines S s x) (h' : Refines S t y) (hgrow : x.heap.Grows y.heap)
    {slab : Nat} (hslab : s.kmem.pmm.IsSlab slab) :
    t.kmem.pmm.IsSlab slab ∧ t.kmem.slabCache slab = s.kmem.slabCache slab := by
  obtain ⟨_, hinv⟩ := h.inv
  obtain ⟨_, hinv'⟩ := h'.inv
  obtain ⟨f, hf, rfl⟩ := (hinv.isSlab_iff slab).mp hslab
  have hf' := hgrow.slabs hf
  have hcache := hinv'.rep.slabCache_eq hinv'.inv.toSlabsOk hf'
  rw [hgrow.hhdm] at hcache
  refine ⟨(hinv'.isSlab_iff _).mpr ⟨f, hf', by rw [hgrow.hhdm]⟩, ?_⟩
  rw [hcache, hgrow.cacheOf f hf, hinv.rep.slabCache_eq hinv.inv.toSlabsOk hf]

end

/-! ## Runs -/

/-- The machine's direct map must hold all of physical memory, and every
`private_data` must be null when the page allocator starts. Then the books
are right after every legal run, and whatever was a slab at some moment of
the run is still one, of the same cache. -/
theorem heap_run_books (entries : List MemmapEntry) (hhdm : Nat) (ram : Nat → PageFrame)
    (mem : WordMem) (hok : MemmapOk entries) (hh : hhdm < 2 ^ 64)
    (hspace : physToPfn (highestAddr entries) * pageSize + hhdm ≤ 2 ^ 64)
    (hnull : ∀ q, (ram q).privateData = 0) : ∃ pmm, pmmInit entries hhdm ram = some pmm ∧
      ∀ ops, Along heapStep HeapLegal (.start pmm mem) ops →
        ∃ s, run heapStep (.start pmm mem) ops = some s ∧ (∃ lists, SlabBooks s lists) ∧
          ∀ before after r, ops = before ++ after → run heapStep (.start pmm mem) before = some r →
            ∀ slab, r.kmem.pmm.IsSlab slab →
              s.kmem.pmm.IsSlab slab ∧ s.kmem.slabCache slab = r.kmem.slabCache slab := by
  obtain ⟨pmm, ms, me, hinit, href⟩ := refines_start hok hh hspace hnull mem
  refine ⟨pmm, hinit, fun ops hl => ?_⟩
  obtain ⟨s, hrun, y, hy, _⟩ := href.run_grows hl
  obtain ⟨fl, hinv⟩ := hy.inv
  refine ⟨s, hrun, ⟨_, hinv.books⟩, fun before after r hops hbefore slab hslab => ?_⟩
  subst hops
  obtain ⟨hlbefore, hlafter⟩ := along_append hl hbefore
  obtain ⟨r', hr', x, hx, _⟩ := href.run_grows hlbefore
  obtain rfl := Option.mem_unique hbefore hr'
  obtain ⟨s', hs', z, hz, hgrow⟩ := hx.run_grows hlafter
  rw [run_append, hbefore, Option.bind_some] at hrun
  obtain rfl := Option.mem_unique hrun hs'
  exact hx.isSlab_of_grows hz hgrow hslab

/-- One object of each of two caches is taken, the first is freed. -/
theorem heap_run_books_smallMap : ∃ s, run heapStep (.start smallStart fun _ => 0)
    [.malloc 2000, .malloc 8, .free (4 * pageSize + 40)] = some s ∧ (∃ lists, SlabBooks s lists) ∧
      ∀ before after r, [HeapOp.malloc 2000, .malloc 8, .free (4 * pageSize + 40)] =
        before ++ after →
        run heapStep (.start smallStart fun _ => 0) before = some r →
        ∀ slab, r.kmem.pmm.IsSlab slab →
            s.kmem.pmm.IsSlab slab ∧ s.kmem.slabCache slab = r.kmem.slabCache slab := by
  obtain ⟨pmm, hinit, hbooks⟩ := heap_run_books smallMap 0 (fun _ => blankFrame) (fun _ => 0)
    smallMap_ok (by decide) (by decide) (fun _ => rfl)
  rw [pmmInit_smallMap] at hinit
  obtain rfl := Option.some.inj hinit
  exact hbooks _ (by decide +kernel)

end VortexOS.Mm
