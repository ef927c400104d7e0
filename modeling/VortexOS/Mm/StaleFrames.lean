/-
VortexOS.Mm.StaleFrames — frames whose `private_data` nobody cleared.

`pmm_init` writes every field of a `PageFrame` except `private_data`, and
`kfree` takes a frame with a non-null one for a slab. So a machine whose
memory is not cleared when it starts need not give the pages of a large
block back.

Its runs are compared with those of a machine that starts with null
`private_data`. The page allocator never reads that field, so each of its
functions commutes with `mapData`; the heap reads it in `kfree` only. The
states stay related by `stale ram` as long as every large block that is
freed has null in its first frame (`Refines.step_stale`).
-/
import VortexOS.Mm.HeapRuns
import VortexOS.Mm.PmmRuns

namespace VortexOS.Mm

open Lib

/-! ## The page allocator does not read `private_data` -/

def PageFrame.withData (d : Nat) (f : PageFrame) : PageFrame := { f with privateData := d }

def Pmm.mapData (g : Nat → Nat → Nat) (s : Pmm) : Pmm :=
  { s with kFrames := fun q => (s.kFrames q).withData (g q (s.kFrames q).privateData) }

/-- A store that neither reads nor writes `private_data`. -/
def KeepsData (f : PageFrame → PageFrame) : Prop := ∀ x d, f (x.withData d) = (f x).withData d

section

variable {g : Nat → Nat → Nat} {s : Pmm} {f : PageFrame → PageFrame}

lemma KeepsData.privateData (hf : KeepsData f) (x : PageFrame) :
    (f x).privateData = x.privateData := by
  have hx := congrArg PageFrame.privateData (hf x x.privateData)
  exact hx

namespace Pmm

lemma mapData_modFrame (hf : KeepsData f) (pfn : Nat) :
    (s.mapData g).modFrame pfn f = (s.modFrame pfn f).mapData g := by
  refine congrArg (fun k => { s with kFrames := k }) (funext fun q => ?_)
  by_cases hq : q = pfn
  · subst hq
    simp [mapData, modFrame, hf.privateData, hf (s.kFrames q)]
  · simp [mapData, modFrame, hq]

lemma mapData_modFrame? (hf : KeepsData f) (o : Option Nat) :
    (s.mapData g).modFrame? o f = (s.modFrame? o f).mapData g := by
  cases o with
  | none => rfl
  | some pfn => exact mapData_modFrame hf pfn

lemma mapData_setFreeList (order : Nat) (head : Option Nat) :
    (s.mapData g).setFreeList order head = (s.setFreeList order head).mapData g := rfl

end Pmm

lemma keepsData_next (v : Option Nat) : KeepsData fun f => { f with next := v } := fun _ _ => rfl

lemma keepsData_prev (v : Option Nat) : KeepsData fun f => { f with prev := v } := fun _ _ => rfl

lemma keepsData_order (v : Nat) : KeepsData fun f => { f with order := v } := fun _ _ => rfl

lemma keepsData_flags (v : BitVec 8 → BitVec 8) :
    KeepsData fun f => { f with flags := v f.flags } :=
  fun _ _ => rfl

lemma listAdd_mapData (order pfn : Nat) :
    listAdd order pfn (s.mapData g) = (listAdd order pfn s).mapData g := by
  unfold listAdd
  dsimp only
  rw [Pmm.mapData_modFrame (keepsData_next _), Pmm.mapData_modFrame (keepsData_prev _),
    Pmm.mapData_modFrame? (keepsData_prev _), Pmm.mapData_setFreeList,
    Pmm.mapData_modFrame (keepsData_flags (· ||| pageFree)),
      Pmm.mapData_modFrame (keepsData_order _)]
  rfl

lemma listRemove_mapData (order pfn : Nat) :
    listRemove order pfn (s.mapData g) = (listRemove order pfn s).mapData g := by
  have hfields : ∀ (s : Pmm) q, ((s.mapData g).kFrames q).next = (s.kFrames q).next ∧
      ((s.mapData g).kFrames q).prev = (s.kFrames q).prev := fun _ _ => ⟨rfl, rfl⟩
  -- the second half, from either branch of the first
  have hrest : ∀ s : Pmm,
      (((s.mapData g).modFrame? ((s.mapData g).kFrames pfn).next
        fun f => { f with prev := ((s.mapData g).kFrames pfn).prev }).modFrame pfn
          fun f => { f with flags := f.flags &&& ~~~pageFree }) =
      Pmm.mapData g ((s.modFrame? (s.kFrames pfn).next
        fun f => { f with prev := (s.kFrames pfn).prev }).modFrame pfn
          fun f => { f with flags := f.flags &&& ~~~pageFree }) := by
    intro s
    rw [(hfields s pfn).1, (hfields s pfn).2, Pmm.mapData_modFrame? (keepsData_prev _),
      Pmm.mapData_modFrame (keepsData_flags (· &&& ~~~pageFree))]
  unfold listRemove
  dsimp only
  rw [(hfields s pfn).1, (hfields s pfn).2]
  cases (s.kFrames pfn).prev with
  | none => exact hrest (s.setFreeList order (s.kFrames pfn).next)
  | some p =>
    dsimp only
    rw [Pmm.mapData_modFrame (keepsData_next _)]
    exact hrest _

lemma splitLoop_mapData (pfn target order : Nat) :
    splitLoop pfn target order (s.mapData g) = (splitLoop pfn target order s).mapData g := by
  induction order generalizing s with
  | zero => rfl
  | succ order ih =>
    unfold splitLoop
    by_cases h : order + 1 > target
    · rw [if_pos h, if_pos h, listAdd_mapData, ih]
    · rw [if_neg h, if_neg h]

lemma takeBlock_mapData (target order pfn : Nat) :
    takeBlock target order pfn (s.mapData g) = (takeBlock target order pfn s).mapData g := by
  unfold takeBlock
  dsimp only
  rw [listRemove_mapData, splitLoop_mapData,
    Pmm.mapData_modFrame (keepsData_flags (· ||| pageUsed)),
      Pmm.mapData_modFrame (keepsData_order _)]
  rfl

lemma pmmAllocPages_mapData (count : Nat) : pmmAllocPages count (s.mapData g) =
    (pmmAllocPages count s).map fun r => (r.1, r.2.mapData g) := by
  unfold pmmAllocPages
  by_cases h0 : count = 0
  · simp [h0]
  · simp only [if_neg h0]
    cases targetOrder count with
    | none => rfl
    | some target =>
      dsimp only
      by_cases hmax : target > maxOrder
      · simp [hmax]
      · have hfind : findBlock target (s.mapData g) = findBlock target s := rfl
        rw [if_neg hmax, if_neg hmax, hfind]
        cases findBlock target s with
        | none => rfl
        | some r => simp [takeBlock_mapData]

lemma mergeLoop_mapData (n : Nat) : ∀ (pfn order : Nat) (s : Pmm),
      mergeLoop n pfn order (s.mapData g) = ((mergeLoop n pfn order s).1,
      (mergeLoop n pfn order s).2.1, (mergeLoop n pfn order s).2.2.mapData g) := by
  induction n with
  | zero => exact fun _ _ _ => rfl
  | succ n ih =>
    intro pfn order s
    have hframe : ∀ q, ((s.mapData g).kFrames q).isFree = (s.kFrames q).isFree ∧
        ((s.mapData g).kFrames q).order = (s.kFrames q).order ∧
        ((s.mapData g).kFrames q).isReserved = (s.kFrames q).isReserved :=
      fun _ => ⟨rfl, rfl, rfl⟩
    have htotal : (s.mapData g).kTotalPages = s.kTotalPages := rfl
    unfold mergeLoop
    simp only [htotal, hframe, listRemove_mapData, ih]
    by_cases hend : buddyOf pfn order ≥ s.kTotalPages
    · simp only [if_pos hend]
    · simp only [if_neg hend]
      split <;> rfl

lemma pmmFreePages_mapData (phys count : Nat) :
    pmmFreePages phys count (s.mapData g) = (pmmFreePages phys count s).mapData g := by
  have horder : ∀ q, ((s.mapData g).kFrames q).order = (s.kFrames q).order := fun _ => rfl
  unfold pmmFreePages
  by_cases h0 : phys = 0
  · rw [if_pos h0, if_pos h0]
  · have hcount : ∀ n, { s.mapData g with kFreePages := (s.mapData g).kFreePages + n } =
        Pmm.mapData g { s with kFreePages := s.kFreePages + n } := fun _ => rfl
    simp only [if_neg h0, horder, hcount, mergeLoop_mapData, listAdd_mapData,
      Pmm.mapData_modFrame (keepsData_flags (· &&& ~~~pageUsed))]

lemma Pmm.walk_mapData (n : Nat) :
    ∀ head : Option Nat, (s.mapData g).walk n head = s.walk n head := by
  induction n with
  | zero => exact fun _ => rfl
  | succ n ih =>
    intro head
    cases head with
    | none => rfl
    | some p => exact congrArg (p :: ·) (ih (s.kFrames p).next)

lemma Pmm.freePages_mapData : (s.mapData g).freePages = s.freePages := by
  have hlist : (s.mapData g).freeBlockList = s.freeBlockList := by
    unfold Pmm.freeBlockList Pmm.freeList
    simp only [Pmm.walk_mapData]
    rfl
  unfold Pmm.freePages
  rw [hlist]

/-! ## Initialisation -/

lemma initRegion_mapData (ms me endPfn n : Nat) :
    ∀ (pfn : Nat) (s : Pmm), initRegion ms me endPfn n pfn (s.mapData g) =
      (initRegion ms me endPfn n pfn s).mapData g := by
  induction n with
  | zero => exact fun _ _ => rfl
  | succ n ih =>
    intro pfn s
    have hcount : ∀ (s : Pmm) m, { s.mapData g with kFreePages := (s.mapData g).kFreePages + m } =
        Pmm.mapData g { s with kFreePages := s.kFreePages + m } := fun _ _ => rfl
    unfold initRegion
    simp only [Pmm.mapData_modFrame (keepsData_flags fun _ => 0), listAdd_mapData, hcount, ih]
    split
    · split <;> rfl
    · rfl

lemma initEntry_mapData (ms me : Nat) (e : MemmapEntry) :
    initEntry ms me (s.mapData g) e = (initEntry ms me s e).mapData g := by
  unfold initEntry
  by_cases h : e.type ≠ .usable
  · rw [if_pos h, if_pos h]
  · rw [if_neg h, if_neg h]
    exact initRegion_mapData _ _ _ _ _ _

lemma pmmInit_mapData (entries : List MemmapEntry) (hhdm : Nat) (ram : Nat → PageFrame) :
    pmmInit entries hhdm (fun q => (ram q).withData (g q (ram q).privateData)) =
      (pmmInit entries hhdm ram).map (Pmm.mapData g) := by
  have hfold : ∀ ms me (es : List MemmapEntry) (s : Pmm),
      es.foldl (initEntry ms me) (s.mapData g) = (es.foldl (initEntry ms me) s).mapData g := by
    intro ms me es
    induction es with
    | nil => exact fun _ => rfl
    | cons e es ih => exact fun s => by rw [List.foldl_cons, List.foldl_cons, initEntry_mapData, ih]
  have hframes : (fun i => if i < physToPfn (highestAddr entries) then
        resetFrame ((ram i).withData (g i (ram i).privateData))
      else (ram i).withData (g i (ram i).privateData)) = fun i =>
        (if i < physToPfn (highestAddr entries) then resetFrame (ram i) else ram i).withData
          (g i (if i < physToPfn (highestAddr entries) then
            resetFrame (ram i) else ram i).privateData) := by
    funext i
    split <;> rfl
  unfold pmmInit
  dsimp only
  rw [hframes]
  cases findMetadataEntry entries _ with
  | none => rfl
  | some place =>
    dsimp only
    rw [Option.map_some, ← hfold]
    rfl

end

/-! ## The heap reads it in `kfree` only -/

def Kmem.mapData (g : Nat → Nat → Nat) (s : Kmem) : Kmem := { s with pmm := s.pmm.mapData g }

section

variable {g : Nat → Nat → Nat} {s : Kmem}

namespace Kmem

lemma mapData_store (va v : Nat) : (s.mapData g).store va v = (s.store va v).mapData g := by
  cases s
  rfl

lemma mapData_load (va : Nat) : (s.mapData g).load va = s.load va := by
  cases s
  rfl

lemma mapData_setHead (i : Nat) (l : SlabList) (v : Nat) :
    (s.mapData g).setHead i l v = (s.setHead i l v).mapData g := by
  cases s
  rfl

lemma mapData_kCaches : (s.mapData g).kCaches = s.kCaches := by
  cases s
  rfl

lemma mapData_setFreeCount (slab v : Nat) :
    (s.mapData g).setFreeCount slab v = (s.setFreeCount slab v).mapData g := by
  cases s
  rfl

lemma mapData_slabFreeCount (slab : Nat) :
    (s.mapData g).slabFreeCount slab = s.slabFreeCount slab := by
  cases s
  rfl

lemma mapData_ite {p : Prop} [Decidable p] {s t : Kmem} :
    (if p then s.mapData g else t.mapData g) = (if p then s else t).mapData g := by
  split <;> rfl

end Kmem

lemma addSlab_mapData (l : SlabList) (i slab : Nat) :
    addSlab l i slab (s.mapData g) = (addSlab l i slab s).mapData g := by
  simp only [addSlab, Kmem.setNext, Kmem.setPrev, Kmem.mapData_store, Kmem.mapData_kCaches,
    Kmem.mapData_ite, Kmem.mapData_setHead]
  rfl

lemma removeSlab_mapData (l : SlabList) (i slab : Nat) :
    removeSlab l i slab (s.mapData g) = (removeSlab l i slab s).mapData g := by
  simp only [removeSlab, Kmem.setNext, Kmem.setPrev, Kmem.slabPrev, Kmem.slabNext,
    Kmem.mapData_store, Kmem.mapData_load, Kmem.mapData_setHead, Kmem.mapData_ite]
  rfl

lemma popEmpty_mapData (i slab : Nat) :
    popEmpty i slab (s.mapData g) = (popEmpty i slab s).mapData g := by
  simp only [popEmpty, Kmem.setPrev, Kmem.slabNext, Kmem.mapData_store, Kmem.mapData_load,
    Kmem.mapData_kCaches, Kmem.mapData_setHead, Kmem.mapData_ite]
  rfl

lemma linkObjects_mapData (size n : Nat) : ∀ (curr : Nat) (s : Kmem),
      linkObjects size n curr (s.mapData g) = (linkObjects size n curr s).mapData g := by
  induction n with
  | zero => exact fun _ _ => rfl
  | succ n ih => exact fun curr s => ih (curr + size) (s.store curr (curr + size))

lemma initSlab_mapData (i virt : Nat) :
    initSlab i virt (s.mapData g) = (initSlab i virt s).mapData g := by
  simp only [initSlab, Kmem.setNext, Kmem.setPrev, Kmem.mapData_store, Kmem.mapData_setFreeCount,
    linkObjects_mapData]

lemma takeObject_mapData (i slab : Nat) : takeObject i slab (s.mapData g) =
    ((takeObject i slab s).1, (takeObject i slab s).2.mapData g) := by
  simp only [takeObject, Kmem.slabFreeList, Kmem.mapData_load, Kmem.mapData_store,
    Kmem.mapData_slabFreeCount, Kmem.mapData_setFreeCount, removeSlab_mapData, addSlab_mapData,
    Kmem.mapData_ite]
  rfl

lemma freeObject_mapData (slab ptr : Nat) :
    freeObject slab ptr (s.mapData g) = (freeObject slab ptr s).mapData g := by
  simp only [freeObject, Kmem.slabCache, Kmem.slabFreeList, Kmem.mapData_load, Kmem.mapData_store,
    Kmem.mapData_slabFreeCount, Kmem.mapData_setFreeCount, removeSlab_mapData, addSlab_mapData,
    Kmem.mapData_ite]
  rfl

section

variable (hg : ∀ q d, d ≠ 0 → g q d = d)
include hg

lemma Pmm.mapData_mark {s : Pmm} {v : Nat} (hv : v ≠ 0) (o : Option Nat) :
    (s.mapData g).modFrame? o (fun f => { f with privateData := v }) =
      (s.modFrame? o fun f => { f with privateData := v }).mapData g := by
  cases o with
  | none => rfl
  | some pfn =>
    refine congrArg (fun k => { s with kFrames := k }) (funext fun q => ?_)
    by_cases hq : q = pfn
    · subst hq
      simp [Pmm.mapData, PageFrame.withData, hg q v hv]
    · simp [Pmm.mapData, hq, Ne.symm hq]

lemma slabCreate_mapData (i : Nat)
    (hvirt : ∀ r, pmmAllocPage s.pmm = some r → r.1 ≠ 0 → add64 r.1 r.2.kHhdmOffset ≠ 0) :
    slabCreate i (s.mapData g) = (slabCreate i s).map fun r => (r.1, r.2.mapData g) := by
  unfold slabCreate
  have halloc : pmmAllocPage (s.mapData g).pmm =
      (pmmAllocPage s.pmm).map fun r => (r.1, r.2.mapData g) := pmmAllocPages_mapData 1
  rw [halloc]
  cases hcall : pmmAllocPage s.pmm with
  | none => rfl
  | some r =>
    obtain ⟨phys, pmm⟩ := r
    dsimp only [Option.map_some]
    by_cases h0 : phys = 0
    · simp only [if_pos h0, Option.map_some]
      rfl
    · have hne := hvirt _ hcall h0
      have hset : ({ s.mapData g with pmm := pmm.mapData g } : Kmem) =
          Kmem.mapData g { s with pmm := pmm } := rfl
      have hhdm : ∀ s : Kmem, (s.mapData g).hhdm = s.hhdm := fun _ => rfl
      simp only [if_neg h0, Option.map_some, hset, hhdm, initSlab_mapData]
      generalize initSlab i _ _ = s1
      exact congrArg (fun p => some (_, { s1 with pmm := p }))
        (Pmm.mapData_mark hg hne (pmmGetFrame phys s1.pmm))

lemma getSlab_mapData (i : Nat)
    (hvirt : ∀ r, pmmAllocPage s.pmm = some r → r.1 ≠ 0 → add64 r.1 r.2.kHhdmOffset ≠ 0) :
    getSlab i (s.mapData g) = (getSlab i s).map fun r => (r.1, r.2.mapData g) := by
  simp only [getSlab, Kmem.mapData_kCaches, slabCreate_mapData hg i hvirt, popEmpty_mapData,
    addSlab_mapData]
  split
  · rfl
  · split
    · rfl
    · cases slabCreate i s with
      | none => rfl
      | some r =>
        by_cases h0 : r.1 = 0
        · simp [h0]
        · simp [h0, addSlab_mapData]

lemma kmalloc_mapData (size : Nat)
    (hvirt : ∀ r, pmmAllocPage s.pmm = some r → r.1 ≠ 0 → add64 r.1 r.2.kHhdmOffset ≠ 0) :
    kmalloc size (s.mapData g) = (kmalloc size s).map fun r => (r.1, r.2.mapData g) := by
  unfold kmalloc
  by_cases h0 : size = 0
  · simp [h0]
  · simp only [if_neg h0]
    cases findCache size with
    | none =>
      dsimp only
      have halloc := pmmAllocPages_mapData (g := g) (s := s.pmm)
        (add64 size (pageSize - 1) / pageSize)
      rw [show (s.mapData g).pmm = s.pmm.mapData g from rfl, halloc, Option.map_map, Option.map_map]
      rfl
    | some i =>
      dsimp only
      rw [getSlab_mapData hg i hvirt, Option.map_map, Option.map_map]
      refine congrArg (fun k => Option.map k (getSlab i s)) (funext fun r => ?_)
      simp only [Function.comp_apply, takeObject_mapData]
      split <;> rfl

end

lemma kfree_mapData {ptr : Nat} (hframe : ∀ pfn, pmmGetFrame (sub64 ptr s.hhdm) s.pmm = some pfn →
      g pfn (s.pmm.kFrames pfn).privateData = (s.pmm.kFrames pfn).privateData) :
    kfree ptr (s.mapData g) = (kfree ptr s).mapData g := by
  unfold kfree
  by_cases h0 : ptr = 0
  · rw [if_pos h0, if_pos h0]
  · have hget : pmmGetFrame (sub64 ptr (s.mapData g).hhdm) (s.mapData g).pmm =
        pmmGetFrame (sub64 ptr s.hhdm) s.pmm := rfl
    simp only [if_neg h0, hget]
    cases hcall : pmmGetFrame (sub64 ptr s.hhdm) s.pmm with
    | none => rfl
    | some pfn =>
      have hdata : ((s.mapData g).pmm.kFrames pfn).privateData = (s.pmm.kFrames pfn).privateData :=
        hframe pfn hcall
      have hfree : pmmFreePages (sub64 ptr (s.mapData g).hhdm)
          (2 ^ ((s.mapData g).pmm.kFrames pfn).order) (s.mapData g).pmm =
            (pmmFreePages (sub64 ptr s.hhdm) (2 ^ (s.pmm.kFrames pfn).order) s.pmm).mapData g :=
        pmmFreePages_mapData _ _
      simp only [hdata, hfree, freeObject_mapData]
      split <;> rfl

end

/-! ## Two machines -/

/-- The system of a machine that started with `ram` in its frames, from the
one that started with null in every `private_data`. -/
def HeapSys.stale (ram : Nat → PageFrame) (s : HeapSys) : HeapSys :=
  { s with kmem := s.kmem.mapData fun q d => if d = 0 then (ram q).privateData else d }

/-- A step that frees no large block whose first frame had something in its
`private_data`. -/
def HeapSys.FreesClean (ram : Nat → PageFrame) (s : HeapSys) : HeapOp → Prop
  | .free ptr => ∀ b ∈ s.live, b.ptr = ptr → 2048 < b.size →
      (ram (b.pageBlock s.kmem.hhdm).base).privateData = 0
  | _ => True

lemma findCache_eq_none {size : Nat} : findCache size = none ↔ 2048 < size := by
  constructor
  · intro h
    have hlast := List.find?_eq_none.mp h 8 (by decide)
    simpa [objectSize] using hlast
  · intro h
    refine List.find?_eq_none.mpr fun i hi => ?_
    have hle : ∀ j < numCaches, objectSize j ≤ 2048 := by decide
    have := hle i (List.mem_range.mp hi)
    simp only [decide_eq_true_eq]
    omega

section

variable {S : Set Nat} {s : HeapSys} {a : AHeap} {fl : Nat → List Nat} {x : AHeapSys}
  {ram : Nat → PageFrame}

lemma heapLegal_stale (op : HeapOp) : HeapLegal (s.stale ram) op ↔ HeapLegal s op := by
  cases op <;> rfl

section

variable (h : HeapSysInv S s a fl)
include h

lemma HeapSysInv.freed_frame {b : HeapBlock} (hb : b ∈ s.live) :
    ∃ f, pmmGetFrame (sub64 b.ptr s.kmem.hhdm) s.kmem.pmm = some f ∧
    ((s.kmem.pmm.kFrames f).privateData ≠ 0 ∧ b.size ≤ 2048 ∨ (s.kmem.pmm.kFrames f).privateData =
      0 ∧ 2048 < b.size ∧ f = (b.pageBlock s.kmem.hhdm).base) := by
  rw [h.rep.hhdm_eq, h.rep.pmm]
  obtain ⟨c, hc⟩ := h.home b hb
  have hheld := hc.mem_held hb
  cases hc with
  | small handed size cache =>
    obtain ⟨_, hframe, hmark⟩ := AHeap.kfree_object h.inv handed
    refine ⟨_, hframe, Or.inl ⟨?_, ?_⟩⟩
    · rw [hmark]
      exact (h.inv.page _ handed.slab).ptr_ne_zero
    · rwa [ne_eq, findCache_eq_none, Nat.not_lt] at cache
  | large cache ptr size noSlab =>
    have hlt := h.inv.pmmInv.base_lt hheld
    refine ⟨(b.pageBlock a.hhdm).base, ?_, Or.inr ⟨h.inv.unmarked _ hlt noSlab,
      findCache_eq_none.mp cache, rfl⟩⟩
    exact if_neg (Nat.not_le.mpr hlt)

lemma HeapSysInv.kfree_stale {ptr : Nat} (hl : HeapLegal s (.free ptr))
    (hclean : s.FreesClean ram (.free ptr)) : kfree ptr (s.stale ram).kmem =
      (HeapSys.stale ram { s with kmem := kfree ptr s.kmem }).kmem := by
  cases hl with
  | inl hnull => simp [hnull, kfree, HeapSys.stale]
  | inr hlive =>
    obtain ⟨b, hb, rfl⟩ := hlive
    obtain ⟨f, hf, hcase⟩ := h.freed_frame hb
    refine kfree_mapData fun pfn hpfn => ?_
    obtain rfl := Option.mem_unique hf hpfn
    cases hcase with
    | inl hsmall => rw [if_neg hsmall.1]
    | inr hlarge =>
      rw [if_pos hlarge.1, hlarge.1, hlarge.2.2]
      exact hclean b hb rfl hlarge.2.1

lemma HeapSysInv.allocPage_ne_zero (r : Nat × Pmm) (hr : pmmAllocPage s.kmem.pmm = some r)
    (hne : r.1 ≠ 0) : add64 r.1 r.2.kHhdmOffset ≠ 0 := by
  rw [h.rep.pmm] at hr
  cases pmmAllocPage_spec h.inv.pmmInv with
  | inl hnull =>
    rw [← Option.mem_unique hnull hr] at hne
    exact absurd rfl hne
  | inr hgot =>
    obtain ⟨f, pmm, _, halloc, hpmm, hk, _⟩ := hgot
    have hok := h.inv.pageOk (hpmm.mem_pages (b := ⟨0, f⟩) (Or.inl rfl))
    obtain rfl := Option.mem_unique halloc hr
    rw [hk.hhdm]
    show add64 (pfnToPhys f) a.hhdm ≠ 0
    rw [hok.add64_phys]
    exact hok.ptr_ne_zero

lemma HeapSysInv.heapStep_stale {op : HeapOp} (hl : HeapLegal s op) (hclean : s.FreesClean ram op) :
    heapStep (s.stale ram) op = (heapStep s op).map (HeapSys.stale ram) := by
  cases op with
  | malloc size =>
    have hmalloc := kmalloc_mapData (s := s.kmem) (g := fun q d => if d = 0 then
      (ram q).privateData else d)
      (fun q d hd => if_neg hd) size h.allocPage_ne_zero
    simp only [heapStep, HeapSys.stale, hmalloc, Option.map_map]
    rfl
  | free ptr =>
    simp only [heapStep, h.kfree_stale hl hclean, Option.map_some]
    rfl
  | pageAlloc count =>
    have halloc := pmmAllocPages_mapData (s := s.kmem.pmm)
      (g := fun q d => if d = 0 then (ram q).privateData else d) count
    simp only [heapStep, HeapSys.stale, Kmem.mapData, halloc, Option.map_map]
    rfl
  | pageFree phys count =>
    simp only [heapStep, HeapSys.stale, Kmem.mapData, pmmFreePages_mapData, Option.map_some]
  | write va byte => rfl

end

/-- The states of the machine with stale frames come from those of the
machine with cleared ones. -/
lemma Refines.run_stale (h : Refines S s x) {ops : List HeapOp}
    (hl : Along heapStep (fun t op => HeapLegal t op ∧ t.FreesClean ram op) (s.stale ram) ops) :
    ∃ t, run heapStep (s.stale ram) ops = some t ∧ ∃ s' x', t = s'.stale ram ∧ Refines S s' x' := by
  refine run_invariant (fun t => ∃ s' x', t = s'.stale ram ∧ Refines S s' x') ?_ ⟨s, x, rfl, h⟩ hl
  rintro t op ⟨s', x', rfl, h'⟩ ⟨hop, hclean⟩
  rw [heapLegal_stale] at hop
  obtain ⟨s'', x'', hstep, _, h''⟩ := h'.step hop
  obtain ⟨_, hinv⟩ := h'.inv
  refine ⟨s''.stale ram, ?_, s'', x'', rfl, h''⟩
  have hclean' : s'.FreesClean ram op := by
    cases op <;> exact hclean
  rw [hinv.heapStep_stale hop hclean', hstep, Option.map_some]

end

/-! ## Freeing a large block -/

/-- `kfree` gives the pages of block `b` back to the page allocator, and
nothing else happens: no word of memory changes, so no `Slab` does. -/
structure GivesBack (s : HeapSys) (b : HeapBlock) : Prop where
  count : (kfree b.ptr s.kmem).pmm.kFreePages =
    s.kmem.pmm.kFreePages + 2 ^ (b.pageBlock s.kmem.hhdm).order
  pages : (kfree b.ptr s.kmem).pmm.freePages =
    s.kmem.pmm.freePages ∪ (b.pageBlock s.kmem.hhdm).cells
  held : ∀ f ∈ (b.pageBlock s.kmem.hhdm).cells, f ∉ s.kmem.pmm.freePages
  mem : (kfree b.ptr s.kmem).mem = s.kmem.mem
  kCaches : (kfree b.ptr s.kmem).kCaches = s.kmem.kCaches

section

variable {S : Set Nat} {s : HeapSys} {a : AHeap} {fl : Nat → List Nat} {x : AHeapSys}
  {ram : Nat → PageFrame}

lemma PmmInv.freePages_free {pmm pmm' : Pmm} {fl' : Nat → List Nat} {held : Set Block} {b : Block}
    (h : PmmInv S pmm fl held) (h' : PmmInv S pmm' fl' (held \ {b})) (hb : b ∈ held) :
    pmm'.freePages = pmm.freePages ∪ b.cells := by
  ext f
  rw [h'.mem_freePages, Set.mem_union, h.mem_freePages]
  constructor
  · rintro ⟨hS, hnone⟩
    by_cases hf : f ∈ b.cells
    · exact Or.inr hf
    · refine Or.inl ⟨hS, fun c hc hin => ?_⟩
      by_cases hcb : c = b
      · exact hf (hcb ▸ hin)
      · exact hnone c ⟨hc, hcb⟩ hin
  · rintro (⟨hS, hnone⟩ | hf)
    · exact ⟨hS, fun c hc => hnone c hc.1⟩
    · refine ⟨h.tiles.cells_subset (Or.inr hb) hf, fun c hc hin => ?_⟩
      exact Set.disjoint_left.mp (h.tiles.disjoint (Or.inr hc.1) (Or.inr hb) hc.2) hin hf

lemma HeapSysInv.givesBack (h : HeapSysInv S s a fl) {b : HeapBlock} (hb : b ∈ s.live)
    (hsize : 2048 < b.size) : GivesBack s b := by
  have hhdm := h.rep.hhdm_eq
  obtain ⟨c, hc⟩ := h.home b hb
  have hheld := hc.mem_held hb
  cases hc with
  | small handed size cache => exact absurd (findCache_eq_none.mpr hsize) cache
  | large cache ptr size noSlab =>
    obtain ⟨pmm, fl', hk, _, _, hcount, _, hinv'⟩ := kfree_pages_spec h.rep h.inv hheld noSlab
    rw [← ptr] at hk
    have hpages := h.inv.pmmInv.freePages_free hinv'.pmmInv hheld
    refine ⟨?_, ?_, fun f hf hfree => ?_, ?_, ?_⟩
    · rw [hk, hhdm, h.rep.pmm]
      exact hcount
    · rw [hk, hhdm, h.rep.pmm]
      exact hpages
    · rw [h.rep.pmm, h.inv.pmmInv.mem_freePages] at hfree
      rw [hhdm] at hf
      exact hfree.2 _ hheld hf
    · rw [hk]
    · rw [hk]

lemma GivesBack.stale {b : HeapBlock} (h : GivesBack s b) (hk : kfree b.ptr (s.stale ram).kmem =
      (HeapSys.stale ram { s with kmem := kfree b.ptr s.kmem }).kmem) :
    GivesBack (s.stale ram) b := by
  refine ⟨?_, ?_, fun f hf => ?_, ?_, ?_⟩
  · rw [hk]
    exact h.count
  · rw [hk]
    exact Pmm.freePages_mapData.trans (h.pages.trans (congrArg (· ∪ _) Pmm.freePages_mapData.symm))
  · exact fun hfree => h.held f hf (Pmm.freePages_mapData ▸ hfree)
  · rw [hk]
    exact h.mem
  · rw [hk]
    exact h.kCaches

lemma addSlab_pmm (l : SlabList) (i slab : Nat) (s : Kmem) : (addSlab l i slab s).pmm = s.pmm := by
  unfold addSlab
  dsimp only
  split <;> rfl

lemma removeSlab_pmm (l : SlabList) (i slab : Nat) (s : Kmem) :
    (removeSlab l i slab s).pmm = s.pmm := by
  unfold removeSlab
  dsimp only
  split <;> split <;> rfl

lemma freeObject_pmm (slab ptr : Nat) (s : Kmem) : (freeObject slab ptr s).pmm = s.pmm := by
  simp only [freeObject, apply_ite Kmem.pmm, addSlab_pmm, removeSlab_pmm, ite_self]
  rfl

/-- The machine with stale frames takes the block for a slab if the first
frame of the block is not cleared. -/
lemma HeapSysInv.givesBack_stale_iff (h : HeapSysInv S s a fl) {b : HeapBlock} (hb : b ∈ s.live)
    (hsize : 2048 < b.size) :
    GivesBack (s.stale ram) b ↔ (ram (b.pageBlock s.kmem.hhdm).base).privateData = 0 := by
  constructor
  · intro hback
    by_contra hdirty
    obtain ⟨f, hf, hcase⟩ := h.freed_frame hb
    obtain ⟨hnull, -, rfl⟩ := hcase.resolve_left fun hsmall => by omega
    have hkfree : (kfree b.ptr (s.stale ram).kmem).pmm = (s.stale ram).kmem.pmm := by
      have hget : pmmGetFrame (sub64 b.ptr (s.stale ram).kmem.hhdm) (s.stale ram).kmem.pmm =
          some (b.pageBlock s.kmem.hhdm).base := hf
      have hdata : ((s.stale ram).kmem.pmm.kFrames (b.pageBlock s.kmem.hhdm).base).privateData =
          (ram (b.pageBlock s.kmem.hhdm).base).privateData := if_pos hnull
      unfold kfree
      by_cases h0 : b.ptr = 0
      · rw [if_pos h0]
      · simp only [if_neg h0, hget, hdata, ne_eq, hdirty, not_false_eq_true, if_true,
          freeObject_pmm]
    have hcount := hback.count
    rw [hkfree] at hcount
    have hpos := Nat.two_pow_pos (b.pageBlock (s.stale ram).kmem.hhdm).order
    omega
  · intro hclean
    refine (h.givesBack hb hsize).stale (h.kfree_stale (Or.inr ⟨b, hb, rfl⟩) ?_)
    intro c hc hptr _
    rw [h.eq_of_ptr_eq hc hb hptr]
    exact hclean

end

/-! ## Runs -/

def clearData (ram : Nat → PageFrame) (q : Nat) : PageFrame := (ram q).withData 0

lemma pmmInit_stale (entries : List MemmapEntry) (hhdm : Nat) (ram : Nat → PageFrame) :
    pmmInit entries hhdm ram = (pmmInit entries hhdm (clearData ram)).map
      (Pmm.mapData fun q d => if d = 0 then (ram q).privateData else d) := by
  rw [← pmmInit_mapData]
  rfl

/-- The machine's direct map must hold all of physical memory; its memory
may hold anything. In every legal run that frees no large block whose first
frame was not cleared, `kfree` gives the pages of a live large block back
exactly if the first frame of that block was. -/
theorem heap_gives_back_iff (entries : List MemmapEntry) (hhdm : Nat) (ram : Nat → PageFrame)
    (mem : WordMem) (hok : MemmapOk entries) (hh : hhdm < 2 ^ 64)
    (hspace : physToPfn (highestAddr entries) * pageSize + hhdm ≤ 2 ^ 64) :
    ∃ pmm, pmmInit entries hhdm ram = some pmm ∧
      ∀ ops,
        Along heapStep (fun s op => HeapLegal s op ∧ s.FreesClean ram op) (.start pmm mem) ops →
        ∃ s, run heapStep (.start pmm mem) ops = some s ∧ ∀ b ∈ s.live, 2048 < b.size →
          (GivesBack s b ↔ (ram (b.pageBlock s.kmem.hhdm).base).privateData = 0) := by
  have hclear : ∀ q, (clearData ram q).privateData = 0 := fun _ => rfl
  obtain ⟨pmm, ms, me, hinit, href⟩ := refines_start hok hh hspace hclear mem
  refine ⟨_, (pmmInit_stale entries hhdm ram).trans (congrArg _ hinit), fun ops hl => ?_⟩
  obtain ⟨t, hrun, s, x, rfl, hs⟩ := href.run_stale hl
  obtain ⟨_, hinv⟩ := hs.inv
  exact ⟨_, hrun, fun b hb hsize => hinv.givesBack_stale_iff hb hsize⟩

/-- A block of a page is taken on a machine whose memory was cleared. -/
theorem heap_gives_back_smallMap : ∃ s, run heapStep (.start smallStart fun _ => 0)
    [.malloc 4096] = some s ∧ ∀ b ∈ s.live, 2048 < b.size →
    (GivesBack s b ↔ blankFrame.privateData = 0) := by
  obtain ⟨pmm, hinit, hback⟩ := heap_gives_back_iff smallMap 0 (fun _ => blankFrame) (fun _ => 0)
    smallMap_ok (by decide) (by decide)
  rw [pmmInit_smallMap] at hinit
  obtain rfl := Option.some.inj hinit
  exact hback _ ⟨⟨by decide, trivial⟩, fun _ _ => trivial⟩

def usedFrame : PageFrame := { blankFrame with privateData := 5 * pageSize }

/-- The state `pmm_init` gives on `smallMap` when no frame was cleared. -/
def staleStart : Pmm := (pmmInit smallMap 0 fun _ => usedFrame).get (by decide)

/-- The block at page 4 is taken and freed. `kFreePages` does not go up
again, and the free writes to page 5, which nobody owns. -/
theorem kfree_keeps_pages : pmmInit smallMap 0 (fun _ => usedFrame) = some staleStart ∧
    (run heapStep (.start staleStart fun _ => 0) [.malloc 4096]).map
      (fun s => (s.live, s.kmem.pmm.kFreePages)) = some ([⟨4 * pageSize, 4096⟩], 1) ∧
    (run heapStep (.start staleStart fun _ => 0) [.malloc 4096, .free (4 * pageSize)]).map
      (fun s => (s.kmem.pmm.kFreePages, s.kmem.mem (5 * 512))) =
        some (1, BitVec.ofNat 64 (4 * pageSize)) := by
  refine ⟨(Option.some_get _).symm, ?_, ?_⟩
  · decide
  · decide

end VortexOS.Mm
