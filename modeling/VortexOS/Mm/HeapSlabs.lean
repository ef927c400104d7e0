/-
VortexOS.Mm.HeapSlabs — one slab in memory.

Each step on a slab is followed through memory once, by the words it
changes: `ListsRep.remove` and `ListsRep.add` change link words,
`HeapRep.pop` and `HeapRep.push` a free list, `initSlab_spec` a new page.
`takeObject`, `freeObject` and `slabCreate` on memory that represents an
abstract heap refine `AHeap.take`, `AHeap.put` and `AHeap.insert`.
-/
import VortexOS.Mm.HeapAbstract

namespace VortexOS.Mm

open Function Lib

variable {m m' : WordMem} {hhdm f i o g j ptr : Nat} {objs : List Nat} {s s' s1 s2 : Kmem}
  {L : Links Nat} {P : Set Nat} {ls : Nat → SlabList → List Nat} {a : AHeap} {l k : SlabList}
  {pmm : Pmm} {fl' : Nat → List Nat}

/-! ## What a slab's representation reads -/

lemma FreeChain.congr : ∀ {objs : List Nat} {w : BitVec 64}, FreeChain m hhdm w objs →
    (∀ o ∈ objs, m' (sub64 o hhdm / 8) = m (sub64 o hhdm / 8)) → FreeChain m' hhdm w objs
  | [], _, h, _ => h
  | o :: os, _, ⟨hw, hrest⟩, hag => by
    refine ⟨hw, ?_⟩
    rw [hag o (by simp)]
    exact FreeChain.congr hrest fun p hp => hag p (by simp [hp])

lemma SlabRep.congr (h : SlabRep m hhdm f i objs) (hhdr : m' (f * 512) = m (f * 512))
    (hcount : m' (f * 512 + 1) = m (f * 512 + 1)) (hcache : m' (f * 512 + 4) = m (f * 512 + 4))
    (hobjs : ∀ o ∈ objs, m' (sub64 o hhdm / 8) = m (sub64 o hhdm / 8)) :
    SlabRep m' hhdm f i objs := by
  refine ⟨?_, by rw [hcount]; exact h.count, by rw [hcache]; exact h.cache⟩
  rw [hhdr]
  exact h.chain.congr hobjs

lemma ListsRep.congr (h : ListsRep s L P ls) (hpmm : s'.pmm = s.pmm)
    (hheads : s'.kCaches = s.kCaches) (hnext : ∀ f ∈ P, s'.mem (f * 512 + 2) = s.mem (f * 512 + 2))
    (hprev : ∀ f ∈ P, s'.mem (f * 512 + 3) = s.mem (f * 512 + 3)) : ListsRep s' L P ls := by
  have hh : s'.hhdm = s.hhdm := congrArg Pmm.kHhdmOffset hpmm
  refine ⟨⟨fun f hf => ?_, fun f hf => ?_, fun f hf => ?_, h.nextMem, h.prevMem⟩, h.dlist, h.mem,
    h.apart, fun i l => ?_⟩
  · rw [hh]
    exact h.ok f hf
  · rw [hnext f hf, hh]
    exact h.next f hf
  · rw [hprev f hf, hh]
    exact h.prev f hf
  · rw [hheads, hh]
    exact h.heads i l

lemma HeapRep.hhdm_eq (h : HeapRep s a) : s.hhdm = a.hhdm := congrArg Pmm.kHhdmOffset h.pmm

lemma SlabsOk.object_word (ok : SlabsOk a) (hf : f ∈ a.slabs)
    (ho : o ∈ objects a.hhdm (a.cacheOf f) f) :
    ∃ k, 5 ≤ k ∧ k < 512 ∧ o = pagePtr a.hhdm f + 8 * k ∧ sub64 o a.hhdm / 8 = f * 512 + k := by
  obtain ⟨i, l, hl⟩ := hf
  obtain ⟨hi, hc⟩ := ok.cache i l f hl
  rw [hc] at ho
  exact Mm.object_word (ok.page f ⟨i, l, hl⟩) hi ho

lemma SlabsOk.object_toNat (ok : SlabsOk a) (hf : f ∈ a.slabs)
    (ho : o ∈ objects a.hhdm (a.cacheOf f) f) : (BitVec.ofNat 64 o).toNat = o := by
  obtain ⟨k, _, hk, rfl, _⟩ := ok.object_word hf ho
  rw [BitVec.toNat_ofNat, Nat.mod_eq_of_lt]
  exact (ok.page f hf).ptr_lt (by simp only [pageSize]; omega)

lemma HeapRep.slab_of_linksOnly (h : HeapRep s a) (ok : SlabsOk a) (honly : LinksOnly a.slabs s s')
    (hf : f ∈ a.slabs) : SlabRep s'.mem a.hhdm f (a.cacheOf f) (a.free f) := by
  refine (h.slab f hf).congr (honly.mem _ ?_) (honly.mem _ ?_) (honly.mem _ ?_) fun o ho => ?_
  · exact fun g _ => by omega
  · exact fun g _ => by omega
  · exact fun g _ => by omega
  · obtain ⟨k, h5, h512, _, hw⟩ := ok.object_word hf (ok.objMem f hf o ho)
    rw [hw]
    exact honly.mem _ fun g _ => by omega

/-! ## Moving a slab between lists -/

lemma AHeap.mem_move {m : SlabList} (hnd : (a.lists i l).Nodup) (hlk : l ≠ k) :
    g ∈ (a.move i f l k).lists j m ↔
      (g = f ∧ j = i ∧ m = k) ∨ (g ∈ a.lists j m ∧ ¬ (g = f ∧ j = i ∧ m = l)) := by
  simp only [AHeap.move, setList_apply]
  by_cases hj : j = i
  · subst hj
    by_cases hm : m = k
    · subst hm
      simp [Ne.symm hlk]
    · by_cases hml : m = l
      · subst hml
        simp [hm, hnd.mem_erase_iff, and_comm]
      · simp [hm, hml]
  · simp [hj]

lemma AHeap.slabs_move (hnd : (a.lists i l).Nodup) (hlk : l ≠ k) (hf : f ∈ a.lists i l) :
    (a.move i f l k).slabs = a.slabs := by
  ext g
  simp only [AHeap.slabs, Set.mem_ofPred_eq]
  constructor
  · intro hg
    obtain ⟨j, m, hg⟩ := hg
    cases (mem_move hnd hlk).mp hg with
    | inl heq => exact ⟨i, l, heq.1 ▸ hf⟩
    | inr hold => exact ⟨j, m, hold.1⟩
  · intro hg
    obtain ⟨j, m, hg⟩ := hg
    by_cases hgf : g = f ∧ j = i ∧ m = l
    · exact ⟨i, k, (mem_move hnd hlk).mpr (Or.inl ⟨hgf.1, rfl, rfl⟩)⟩
    · exact ⟨j, m, (mem_move hnd hlk).mpr (Or.inr ⟨hg, hgf⟩)⟩

lemma SlabsOk.move (ok : SlabsOk a) (hlk : l ≠ k) (hf : f ∈ a.lists i l) :
    SlabsOk (a.move i f l k) := by
  have hmem := fun g j m => AHeap.mem_move (f := f) (g := g) (j := j) (m := m) (ok.nodup i l) hlk
  have hslabs := AHeap.slabs_move (ok.nodup i l) hlk hf
  -- every page stays with its cache
  have hold : ∀ g j m, g ∈ (a.move i f l k).lists j m → ∃ m', g ∈ a.lists j m' := by
    intro g j m hg
    cases (hmem g j m).mp hg with
    | inl heq => exact ⟨l, heq.1 ▸ heq.2.1 ▸ hf⟩
    | inr h => exact ⟨m, h.1⟩
  refine ⟨fun g hg => ok.page g (hslabs ▸ hg), fun j m => ?_, fun g j j' m m' hg hg' => ?_,
    fun j m g hg => ?_, fun g hg => ok.objNodup g (hslabs ▸ hg),
      fun g hg => ok.objMem g (hslabs ▸ hg)⟩
  · simp only [AHeap.move, setList_apply]
    split
    · split
      next heq => exact absurd heq.2.symm hlk
      · refine List.nodup_cons.mpr ⟨fun hin => ?_, ok.nodup i k⟩
        exact hlk (ok.apart f i i l k hf hin).2
    · split
      · exact (ok.nodup i l).erase f
      · exact ok.nodup j m
  · cases (hmem g j m).mp hg with
    | inl h1 =>
      cases (hmem g j' m').mp hg' with
      | inl h2 => exact ⟨h1.2.1.trans h2.2.1.symm, h1.2.2.trans h2.2.2.symm⟩
      | inr h2 =>
        obtain ⟨e1, e2⟩ := ok.apart g i j' l m' (h1.1 ▸ hf) h2.1
        exact absurd ⟨h1.1, e1.symm, e2.symm⟩ h2.2
    | inr h1 =>
      cases (hmem g j' m').mp hg' with
      | inl h2 =>
        obtain ⟨e1, e2⟩ := ok.apart g i j l m (h2.1 ▸ hf) h1.1
        exact absurd ⟨h2.1, e1.symm, e2.symm⟩ h1.2
      | inr h2 => exact ok.apart g j j' m m' h1.1 h2.1
  · obtain ⟨m', hm'⟩ := hold g j m hg
    exact ok.cache j m' g hm'

lemma HeapRep.move (h : HeapRep s a) (ok : SlabsOk a) (hlk : l ≠ k) (hf : f ∈ a.lists i l) : HeapRep
      (addSlab k i (pagePtr a.hhdm f) (removeSlab l i (pagePtr a.hhdm f) s)) (a.move i f l k) ∧
    LinksOnly a.slabs s (addSlab k i (pagePtr a.hhdm f) (removeSlab l i (pagePtr a.hhdm f) s)) := by
  obtain ⟨L, hlists⟩ := h.lists
  obtain ⟨hrem, honly1⟩ := hlists.remove hf
  have hh : (removeSlab l i (pagePtr s.hhdm f) s).hhdm = s.hhdm :=
    congrArg Pmm.kHhdmOffset honly1.pmm
  -- in between, `f` is on no list
  have hnone : ∀ j m, f ∉ setList a.lists i l ((a.lists i l).erase f) j m := by
    intro j m hin
    rw [setList_apply] at hin
    split at hin
    · exact (ok.nodup i l).not_mem_erase hin
    next hne =>
      obtain ⟨e1, e2⟩ := ok.apart f i j l m hf hin
      exact hne ⟨e1.symm, e2.symm⟩
  obtain ⟨hadd, honly2⟩ := hrem.add (i := i) (l := k) ⟨i, l, hf⟩ hnone
  rw [hh, h.hhdm_eq] at hadd honly2
  rw [h.hhdm_eq] at honly1
  have honly := honly1.trans honly2
  have hslabs := AHeap.slabs_move (ok.nodup i l) hlk hf
  refine ⟨⟨honly.pmm.trans h.pmm, ?_, fun g hg => ?_⟩, honly⟩
  · rw [hslabs]
    exact ⟨_, hadd⟩
  · rw [hslabs] at hg
    exact h.slab_of_linksOnly ok honly hg

/-! ## Stores to a free list -/

/-- The free list of slab `f` is replaced: stores to words of page `f`
other than its links and its cache. -/
lemma HeapRep.setFree (h : HeapRep s a) (ok : SlabsOk a) (hpmm : s'.pmm = s.pmm)
    (hheads : s'.kCaches = s.kCaches)
    (hmem : ∀ w, (w / 512 ≠ f ∨ (2 ≤ w % 512 ∧ w % 512 ≤ 4)) → s'.mem w = s.mem w)
    (hchain : FreeChain s'.mem a.hhdm (s'.mem (f * 512)) objs)
    (hcount : lo32 (s'.mem (f * 512 + 1)) = objs.length) : HeapRep s' (a.setFree f objs) := by
  obtain ⟨L, hlists⟩ := h.lists
  refine ⟨hpmm.trans h.pmm, ⟨L, ?_⟩, fun g hg => ?_⟩
  · exact hlists.congr hpmm hheads (fun g _ => hmem _ (Or.inr (by omega)))
      fun g _ => hmem _ (Or.inr (by omega))
  · have hg' : g ∈ a.slabs := hg
    have hslab := h.slab g hg'
    by_cases hgf : g = f
    · subst hgf
      simp only [AHeap.setFree, update_self]
      refine ⟨hchain, hcount, ?_⟩
      rw [hmem _ (Or.inr (by omega))]
      exact hslab.cache
    · simp only [AHeap.setFree, update_of_ne hgf]
      refine hslab.congr (hmem _ (Or.inl (by omega))) (hmem _ (Or.inl (by omega)))
        (hmem _ (Or.inl (by omega))) fun o ho => ?_
      obtain ⟨k, _, h512, _, hw⟩ := ok.object_word hg' (ok.objMem g hg' o ho)
      exact hmem _ (Or.inl (by omega))

lemma SlabsOk.setFree (ok : SlabsOk a) (hnd : objs.Nodup)
    (hobjs : ∀ o ∈ objs, o ∈ objects a.hhdm (a.cacheOf f) f) : SlabsOk (a.setFree f objs) := by
  refine ⟨ok.page, ok.nodup, ok.apart, ok.cache, fun g hg => ?_, fun g hg o ho => ?_⟩
  · by_cases hgf : g = f
    · subst hgf
      simpa [AHeap.setFree] using hnd
    · simpa [AHeap.setFree, hgf] using ok.objNodup g hg
  · by_cases hgf : g = f
    · subst hgf
      simp only [AHeap.setFree, update_self] at ho
      exact hobjs o ho
    · simp only [AHeap.setFree, update_of_ne hgf] at ho
      exact ok.objMem g hg o ho

lemma slabCapacity_lt (i : Nat) : slabCapacity i < 2 ^ 32 :=
  Nat.lt_of_le_of_lt (Nat.div_le_self _ _) (by decide)

lemma length_le_capacity (hnd : objs.Nodup) (hobjs : ∀ o ∈ objs, o ∈ objects hhdm i f) :
    objs.length ≤ slabCapacity i := by
  have hlen := (hnd.subperm hobjs).length_le
  simpa [objects] using hlen

lemma SlabsOk.length_le (ok : SlabsOk a) (hf : f ∈ a.slabs) :
    (a.free f).length ≤ slabCapacity (a.cacheOf f) :=
  length_le_capacity (ok.objNodup f hf) (ok.objMem f hf)

@[simp] lemma Kmem.hhdm_store (va v : Nat) : (s.store va v).hhdm = s.hhdm := rfl

@[simp] lemma Kmem.hhdm_setFreeCount (slab v : Nat) : (s.setFreeCount slab v).hhdm = s.hhdm := rfl

section

variable (hs : s.hhdm = hhdm) (hok : PageOk hhdm f)
include hs hok

lemma Kmem.slabFreeCount_eq : s.slabFreeCount (pagePtr hhdm f) = lo32 (s.mem (f * 512 + 1)) := by
  rw [Kmem.slabFreeCount, Kmem.wordAt_ptr hs hok (by decide)]

lemma Kmem.setFreeCount_mem (v : Nat) : (s.setFreeCount (pagePtr hhdm f) v).mem =
      update s.mem (f * 512 + 1) (setLo32 (s.mem (f * 512 + 1)) v) := by
  rw [Kmem.setFreeCount, Kmem.wordAt_ptr hs hok (by decide)]

lemma Kmem.store_slab_mem (v : Nat) :
    (s.store (pagePtr hhdm f) v).mem = update s.mem (f * 512) (BitVec.ofNat 64 v) := by
  rw [Kmem.store, Kmem.wordAt_slab hs hok]

end

lemma HeapRep.pop (h : HeapRep s a) (ok : SlabsOk a) {rest : List Nat} (hf : f ∈ a.slabs)
    (hobjs : a.free f = o :: rest) (hs1 : s1 = s.store (pagePtr a.hhdm f) (s.load o))
    (hs2 : s2 = s1.setFreeCount (pagePtr a.hhdm f)
      (s1.slabFreeCount (pagePtr a.hhdm f) + (2 ^ 32 - 1))) :
    s.slabFreeList (pagePtr a.hhdm f) = o ∧ HeapRep s2 (a.setFree f rest) ∧
    s2.slabFreeCount (pagePtr a.hhdm f) = rest.length ∧ ∀ w, (w / 512 = f → 5 ≤ w % 512) →
    s2.mem w = s.mem w := by
  have hok : PageOk a.hhdm f := ok.page f hf
  have hh1 : s1.hhdm = a.hhdm := by rw [hs1]; exact h.hhdm_eq
  have hh2 : s2.hhdm = a.hhdm := by rw [hs2]; exact hh1
  have hslab := h.slab f hf
  have hlen := Nat.lt_of_le_of_lt (ok.length_le hf) (slabCapacity_lt _)
  have hoMem : o ∈ objects a.hhdm (a.cacheOf f) f := ok.objMem f hf o (by simp [hobjs])
  rw [hobjs] at hslab hlen
  obtain ⟨hhead, hrest⟩ := hslab.chain
  have hcount := hslab.count
  rw [List.length_cons] at hcount hlen
  obtain ⟨k, h5, h512, _, hword⟩ := ok.object_word hf hoMem
  -- memory after each store
  have hmem1 : s1.mem = update s.mem (f * 512) (s.mem (f * 512 + k)) := by
    rw [hs1, Kmem.store_slab_mem h.hhdm_eq hok, Kmem.load, Kmem.wordAt, h.hhdm_eq, hword,
      BitVec.ofNat_toNat, BitVec.setWidth_eq]
  have hcount1 : s1.slabFreeCount (pagePtr a.hhdm f) = rest.length + 1 := by
    rw [Kmem.slabFreeCount_eq hh1 hok, hmem1, update_of_ne (by omega), hcount]
  have hmem2 : s2.mem = update s1.mem (f * 512 + 1)
      (setLo32 (s1.mem (f * 512 + 1)) (rest.length + 1 + (2 ^ 32 - 1))) := by
    rw [hs2, Kmem.setFreeCount_mem hh1 hok, hcount1]
  have hkeep : ∀ w, w ≠ f * 512 → w ≠ f * 512 + 1 → s2.mem w = s.mem w := by
    intro w h0 h1
    rw [hmem2, update_of_ne h1, hmem1, update_of_ne h0]
  have hcount2 : lo32 (s2.mem (f * 512 + 1)) = rest.length := by
    rw [hmem2, update_self]
    simp only [lo32, setLo32, BitVec.toNat_ofNat]
    omega
  have hlink : s2.mem (f * 512) = s.mem (f * 512 + k) := by
    rw [hmem2, update_of_ne (by omega), hmem1, update_self]
  refine ⟨?_, ?_, ?_, fun w hw => hkeep w (by omega) (by omega)⟩
  · rw [Kmem.slabFreeList, Kmem.load, Kmem.wordAt_slab h.hhdm_eq hok, hhead]
    exact ok.object_toNat hf hoMem
  · refine h.setFree ok (by rw [hs2, hs1]; rfl) (by rw [hs2, hs1]; rfl)
      (fun w hw => hkeep w (by omega) (by omega)) ?_ hcount2
    rw [hlink, ← hword]
    refine hrest.congr fun p hp => ?_
    obtain ⟨j, hj, hj', _, hpw⟩ := ok.object_word hf (ok.objMem f hf p (by simp [hobjs, hp]))
    rw [hpw]
    exact hkeep _ (by omega) (by omega)
  · rw [Kmem.slabFreeCount_eq hh2 hok, hcount2]

lemma takeObject_refines (h : HeapRep s a) (ok : SlabsOk a) (hf : f ∈ a.lists i .partly)
    (hne : a.free f ≠ []) :
    ∃ s', takeObject i (pagePtr a.hhdm f) s = ((a.take i f).1, s') ∧ HeapRep s' (a.take i f).2 ∧
    SlabsOk (a.take i f).2 ∧ ∀ w, (w / 512 ∈ a.slabs → 5 ≤ w % 512) → s'.mem w = s.mem w := by
  have hfs : f ∈ a.slabs := ⟨i, .partly, hf⟩
  obtain ⟨o, rest, hobjs⟩ := List.exists_cons_of_ne_nil hne
  obtain ⟨hobj, hrep, hcount, hmem⟩ := h.pop ok hfs hobjs rfl rfl
  have hok' : SlabsOk (a.setFree f rest) := by
    have hnd := ok.objNodup f hfs
    rw [hobjs] at hnd
    exact ok.setFree (List.nodup_cons.mp hnd).2
      fun p hp => ok.objMem f hfs p (by simp [hobjs, hp])
  unfold takeObject AHeap.take
  simp only [hobj, hobjs, List.tail_cons, List.headD_cons, hcount]
  by_cases hempty : rest = []
  · rw [if_pos (by rw [hempty]; rfl), if_pos hempty]
    obtain ⟨hrep', honly⟩ := hrep.move hok' (l := .partly) (k := .full) (by decide) hf
    exact ⟨_, rfl, hrep', hok'.move (by decide) hf,
      fun w hw => (honly.headers hw).trans (hmem w fun heq => hw (heq ▸ hfs))⟩
  · rw [if_neg (by simpa using hempty), if_neg hempty]
    exact ⟨_, rfl, hrep, hok', fun w hw => hmem w fun heq => hw (heq ▸ hfs)⟩

/-! ## Returning an object -/

lemma HeapRep.push (h : HeapRep s a) (ok : SlabsOk a) (hf : f ∈ a.slabs)
    (hptr : ptr ∈ objects a.hhdm (a.cacheOf f) f) (hnew : ptr ∉ a.free f) {s3 : Kmem}
    (hs1 : s1 = s.store ptr (s.slabFreeList (pagePtr a.hhdm f)))
    (hs2 : s2 = s1.store (pagePtr a.hhdm f) ptr)
    (hs3 : s3 = s2.setFreeCount (pagePtr a.hhdm f) (s2.slabFreeCount (pagePtr a.hhdm f) + 1)) :
    HeapRep s3 (a.setFree f (ptr :: a.free f)) ∧
    s3.slabFreeCount (pagePtr a.hhdm f) = (a.free f).length + 1 ∧
    ∀ w, (w / 512 = f → 5 ≤ w % 512 ∧ w ≠ sub64 ptr a.hhdm / 8) → s3.mem w = s.mem w := by
  have hok : PageOk a.hhdm f := ok.page f hf
  have hh1 : s1.hhdm = a.hhdm := by rw [hs1]; exact h.hhdm_eq
  have hh2 : s2.hhdm = a.hhdm := by rw [hs2]; exact hh1
  have hh3 : s3.hhdm = a.hhdm := by rw [hs3]; exact hh2
  have hslab := h.slab f hf
  have hlen : (a.free f).length + 1 < 2 ^ 32 := by
    have hle := length_le_capacity (List.nodup_cons.mpr ⟨hnew, ok.objNodup f hf⟩)
      (List.forall_mem_cons.mpr ⟨hptr, ok.objMem f hf⟩)
    exact Nat.lt_of_le_of_lt hle (slabCapacity_lt _)
  obtain ⟨k, h5, h512, hpk, hword⟩ := ok.object_word hf hptr
  -- memory after each store
  have hmem1 : s1.mem = update s.mem (f * 512 + k) (s.mem (f * 512)) := by
    rw [hs1, Kmem.store, Kmem.wordAt, h.hhdm_eq, hword, Kmem.slabFreeList, Kmem.load,
      Kmem.wordAt_slab h.hhdm_eq hok, BitVec.ofNat_toNat, BitVec.setWidth_eq]
  have hmem2 : s2.mem = update s1.mem (f * 512) (BitVec.ofNat 64 ptr) := by
    rw [hs2, Kmem.store_slab_mem hh1 hok]
  have hcount2 : s2.slabFreeCount (pagePtr a.hhdm f) = (a.free f).length := by
    rw [Kmem.slabFreeCount_eq hh2 hok, hmem2, update_of_ne (by omega), hmem1,
      update_of_ne (by omega), hslab.count]
  have hmem3 : s3.mem = update s2.mem (f * 512 + 1)
      (setLo32 (s2.mem (f * 512 + 1)) ((a.free f).length + 1)) := by
    rw [hs3, Kmem.setFreeCount_mem hh2 hok, hcount2]
  have hkeep : ∀ w, w ≠ f * 512 → w ≠ f * 512 + 1 → w ≠ f * 512 + k → s3.mem w = s.mem w := by
    intro w h0 h1 h2
    rw [hmem3, update_of_ne h1, hmem2, update_of_ne h0, hmem1, update_of_ne h2]
  have hcount3 : lo32 (s3.mem (f * 512 + 1)) = (a.free f).length + 1 := by
    rw [hmem3, update_self, lo32_setLo32 _ hlen]
  have hfirst : s3.mem (f * 512) = BitVec.ofNat 64 ptr := by
    rw [hmem3, update_of_ne (by omega), hmem2, update_self]
  have hlink : s3.mem (f * 512 + k) = s.mem (f * 512) := by
    rw [hmem3, update_of_ne (by omega), hmem2, update_of_ne (by omega), hmem1, update_self]
  refine ⟨?_, ?_, fun w hw => ?_⟩
  · refine h.setFree ok (by rw [hs3, hs2, hs1]; rfl) (by rw [hs3, hs2, hs1]; rfl)
      (fun w hw => hkeep w (by omega) (by omega) (by omega)) ⟨hfirst, ?_⟩ hcount3
    rw [hword, hlink]
    refine hslab.chain.congr fun p hp => ?_
    obtain ⟨j, hj, hj', hpj, hpw⟩ := ok.object_word hf (ok.objMem f hf p hp)
    -- a free object is another word than the one returned
    have hne : p ≠ ptr := fun heq => hnew (heq ▸ hp)
    rw [hpw]
    exact hkeep _ (by omega) (by omega) (by omega)
  · rw [Kmem.slabFreeCount_eq hh3 hok, hcount3]
  · rw [hword] at hw
    have hword : ∀ j < 512, w = f * 512 + j → w / 512 = f ∧ w % 512 = j := fun j hj heq => by omega
    refine hkeep w (fun heq => ?_) (fun heq => ?_) fun heq => ?_
    · obtain ⟨hdiv, hmod⟩ := hword 0 (by decide) (heq.trans (Nat.add_zero _).symm)
      exact absurd (hw hdiv).1 (by rw [hmod]; decide)
    · obtain ⟨hdiv, hmod⟩ := hword 1 (by decide) heq
      exact absurd (hw hdiv).1 (by rw [hmod]; decide)
    · exact (hw (hword k h512 heq).1).2 heq

lemma slabCapacity_pos : ∀ i < numCaches, 0 < slabCapacity i := by decide

lemma numCaches_lt (hi : i < numCaches) : (BitVec.ofNat 64 i).toNat = i := by
  rw [BitVec.toNat_ofNat, Nat.mod_eq_of_lt]
  exact Nat.lt_trans hi (by decide)

lemma HeapRep.slabCache_eq (h : HeapRep s a) (ok : SlabsOk a) (hf : f ∈ a.slabs) :
    s.slabCache (pagePtr a.hhdm f) = a.cacheOf f := by
  rw [Kmem.slabCache, Kmem.load, Kmem.wordAt_ptr h.hhdm_eq (ok.page f hf) (by decide)]
  rw [show f * 512 + 32 / 8 = f * 512 + 4 from rfl, (h.slab f hf).cache]
  obtain ⟨i, l, hl⟩ := hf
  obtain ⟨hi, hc⟩ := ok.cache i l f hl
  rw [hc]
  exact numCaches_lt hi

lemma SlabsOk.list_of_missing (ok : SlabsOk a) (hl : f ∈ a.lists i l)
    (hcount : CountOk i (a.free f).length l) (hptr : ptr ∈ objects a.hhdm i f)
    (hnew : ptr ∉ a.free f) :
    ((a.free f).length = 0 ∧ l = .full) ∨ (0 < (a.free f).length ∧ l = .partly) := by
  have hc := (ok.cache i l f hl).2
  have hf : f ∈ a.slabs := ⟨i, l, hl⟩
  have hlen := length_le_capacity (List.nodup_cons.mpr ⟨hnew, ok.objNodup f hf⟩)
    (List.forall_mem_cons.mpr ⟨hptr, hc ▸ ok.objMem f hf⟩)
  rw [List.length_cons] at hlen
  cases l with
  | partly => exact Or.inr ⟨hcount.1, rfl⟩
  | full => exact Or.inl ⟨hcount, rfl⟩
  | empty =>
    have heq : (a.free f).length = slabCapacity i := hcount
    omega

lemma freeObject_refines (h : HeapRep s a) (ok : SlabsOk a) (hl : f ∈ a.lists i l)
    (hcount : CountOk i (a.free f).length l) (hptr : ptr ∈ objects a.hhdm i f)
    (hnew : ptr ∉ a.free f) : HeapRep (freeObject (pagePtr a.hhdm f) ptr s) (a.put f ptr) ∧
    SlabsOk (a.put f ptr) ∧ ∀ w, (w / 512 ∈ a.slabs → 5 ≤ w % 512 ∧ w ≠ sub64 ptr a.hhdm / 8) →
    (freeObject (pagePtr a.hhdm f) ptr s).mem w = s.mem w := by
  have hf : f ∈ a.slabs := ⟨i, l, hl⟩
  have hc := (ok.cache i l f hl).2
  have hptr' : ptr ∈ objects a.hhdm (a.cacheOf f) f := hc ▸ hptr
  obtain ⟨hrep, hcnt, hmem⟩ := h.push ok hf hptr' hnew rfl rfl rfl
  have hok1 : SlabsOk (a.setFree f (ptr :: a.free f)) :=
    ok.setFree (List.nodup_cons.mpr ⟨hnew, ok.objNodup f hf⟩)
      (List.forall_mem_cons.mpr ⟨hptr', ok.objMem f hf⟩)
  have hwhere := ok.list_of_missing hl hcount hptr hnew
  unfold freeObject AHeap.put
  simp only [h.slabCache_eq ok hf, hc, hcnt, List.length_cons]
  generalize hs3 : Kmem.setFreeCount _ (pagePtr a.hhdm f) _ = s3 at hrep hcnt hmem ⊢
  have hh3 : s3.hhdm = a.hhdm := hrep.hhdm_eq
  -- after the first move, if any, the slab is on the list of partly used ones
  generalize ha1 : a.setFree f (ptr :: a.free f) = a1 at hrep hok1 ⊢
  have hlists1 : a1.lists = a.lists := by rw [← ha1]; rfl
  have hhdm1 : a1.hhdm = a.hhdm := by rw [← ha1]; rfl
  have hslabs1 : a1.slabs = a.slabs := by rw [AHeap.slabs, hlists1]; rfl
  generalize hs4 : (if (a.free f).length + 1 = 1 then
    addSlab .partly i (pagePtr a.hhdm f) (removeSlab .full i (pagePtr a.hhdm f) s3) else s3) = s4
  generalize ha4 : (if (a.free f).length + 1 = 1 then a1.move i f .full .partly else a1) = a4
  have hfirst : HeapRep s4 a4 ∧ SlabsOk a4 ∧ f ∈ a4.lists i .partly ∧ a4.slabs = a.slabs ∧
      a4.hhdm = a.hhdm ∧ LinksOnly a.slabs s3 s4 := by
    rw [← hs4, ← ha4]
    cases hwhere with
    | inl hfull =>
      have hin : f ∈ a1.lists i .full := hlists1 ▸ hfull.2 ▸ hl
      rw [if_pos (by omega), if_pos (by omega)]
      obtain ⟨hrep', honly⟩ := hrep.move hok1 (k := .partly) (by decide) hin
      rw [hhdm1] at hrep' honly
      refine ⟨hrep', hok1.move (by decide) hin, ?_, ?_, hhdm1, hslabs1 ▸ honly⟩
      · exact (AHeap.mem_move (hok1.nodup i .full) (by decide)).mpr (Or.inl ⟨rfl, rfl, rfl⟩)
      · rw [AHeap.slabs_move (hok1.nodup i .full) (by decide) hin, hslabs1]
    | inr hpart =>
      rw [if_neg (by omega), if_neg (by omega)]
      exact ⟨hrep, hok1, hlists1 ▸ hpart.2 ▸ hl, hslabs1, hhdm1, .refl _ _⟩
  obtain ⟨hrep4, hok4, hin4, hslabs4, hhdm4, honly4⟩ := hfirst
  have hcnt4 : s4.slabFreeCount (pagePtr a.hhdm f) = (a.free f).length + 1 := by
    rw [Kmem.slabFreeCount_eq (hrep4.hhdm_eq.trans hhdm4) (ok.page f hf),
      honly4.mem _ (fun g _ => by omega), ← Kmem.slabFreeCount_eq hh3 (ok.page f hf), hcnt]
  have hmem4 : ∀ w, (w / 512 ∈ a.slabs → 5 ≤ w % 512 ∧ w ≠ sub64 ptr a.hhdm / 8) →
      s4.mem w = s.mem w := fun w hw =>
    (honly4.headers fun hin => (hw hin).1).trans (hmem w fun heq => hw (heq ▸ hf))
  rw [hcnt4]
  by_cases hcap : (a.free f).length + 1 ≥ slabCapacity i
  · rw [if_pos hcap, if_pos hcap]
    obtain ⟨hrep5, honly5⟩ := hrep4.move hok4 (k := .empty) (by decide) hin4
    rw [hhdm4] at hrep5 honly5
    rw [hslabs4] at honly5
    exact ⟨hrep5, hok4.move (by decide) hin4,
      fun w hw => (honly5.headers fun hin => (hw hin).1).trans (hmem4 w hw)⟩
  · rw [if_neg hcap, if_neg hcap]
    exact ⟨hrep4, hok4, hmem4⟩

/-! ## A new slab -/

/-- The loop that links the objects of a new slab, from word `c` of page
`f` on, `z` words apart. -/
lemma linkObjects_spec {z : Nat} (hok : PageOk hhdm f) (hz : 0 < z) :
    ∀ (n c : Nat) {s : Kmem}, s.hhdm = hhdm → c + n * z < 512 →
      (linkObjects (8 * z) n (pagePtr hhdm f + 8 * c) s).pmm = s.pmm ∧
      (linkObjects (8 * z) n (pagePtr hhdm f + 8 * c) s).kCaches = s.kCaches ∧
      (∀ w, ¬ (f * 512 + c ≤ w ∧ w < f * 512 + 512) →
        (linkObjects (8 * z) n (pagePtr hhdm f + 8 * c) s).mem w = s.mem w) ∧
      FreeChain (linkObjects (8 * z) n (pagePtr hhdm f + 8 * c) s).mem hhdm
        (BitVec.ofNat 64 (pagePtr hhdm f + 8 * c))
        ((List.range (n + 1)).map fun k => pagePtr hhdm f + 8 * c + k * (8 * z)) := by
  intro n
  induction n with
  | zero =>
    intro c s hs hlt
    have hc : 8 * c < pageSize := by simp only [pageSize]; omega
    have hw : s.wordAt (pagePtr hhdm f + 8 * c) = f * 512 + c := by
      rw [Kmem.wordAt_ptr hs hok hc]
      omega
    refine ⟨rfl, rfl, fun w hne => ?_, ?_⟩
    · simp only [linkObjects, Kmem.store, hw]
      exact update_of_ne (by omega) _ _
    · refine ⟨by simp, ?_⟩
      have hsub : sub64 (pagePtr hhdm f + 8 * c + 0 * (8 * z)) hhdm / 8 = f * 512 + c := by
        rw [Nat.zero_mul, Nat.add_zero, hok.sub64_ptr hc]
        simp only [pageSize]
        omega
      rw [hsub]
      simp only [linkObjects, Kmem.store, hw, update_self]
      rfl
  | succ n ih =>
    intro c s hs hlt
    rw [Nat.add_mul, Nat.one_mul] at hlt
    have hc : 8 * c < pageSize := by simp only [pageSize]; omega
    have hw : s.wordAt (pagePtr hhdm f + 8 * c) = f * 512 + c := by
      rw [Kmem.wordAt_ptr hs hok hc]
      omega
    have hnextPtr : pagePtr hhdm f + 8 * c + 8 * z = pagePtr hhdm f + 8 * (c + z) := by omega
    rw [linkObjects, hnextPtr]
    generalize hs1 : s.store (pagePtr hhdm f + 8 * c) (pagePtr hhdm f + 8 * (c + z)) = s1
    have hmem1 : s1.mem = update s.mem (f * 512 + c)
        (BitVec.ofNat 64 (pagePtr hhdm f + 8 * (c + z))) := by
      rw [← hs1, Kmem.store, hw]
    obtain ⟨hpmm, hheads, hkeep, hchain⟩ :=
      ih (c + z) (s := s1) (by rw [← hs1]; exact hs) (by omega)
    refine ⟨hpmm.trans (by rw [← hs1]; rfl), hheads.trans (by rw [← hs1]; rfl), fun w hne => ?_, ?_⟩
    · rw [hkeep w (by omega), hmem1, update_of_ne (by omega)]
    · rw [List.range_succ_eq_map, List.map_cons, List.map_map]
      refine ⟨by simp, ?_⟩
      have hsub : sub64 (pagePtr hhdm f + 8 * c + 0 * (8 * z)) hhdm / 8 = f * 512 + c := by
        rw [Nat.zero_mul, Nat.add_zero, hok.sub64_ptr hc]
        simp only [pageSize]
        omega
      -- the link of this object was stored before the rest of the loop
      have hshift : (fun k => pagePtr hhdm f + 8 * c + k * (8 * z)) ∘ Nat.succ =
          fun k => pagePtr hhdm f + 8 * (c + z) + k * (8 * z) := by
        funext k
        simp only [comp_apply, Nat.succ_mul]
        omega
      rw [hsub, hkeep _ (by omega), hmem1, update_self, hshift]
      exact hchain

lemma last_object_lt (hi : i < numCaches) : 5 + (slabCapacity i - 1) * 2 ^ i < 512 := by
  have hpos := slabCapacity_pos i hi
  have hend : slabCapacity i * objectSize i ≤ pageSize - sizeofSlab := Nat.div_mul_le_self _ _
  have hone : 1 ≤ 2 ^ i := Nat.one_le_two_pow
  have hmul : slabCapacity i * (8 * 2 ^ i) = 8 * ((slabCapacity i - 1) * 2 ^ i) + 8 * 2 ^ i := by
    rw [Nat.sub_one_mul, Nat.mul_left_comm]
    have hle := Nat.le_mul_of_pos_left (2 ^ i) hpos
    omega
  rw [objectSize_eq i hi, hmul] at hend
  simp only [pageSize, sizeofSlab] at hend
  omega

lemma initSlab_spec (hs : s.hhdm = hhdm) (hok : PageOk hhdm f) (hi : i < numCaches)
    (hs' : s' = initSlab i (pagePtr hhdm f) s) : s'.pmm = s.pmm ∧ s'.kCaches = s.kCaches ∧
    (∀ w, w / 512 ≠ f → s'.mem w = s.mem w) ∧ s'.mem (f * 512 + 2) = 0 ∧ s'.mem (f * 512 + 3) = 0 ∧
    SlabRep s'.mem hhdm f i (objects hhdm i f) := by
  have hpos := slabCapacity_pos i hi
  have hsize := objectSize_eq i hi
  have hlast := last_object_lt hi
  unfold initSlab at hs'
  simp only at hs'
  generalize hs1 : s.setFreeCount (pagePtr hhdm f) (slabCapacity i) = s1 at hs'
  generalize hs2 : s1.setNext (pagePtr hhdm f) 0 = s2 at hs'
  generalize hs3 : s2.setPrev (pagePtr hhdm f) 0 = s3 at hs'
  generalize hs4 : s3.store (pagePtr hhdm f + 32) i = s4 at hs'
  generalize hs5 : s4.store (pagePtr hhdm f) (pagePtr hhdm f + sizeofSlab) = s5 at hs'
  have hh1 : s1.hhdm = hhdm := by rw [← hs1, Kmem.hhdm_setFreeCount, hs]
  have hh2 : s2.hhdm = hhdm := by rw [← hs2, Kmem.setNext, Kmem.hhdm_store, hh1]
  have hh3 : s3.hhdm = hhdm := by rw [← hs3, Kmem.setPrev, Kmem.hhdm_store, hh2]
  have hh4 : s4.hhdm = hhdm := by rw [← hs4, Kmem.hhdm_store, hh3]
  have hh5 : s5.hhdm = hhdm := by rw [← hs5, Kmem.hhdm_store, hh4]
  have hm1 : s1.mem = update s.mem (f * 512 + 1)
      (setLo32 (s.mem (f * 512 + 1)) (slabCapacity i)) := by
    rw [← hs1, Kmem.setFreeCount_mem hs hok]
  have hm2 : s2.mem = update s1.mem (f * 512 + 2) 0 := by
    rw [← hs2, Kmem.setNext, Kmem.store, Kmem.wordAt_ptr hh1 hok (by decide)]
    rfl
  have hm3 : s3.mem = update s2.mem (f * 512 + 3) 0 := by
    rw [← hs3, Kmem.setPrev, Kmem.store, Kmem.wordAt_ptr hh2 hok (by decide)]
    rfl
  have hm4 : s4.mem = update s3.mem (f * 512 + 4) (BitVec.ofNat 64 i) := by
    rw [← hs4, Kmem.store, Kmem.wordAt_ptr hh3 hok (by decide)]
  have hm5 : s5.mem = update s4.mem (f * 512)
      (BitVec.ofNat 64 (pagePtr hhdm f + sizeofSlab)) := by
    rw [← hs5, Kmem.store_slab_mem hh4 hok]
  have hkept : s5.pmm = s.pmm ∧ s5.kCaches = s.kCaches := by
    rw [← hs5, ← hs4, ← hs3, ← hs2, ← hs1]
    exact ⟨rfl, rfl⟩
  obtain ⟨hpmm, hheads, hkeep, hchain⟩ :=
    linkObjects_spec hok (Nat.two_pow_pos i) (slabCapacity i - 1) 5 hh5 hlast
  rw [← hsize, show 8 * 5 = sizeofSlab from rfl, ← hs'] at hpmm hheads hkeep hchain
  rw [Nat.sub_add_cancel hpos] at hchain
  refine ⟨hpmm.trans hkept.1, hheads.trans hkept.2, fun w hw => ?_, ?_, ?_, ?_, ?_, ?_⟩
  · rw [hkeep w (by omega), hm5, update_of_ne (by omega), hm4,
      update_of_ne (by omega), hm3, update_of_ne (by omega), hm2,
      update_of_ne (by omega), hm1, update_of_ne (by omega)]
  · rw [hkeep _ (by omega), hm5, update_of_ne (by omega), hm4,
      update_of_ne (by omega), hm3, update_of_ne (by omega), hm2, update_self]
  · rw [hkeep _ (by omega), hm5, update_of_ne (by omega), hm4, update_of_ne (by omega), hm3,
      update_self]
  · rw [hkeep _ (by omega), hm5, update_self]
    exact hchain
  · rw [hkeep _ (by omega), hm5, update_of_ne (by omega), hm4,
      update_of_ne (by omega), hm3, update_of_ne (by omega), hm2, update_of_ne (by omega), hm1,
      update_self, lo32_setLo32 _ (slabCapacity_lt i)]
    simp [objects]
  · rw [hkeep _ (by omega), hm5, update_of_ne (by omega), hm4, update_self]

section

variable {S : Set Nat} {fl : Nat → List Nat} {held : Set Block}

lemma HeapBase.pageOk (h : HeapBase S a fl held) (hf : f ∈ S) : PageOk a.hhdm f := by
  have hlt := h.pmmInv.bound f hf
  have hspace := h.space
  refine ⟨Nat.pos_of_ne_zero fun heq => h.zero (heq ▸ hf), ?_⟩
  have hmul := Nat.mul_le_mul_right pageSize hlt
  rw [Nat.succ_mul] at hmul
  omega

lemma HeapBase.not_slab (h : HeapBase S a fl held) (hf : (⟨0, f⟩ : Block) ∉ held) :
    f ∉ a.slabs := fun hin => hf (h.slabHeld f hin)

lemma AHeap.mem_insert :
    g ∈ (a.insert i f pmm).lists j l ↔ (g = f ∧ j = i ∧ l = .partly) ∨ g ∈ a.lists j l := by
  simp only [AHeap.insert, setList_apply]
  by_cases hjl : j = i ∧ l = .partly
  · obtain ⟨rfl, rfl⟩ := hjl
    simp
  · rw [if_neg hjl]
    constructor
    · exact Or.inr
    · intro hg
      cases hg with
      | inl heq => exact absurd heq.2 hjl
      | inr hin => exact hin

lemma AHeap.slabs_insert : (a.insert i f pmm).slabs = Set.insert f a.slabs := by
  ext g
  simp only [AHeap.slabs, Set.mem_ofPred_eq, AHeap.mem_insert]
  constructor
  · intro hg
    obtain ⟨j, l, hg⟩ := hg
    cases hg with
    | inl heq => exact Or.inl heq.1
    | inr hin => exact Or.inr ⟨j, l, hin⟩
  · intro hg
    cases hg with
    | inl heq => exact ⟨i, .partly, Or.inl ⟨heq, rfl, rfl⟩⟩
    | inr hin =>
      obtain ⟨j, l, hin⟩ := hin
      exact ⟨j, l, Or.inr hin⟩

lemma HeapBase.insert (h : HeapBase S a fl held) (hi : i < numCaches)
    (hpmm : PmmInv S pmm fl' (insert ⟨0, f⟩ held)) (hk : Pmm.Keeps a.pmm pmm)
    (hfresh : (⟨0, f⟩ : Block) ∉ held) :
    HeapBase S (a.insert i f pmm) fl' (insert ⟨0, f⟩ held) := by
  have hf : f ∉ a.slabs := h.not_slab hfresh
  have hlist : ∀ j l, f ∉ a.lists j l := fun j l hin => hf ⟨j, l, hin⟩
  have hhdm : (a.insert i f pmm).hhdm = a.hhdm := hk.hhdm
  have hfS : f ∈ S := hpmm.mem_pages (b := ⟨0, f⟩) (Or.inl rfl)
  have hslab : ∀ g ∈ (a.insert i f pmm).slabs, g ≠ f → g ∈ a.slabs := by
    intro g hg hne
    rw [AHeap.slabs_insert] at hg
    exact hg.resolve_left hne
  refine ⟨⟨fun g hg => ?_, fun j l => ?_, fun g j j' l l' hg hg' => ?_, fun j l g hg => ?_,
    fun g hg => ?_, fun g hg => ?_⟩, hpmm.setPrivateData (b := ⟨0, f⟩) (Or.inl rfl) _, h.zero, ?_,
    fun g hg => ?_, fun g hg => ?_, fun g hlt hg => ?_⟩
  · rw [hhdm]
    by_cases hgf : g = f
    · exact hgf ▸ h.pageOk hfS
    · exact h.page g (hslab g hg hgf)
  · simp only [AHeap.insert, setList_apply]
    split
    · exact List.nodup_cons.mpr ⟨hlist i .partly, h.nodup i .partly⟩
    · exact h.nodup j l
  · cases AHeap.mem_insert.mp hg with
    | inl h1 =>
      cases AHeap.mem_insert.mp hg' with
      | inl h2 => exact ⟨h1.2.1.trans h2.2.1.symm, h1.2.2.trans h2.2.2.symm⟩
      | inr h2 => exact absurd (h1.1 ▸ h2) (hlist j' l')
    | inr h1 =>
      cases AHeap.mem_insert.mp hg' with
      | inl h2 => exact absurd (h2.1 ▸ h1) (hlist j l)
      | inr h2 => exact h.apart g j j' l l' h1 h2
  · cases AHeap.mem_insert.mp hg with
    | inl h1 => exact ⟨h1.2.1 ▸ hi, by rw [h1.1, AHeap.insert_cacheOf_self, h1.2.1]⟩
    | inr h1 =>
      have hne : g ≠ f := fun heq => hlist j l (heq ▸ h1)
      rw [AHeap.insert_cacheOf_of_ne hne]
      exact h.cache j l g h1
  · by_cases hgf : g = f
    · rw [hgf, AHeap.insert_free_self]
      exact nodup_objects hi f
    · rw [AHeap.insert_free_of_ne hgf]
      exact h.objNodup g (hslab g hg hgf)
  · rw [hhdm]
    by_cases hgf : g = f
    · rw [hgf, AHeap.insert_free_self, AHeap.insert_cacheOf_self]
      exact fun o ho => ho
    · rw [AHeap.insert_free_of_ne hgf, AHeap.insert_cacheOf_of_ne hgf]
      exact h.objMem g (hslab g hg hgf)
  · rw [hhdm]
    show pmm.kTotalPages * pageSize + a.hhdm ≤ 2 ^ 64
    rw [hk.total]
    exact h.space
  · by_cases hgf : g = f
    · exact Or.inl (by rw [hgf])
    · exact Or.inr (h.slabHeld g (hslab g hg hgf))
  · rw [hhdm]
    by_cases hgf : g = f
    · simp [AHeap.insert, hgf]
    · simp only [AHeap.insert, Pmm.modFrame_kFrames, if_neg hgf, hk.privateData]
      exact h.marked g (hslab g hg hgf)
  · rw [AHeap.slabs_insert] at hg
    have hgf : g ≠ f := fun heq => hg (Or.inl heq)
    simp only [AHeap.insert, Pmm.modFrame_kFrames, if_neg hgf, hk.privateData]
    refine h.unmarked g ?_ fun hin => hg (Or.inr hin)
    rw [← hk.total]
    exact hlt

lemma ListsRep.insert (h : ListsRep s L P ls) (hf : f ∉ P) (hok : PageOk s.hhdm f)
    (hhdm : s'.hhdm = s.hhdm) (hheads : s'.kCaches = s.kCaches)
    (hmem : ∀ w, w / 512 ≠ f → s'.mem w = s.mem w) (hnext : s'.mem (f * 512 + 2) = 0)
    (hprev : s'.mem (f * 512 + 3) = 0) :
    ListsRep s' ((L.setNext f none).setPrev f none) (Set.insert f P) ls := by
  have hne : ∀ g ∈ P, g ≠ f := fun g hg heq => hf (heq ▸ hg)
  refine ⟨⟨fun g hg => ?_, fun g hg => ?_, fun g hg => ?_, fun g hg k hk => ?_,
    fun g hg k hk => ?_⟩, fun i l => ?_, fun i l g hg => Or.inr (h.mem i l g hg), h.apart,
    fun i l => ?_⟩
  · rw [hhdm]
    cases hg with
    | inl heq => exact heq ▸ hok
    | inr hin => exact h.ok g hin
  · cases hg with
    | inl heq =>
      subst heq
      simpa using hnext
    | inr hin =>
      have hgf := hne g hin
      simpa [hgf, hhdm, hmem (g * 512 + 2) (by omega)] using h.next g hin
  · cases hg with
    | inl heq =>
      subst heq
      simpa using hprev
    | inr hin =>
      have hgf := hne g hin
      simpa [hgf, hhdm, hmem (g * 512 + 3) (by omega)] using h.prev g hin
  · cases hg with
    | inl heq => simp [heq] at hk
    | inr hin =>
      rw [Links.setPrev_next, Links.setNext_next, if_neg (hne g hin)] at hk
      exact Or.inr (h.nextMem g hin k hk)
  · cases hg with
    | inl heq => simp [heq] at hk
    | inr hin =>
      rw [Links.setPrev_prev, if_neg (hne g hin), Links.setNext_prev] at hk
      exact Or.inr (h.prevMem g hin k hk)
  · refine (h.dlist i l).congr fun g hg => ?_
    simp [hne g (h.mem i l g hg)]
  · rw [hheads, hhdm]
    exact h.heads i l

lemma slabCreate_refines (h : HeapRep s a) (hb : HeapBase S a fl held) (hi : i < numCaches)
    (halloc : pmmAllocPage a.pmm = some (pfnToPhys f, pmm))
    (hpmm : PmmInv S pmm fl' (insert ⟨0, f⟩ held)) (hk : Pmm.Keeps a.pmm pmm)
    (hfresh : (⟨0, f⟩ : Block) ∉ held) : ∃ s', slabCreate i s = some (pagePtr a.hhdm f, s') ∧
    HeapRep (addSlab .partly i (pagePtr a.hhdm f) s') (a.insert i f pmm) ∧ ∀ w,
      a.Keeps (a.insert i f pmm) w → (addSlab .partly i (pagePtr a.hhdm f) s').mem w = s.mem w := by
  have hfS : f ∈ S := hpmm.mem_pages (b := ⟨0, f⟩) (Or.inl rfl)
  have hok : PageOk a.hhdm f := hb.pageOk hfS
  have hf : f ∉ a.slabs := hb.not_slab hfresh
  have hphys : pfnToPhys f ≠ 0 := hok.phys_ne_zero
  have hs0 : Kmem.hhdm { s with pmm := pmm } = a.hhdm := hk.hhdm
  obtain ⟨hpmm1, hheads1, hmem1, hnext1, hprev1, hslab1⟩ := initSlab_spec hs0 hok hi rfl
  unfold slabCreate
  rw [h.pmm, halloc]
  simp only [hphys, if_false, hs0, hok.add64_phys]
  generalize initSlab i (pagePtr a.hhdm f) { s with pmm := pmm } = s1 at *
  have hframe : pmmGetFrame (pfnToPhys f) s1.pmm = some f := by
    have hlt := hpmm.bound f hfS
    rw [hpmm1, pmmGetFrame, physToPfn_pfnToPhys]
    simp only [ge_iff_le, if_neg (Nat.not_le.mpr hlt)]
  rw [hframe, hpmm1]
  -- the state in which the new slab is not yet on a list
  generalize hs2 : ({ s1 with pmm := _ } : Kmem) = s2
  have hpmm2 : s2.pmm = (a.insert i f pmm).pmm := by rw [← hs2]; rfl
  have hhdm2 : s2.hhdm = a.hhdm := (congrArg Pmm.kHhdmOffset hpmm2).trans hk.hhdm
  have hmem2 : s2.mem = s1.mem := by rw [← hs2]
  have hheads2 : s2.kCaches = s.kCaches := by
    rw [← hs2]
    exact hheads1
  obtain ⟨L, hlists⟩ := h.lists
  have hrep2 : ListsRep s2 ((L.setNext f none).setPrev f none) (Set.insert f a.slabs) a.lists :=
    hlists.insert hf (h.hhdm_eq ▸ hok) (hhdm2.trans h.hhdm_eq.symm) hheads2
      (fun w hw => by rw [hmem2]; exact hmem1 w hw) (by rw [hmem2]; exact hnext1)
      (by rw [hmem2]; exact hprev1)
  obtain ⟨hrep3, honly⟩ := hrep2.add (i := i) (l := .partly) (Or.inl rfl)
    fun j l hin => hf ⟨j, l, hin⟩
  rw [hhdm2] at hrep3 honly
  refine ⟨s2, rfl, ⟨honly.pmm.trans hpmm2, ?_, fun g hg => ?_⟩, fun w hw => ?_⟩
  · rw [AHeap.slabs_insert]
    exact ⟨_, hrep3⟩
  · rw [AHeap.slabs_insert] at hg
    have hhdm' : (a.insert i f pmm).hhdm = a.hhdm := hk.hhdm
    have hlink : ∀ w, (∀ g : Nat, w ≠ g * 512 + 2 ∧ w ≠ g * 512 + 3) →
        (addSlab .partly i (pagePtr a.hhdm f) s2).mem w = s1.mem w := fun w hw =>
      (honly.mem w fun g _ => hw g).trans (by rw [hmem2])
    rw [hhdm']
    by_cases hgf : g = f
    · subst hgf
      simp only [AHeap.insert, update_self]
      refine hslab1.congr (hlink _ fun _ => by omega) (hlink _ fun _ => by omega)
        (hlink _ fun _ => by omega) fun o ho => hlink _ fun k => ?_
      obtain ⟨j, h5, h512, _, hw⟩ := object_word hok hi ho
      omega
    · have hin : g ∈ a.slabs := hg.resolve_left hgf
      simp only [AHeap.insert, update_of_ne hgf]
      have hsame : ∀ k, k < 512 → k ≠ 2 → k ≠ 3 →
          (addSlab .partly i (pagePtr a.hhdm f) s2).mem (g * 512 + k) = s.mem (g * 512 + k) :=
        fun k hk h2 h3 => (hlink _ fun _ => by omega).trans (hmem1 _ (by omega))
      refine (h.slab g hin).congr (by simpa using hsame 0 (by omega) (by omega) (by omega))
        (hsame 1 (by omega) (by omega) (by omega)) (hsame 4 (by omega) (by omega) (by omega))
        fun o ho => ?_
      obtain ⟨j, h5, h512, _, hw⟩ := hb.object_word hin (hb.objMem g hin o ho)
      rw [hw]
      exact hsame j h512 (by omega) (by omega)
  · rw [AHeap.Keeps, AHeap.slabs_insert] at hw
    rw [honly.headers fun hin => (hw hin).2, hmem2,
      hmem1 w fun heq => hf (heq ▸ (hw (Or.inl heq)).1)]

end

end VortexOS.Mm
