/-
VortexOS.Mm.PageCount — how many pages the calls take.

The heap takes pages for its slabs and never gives one back, so a caller
cannot restore `kFreePages` by freeing what it got from the heap. What it
can restore is `loosePages`, the number of pages that are free or hold a
slab: `kmalloc` of an object and `kfree` leave it alone, and every page
taken for a table makes it smaller until the page is returned.
-/
import VortexOS.Mm.VmmFork

namespace VortexOS.Mm

open Lib

/-- The number of slabs. Their frames are the ones `kfree` recognises as
slabs. -/
def Pmm.slabPages (s : Pmm) : Nat :=
  ((Finset.range s.kTotalPages).filter fun f => (s.kFrames f).privateData ≠ 0).card

def Pmm.loosePages (s : Pmm) : Nat := s.kFreePages + s.slabPages

/-! ## The page allocator -/

section

variable {S : Set Nat} {s s' : Pmm} {fl : Nat → List Nat} {live : Set Block}

lemma Pmm.Keeps.slabPages_eq (h : Pmm.Keeps s s') : s'.slabPages = s.slabPages := by
  unfold Pmm.slabPages
  simp only [h.total, h.privateData]

lemma Pmm.slabPages_mark {f v : Nat} (hf : f < s.kTotalPages) (hv : v ≠ 0)
    (hold : (s.kFrames f).privateData = 0) :
    (s.modFrame f fun g => { g with privateData := v }).slabPages = s.slabPages + 1 := by
  have htotal : (s.modFrame f fun g => { g with privateData := v }).kTotalPages = s.kTotalPages :=
    rfl
  unfold Pmm.slabPages
  rw [← Finset.card_insert_of_notMem (a := f) (by simp [hold])]
  congr 1
  ext g
  by_cases hg : g = f
  · simp [hg, hf, hv, htotal]
  · simp [hg, htotal]

end

/-! ## The heap -/

/-- The slabs that have to be made before an object of cache `i` can be
handed out: one if no slab has a free object. -/
def Kmem.slabsNeeded (s : Kmem) (i : Nat) : Nat :=
  if s.kCaches i .partly = 0 ∧ s.kCaches i .empty = 0 then 1 else 0

lemma Kmem.slabsNeeded_le_one (s : Kmem) (i : Nat) : s.slabsNeeded i ≤ 1 := by
  unfold Kmem.slabsNeeded
  split <;> omega

section

variable {S : Set Nat} {s s' : Kmem} {a a' : AHeap} {fl : Nat → List Nat} {held : Set Block}
  {size i p : Nat}

lemma HeapRep.slabsNeeded_eq (h : HeapRep s a) (ok : SlabsOk a) (i : Nat) : s.slabsNeeded i =
    if (a.lists i .partly).head? = none ∧ (a.lists i .empty).head? = none then 1 else 0 := by
  obtain ⟨L, hlists⟩ := h.lists
  have hnull : ∀ l, s.kCaches i l = 0 ↔ (a.lists i l).head? = none := by
    intro l
    rw [hlists.heads i l, h.hhdm_eq]
    exact pagePtr?_eq_zero fun f hf => ok.page f ⟨i, l, List.mem_of_mem_head? hf⟩
  unfold Kmem.slabsNeeded
  simp only [hnull]

lemma KernelInv.loosePages_mark (h : KernelInv S s a fl held) {phys : Nat} {pmm : Pmm}
    (halloc : pmmAllocPage a.pmm = some (phys, pmm)) (hphys : phys ≠ 0) :
    (pmm.modFrame (physToPfn phys) fun g =>
      { g with privateData := pagePtr a.hhdm (physToPfn phys) }).loosePages = a.pmm.loosePages := by
  obtain ⟨-, -, hcount⟩ := pmmAllocPage_count h.inv.pmmInv h.inv.zero halloc
  cases pmmAllocPage_spec h.inv.pmmInv with
  | inl hnull =>
    simp only [halloc, Option.some.injEq, Prod.mk.injEq] at hnull
    exact absurd hnull.1 hphys
  | inr hgot =>
    obtain ⟨f, pmm', _, halloc', hinv', hk, hfresh⟩ := hgot
    simp only [halloc, Option.some.injEq, Prod.mk.injEq] at halloc'
    obtain ⟨rfl, rfl⟩ := halloc'
    have hlt : f < pmm.kTotalPages := hinv'.base_lt (b := ⟨0, f⟩) (Or.inl rfl)
    have hne := (h.pageOk (hinv'.mem_pages (b := ⟨0, f⟩) (Or.inl rfl))).ptr_ne_zero
    have hold : (pmm.kFrames f).privateData = 0 := by
      rw [hk.privateData]
      exact h.inv.unmarked f (hk.total ▸ hlt) (h.inv.not_slab hfresh)
    have hmark := Pmm.slabPages_mark hlt hne hold
    have hslabs := hk.slabPages_eq
    rw [if_neg hphys] at hcount
    rw [physToPfn_pfnToPhys]
    unfold Pmm.loosePages
    rw [hmark, hslabs]
    show pmm.kFreePages + _ = _
    omega

/-- `kmalloc` of an object takes a page exactly if it needs a slab, and
returns null exactly if there is none for it. -/
lemma KernelInv.kmalloc_count (h : KernelInv S s a fl held) (hi : findCache size = some i)
    (hsize : size ≠ 0) (hcall : kmalloc size s = some (p, s')) :
    (p = 0 ↔ s.pmm.kFreePages < s.slabsNeeded i) ∧
    s.pmm.kFreePages = s'.pmm.kFreePages + (if p = 0 then 0 else s.slabsNeeded i) ∧
    s'.pmm.loosePages = s.pmm.loosePages := by
  obtain ⟨p', s'', a', fl', held', hcall', hacall, hrep, -, -, -⟩ := kmalloc_spec h.rep h.inv size
  obtain ⟨rfl, rfl⟩ := Prod.mk.inj (Option.mem_unique hcall hcall')
  obtain ⟨o, a1, hget, hpmm, hnull⟩ := h.inv.kmalloc_pmm h.rep hi hsize hacall
  have hcase := AHeap.getSlab_pmm hget
  rw [hrep.pmm, hpmm, h.rep.pmm, h.rep.slabsNeeded_eq h.inv.toSlabsOk]
  split at hcase
  · rename_i hempty
    obtain ⟨phys, pmm, halloc, hphys, hafter⟩ := hcase
    obtain ⟨hzero, hsame, hcount⟩ := pmmAllocPage_count h.inv.pmmInv h.inv.zero halloc
    rw [if_pos hempty, hafter]
    by_cases h0 : phys = 0
    · have hp : p = 0 := hnull.mpr (hphys.mp h0)
      simp [h0, hp, hzero.mp h0, hsame h0]
    · have hp : p ≠ 0 := fun heq => h0 (hphys.mpr (hnull.mp heq))
      have hpos : a.pmm.kFreePages ≠ 0 := fun heq => h0 (hzero.mpr heq)
      have hloose := h.loosePages_mark halloc h0
      simp only [h0, hp, if_false, false_iff] at hcount ⊢
      exact ⟨by omega, hcount, hloose⟩
  · rename_i hempty
    have hp : p ≠ 0 := fun heq => hcase.1 (hnull.mp heq)
    rw [if_neg hempty, hcase.2]
    simp [hp]

lemma AHeap.kmalloc_lists {j : Nat} (hi : findCache size = some i) (hj : j ≠ i)
    (hcall : a.kmalloc size = some (p, a')) : a'.lists j = a.lists j := by
  have hset : ∀ lists l (fs : List Nat), setList lists i l fs j = lists j := fun lists l fs => by
    funext l'
    simp [setList, hj]
  have hmove : ∀ (b : AHeap) f l l', (b.move i f l l').lists j = b.lists j := fun b f l l' => by
    rw [AHeap.move]
    exact (hset _ _ _).trans (hset _ _ _)
  have hget : ∀ o b, a.getSlab i = some (o, b) → b.lists j = a.lists j := by
    intro o b hb
    unfold AHeap.getSlab AHeap.create at hb
    split at hb
    · cases hb
      rfl
    · cases hb
      exact hmove _ _ _ _
    · split at hb
      · cases hb
      · split at hb <;> cases hb
        · rfl
        · exact hset _ _ _
  unfold AHeap.kmalloc at hcall
  by_cases h0 : size = 0
  · rw [if_pos h0] at hcall
    cases hcall
    rfl
  · simp only [if_neg h0, hi] at hcall
    obtain ⟨⟨o, b⟩, hb, hres⟩ := Option.map_eq_some_iff.mp hcall
    rw [← hget o b hb]
    cases o with
    | none =>
      cases hres
      rfl
    | some f =>
      simp only [AHeap.take, Prod.mk.injEq] at hres
      rw [← hres.2]
      split
      · exact hmove _ _ _ _
      · rfl

lemma KernelInv.slabsNeeded_kmalloc {S' : Set Nat} {fl' : Nat → List Nat} {held' : Set Block}
    {j : Nat} (h : KernelInv S s a fl held) (h' : KernelInv S' s' a' fl' held')
    (hi : findCache size = some i) (hj : j ≠ i) (hcall : a.kmalloc size = some (p, a')) :
    s'.slabsNeeded j = s.slabsNeeded j := by
  rw [h.rep.slabsNeeded_eq h.inv.toSlabsOk, h'.rep.slabsNeeded_eq h'.inv.toSlabsOk,
    AHeap.kmalloc_lists hi hj hcall]

/-! ## Address spaces -/

variable {as cr3 : Nat}

/-- `vmm_create_address_space` takes a page for the table, which it keeps
when it finds no room for the object. -/
lemma KernelInv.create_count (h : KernelInv S s a fl held)
    (hcall : vmmCreateAddressSpace cr3 s = some (as, s')) :
    (as = 0 ↔ s.pmm.kFreePages ≤ s.slabsNeeded 1) ∧ (s.pmm.kFreePages = 0 → s' = s) ∧
      s.pmm.kFreePages =
        s'.pmm.kFreePages + (if as = 0 then min s.pmm.kFreePages 1 else 1 + s.slabsNeeded 1) ∧
      s.pmm.loosePages = s'.pmm.loosePages + min s.pmm.kFreePages 1 := by
  cases h.newPml4 cr3 with
  | inl hnull =>
    obtain ⟨halloc, hcreate⟩ := hnull
    obtain ⟨has, hsame⟩ := Prod.mk.inj (Option.mem_unique hcall hcreate)
    have hfree : s.pmm.kFreePages = 0 := by
      rw [h.rep.pmm]
      exact (pmmAllocPage_count h.inv.pmmInv h.inv.zero halloc).1.mp rfl
    simp [hfree, has, hsame]
  | inr hgot =>
    obtain ⟨root, pmm, fl1, s1, halloc, hphys, hk1, hkeeps, -, hst, -, hcreate⟩ := hgot
    obtain ⟨hnull, -, hcount⟩ := pmmAllocPage_count h.inv.pmmInv h.inv.zero halloc
    rw [if_neg hphys, ← h.rep.pmm] at hcount
    have hpmm1 : s1.pmm = pmm := hst.pmm
    have hneeded : s1.slabsNeeded 1 = s.slabsNeeded 1 := by
      unfold Kmem.slabsNeeded
      rw [hst.kCaches]
    have hloose : s.pmm.loosePages = s1.pmm.loosePages + 1 := by
      unfold Pmm.loosePages
      rw [hpmm1, hkeeps.slabPages_eq, ← h.rep.pmm]
      omega
    obtain ⟨p, s2, _, _, _, hmalloc, -⟩ := kmalloc_spec hk1.rep hk1.inv sizeofAddressSpace
    obtain ⟨hp, hfree, hloose2⟩ := hk1.kmalloc_count (i := 1) (by decide) (by decide) hmalloc
    rw [hpmm1] at hp hfree
    simp only [hcreate, hmalloc, Option.map_some, Option.some.injEq] at hcall
    by_cases hp0 : p = 0
    · obtain ⟨rfl, rfl⟩ := Prod.mk.inj ((if_pos hp0).symm.trans hcall)
      have hlt := hp.mp hp0
      rw [if_pos hp0] at hfree
      simp only [if_true, true_iff]
      omega
    · obtain ⟨rfl, rfl⟩ := Prod.mk.inj ((if_neg hp0).symm.trans hcall)
      have hge : ¬ pmm.kFreePages < s1.slabsNeeded 1 := fun hlt => hp0 (hp.mpr hlt)
      rw [if_neg hp0] at hfree
      simp only [hp0, if_false, false_iff]
      show _ ∧ _ ∧ s.pmm.kFreePages = s2.pmm.kFreePages + _ ∧
        s.pmm.loosePages = s2.pmm.loosePages + _
      omega

end

end VortexOS.Mm
