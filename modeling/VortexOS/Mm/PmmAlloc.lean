/-
VortexOS.Mm.PmmAlloc — what an allocation does to all free lists.

`pmm_alloc_exact` is about every state that legal calls lead to. Whether
`pmm_alloc_pages` fails depends only on the order that it needs and on the
free blocks. If it does not fail it takes the first block of the lowest
order that has one, hands out the low end of that block and gives back one
block for each order in between.
-/
import VortexOS.Mm.PmmRuns

namespace VortexOS.Mm

open Function Lib

lemma targetOrder_eq {count k : Nat} (hcount : count ≤ 2 ^ 63) (hk : count ≤ 2 ^ k)
    (hleast : ∀ j < k, 2 ^ j < count) : targetOrder count = some k := by
  obtain ⟨t, ht⟩ := targetOrder_isSome hcount
  obtain ⟨h1, h2⟩ := targetOrder_spec ht
  have hle : t ≤ k := by
    by_contra! hlt
    exact absurd (h2 k hlt) (by omega)
  have hge : k ≤ t := by
    by_contra! hlt
    exact absurd (hleast t hlt) (by omega)
  rw [ht, Nat.le_antisymm hle hge]

/-- The result `r` of a call that needs order `k` in state `s`. -/
structure AllocTaken (s : Pmm) (k : Nat) (r : Nat × Pmm) (j pfn : Nat) : Prop where
  phys : r.1 = pfnToPhys pfn
  range : k ≤ j ∧ j ≤ maxOrder
  lowest : ∀ i, k ≤ i → i < j → s.freeList i = []
  /-- the block is taken from the list of its order -/
  taken : s.freeList j = pfn :: r.2.freeList j
  /-- the successive upper halves -/
  halves : ∀ i, k ≤ i → i < j → r.2.freeList i = [pfn + 2 ^ i]
  rest : ∀ i, i ≤ maxOrder → i < k ∨ j < i → r.2.freeList i = s.freeList i
  /-- the block handed out is of order `k` -/
  order : (r.2.kFrames pfn).order = k
  freePages : r.2.kFreePages + 2 ^ k = s.kFreePages

def Pmm.HasBlock (s : Pmm) (k : Nat) : Prop := ∃ b ∈ s.freeBlockList, k ≤ b.order

section

variable {S : Set Nat} {s : Pmm} {fl : Nat → List Nat} {live : Set Block} {k : Nat}

lemma Pmm.Repr.hasBlock_iff (h : s.Repr fl) :
    s.HasBlock k ↔ ∃ j, k ≤ j ∧ j ≤ maxOrder ∧ s.kFreeLists j ≠ none := by
  constructor
  · rintro ⟨b, hb, hk⟩
    have hmem : b.base ∈ fl b.order := h.mem_freeBlockList.1 hb
    refine ⟨b.order, hk, h.order_le hmem, ?_⟩
    rw [h.head (h.order_le hmem)]
    intro hnone
    rw [List.head?_eq_none_iff.1 hnone] at hmem
    cases hmem
  · rintro ⟨j, hk, hj, hne⟩
    obtain ⟨p, hp⟩ := Option.ne_none_iff_exists'.1 hne
    rw [h.head hj] at hp
    exact ⟨⟨j, p⟩, h.mem_freeBlockList.2 (List.mem_of_mem_head? hp), hk⟩

lemma Pmm.Repr.freeList_eq_nil (h : s.Repr fl) {j : Nat} (hj : j ≤ maxOrder)
    (hnone : s.kFreeLists j = none) : s.freeList j = [] := by
  rw [h.head hj] at hnone
  rw [h.freeList_eq hj, List.head?_eq_none_iff.1 hnone]

lemma PmmInv.takeBlock_taken (h : PmmInv S s fl live) {order pfn : Nat}
    (hfind : findBlock k s = some (order, pfn)) :
    AllocTaken s k (pfnToPhys pfn, takeBlock k order pfn s) order pfn := by
  obtain ⟨hle, hmax, hhead, hlow⟩ := findBlock_some hfind
  obtain ⟨h', -, -, -⟩ := takeBlock_spec h hle hmax hhead
  have hlist : ∀ i, i ≤ maxOrder →
      (takeBlock k order pfn s).freeList i = takenLists fl k order pfn i :=
    fun i hi => h'.repr.freeList_eq hi
  have hempty : ∀ i, k ≤ i → i < order → s.freeList i = [] := fun i hk hi =>
    h.repr.freeList_eq_nil (by omega) (hlow i hk hi)
  have hfl : ∃ l, fl order = pfn :: l := by
    rw [h.repr.head hmax] at hhead
    exact List.head?_eq_some_iff.1 hhead
  obtain ⟨l, hl⟩ := hfl
  have htaken : ∀ i, i ≠ order → i < k ∨ order < i →
      takenLists fl k order pfn i = fl i := by
    intro i hne hi
    rw [takenLists, splitLists, if_neg (by omega), update_of_ne hne]
  constructor
  case phys => rfl
  case range => exact ⟨hle, hmax⟩
  case lowest => exact hempty
  case taken =>
    rw [hlist order hmax, h.repr.freeList_eq hmax, takenLists, splitLists, if_neg (by omega),
      update_self, hl, List.erase_cons_head]
  case halves =>
    intro i hk hi
    have hnil : fl i = [] := by rw [← h.repr.freeList_eq (by omega), hempty i hk hi]
    rw [hlist i (by omega), takenLists, splitLists, if_pos ⟨hk, hi⟩, update_of_ne (by omega), hnil]
  case rest =>
    intro i hi hout
    rw [hlist i hi, h.repr.freeList_eq hi, htaken i (by omega) hout]
  case order => simp [takeBlock]
  case freePages =>
    have hp : pfn ∈ fl order := by simp [hl]
    show (takeBlock k order pfn s).kFreePages + 2 ^ k = s.kFreePages
    rw [h'.freePages, h.freePages, freeSum_takenLists hle hmax hp]

lemma PmmInv.alloc_exact (h : PmmInv S s fl live) (h0 : 0 ∉ S) {count : Nat} (hcount : 1 ≤ count)
    (htarget : targetOrder count = some k) :
    ∃ r, pmmAllocPages count s = some r ∧ (r.1 = 0 ↔ maxOrder < k ∨ ¬ s.HasBlock k) ∧
    (r.1 = 0 → r.2 = s) ∧ (r.1 ≠ 0 → ∃ j pfn, AllocTaken s k r j pfn) := by
  have hne : count ≠ 0 := by omega
  simp only [pmmAllocPages, if_neg hne, htarget]
  by_cases hbig : k > maxOrder
  · exact ⟨(0, s), by rw [if_pos hbig], by simp [hbig], fun _ => rfl, fun h => absurd rfl h⟩
  rw [if_neg hbig]
  cases hfind : findBlock k s with
  | none =>
    refine ⟨(0, s), rfl, ?_, fun _ => rfl, fun h => absurd rfl h⟩
    have hno : ¬ s.HasBlock k := by
      rw [h.repr.hasBlock_iff]
      rintro ⟨j, hk, hj, hj'⟩
      exact hj' (findBlock_none hfind j hk hj)
    simp [hno]
  | some found =>
    obtain ⟨order, pfn⟩ := found
    have htaken := h.takeBlock_taken hfind
    obtain ⟨hle, hmax, hhead, -⟩ := findBlock_some hfind
    obtain ⟨h', -, -, -⟩ := takeBlock_spec h hle hmax hhead
    have hphys : pfnToPhys pfn ≠ 0 := by
      rw [ne_eq, pfnToPhys_eq_zero]
      rintro rfl
      exact h0 (h'.mem_pages (Set.mem_insert _ _))
    have hhas : s.HasBlock k := h.repr.hasBlock_iff.2 ⟨order, hle, hmax, by simp [hhead]⟩
    refine ⟨_, rfl, ?_, fun h => absurd h hphys, fun _ => ⟨order, pfn, htaken⟩⟩
    simp [hphys, hhas, Nat.le_of_not_lt hbig]

end

/-- **Allocation is complete and exact.** -/
theorem pmm_alloc_exact (entries : List MemmapEntry) (hhdm : Nat) (ram : Nat → PageFrame)
    (s0 : Pmm) (calls : List PmmCall) (s : PmmSys) (count k : Nat) (hok : MemmapOk entries)
    (hh : hhdm < 2 ^ 64) (hinit : pmmInit entries hhdm ram = some s0)
    (hlegal : Along pmmStep PmmLegal ⟨s0, []⟩ calls) (hrun : run pmmStep ⟨s0, []⟩ calls = some s)
    (hcount : 1 ≤ count ∧ count ≤ 2 ^ 52) (hk : count ≤ 2 ^ k) (hleast : ∀ j < k, 2 ^ j < count) :
    ∃ r, pmmAllocPages count s.pmm = some r ∧
      (r.1 = 0 ↔ maxOrder < k ∨ ¬ s.pmm.HasBlock k) ∧ (r.1 = 0 → r.2 = s.pmm) ∧
      (r.1 ≠ 0 → ∃ j pfn, AllocTaken s.pmm k r j pfn) := by
  obtain ⟨s1, fl0, ms, me, hinit', hstart⟩ := pmmInit_spec hok hh ram
  obtain rfl : s1 = s0 := Option.mem_unique hinit' hinit
  obtain ⟨t, fl, hrun', hinv⟩ := hstart.run hok hlegal
  obtain rfl : t = s := Option.mem_unique hrun' hrun
  have htarget := targetOrder_eq (Nat.le_trans hcount.2 (by decide)) hk hleast
  exact hinv.inv.alloc_exact hok.zero_notMem hcount.1 htarget

/-- One page of the two that are free: the other half goes to the list of
order 0. -/
theorem pmm_alloc_exact_smallMap : ∃ r, pmmAllocPages 1 smallStart = some r ∧
    (r.1 = 0 ↔ maxOrder < 0 ∨ ¬ smallStart.HasBlock 0) ∧ (r.1 = 0 → r.2 = smallStart) ∧
      (r.1 ≠ 0 → ∃ j pfn, AllocTaken smallStart 0 r j pfn) :=
  pmm_alloc_exact smallMap 0 (fun _ => blankFrame) smallStart [] ⟨smallStart, []⟩ 1 0 smallMap_ok
    (by decide) pmmInit_smallMap trivial rfl (by decide) (by decide) (by simp)

end VortexOS.Mm
