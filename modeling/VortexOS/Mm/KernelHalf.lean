/-
VortexOS.Mm.KernelHalf — the upper half of the address spaces.

The tables of the upper half belong to the kernel and are shared.
`KernelApart` says of a top table that none of its upper-half tables is free
or a table of the lower half of the address space at `root`. A call that
only stores to the lower half's tables and to free pages (`Spread`) keeps
every translation there. With `KernelHalf` the tables of both halves are one
tree (`KernelHalf.allTables`).
-/
import VortexOS.Mm.AllTables

namespace VortexOS.Mm

open Lib

def userAddrMax : Nat := 0x00007FFFFFFFFFFF

/-- Bits 47 to 63 are equal. The MMU translates no other address. -/
def Canonical (virt : Nat) : Prop := virt < 2 ^ 47 ∨ 2 ^ 64 - 2 ^ 47 ≤ virt ∧ virt < 2 ^ 64

instance (virt : Nat) : Decidable (Canonical virt) :=
  inferInstanceAs (Decidable (virt < 2 ^ 47 ∨ 2 ^ 64 - 2 ^ 47 ≤ virt ∧ virt < 2 ^ 64))

def KernelAddr (virt : Nat) : Prop := userAddrMax < virt ∧ Canonical virt

def kernelPaths : Set (List Nat) := {p | p ∈ allPaths ∧ ∀ i ∈ p.head?, 256 ≤ i}

/-- The entries for kernel addresses, seen from the top table `r`, are the
same in both memories. -/
def KernelSame (m m' : WordMem) (r : Nat) : Prop :=
  ∀ virt, KernelAddr virt →
    leafAt m' r (upperIdx virt) (getPtIdx virt) = leafAt m r (upperIdx virt) (getPtIdx virt)

/-- The top table `r` and its upper half share nothing with the lower half
of the address space at `root`, apart from `root` itself, nor with free
memory. -/
structure KernelApart (s : Kmem) (root r : Nat) : Prop where
  top : r = root ∨ r ∉ userTables s.mem root ∧ r ∉ s.pmm.freePages
  tables : ∀ p ∈ kernelPaths, p ≠ [] → ∀ t, tableAt s.mem r p = some t →
    t ∉ userTables s.mem root ∧ t ∉ s.pmm.freePages

/-- The upper half of the address space at `root` is a tree of tables for
the kernel's eyes only. -/
structure KernelHalf (s : Kmem) (a : AHeap) (root : Nat) :
    Prop extends KernelApart s root root where
  tree : IsTree nextFrame kernelPaths (entryAt s.mem) root
  page : ∀ p ∈ kernelPaths, p ≠ [] → ∀ t, tableAt s.mem root p = some t → PageOk a.hhdm t ∧
    t ∉ a.slabs
  supervisor : ∀ virt, KernelAddr virt → ∀ e,
    leafAt s.mem root (upperIdx virt) (getPtIdx virt) = some e → isUser e = false

/-! ## Paths -/

section

variable {virt : Nat}

lemma getPml4Idx_ge_iff (virt : Nat) : 256 ≤ getPml4Idx virt ↔ 2 ^ 47 ≤ virt % 2 ^ 48 := by
  rw [getPml4Idx, and_511_eq, Nat.shiftRight_eq_div_pow]
  omega

lemma KernelAddr.high (h : KernelAddr virt) : 2 ^ 47 ≤ virt % 2 ^ 48 := by
  obtain ⟨hmax, hcan⟩ := h
  simp only [userAddrMax, Canonical] at hmax hcan
  omega

lemma kernelPath_upperIdx (hv : 2 ^ 47 ≤ virt % 2 ^ 48) : upperIdx virt ∈ kernelPaths := by
  refine ⟨allPaths_upperIdx virt, fun i hi => ?_⟩
  obtain rfl : getPml4Idx virt = i := Option.some.inj hi
  exact (getPml4Idx_ge_iff virt).mpr hv

lemma kernelPaths_append {p q : List Nat} (h : p ++ q ∈ kernelPaths) : p ∈ kernelPaths := by
  refine ⟨allPaths_append h.1, fun i hi => ?_⟩
  cases p with
  | nil => cases hi
  | cons j p => exact h.2 i hi

lemma tablePath_or_kernelPath {p : List Nat} (hp : p ∈ allPaths) :
    p ∈ tablePaths ∨ p ∈ kernelPaths ∧ p ≠ [] := by
  cases p with
  | nil => exact Or.inl tablePaths_nil
  | cons i p =>
    by_cases hi : i < 256
    · refine Or.inl ⟨⟨hp.1, fun j hj => ?_⟩, hp.2⟩
      obtain rfl : i = j := Option.some.inj hj
      exact hi
    · refine Or.inr ⟨⟨hp, fun j hj => ?_⟩, by simp⟩
      obtain rfl : i = j := Option.some.inj hj
      omega

end

lemma kernelHalf_of_blank {s : Kmem} {root : Nat} (a : AHeap)
    (h : ∀ i < 512, entryAt s.mem root i = 0) : KernelHalf s a root := by
  have hnone : ∀ p ∈ kernelPaths, p ≠ [] → tableAt s.mem root p = none := by
    intro p hp hne
    cases p with
    | nil => exact absurd rfl hne
    | cons i p =>
      rw [tableAt_cons, h i (hp.1.1 i (by simp))]
      rfl
  have hnil : ∀ p ∈ kernelPaths, ∀ t, tableAt s.mem root p = some t → p = [] := by
    intro p hp t ht
    by_contra hne
    rw [hnone p hp hne] at ht
    cases ht
  refine ⟨⟨Or.inl rfl, fun p hp hne t ht => ?_⟩, fun p hp q hq t ht ht' => ?_,
    fun p hp hne t ht => ?_, fun virt hv e he => ?_⟩
  · exact absurd (hnil p hp t ht) hne
  · rw [hnil p hp t ht, hnil q hq t ht']
  · exact absurd (hnil p hp t ht) hne
  · rw [leafAt, hnone _ (kernelPath_upperIdx hv.high) (by simp [upperIdx])] at he
    cases he

/-! ## Calls for the lower half -/

section

variable {s s' : Kmem} {root r : Nat}

section

variable (h : KernelApart s root r) (hs : Spread root s s')
include h hs

lemma KernelApart.entry_eq {p : List Nat} {t i : Nat} (hp : p ∈ kernelPaths)
    (ht : tableAt s.mem r p = some t) (hi : i < 512) (hfirst : p = [] → 256 ≤ i) :
    entryAt s'.mem t i = entryAt s.mem t i := by
  have hpage : (t * 512 + i) / 512 = t := by omega
  have hsame : t ∉ userTables s.mem root ∧ t ∉ s.pmm.freePages →
    entryAt s'.mem t i = entryAt s.mem t i :=
    fun hout => hs.mem _ (hpage.symm ▸ hout.1) (hpage.symm ▸ hout.2)
  by_cases hnil : p = []
  · subst hnil
    obtain rfl := Option.some.inj ht
    cases h.top with
    | inl heq =>
      rw [heq]
      exact hs.kernel i (hfirst rfl) hi
    | inr hout => exact hsame hout
  · exact hsame (h.tables p hp hnil t ht)

lemma KernelApart.walk_eq {p : List Nat} (hp : p ∈ kernelPaths) :
    tableAt s'.mem r p = tableAt s.mem r p := by
  refine walk_congr fun q i rest u hsplit hu => ?_
  rw [hsplit] at hp
  have hi : i < 512 := hp.1.1 i (by simp)
  rw [h.entry_eq hs (kernelPaths_append hp) hu hi]
  rintro rfl
  exact hp.2 i rfl

lemma KernelApart.same : KernelSame s.mem s'.mem r := by
  intro virt hv
  have hpath := kernelPath_upperIdx hv.high
  unfold leafAt
  rw [h.walk_eq hs hpath]
  cases ht : tableAt s.mem r (upperIdx virt) with
  | none => rfl
  | some t =>
    have hentry := h.entry_eq hs hpath ht (and_511_lt (virt >>> 12)) (by simp [upperIdx])
    rw [Option.bind_some, Option.bind_some, getPtIdx, hentry]

end

end

/-! ## The tables of both halves -/

lemma KernelHalf.allTables {S : Set Nat} {s : Kmem} {a : AHeap} {fl : Nat → List Nat}
    {held : Set Block} {as root : Nat} (hk : KernelHalf s a root)
    (h : VmInv S s a fl held as root) : AllTables S s a fl held as root := by
  refine ⟨h.toKernelInv, h.object, h.pml4, fun p hp q hq t ht ht' => ?_, fun p hp t ht => ?_⟩
  · rcases tablePath_or_kernelPath hp with hlow | ⟨hhigh, hne⟩ <;>
      rcases tablePath_or_kernelPath hq with hlow' | ⟨hhigh', hne'⟩
    · exact h.tree p hlow q hlow' t ht ht'
    · exact absurd ⟨p, hlow, ht⟩ (hk.tables q hhigh' hne' t ht').1
    · exact absurd ⟨q, hlow', ht'⟩ (hk.tables p hhigh hne t ht).1
    · exact hk.tree p hhigh q hhigh' t ht ht'
  · rcases tablePath_or_kernelPath hp with hlow | ⟨hhigh, hne⟩
    · obtain ⟨hheld, hslab, hS⟩ := h.table hlow ht
      exact ⟨h.pageOk hS, h.not_free hheld, hslab⟩
    · obtain ⟨hok, hslab⟩ := hk.page p hhigh hne t ht
      exact ⟨hok, (hk.tables p hhigh hne t ht).2, hslab⟩

end VortexOS.Mm
