/-
VortexOS.Mm.VmmFork — `vmm_clone_address_space` and the child's mappings.

An empty slot of a copied table keeps the word its new page had. So the
child has the parent's mappings as long as no free page holds a present
entry where a copied table has an empty slot (`HolesClean`); and if the
contents of free pages can be anything, exactly when the copied tables have
no empty slot at all (`NoHoles`).
-/
import VortexOS.Mm.VmmFirst

namespace VortexOS.Mm

open Lib

variable {p : List Nat} {S : Set Nat} {s s1 s' : Kmem} {a a1 : AHeap} {fl fl1 : Nat → List Nat}
  {held held1 : Set Block} {as t i as' root' count f g virt phys g1 g2 g3 : Nat} {m : WordMem}
  {lbl : Labels} {flags : BitVec 32}

/-! ## The mappings of an address space -/

/-- The page that `vmm_switch_address_space` puts into CR3. -/
def Kmem.root (s : Kmem) (as : Nat) : Nat := physToPfn (sub64 (s.pml4 as) s.hhdm)

def Kmem.translate (s : Kmem) (as virt : Nat) : Option Nat :=
  tableAt s.mem (s.root as) (pathOf virt)

/-- A table below the PML4 that a clone copies, with its path. -/
structure Kmem.CopiedTable (s : Kmem) (as : Nat) (p : List Nat) (t : Nat) : Prop where
  lower : p ≠ []
  length : p.length ≤ 3
  slots : ∀ i ∈ p, i < 256
  table : tableAt s.mem (s.root as) p = some t

/-- No copied table has an empty slot. -/
def NoHoles (s : Kmem) (as : Nat) : Prop :=
  ∀ p t, s.CopiedTable as p t → ∀ i < 512, present (entryAt s.mem t i) = true

/-- Where a copied table has an empty slot, no free page has a present
entry. -/
def HolesClean (s : Kmem) (as : Nat) : Prop :=
  ∀ p t, s.CopiedTable as p t → ∀ i < 512, present (entryAt s.mem t i) = false →
    ∀ f ∈ s.pmm.freePages, present (entryAt s.mem f i) = false

/-- Memory `m` differs from that of `s` on free pages at most. -/
def AgreesOffFree (s : Kmem) (m : WordMem) : Prop := ∀ w, w / 512 ∉ s.pmm.freePages → m w = s.mem w

lemma userPath_of_lower (h : ∀ i ∈ p, i < 256) : UserPath p :=
  ⟨fun i hi => Nat.lt_trans (h i hi) (by decide),
    fun i hi => h i (List.mem_of_mem_head? (Option.mem_def.mp hi))⟩

section

variable
  {root : Nat}

lemma VmInv.root_eq (h : VmInv S s a fl held as root) : s.root as = root := by
  have hok := h.pageOk h.root_table
  have hsub := hok.sub64_ptr (o := 0) (by decide)
  rw [Nat.add_zero, Nat.add_zero] at hsub
  rw [Kmem.root, h.pml4, h.hhdm, hsub, physToPfn, pageShift, Nat.shiftRight_eq_div_pow, pageSize]
  omega

lemma VmInv.setFree (h : VmInv S s a fl held as root) (hm : AgreesOffFree s m) :
    VmInv S { s with mem := m } a fl held as root ∧ ∀ p, UserPath p → p.length ≤ 4 →
    tableAt m root p = tableAt s.mem root p := by
  have hwalk : ∀ p, UserPath p → p.length ≤ 4 → tableAt m root p = tableAt s.mem root p := by
    intro p hp hlen
    apply walk_congr
    intro q i r u hsplit hu
    obtain ⟨hq, hi⟩ := hp.within hlen q i r hsplit
    have hpage : (u * 512 + i) / 512 = u := by omega
    have heq : entryAt m u i = entryAt s.mem u i :=
      hm _ fun hfree => (h.free_not_used (hpage ▸ hfree)).1 ⟨q, hq, hu⟩
    rw [heq]
  have htables : ∀ p ∈ tablePaths, tableAt m root p = tableAt s.mem root p := fun p hp =>
    hwalk p hp.1 (Nat.le_succ_of_le hp.2)
  have hslab : ∀ w, w / 512 ∈ a.slabs → m w = s.mem w := fun w hw =>
    hm w fun hfree => (h.free_not_used hfree).2 hw
  refine ⟨⟨⟨?_, h.inv, h.small⟩, ⟨h.object, ?_, ?_, ?_⟩⟩, hwalk⟩
  · refine h.rep.setMem fun w hw => hslab w ?_
    by_contra hnot
    exact hw (h.inv.unused_of_notMem hnot)
  · obtain ⟨f, hf⟩ := h.object
    rw [← h.pml4]
    exact h.toKernelInv.pml4_congr hf rfl fun w hw _ => hslab w hw
  · rw [show userTables m root = userTables s.mem root from tables_congr htables]
    exact h.owned
  · exact h.tree.congr htables

end

/-! ## The clone -/

def upperTables (m : WordMem) (root : Nat) : Set Nat :=
  {t | ∃ p ∈ tablePaths, p.length ≤ 2 ∧ tableAt m root p = some t}

def lastTables (m : WordMem) (root : Nat) : Set Nat :=
  {t | ∃ p ∈ tablePaths, p.length = 3 ∧ tableAt m root p = some t}

lemma mem_userTables {root : Nat} (h : t ∈ upperTables m root ∪ lastTables m root) :
    t ∈ userTables m root := by
  cases h with
  | inl hu =>
    obtain ⟨p, hp, _, ht⟩ := hu
    exact ⟨p, hp, ht⟩
  | inr hl =>
    obtain ⟨p, hp, _, ht⟩ := hl
    exact ⟨p, hp, ht⟩

lemma tablePaths_concat (hp : p ∈ tablePaths) (hlen : p.length ≤ 2) (hi : i < 256) :
    p ++ [i] ∈ tablePaths := by
  refine ⟨⟨fun j hj => ?_, ?_⟩, by rw [List.length_append, List.length_singleton]; omega⟩
  · cases List.mem_append.mp hj with
    | inl hin => exact hp.1.1 j hin
    | inr hone =>
      rw [List.mem_singleton.mp hone]
      omega
  · cases p with
    | nil => simpa using hi
    | cons k p => exact hp.1.2

lemma below_user {root : Nat} :
    ∀ (n : Nat) {p : List Nat} {t : Nat}, p.length + n = 3 → p ∈ tablePaths →
    tableAt m root p = some t → Below m (upperTables m root) (lastTables m root) n t := by
  intro n
  induction n with
  | zero =>
    intro p t hlen hp ht
    exact ⟨p, hp, hlen, ht⟩
  | succ n ih =>
    intro p t hlen hp ht
    refine ⟨⟨p, hp, by omega, ht⟩, fun i hi u hu => ?_⟩
    refine ih (p := p ++ [i]) (by simp; omega) (tablePaths_concat hp (by omega) hi) ?_
    rw [tableAt_concat, ht]
    exact hu

lemma below_root (m : WordMem) (root : Nat) :
    Below m (upperTables m root) (lastTables m root) 3 root :=
  below_user 3 (p := []) rfl tablePaths_nil rfl

/-- The allocators have what a clone needs: a new address space and a page
for every table that is copied. -/
def ClonePages (a : AHeap) (m : WordMem) (root : Nat) : Prop :=
  ∃ as' a' pmm, a.newSpace = some (as', a') ∧ as' ≠ 0 ∧
    allocTimes (tableCount m 3 root) a'.pmm = some (true, pmm)

def RootCopied (m m' : WordMem) (lbl : Labels) (root root' i : Nat) : Prop :=
  if present (entryAt m root i) then
    ∃ g, lbl g = some [i] ∧ entryAt m' root' i = copiedEntry g (entryAt m root i) ∧
      ∀ j < 512, Copied m m' lbl 2 [i] (frameOf (entryAt m root i)) g j
  else entryAt m' root' i = 0

/-- A clone of the address space with the tables at `root`, with what it
took from the allocator labelled by the paths it is the copy of. -/
structure Cloned (S : Set Nat) (s : Kmem) (held : Set Block) (root as' : Nat) (s' : Kmem)
    (root' : Nat) (lbl : Labels) : Prop where
  rootEq : s'.root as' = root'
  offset : s'.hhdm = s.hhdm
  slots : ∀ i < 256, RootCopied s.mem s'.mem lbl root root' i
  top : ∀ g, lbl g = some [] ↔ g = root'
  free : ∀ g, lbl g ≠ none → g ∈ S ∧ (⟨0, g⟩ : Block) ∉ held ∧ g ∈ s.pmm.freePages
  source : ∀ t ∈ userTables s.mem root, ∀ i < 512,
    Protected (lastTables s.mem root) s.mem s'.mem (t * 512 + i)
  pmm : ∃ fl' held', PmmInv S s'.pmm fl' held' ∧ held ⊆ held' ∧
    ∀ g, lbl g ≠ none → (⟨0, g⟩ : Block) ∈ held'

section

variable {S : Set Nat} {s : Kmem} {a : AHeap} {fl : Nat → List Nat} {held : Set Block}
  {as root : Nat}

lemma VmInv.disjoint_levels (h : VmInv S s a fl held as root) :
    Disjoint (upperTables s.mem root) (lastTables s.mem root) := by
  rw [Set.disjoint_left]
  intro t hu hl
  obtain ⟨p, hp, hlen, ht⟩ := hu
  obtain ⟨q, hq, hlen', hqt⟩ := hl
  rw [h.tree p hp q hq t ht hqt] at hlen
  omega

def rootLabel (root' : Nat) : Labels := fun g => if g = root' then some [] else none

lemma rootLabel_self (root' : Nat) : rootLabel root' root' = some [] := if_pos rfl

/-- The state in which the child has been created and its tables are to be
copied. -/
lemma NewSpace.copying (h : VmInv S s a fl held as root)
    (hnew : NewSpace S s a held as' root' s1 a1 fl1 held1) :
    Copying S a.hhdm (held1 \ {⟨0, root'⟩}) s1 (rootLabel root') ∧
    CopyCtx S a.hhdm (held1 \ {⟨0, root'⟩}) (upperTables s.mem root) (lastTables s.mem root) ∧
    ∀ t ∈ userTables s.mem root, ∀ i < 512, entryAt s1.mem t i = entryAt s.mem t i := by
  have hin : (⟨0, root'⟩ : Block) ∈ held1 := by
    rw [hnew.heldEq]
    exact Or.inl (Or.inl rfl)
  have hheld : heldWith (held1 \ {⟨0, root'⟩}) (rootLabel root') = held1 := by
    ext ⟨k, b⟩
    simp only [heldWith, rootLabel, Set.mem_union, Set.mem_sdiff, Set.mem_singleton_iff,
      Set.mem_ofPred_eq, Block.mk.injEq]
    constructor
    · intro hb
      cases hb with
      | inl hold => exact hold.1
      | inr hroot =>
        obtain ⟨rfl, hroot⟩ := hroot
        split at hroot
        · rename_i heq
          exact heq ▸ hin
        · exact absurd rfl hroot
    · intro hb
      by_cases heq : k = 0 ∧ b = root'
      · exact Or.inr ⟨heq.1, by simp [heq.2]⟩
      · exact Or.inl ⟨hb, heq⟩
  have htable : ∀ t ∈ userTables s.mem root, (⟨0, t⟩ : Block) ∈ held1 \ {⟨0, root'⟩} ∧
      t ∉ a1.slabs ∧ t ≠ root' := by
    intro t ht
    obtain ⟨hth, hts⟩ := h.owned t ht
    have hne : t ≠ root' := fun heq => hnew.fresh (heq ▸ hth)
    refine ⟨⟨?_, fun heq => hne (Block.mk.inj heq).2⟩, fun hslab => ?_, hne⟩
    · rw [hnew.heldEq]
      exact Or.inl (Or.inr hth)
    · exact hnew.newSlab t hslab hts (Or.inr hth)
  refine ⟨⟨⟨fl1, ?_⟩, ?_, ?_⟩, ⟨fun f hf => h.pageOk hf, h.small, fun t ht => ?_,
    h.disjoint_levels⟩, fun t ht i hi => ?_⟩
  · rw [hheld, hnew.inv.rep.pmm]
    exact hnew.inv.inv.pmmInv
  · rw [hnew.inv.hhdm, hnew.hhdm]
  · intro f hf hmem
    unfold rootLabel at hf
    split at hf
    · rename_i heq
      exact hmem.2 (by rw [heq]; rfl)
    · exact hf rfl
  · have ht' := mem_userTables ht
    exact ⟨(htable t ht').1, h.mem_of_table ht'⟩
  · obtain ⟨_, hts, hne⟩ := htable t ht
    have hpage : (t * 512 + i) / 512 = t := by omega
    exact hnew.mem _ (by rw [hpage]; exact hts) (by rw [hpage]; exact hne)

lemma mem_levels (h : t ∈ userTables m root) : t ∈ upperTables m root ∪ lastTables m root := by
  obtain ⟨p, hp, ht⟩ := h
  have hlen := hp.2
  by_cases hlast : p.length = 3
  · exact Or.inr ⟨p, hp, hlast, ht⟩
  · exact Or.inl ⟨p, hp, by omega, ht⟩

/-- The copy takes a label `[]` for the child's PML4 only. -/
lemma CopyResult.top {b : Bool} {L : Set Nat} (hres : CopyResult S a.hhdm held1 L [] root'
      (List.range 512) s1 (rootLabel root') count b s' lbl) (g : Nat) :
    lbl g = some [] ↔ g = root' := by
  constructor
  · intro hg
    by_contra hne
    obtain ⟨i, _, r, hr⟩ := hres.labels g [] (by simp [rootLabel, hne]) hg
    simp at hr
  · intro heq
    rw [heq]
    exact hres.step.ext root' [] (rootLabel_self root')

lemma NewSpace.slab_unlabelled (hnew : NewSpace S s a held as' root' s1 a1 fl1 held1)
    (hcopy : Copying S a.hhdm (held1 \ {⟨0, root'⟩}) s' lbl) (hf : f ∈ a1.slabs) :
    lbl f = none := by
  by_contra hl
  refine hcopy.fresh f hl ⟨hnew.inv.inv.slabHeld f hf, fun heq => ?_⟩
  refine (hnew.inv.table tablePaths_nil (p := []) rfl).2.1 ?_
  rw [← (Block.mk.inj heq).2]
  exact hf

section

variable (h : VmInv S s a fl held as root) (hnew : NewSpace S s a held as' root' s1 a1 fl1 held1)
include h hnew

/-- The slots of the child's PML4, with the tables of the parent as they were
before the child was created. -/
lemma NewSpace.rootCopied (hres : CopyResult S a.hhdm (held1 \ {⟨0, root'⟩}) (lastTables s.mem root)
      [] root' (List.range 512) s1 (rootLabel root') count true s' lbl)
    (hcop : ∀ i < 512, Copied s1.mem s'.mem lbl 3 [] root root' i) (hi : i < 256) :
    RootCopied s.mem s'.mem lbl root root' i := by
  obtain ⟨-, hctx, hsame⟩ := hnew.copying h
  have hrt : root ∈ userTables s.mem root := ⟨[], tablePaths_nil, rfl⟩
  have hslot := hcop i (by omega)
  have heq := hsame root hrt i (by omega)
  rw [copied_succ, SlotCopied, heq, if_neg (Nat.not_le.mpr hi), List.nil_append] at hslot
  unfold RootCopied
  split
  · rename_i hp
    rw [if_pos hp] at hslot
    obtain ⟨g, hg, hentry, hsub⟩ := hslot
    refine ⟨g, hg, hentry, fun j hj => ?_⟩
    -- pages the copy took had the content they had before the child was created
    have hpage : ∀ g' q, lbl g' = some (i :: q) → ∀ k < 512,
        entryAt s1.mem g' k = entryAt s.mem g' k := by
      intro g' q hg' k hk
      have hdiv : (g' * 512 + k) / 512 = g' := by omega
      refine hnew.mem _ ?_ ?_
      · rw [hdiv]
        intro hs
        rw [hnew.slab_unlabelled hres.copying hs] at hg'
        cases hg'
      · rw [hdiv]
        intro heq'
        rw [(hres.top g').mpr heq'] at hg'
        cases hg'
    refine (hsub j hj).left hctx.apart (fun t ht k hk => Or.inl ?_) ?_ hj
      (hpage g [] hg j hj) fun g' q hg' => hpage g' (j :: q) hg'
    · exact hsame t (mem_userTables ht) k hk
    · have hi' : tableAt s.mem root [i] = some (frameOf (entryAt s.mem root i)) := by
        rw [tableAt_cons, nextFrame_eq_some.mpr ⟨hp, rfl⟩]
        rfl
      exact below_user 2 rfl (tablePaths_concat tablePaths_nil (by simp) hi) hi'
  · rename_i hp
    rw [if_neg hp] at hslot
    rw [hslot]
    exact hnew.empty i hi

lemma NewSpace.cloned (hres : CopyResult S a.hhdm (held1 \ {⟨0, root'⟩}) (lastTables s.mem root) []
      root' (List.range 512) s1 (rootLabel root') count true s' lbl)
    (hcop : ∀ i < 512, Copied s1.mem s'.mem lbl 3 [] root root' i) :
    Cloned S s held root as' s' root' lbl := by
  obtain ⟨hcopy, hctx, hsame⟩ := hnew.copying h
  have hcopy' := hres.copying
  have hroot' : root' ∉ a1.slabs := (hnew.inv.table tablePaths_nil (p := []) rfl).2.1
  have hslabL : ∀ f ∈ a1.slabs, f ∉ lastTables s.mem root := fun f hf hL => by
    obtain ⟨hth, hts⟩ := h.owned f (mem_userTables (Or.inr hL))
    exact hnew.newSlab f hf hts (Or.inr hth)
  have hheld : held ⊆ held1 \ {⟨0, root'⟩} := by
    intro b hb
    refine ⟨?_, fun heq => hnew.fresh (heq ▸ hb)⟩
    rw [hnew.heldEq]
    exact Or.inl (Or.inr hb)
  obtain ⟨fl', hpmm⟩ := hcopy'.pmm
  have hhdm : s'.hhdm = s1.hhdm := hcopy'.offset.trans hcopy.offset.symm
  refine ⟨?_, hcopy'.offset.trans h.hhdm.symm, fun i hi => hnew.rootCopied h hres hcop hi, hres.top,
    fun g hg => ?_, fun t ht i hi => ?_,
    ⟨fl', _, hpmm, fun b hb => Or.inl (hheld hb), fun g hg => Or.inr ⟨rfl, hg⟩⟩⟩
  · obtain ⟨f, hf⟩ := hnew.inv.object
    have hpml4 : s'.pml4 as' = s1.pml4 as' := by
      refine hnew.inv.toKernelInv.pml4_congr hf hhdm fun w hw _ => ?_
      have hstep := hres.step.mem w (Or.inr (hnew.slab_unlabelled hcopy' hw)) fun heq =>
        hroot' (heq ▸ hw)
      exact hstep.eq_of_notMem (hslabL _ hw)
    rw [Kmem.root, hpml4, hhdm]
    exact hnew.inv.root_eq
  · have hgS : g ∈ S := hcopy'.mem_pages hg
    have hgheld : (⟨0, g⟩ : Block) ∉ held := fun hin => hcopy'.fresh g hg (hheld hin)
    refine ⟨hgS, hgheld, ?_⟩
    refine h.mem_freePages.mpr ⟨hgS, fun b hb hin => ?_⟩
    have hne : (⟨0, g⟩ : Block) ≠ b := fun heq => hgheld (heq ▸ hb)
    exact Set.disjoint_left.mp (hpmm.tiles.disjoint (Or.inr (Or.inr ⟨rfl, hg⟩))
      (Or.inr (Or.inl (hheld hb))) hne) (Block.base_mem_cells ⟨0, g⟩) hin
  · have hprot := hres.step.source hcopy hcopy' hctx (rootLabel_self root') (mem_levels ht) hi
    have heq : s1.mem (t * 512 + i) = s.mem (t * 512 + i) := hsame t ht i hi
    unfold Protected at *
    rw [heq] at hprot
    exact hprot

lemma NewSpace.copy : ∃ b s' lbl, copyPageTableLevel 3 (s1.pml4 as) (s1.pml4 as') false s1 =
      some (b, s') ∧ CopyResult S a.hhdm (held1 \ {⟨0, root'⟩}) (lastTables s.mem root) [] root'
      (List.range 512) s1 (rootLabel root') (tableCount s.mem 3 root) b s' lbl ∧
    (b = true → ∀ i < 512, Copied s1.mem s'.mem lbl 3 [] root root' i) := by
  obtain ⟨hcopy, hctx, hsame⟩ := hnew.copying h
  obtain ⟨f, hf⟩ := h.object
  have hsrc : s1.pml4 as = pagePtr a.hhdm root := by
    rw [(hnew.others f as hf).2, h.pml4]
  have hdst : s1.pml4 as' = pagePtr a.hhdm root' := by
    rw [hnew.inv.pml4, hnew.hhdm]
  have hsameT : ∀ t ∈ upperTables s.mem root, ∀ i < 512, entryAt s1.mem t i = entryAt s.mem t i :=
    fun t ht => hsame t (mem_userTables (Or.inl ht))
  have hbelow := below_root s.mem root
  have hcount : tableCount s1.mem 3 root = tableCount s.mem 3 root := by
    unfold tableCount
    exact congrArg List.sum
      (List.map_congr_left fun i hi => slotCount_congr hsameT hbelow (List.mem_range.mp hi))
  obtain ⟨b, s', lbl, hcall, hres, hcop⟩ := copyPageTableLevel_spec hctx 3 hcopy
    (hbelow.congr hsameT) (rootLabel_self root')
  rw [hcount] at hres
  rw [hsrc, hdst]
  exact ⟨b, s', lbl, hcall, hres, hcop⟩

end

lemma NewSpace.copy_free (hnew : NewSpace S s a held as' root' s1 a1 fl1 held1)
    (hcopy : Copying S a.hhdm (held1 \ {⟨0, root'⟩}) s' lbl) (hg : lbl g ≠ none) (hne : g ≠ root') :
    g ∈ a1.pmm.freePages := by
  obtain ⟨fl', hpmm⟩ := hcopy.pmm
  rw [← hnew.inv.rep.pmm]
  refine hnew.inv.mem_freePages.mpr ⟨hcopy.mem_pages hg, fun b hb hin => ?_⟩
  by_cases hroot : b = ⟨0, root'⟩
  · rw [hroot, Block.mem_cells] at hin
    simp only [pow_zero] at hin
    omega
  · have hb' : b ∈ held1 \ {⟨0, root'⟩} := ⟨hb, hroot⟩
    have hgb : (⟨0, g⟩ : Block) ≠ b := fun heq => hcopy.fresh g hg (heq ▸ hb')
    exact Set.disjoint_left.mp
      (hpmm.tiles.disjoint (Or.inr (Or.inr ⟨rfl, hg⟩)) (Or.inr (Or.inl hb')) hgb)
      (Block.base_mem_cells ⟨0, g⟩) hin

lemma clone_spec (h : VmInv S s a fl held as root) (cr3 : Nat) :
    ∃ as' s', vmmCloneAddressSpace as cr3 s = some (as', s') ∧ (as' ≠ 0 ↔ ClonePages a s.mem root) ∧
    (as' ≠ 0 → ∃ root' lbl a1, Cloned S s held root as' s' root' lbl ∧ a.newSpace = some (as', a1) ∧
      allocTimes (tableCount s.mem 3 root) a1.pmm = some (true, s'.pmm) ∧ ∀ g, lbl g ≠ none →
      g ≠ root' → g ∈ a1.pmm.freePages) := by
  obtain ⟨as', s1, a1, hcreate, hspace, hres⟩ := createAddressSpace_spec h.toKernelInv cr3
  unfold vmmCloneAddressSpace
  rw [hcreate]
  by_cases h0 : as' = 0
  · refine ⟨0, s1, by simp [h0], ⟨fun hne => absurd rfl hne, fun hpages => ?_⟩,
      fun hne => absurd rfl hne⟩
    obtain ⟨x, a', _, hx, hxne, _⟩ := hpages
    rw [hspace] at hx
    exact absurd (h0 ▸ (Prod.mk.inj (Option.some.inj hx)).1.symm) hxne
  · obtain ⟨root', fl1, held1, hnew⟩ := hres.resolve_left h0
    obtain ⟨b, s', lbl, hcall, hresult, hcop⟩ := hnew.copy h
    have halloc := hresult.alloc
    rw [hnew.inv.rep.pmm] at halloc
    simp only [if_neg h0, hcall, Option.map_some]
    cases b with
    | false =>
      refine ⟨0, s', by simp, ⟨fun hne => absurd rfl hne, fun hpages => ?_⟩,
        fun hne => absurd rfl hne⟩
      obtain ⟨x, a', pmm, hx, _, hok⟩ := hpages
      rw [hspace] at hx
      obtain ⟨_, rfl⟩ := Prod.mk.inj (Option.some.inj hx)
      rw [halloc] at hok
      simp at hok
    | true =>
      exact ⟨as', s', by simp, ⟨fun _ => ⟨as', a1, s'.pmm, hspace, h0, halloc⟩, fun _ => h0⟩,
        fun _ => ⟨root', lbl, a1, hnew.cloned h hresult (hcop rfl), hspace, halloc,
          fun g hg hne => hnew.copy_free hresult.copying hg hne⟩⟩

/-! ## Walks of parent and child -/

variable {as' root' : Nat} {s' : Kmem} {lbl : Labels}

section

variable (hc : Cloned S s held root as' s' root' lbl)
include hc

lemma Cloned.walk_source {q r : List Nat} (hqr : UserPath (q ++ r)) (hlen : (q ++ r).length ≤ 4)
    (ht : tableAt s.mem root q = some t) : tableAt s'.mem t r = tableAt s.mem t r := by
  apply walk_congr
  intro r1 i r2 u hsplit hu
  obtain ⟨hmem, hi⟩ := hqr.within hlen (q ++ r1) i r2 (by simp [hsplit])
  have hq : tableAt s.mem root (q ++ r1) = some u := by
    rw [show tableAt s.mem root (q ++ r1) = _ from walk_append root q r1]
    rw [show walk _ _ _ q = some t from ht]
    exact hu
  exact (hc.source u ⟨q ++ r1, hmem, hq⟩ i hi).nextFrame_eq

lemma Cloned.walk_parent (hp : UserPath p) (hlen : p.length ≤ 4) :
    tableAt s'.mem root p = tableAt s.mem root p :=
  hc.walk_source (q := []) hp hlen rfl

end

/-- Where a copied table has an empty slot, no page that was taken has a
present entry. -/
def CopyClean (s : Kmem) (root : Nat) (lbl : Labels) : Prop :=
  ∀ p t, p ≠ [] → p.length ≤ 3 → (∀ i ∈ p, i < 256) → tableAt s.mem root p = some t →
    ∀ i < 512, present (entryAt s.mem t i) = false →
      ∀ g, lbl g ≠ none → present (entryAt s.mem g i) = false

section

variable (hc : Cloned S s held root as' s' root' lbl)
include hc

section

variable (hsmall : ∀ f ∈ S, f < 2 ^ 40)
include hsmall

lemma Cloned.walk_copy (hclean : CopyClean s root lbl) : ∀ (n : Nat) {p : List Nat} {a d : Nat},
      p.length + n = 3 → p ≠ [] → (∀ i ∈ p, i < 256) → tableAt s.mem root p = some a →
    lbl d = some p → (∀ j < 512, Copied s.mem s'.mem lbl n p a d j) → ∀ r, r.length = n + 1 →
    (∀ i ∈ r, i < 512) → tableAt s'.mem d r = tableAt s.mem a r := by
  have hstep : ∀ {p : List Nat} {a d i : Nat}, p ≠ [] → p.length ≤ 3 → (∀ i ∈ p, i < 256) →
      tableAt s.mem root p = some a → lbl d = some p → i < 512 →
      entryAt s'.mem d i = entryAt s.mem d i → present (entryAt s.mem a i) = false →
      nextFrame (entryAt s'.mem d i) = nextFrame (entryAt s.mem a i) := by
    intro p a d i hne hlen hlow ha hd hi hkeep habs
    rw [hkeep, nextFrame_eq_none.mpr habs, nextFrame_eq_none]
    exact hclean p a hne hlen hlow ha i hi habs d (by simp [hd])
  intro n
  induction n with
  | zero =>
    intro p a d hlen hne hlow ha hd hcop r hr hr512
    obtain ⟨i, rfl⟩ := List.length_eq_one_iff.mp hr
    have hi : i < 512 := hr512 i (by simp)
    have hslot := hcop i hi
    simp only [Copied, SlotCopied] at hslot
    have hnext : nextFrame (entryAt s'.mem d i) = nextFrame (entryAt s.mem a i) := by
      split at hslot
      · split at hslot
        · rw [hslot]
        · rw [hslot.1, nextFrame_protect]
      · exact hstep hne (by omega) hlow ha hd hi hslot (Bool.eq_false_of_not_eq_true ‹_›)
    rw [tableAt_cons, tableAt_cons, hnext]
    rfl
  | succ n ih =>
    intro p a d hlen hne hlow ha hd hcop r hr hr512
    cases r with
    | nil => simp at hr
    | cons i r =>
      have hi : i < 512 := hr512 i (by simp)
      have hr' : r.length = n + 1 := by simpa using hr
      have hslot := hcop i hi
      rw [copied_succ, SlotCopied] at hslot
      rw [tableAt_cons, tableAt_cons]
      split at hslot
      · rename_i hp
        have hframe := nextFrame_eq_some.mpr ⟨hp, rfl⟩
        have hpi : tableAt s.mem root (p ++ [i]) = some (frameOf (entryAt s.mem a i)) := by
          rw [tableAt_concat, ha]
          exact hframe
        split at hslot
        · -- a shared slot
          rw [hslot, hframe]
          have hpath : UserPath (p ++ [i] ++ r) := by
            refine ⟨fun j hj => ?_, fun j hj => ?_⟩
            · rw [List.append_assoc, List.mem_append] at hj
              cases hj with
              | inl hin => exact Nat.lt_trans (hlow j hin) (by decide)
              | inr hin => exact hr512 j (by simpa using hin)
            · cases p with
              | nil => exact absurd rfl hne
              | cons k p => exact hlow j (by simp at hj; simp [hj])
          exact hc.walk_source hpath (by simp; omega) hpi
        · rename_i h256
          obtain ⟨g, hg, hentry, hsub⟩ := hslot
          have hgS : g < 2 ^ 40 := hsmall g (hc.free g (by simp [hg])).1
          rw [hentry, nextFrame_copiedEntry hgS hp, hframe]
          refine ih (p := p ++ [i]) (by simp; omega) (by simp) (fun j hj => ?_) hpi hg hsub r hr'
            fun j hj => hr512 j (by simp [hj])
          cases List.mem_append.mp hj with
          | inl hin => exact hlow j hin
          | inr hone =>
            rw [List.mem_singleton.mp hone]
            omega
      · have habs : present (entryAt s.mem a i) = false :=
          Bool.eq_false_of_not_eq_true ‹_›
        rw [hstep hne (by omega) hlow ha hd hi hslot habs, nextFrame_eq_none.mpr habs]
        rfl

lemma Cloned.walk_child (hclean : CopyClean s root lbl) (hp : p ∈ pagePaths) :
    tableAt s'.mem root' p = tableAt s.mem root p := by
  cases p with
  | nil => exact absurd hp.2 (by simp)
  | cons i r =>
    have hi : i < 256 := hp.1.2 i rfl
    have hslot := hc.slots i hi
    unfold RootCopied at hslot
    rw [tableAt_cons, tableAt_cons]
    split at hslot
    · rename_i hpr
      obtain ⟨g, hg, hentry, hsub⟩ := hslot
      have hframe := nextFrame_eq_some.mpr ⟨hpr, rfl⟩
      have hgS : g < 2 ^ 40 := hsmall g (hc.free g (by simp [hg])).1
      rw [hentry, nextFrame_copiedEntry hgS hpr, hframe]
      refine hc.walk_copy hsmall hclean 2 rfl (by simp) (by simpa using hi) ?_ hg hsub r
        (by simpa using hp.2) fun j hj => hp.1.1 j (by simp [hj])
      rw [tableAt_cons, hframe]
      rfl
    · have habs : present (entryAt s.mem root i) = false :=
        Bool.eq_false_of_not_eq_true ‹_›
      rw [hslot, nextFrame_eq_none.mpr habs]
      rfl

/-- The child has a copy of every table that is not shared, and a walk
that looks at flags finds the flags of the parent's entries. -/
lemma Cloned.copy_of_walk {next : BitVec 64 → Option Nat}
    (hle : ∀ e f, next e = some f → nextFrame e = some f)
    (hcopied : ∀ e f g, g < 2 ^ 40 → next e = some f → next (copiedEntry g e) = some g)
    (hne : p ≠ []) (hlen : p.length ≤ 3) (hlow : ∀ i ∈ p, i < 256)
    (ht : walk next (entryAt s.mem) root p = some t) : ∃ g, walk next (entryAt s'.mem) root' p =
      some g ∧ lbl g = some p ∧ ∀ j < 512, Copied s.mem s'.mem lbl (3 - p.length) p t g j := by
  -- from the root down, one slot at a time
  induction p using List.reverseRecOn generalizing t with
  | nil => exact absurd rfl hne
  | append_singleton p i ih =>
    have hi : i < 256 := hlow i (by simp)
    rw [walk_concat] at ht
    obtain ⟨u, hu, hut⟩ := Option.bind_eq_some_iff.mp ht
    obtain ⟨hp, hframe⟩ := nextFrame_eq_some.mp (hle _ _ hut)
    rw [List.length_append, List.length_singleton] at hlen
    cases p with
    | nil =>
      obtain rfl : root = u := Option.some.inj hu
      have hslot := hc.slots i hi
      rw [RootCopied, if_pos hp, hframe] at hslot
      obtain ⟨g, hg, hentry, hsub⟩ := hslot
      have hgS : g < 2 ^ 40 := hsmall g (hc.free g (by simp [hg])).1
      refine ⟨g, ?_, hg, hsub⟩
      rw [List.nil_append, walk_cons, hentry, hcopied _ _ g hgS hut]
      rfl
    | cons k p =>
      obtain ⟨d, hd, _, hcop⟩ := ih (by simp) (by omega)
        (fun j hj => hlow j (List.mem_append_left _ hj)) hu
      obtain ⟨n, hn⟩ : ∃ n, 3 - (k :: p).length = n + 1 :=
        ⟨3 - (k :: p).length - 1, by omega⟩
      have hslot := hcop i (by omega)
      rw [hn, copied_succ, SlotCopied, if_pos hp, if_neg (by omega), hframe] at hslot
      obtain ⟨g, hg, hentry, hsub⟩ := hslot
      have hgS : g < 2 ^ 40 := hsmall g (hc.free g (by simp [hg])).1
      refine ⟨g, ?_, hg, ?_⟩
      · rw [walk_concat, hd, Option.bind_some, hentry, hcopied _ _ g hgS hut]
      · rw [List.length_append, List.length_singleton, show 3 - ((k :: p).length + 1) = n by omega]
        exact hsub

lemma Cloned.copy_of_path (hne : p ≠ []) (hlen : p.length ≤ 3) (hlow : ∀ i ∈ p, i < 256)
    (ht : tableAt s.mem root p = some t) : ∃ g, tableAt s'.mem root' p = some g ∧ lbl g = some p ∧
    ∀ j < 512, Copied s.mem s'.mem lbl (3 - p.length) p t g j :=
  hc.copy_of_walk hsmall (fun _ _ he => he)
    (fun _ _ _ hg he => nextFrame_copiedEntry hg (nextFrame_eq_some.mp he).1) hne hlen hlow ht

lemma Cloned.hole (hne : p ≠ []) (hlen : p.length ≤ 3) (hlow : ∀ i ∈ p, i < 256)
    (ht : tableAt s.mem root p = some t) (hi : i < 512)
    (habs : present (entryAt s.mem t i) = false) : ∃ g ∈ s.pmm.freePages, g < 2 ^ 40 ∧
    tableAt s'.mem root' p = some g ∧ entryAt s'.mem g i = entryAt s.mem g i := by
  obtain ⟨g, hg, hlbl, hcop⟩ := hc.copy_of_path hsmall hne hlen hlow ht
  obtain ⟨hgS, _, hfree⟩ := hc.free g (by simp [hlbl])
  refine ⟨g, hfree, hsmall g hgS, hg, ?_⟩
  have hslot := hcop i hi
  cases hn : 3 - p.length with
  | zero =>
    rw [hn] at hslot
    simpa [Copied, SlotCopied, habs] using hslot
  | succ n =>
    rw [hn, copied_succ, SlotCopied] at hslot
    simpa [habs] using hslot

end

end

end

/-! ## The contents of free pages -/

/-- Every free page holds entries that point to the page itself. -/
noncomputable def staleEntries (s : Kmem) : WordMem := by
  classical
  exact fun w => if w / 512 ∈ s.pmm.freePages then newTableEntry (w / 512) else s.mem w

lemma staleEntries_agrees (s : Kmem) : AgreesOffFree s (staleEntries s) := by
  intro w hw
  rw [staleEntries, if_neg hw]

lemma entryAt_staleEntries (hf : f ∈ s.pmm.freePages) (hi : i < 512) :
    entryAt (staleEntries s) f i = newTableEntry f := by
  have hpage : (f * 512 + i) / 512 = f := by omega
  rw [entryAt, staleEntries, hpage, if_pos hf]

lemma tableAt_self (h : nextFrame (entryAt m g i) = some g) (n : Nat) :
    tableAt m g (List.replicate n i) = some g := by
  induction n with
  | zero => rfl
  | succ n ih =>
    rw [List.replicate_succ, tableAt_cons, h]
    exact ih

section

variable
  {root : Nat}

section

variable (h : VmInv S s a fl held as root)
include h

lemma VmInv.clonePages_setFree (hm : AgreesOffFree s m) :
    ClonePages a m root ↔ ClonePages a s.mem root := by
  have hbelow := below_root s.mem root
  have hsame : ∀ t ∈ upperTables s.mem root, ∀ i < 512, entryAt m t i = entryAt s.mem t i := by
    intro t ht i hi
    have hpage : (t * 512 + i) / 512 = t := by omega
    refine hm _ fun hfree => (h.free_not_used (hpage ▸ hfree)).1 (mem_userTables (Or.inl ht))
  have hcount : tableCount m 3 root = tableCount s.mem 3 root := by
    unfold tableCount
    exact congrArg List.sum
      (List.map_congr_left fun i hi => slotCount_congr hsame hbelow (List.mem_range.mp hi))
  unfold ClonePages
  rw [hcount]

/-- With holes that are clean in memory `m`, the child has the parent's
mappings. -/
lemma VmInv.clone_of_clean (hclean : HolesClean s as) {cr3 : Nat}
    (hclone : vmmCloneAddressSpace as cr3 s = some (as', s')) (hne : as' ≠ 0) (hv : virt < 2 ^ 47) :
    s'.translate as' virt = s.translate as virt := by
  obtain ⟨as1, s1, hcall, _, hcloned⟩ := clone_spec h cr3
  obtain ⟨rfl, rfl⟩ := Prod.mk.inj (Option.mem_unique hclone hcall)
  obtain ⟨root', lbl, _, hc, _⟩ := hcloned hne
  unfold Kmem.translate
  rw [hc.rootEq, h.root_eq]
  refine hc.walk_child h.small (fun p t hpne hlen hlow ht i hi habs g hg => ?_) (pathOf_mem hv)
  exact hclean p t ⟨hpne, hlen, hlow, by rw [h.root_eq]; exact ht⟩ i hi habs g (hc.free g hg).2.2

/-- If a copied table has an empty slot, some content of the free pages
gives the child a page that the parent does not have. -/
lemma VmInv.clone_of_hole (hcop : s.CopiedTable as p t) (hi : i < 512)
    (habs : present (entryAt s.mem t i) = false) (hpages : ClonePages a s.mem root) (cr3 : Nat) :
    ∃ as' s', vmmCloneAddressSpace as cr3 { s with mem := staleEntries s } = some (as', s') ∧
    as' ≠ 0 ∧ ∃ virt < 2 ^ 47, s'.translate as' virt ≠ s.translate as virt := by
  have hm := staleEntries_agrees s
  obtain ⟨h1, hwalk⟩ := h.setFree hm
  obtain ⟨as', s', hcall, hok, hcloned⟩ := clone_spec h1 cr3
  have hne : as' ≠ 0 := hok.mpr ((h.clonePages_setFree hm).mpr hpages)
  obtain ⟨root', lbl, _, hc, _⟩ := hcloned hne
  have htab := hcop.table
  rw [h.root_eq] at htab
  have hpath := userPath_of_lower hcop.slots
  have htm : tableAt (staleEntries s) root p = some t := by
    rw [hwalk p hpath (Nat.le_succ_of_le hcop.length)]
    exact htab
  have hslot : entryAt (staleEntries s) t i = entryAt s.mem t i := by
    have hpage : (t * 512 + i) / 512 = t := by omega
    refine hm _ fun hfree => (h.free_not_used (hpage ▸ hfree)).1 ⟨p, ⟨hpath, hcop.length⟩, htab⟩
  obtain ⟨g, hfree, hgS, hg, hkept⟩ := hc.hole h.small hcop.lower hcop.length hcop.slots htm hi
    (by rw [hslot]; exact habs)
  -- the copy of the table points to itself in the empty slot
  have hself : nextFrame (entryAt s'.mem g i) = some g := by
    rw [hkept]
    show nextFrame (entryAt (staleEntries s) g i) = some g
    rw [entryAt_staleEntries (s := s) hfree hi]
    exact nextFrame_newTable hgS
  have hlow := hcop.lower
  have hlen := hcop.length
  have hpage : p ++ List.replicate (4 - p.length) i ∈ pagePaths := by
    refine ⟨⟨fun j hj => ?_, fun j hj => ?_⟩, by simp; omega⟩
    · cases List.mem_append.mp hj with
      | inl hin => exact hpath.1 j hin
      | inr hin =>
        rw [(List.mem_replicate.mp hin).2]
        exact hi
    · cases p with
      | nil => exact absurd rfl hlow
      | cons k p => exact hpath.2 j hj
  obtain ⟨virt, hv, hvirt⟩ := exists_pathOf hpage
  refine ⟨as', s', hcall, hne, virt, hv, ?_⟩
  unfold Kmem.translate
  rw [hc.rootEq, h.root_eq, hvirt, show tableAt s'.mem root' _ = _ from walk_append root' p _,
    show walk _ _ _ p = some g from hg, show tableAt s.mem root _ = _ from walk_append root p _,
    show walk _ _ _ p = some t from htab, Option.bind_some, Option.bind_some]
  obtain ⟨n, hn⟩ : ∃ n, 4 - p.length = n + 1 := ⟨3 - p.length, by omega⟩
  rw [show walk _ _ g _ = some g from tableAt_self hself _, hn, List.replicate_succ,
    show walk _ _ t _ = none from by
      rw [show walk nextFrame (entryAt s.mem) t _ = tableAt s.mem t _ from rfl, tableAt_cons,
        nextFrame_eq_none.mpr habs]
      rfl]
  simp

end

end

/-! ## The machine with sixteen pages -/

def forkChild : Nat × AHeap := forkHeap.newSpace.get (by decide)

lemma newSpace_forkHeap : forkHeap.newSpace = some forkChild := (Option.some_get _).symm

def forkCloned : Pmm := ((allocTimes 3 forkChild.2.pmm).get (by decide)).2

lemma allocTimes_forkChild : allocTimes 3 forkChild.2.pmm = some (true, forkCloned) :=
  allocTimes_eq _ (by decide)

lemma FirstPage.clone {mem : WordMem} {root : Nat}
    (h : FirstPage forkStart mem forkSpace.1 virt phys flags forkHeap S s1 s fl held root g1 g2 g3)
    (hi : getPml4Idx virt < 256) (hj : getPdptIdx virt < 256) (hk : getPdIdx virt < 256) :
    ∃ as' s' root' lbl, vmmCloneAddressSpace forkSpace.1 0 s = some (as', s') ∧ as' ≠ 0 ∧
    Cloned S s held root as' s' root' lbl ∧ s'.pmm = forkCloned ∧ ∀ g, lbl g ≠ none → g ≠ root' →
    g ∈ forkChild.2.pmm.freePages := by
  obtain ⟨as', s', hcall, hok, hcloned⟩ := clone_spec h.inv 0
  have hcount := h.page.tableCount h.small.1 h.small.2.1 h.small.2.2 hi hj hk
  have hne : as' ≠ 0 := by
    rw [hok, ClonePages, hcount]
    exact ⟨forkChild.1, forkChild.2, _, newSpace_forkHeap, by decide, allocTimes_forkChild⟩
  obtain ⟨root', lbl, a1, hc, hspace, hpmm, htaken⟩ := hcloned hne
  obtain rfl : forkChild.2 = a1 :=
    congrArg Prod.snd (Option.mem_unique newSpace_forkHeap hspace)
  rw [hcount, allocTimes_forkChild] at hpmm
  exact ⟨as', s', root', lbl, hcall, hne, hc, (Prod.mk.inj (Option.some.inj hpmm)).2.symm, htaken⟩

lemma FirstPage.holesClean {root : Nat} {pmm : Pmm}
    (h : FirstPage pmm (fun _ => 0) as virt phys flags a S s1 s fl held root g1 g2 g3) :
    HolesClean s as := by
  intro _ _ _ i hi _ f hf
  rw [h.free f hf i hi, entryAt]
  decide

/-- Memory in which every page holds entries that point to the page
itself. -/
def staleMem : WordMem := fun w => newTableEntry (w / 512)

/-! ## Fork -/

/-- After a clone the child has the parent's mappings as long as the holes
of the copied tables are clean. With every content of the free pages it
has them exactly when there are no holes. -/
theorem vmm_clone_exact {entries : List MemmapEntry} {hhdm : Nat} {ram : Nat → PageFrame}
    {pmm : Pmm} {mem : WordMem} {as cr3 as' : Nat} {s s' : Kmem} (hm : MachineOk entries hhdm ram)
    (hinit : pmmInit entries hhdm ram = some pmm) (hb : Built pmm mem as s)
    (hclone : vmmCloneAddressSpace as cr3 s = some (as', s')) (hne : as' ≠ 0) :
    (HolesClean s as → ∀ virt < 2 ^ 47, s'.translate as' virt = s.translate as virt) ∧
      ((∀ m, AgreesOffFree s m → ∀ as2 s2,
          vmmCloneAddressSpace as cr3 { s with mem := m } = some (as2, s2) → as2 ≠ 0 →
          ∀ virt < 2 ^ 47, s2.translate as2 virt = s.translate as virt) ↔
        NoHoles s as) := by
  obtain ⟨a, fl, held, root, h, _⟩ := hb.inv hm hinit
  constructor
  · intro hclean virt hv
    exact h.clone_of_clean hclean hclone hne hv
  · constructor
    · intro hall p t hcop i hi
      by_contra hnot
      have habs := Bool.eq_false_of_not_eq_true hnot
      obtain ⟨as1, s1, hcall, hok, _⟩ := clone_spec h cr3
      obtain ⟨rfl, _⟩ := Prod.mk.inj (Option.mem_unique hclone hcall)
      obtain ⟨as2, s2, hcall2, hne2, virt, hv, hdiff⟩ :=
        h.clone_of_hole hcop hi habs (hok.mp hne) cr3
      exact hdiff (hall _ (staleEntries_agrees s) as2 s2 hcall2 hne2 virt hv)
    · intro hno m hm as2 s2 hcall hne2 virt hv
      obtain ⟨h2, hwalk⟩ := h.setFree hm
      have hroot : s.root as = root := h.root_eq
      have hroot2 : Kmem.root { s with mem := m } as = root := h2.root_eq
      rw [h2.clone_of_clean _ hcall hne2 hv]
      · unfold Kmem.translate
        rw [hroot, hroot2]
        exact hwalk _ (userPath_pathOf hv) (Nat.le_refl 4)
      · -- no table has a hole
        intro p t hcop i hi habs
        have hpath := userPath_of_lower hcop.slots
        have ht : tableAt s.mem root p = some t := by
          rw [← hwalk p hpath (Nat.le_succ_of_le hcop.length), ← hroot2]
          exact hcop.table
        have hslot : entryAt m t i = entryAt s.mem t i := by
          have hpage : (t * 512 + i) / 512 = t := by omega
          exact hm _ fun hfree =>
            (h.free_not_used (hpage ▸ hfree)).1 ⟨p, ⟨hpath, hcop.length⟩, ht⟩
        have hpres := hno p t ⟨hcop.lower, hcop.length, hcop.slots, by rw [hroot]; exact ht⟩ i hi
        rw [show entryAt (Kmem.mem { s with mem := m }) t i = entryAt m t i from rfl, hslot,
          hpres] at habs
        cases habs

theorem vmm_clone_exact_forkMap : ∃ s as' s', Built forkStart (fun _ => 0) forkSpace.1 s ∧
    vmmCloneAddressSpace forkSpace.1 0 s = some (as', s') ∧ as' ≠ 0 ∧
    s.translate forkSpace.1 0 = some 1 ∧ HolesClean s forkSpace.1 ∧
    ∀ virt < 2 ^ 47, s'.translate as' virt = s.translate forkSpace.1 virt := by
  obtain ⟨s1, s, fl, held, root, g1, g2, g3, h⟩ :=
    firstPage_forkMap (fun _ => 0) 0 0x1000 6 (by decide)
  obtain ⟨as', s', _, _, hcall, hne, _⟩ := h.clone (by decide) (by decide) (by decide)
  have hb := h.built forkSpace_ne_zero (by decide)
  refine ⟨s, as', s', hb, hcall, hne, ?_, h.holesClean,
    (vmm_clone_exact forkMap_ok pmmInit_forkMap hb hcall hne).1 h.holesClean⟩
  rw [Kmem.translate, h.inv.root_eq, h.walk (pathOf_mem (by decide)), if_pos rfl]
  decide

/-- A parent with one page, at address 0, whose child has a second page. -/
theorem vmm_clone_not_exact : ∃ s1 s as' s',
    vmmCreateAddressSpace 0 ⟨forkStart, staleMem, fun _ _ => 0⟩ = some (forkSpace.1, s1) ∧
    vmmMapPage forkSpace.1 0 0x1000 6 s1 = some (true, s) ∧
    vmmCloneAddressSpace forkSpace.1 0 s = some (as', s') ∧ as' ≠ 0 ∧
    s.translate forkSpace.1 0x1000 = none ∧ (s'.translate as' 0x1000).isSome := by
  obtain ⟨s1, s, fl, held, root, g1, g2, g3, h⟩ :=
    firstPage_forkMap staleMem 0 0x1000 6 (by decide)
  obtain ⟨as', s', root', lbl, hcall, hne, hc, _⟩ := h.clone (by decide) (by decide) (by decide)
  refine ⟨s1, s, as', s', h.create, h.map, hcall, hne, ?_, ?_⟩
  · rw [Kmem.translate, h.inv.root_eq, h.walk (pathOf_mem (by decide)), if_neg (by decide)]
  · have habs : present (entryAt s.mem g3 1) = false := by
      rw [h.page.pt 1 (by decide), if_neg (by decide)]
      rfl
    obtain ⟨g, hfree, hgS, hg, hkept⟩ := hc.hole h.inv.small (by decide) (by decide) (by decide)
      (h.last (by decide)) (by decide) habs
    have hstale : entryAt staleMem g 1 = newTableEntry g := by
      rw [entryAt, staleMem, show (g * 512 + 1) / 512 = g by omega]
    rw [Kmem.translate, hc.rootEq, show pathOf 0x1000 = upperIdx 0 ++ [1] by decide, tableAt_concat,
      hg, Option.bind_some, hkept, h.free g hfree 1 (by decide), hstale,
      show nextFrame (newTableEntry g) = some g from nextFrame_newTable hgS]
    rfl

end VortexOS.Mm
