/-
VortexOS.Mm.VmmFirst — an address space with one page.

The first `vmm_map_page` on a new address space makes the three tables on
the way to the page and writes one entry to each of the four
(`mapPage_first`). Everything else keeps its content, free pages too
(`built_first`). So the tables of such an address space are known slot by
slot, whatever memory held when the machine started.
-/
import VortexOS.Mm.VmmClone
import VortexOS.Mm.VmmRuns

namespace VortexOS.Mm

open Function Lib

variable {S : Set Nat} {s : Kmem} {a : AHeap} {fl : Nat → List Nat} {held : Set Block}
  {as root t i u n virt g1 g2 g3 : Nat} {pmm p : Pmm} {m : WordMem}

/-- The tables at `root`, `g1`, `g2` and `g3` lead to one page, through the
slots of `virt`, with the entry `e`. -/
structure OnePage (m : WordMem) (root g1 g2 g3 virt : Nat) (e : BitVec 64) : Prop where
  pml4 : ∀ i < 256, entryAt m root i = if i = getPml4Idx virt then newTableEntry g1 else 0
  pdpt : ∀ i < 512, entryAt m g1 i = if i = getPdptIdx virt then newTableEntry g2 else 0
  pd : ∀ i < 512, entryAt m g2 i = if i = getPdIdx virt then newTableEntry g3 else 0
  pt : ∀ i < 512, entryAt m g3 i = if i = getPtIdx virt then e else 0

lemma VmInv.newLevel (h : VmInv S s a fl held as root) {q : List Nat} (hqi : q ++ [i] ∈ tablePaths)
    (ht : tableAt s.mem root q = some t) (habs : entryAt s.mem t i = 0) {x : Nat}
    (halloc : pmmAllocPage a.pmm = some (x, pmm)) (hx : x ≠ 0) :
    ∃ g s' fl', getOrCreateNextLevel (pagePtr a.hhdm t) i s = some (pagePtr a.hhdm g, s') ∧ s'.mem =
      linkTable s.mem t i g ∧ VmInv S s' { a with pmm := pmm } fl' (insert ⟨0, g⟩ held) as root ∧
    tableAt s'.mem root (q ++ [i]) = some g ∧ pagePtr a.hhdm g ≠ 0 ∧ Pmm.Keeps a.pmm pmm ∧
    (⟨0, g⟩ : Block) ∉ held := by
  have hq : q ∈ tablePaths := (tablePaths_within hqi q i [] rfl).1
  have hi : i < 512 := (tablePaths_within hqi q i [] rfl).2
  have hnone : nextFrame (entryAt s.mem t i) = none := by
    rw [habs]
    rfl
  obtain ⟨htheld, htslab, _⟩ := h.table hq ht
  rw [← h.rep.pmm] at halloc
  have hnext : ∀ u, nextFrame (entryAt s.mem t i) = some u → PageOk a.hhdm u := by simp [hnone]
  cases getOrCreateNextLevel_spec h.toKernelInv (h.pageOk (h.mem_pages htheld)) (h.not_free htheld)
      htslab hi hnext with
  | inl hfound =>
    obtain ⟨u, hu, _⟩ := hfound
    rw [hnone] at hu
    cases hu
  | inr hrest =>
    cases hrest with
    | inl hnull =>
      have hpmm := pmmAllocPage_of_allocPage hnull.2.1
      rw [halloc] at hpmm
      exact absurd (Prod.mk.inj (Option.some.inj hpmm)).1 hx
    | inr hnew =>
      obtain ⟨g, pmm', fl', _, hgot, hcall, hk, hkeeps, hfresh⟩ := hnew
      have hpmm := pmmAllocPage_of_allocPage hgot
      rw [halloc] at hpmm
      obtain rfl : pmm = pmm' := (Prod.mk.inj (Option.some.inj hpmm)).2
      have hg : g ∈ S := hk.mem_pages (Or.inl rfl)
      have hslot := h.emptySlot hqi ht hnone hg hfresh
      exact ⟨g, _, fl', hcall, rfl, h.link hslot hk hkeeps hfresh, hslot.tableAt_new,
        (h.pageOk hg).ptr_ne_zero, hkeeps, hfresh⟩

lemma entryAt_linkTable {g j : Nat} (hi : i < 512) (hj : j < 512) (hug : u ≠ g) :
    entryAt (linkTable m t i g) u j = if u = t ∧ j = i then newTableEntry g else entryAt m u j := by
  split
  · rename_i heq
    rw [heq.1, heq.2]
    exact entryAt_linkTable_slot hi (heq.1 ▸ hug)
  · exact entryAt_linkTable_of_ne hi hj hug ‹_›

lemma allocTimes_succ {p' : Pmm} (h : allocTimes (n + 1) p = some (true, p')) :
    ∃ x q, pmmAllocPage p = some (x, q) ∧ x ≠ 0 ∧ allocTimes n q = some (true, p') := by
  unfold allocTimes at h
  cases hx : pmmAllocPage p with
  | none => simp [hx] at h
  | some r =>
    obtain ⟨x, q⟩ := r
    by_cases h0 : x = 0
    · simp [hx, h0] at h
    · simp only [hx, if_neg h0] at h
      exact ⟨x, q, rfl, h0, h⟩

lemma VmInv.mapPage_first (h : VmInv S s a fl held as root)
    (hempty : ∀ i < 256, entryAt s.mem root i = 0) (hv : virt < 2 ^ 47)
    (halloc : allocTimes 3 a.pmm = some (true, pmm)) (phys : Nat) (flags : BitVec 32) :
    ∃ s' fl' held' g1 g2 g3, vmmMapPage as virt phys flags s = some (true, s') ∧
    VmInv S s' { a with pmm := pmm } fl' held' as root ∧
    OnePage s'.mem root g1 g2 g3 virt (leafEntry phys flags) ∧
    held' = insert ⟨0, g3⟩ (insert ⟨0, g2⟩ (insert ⟨0, g1⟩ held)) ∧ ∀ w, w / 512 ≠ root →
    w / 512 ≠ g1 → w / 512 ≠ g2 → w / 512 ≠ g3 → s'.mem w = s.mem w := by
  obtain ⟨x1, p1, hx1, hne1, halloc⟩ := allocTimes_succ halloc
  obtain ⟨x2, p2, hx2, hne2, halloc⟩ := allocTimes_succ halloc
  obtain ⟨x3, p3, hx3, hne3, halloc⟩ := allocTimes_succ halloc
  obtain ⟨_, rfl⟩ := Prod.mk.inj (Option.some.inj halloc)
  have hup := upperIdx_mem hv
  have hj : getPdptIdx virt < 512 := and_511_lt _
  have hk : getPdIdx virt < 512 := and_511_lt _
  have hl : getPtIdx virt < 512 := and_511_lt _
  have hi : getPml4Idx virt < 256 := (userPath_pathOf hv).2 _ rfl
  have hpath2 : [getPml4Idx virt] ++ [getPdptIdx virt] ∈ tablePaths :=
    ⟨hup.1.of_append (q := [getPdIdx virt]), by simp⟩
  have hpath1 : [] ++ [getPml4Idx virt] ∈ tablePaths :=
    ⟨hpath2.1.of_append (p := [getPml4Idx virt]), by simp⟩
  -- the three tables
  obtain ⟨g1, s1, fl1, hc1, hm1, h1, ht1, hp1, hk1, hf1⟩ :=
    h.newLevel hpath1 rfl (hempty _ hi) hx1 hne1
  obtain ⟨g2, s2, fl2, hc2, hm2, h2, ht2, hp2, hk2, hf2⟩ := h1.newLevel (i := getPdptIdx virt)
    hpath2 ht1 (by rw [hm1, entryAt_linkTable_new hj]) hx2 hne2
  obtain ⟨g3, s3, fl3, hc3, hm3, h3, ht3, hp3, hk3, hf3⟩ := h2.newLevel (i := getPdIdx virt)
    hup ht2 (by rw [hm2, entryAt_linkTable_new hk]) hx3 hne3
  have hh1 : AHeap.hhdm { a with pmm := p1 } = a.hhdm := hk1.hhdm
  have hh2 : AHeap.hhdm { a with pmm := p2 } = a.hhdm := hk2.hhdm.trans hk1.hhdm
  rw [hh1] at hc2 hp2
  rw [hh2] at hc3 hp3
  have hdesc : descend (upperIdx virt) (s.pml4 as) s = some (pagePtr a.hhdm g3, s3) := by
    rw [h.pml4]
    simp only [upperIdx, descend, hc1, if_neg hp1, hc2, if_neg hp2, hc3, if_neg hp3]
  -- the page
  have hh3 : AHeap.hhdm { a with pmm := p3 } = a.hhdm := hk3.hhdm.trans hh2
  have hok := h3.pageOk (h3.table hup ht3).2.2
  obtain ⟨h4, _⟩ := h3.setLeaf hup rfl ht3 hl (leafEntry phys flags)
  have hroot : (⟨0, root⟩ : Block) ∈ held := (h.table tablePaths_nil (p := []) rfl).1
  have hne01 : root ≠ g1 := KernelInv.fresh_ne hf1 hroot
  have hne02 : root ≠ g2 := KernelInv.fresh_ne hf2 (Or.inr hroot)
  have hne03 : root ≠ g3 := KernelInv.fresh_ne hf3 (Or.inr (Or.inr hroot))
  have hne12 : g1 ≠ g2 := KernelInv.fresh_ne hf2 (Or.inl rfl)
  have hne13 : g1 ≠ g3 := KernelInv.fresh_ne hf3 (Or.inr (Or.inl rfl))
  have hne23 : g2 ≠ g3 := KernelInv.fresh_ne hf3 (Or.inl rfl)
  have hpage : ∀ {u i : Nat}, i < 512 → u ≠ g3 → entryAt (update s3.mem
      (g3 * 512 + getPtIdx virt) (leafEntry phys flags)) u i =
        if u = g2 ∧ i = getPdIdx virt then newTableEntry g3 else entryAt s2.mem u i := by
    intro u i hi' hu
    rw [entryAt_update_of_ne _ hl hi' fun heq => hu heq.1, hm3, entryAt_linkTable hk hi' hu]
  refine ⟨_, fl3, _, g1, g2, g3, ?_, h4, ⟨fun i hi' => ?_, fun i hi' => ?_, fun i hi' => ?_,
    fun i hi' => ?_⟩, rfl, fun w hw0 hw1 hw2 hw3 => ?_⟩
  · unfold vmmMapPage mapPage
    rw [hdesc]
    simp only [Option.map_some, if_neg hp3]
    rw [← hh3, Kmem.setEntry_page h3.hhdm hok hl]
    rfl
  · have hi'' : i < 512 := by omega
    rw [hpage hi'' hne03, if_neg fun heq => hne02 heq.1, hm2, entryAt_linkTable hj hi'' hne02,
      if_neg fun heq => hne01 heq.1, hm1, entryAt_linkTable (by omega) hi'' hne01]
    simp [hempty i hi']
  · rw [hpage hi' hne13, if_neg fun heq => hne12 heq.1, hm2, entryAt_linkTable hj hi' hne12, hm1,
      entryAt_linkTable_new hi']
    simp
  · rw [hpage hi' hne23, hm2, entryAt_linkTable_new hi']
    simp
  · rw [hm3]
    by_cases hlast : i = getPtIdx virt
    · rw [if_pos hlast, hlast, entryAt_update_self]
    · rw [if_neg hlast,
        entryAt_update_of_ne _ hl hi' fun heq => hlast heq.2, entryAt_linkTable_new hi']
  · show update s3.mem _ _ w = s.mem w
    rw [update_of_ne (by omega), hm3, linkTable, if_neg hw3, if_neg (by omega), hm2,
      linkTable, if_neg hw2, if_neg (by omega), hm1, linkTable, if_neg hw1, if_neg (by omega)]

/-! ## The tables of one page -/

section

variable {e : BitVec 64}

lemma tableCount_single (hi : i < 256) (hu : nextFrame (entryAt m t i) = some u)
    (hzero : ∀ j < 256, j ≠ i → entryAt m t j = 0) :
    tableCount m (n + 1) t = 1 + tableCount m n u := by
  obtain ⟨hp, hframe⟩ := nextFrame_eq_some.mp hu
  have hslot : ∀ j, slotCount m (n + 1) t j = if j = i then 1 + tableCount m n u else 0 := by
    intro j
    unfold slotCount
    by_cases hj : j = i
    · rw [if_pos ⟨hj ▸ hp, hj ▸ hi⟩, if_pos hj, hj, hframe]
      rfl
    · rw [if_neg hj, if_neg]
      intro hcond
      rw [hzero j hcond.2 hj] at hcond
      exact absurd hcond.1 (by decide)
  have hmem : i ∈ (List.range 512).toFinset := by simp; omega
  unfold tableCount
  rw [← List.sum_toFinset _ List.nodup_range, Finset.sum_eq_single_of_mem i hmem]
  · rw [hslot i, if_pos rfl]
    rfl
  · intro j _ hj
    rw [hslot j, if_neg hj]

lemma tableCount_zero (t : Nat) : tableCount m 0 t = 0 := by
  unfold tableCount
  refine List.sum_eq_zero fun x hx => ?_
  obtain ⟨i, _, rfl⟩ := List.mem_map.mp hx
  rfl

lemma OnePage.tableCount (h : OnePage m root g1 g2 g3 virt e) (h1 : g1 < 2 ^ 40) (h2 : g2 < 2 ^ 40)
    (h3 : g3 < 2 ^ 40) (hi : getPml4Idx virt < 256) (hj : getPdptIdx virt < 256)
    (hk : getPdIdx virt < 256) : tableCount m 3 root = 3 := by
  rw [tableCount_single (u := g1) hi, tableCount_single (u := g2) hj,
    tableCount_single (u := g3) hk, tableCount_zero]
  · rw [h.pd _ (by omega), if_pos rfl]
    exact nextFrame_newTable h3
  · intro j hj' hne
    rw [h.pd j (by omega), if_neg hne]
  · rw [h.pdpt _ (by omega), if_pos rfl]
    exact nextFrame_newTable h2
  · intro j hj' hne
    rw [h.pdpt j (by omega), if_neg hne]
  · rw [h.pml4 _ hi, if_pos rfl]
    exact nextFrame_newTable h1
  · intro j hj' hne
    rw [h.pml4 j hj', if_neg hne]

lemma OnePage.walk (h : OnePage m root g1 g2 g3 virt e) (h1 : g1 < 2 ^ 40) (h2 : g2 < 2 ^ 40)
    (h3 : g3 < 2 ^ 40) {p : List Nat} (hp : p ∈ pagePaths) :
    tableAt m root p = if p = pathOf virt then nextFrame e else none := by
  have hstep : ∀ {g : Nat} (c : Prop) [Decidable c], g < 2 ^ 40 →
      nextFrame (if c then newTableEntry g else 0) = if c then some g else none := by
    intro g c _ hg
    split
    · exact nextFrame_newTable hg
    · rfl
  obtain ⟨⟨hlt, hhead⟩, hlen⟩ := hp
  match p, hlen with
  | [i, j, k, l], _ =>
    have hi : i < 256 := hhead i rfl
    have hj : j < 512 := hlt j (by simp)
    have hk : k < 512 := hlt k (by simp)
    have hl : l < 512 := hlt l (by simp)
    simp only [pathOf, upperIdx, List.cons_append, List.nil_append, List.cons.injEq, and_true]
    rw [tableAt_cons, h.pml4 i hi, hstep _ h1]
    by_cases hci : i = getPml4Idx virt
    · rw [if_pos hci, Option.bind_some, tableAt_cons, h.pdpt j hj, hstep _ h2]
      by_cases hcj : j = getPdptIdx virt
      · rw [if_pos hcj, Option.bind_some, tableAt_cons, h.pd k hk, hstep _ h3]
        by_cases hck : k = getPdIdx virt
        · rw [if_pos hck, Option.bind_some, tableAt_cons, h.pt l hl]
          by_cases hcl : l = getPtIdx virt
          · simp [hci, hcj, hck, hcl]
          · simp [hcl]
            rfl
        · simp [hck]
      · simp [hcj]
    · simp [hci]

end

/-! ## From the start -/

/-- An address space with one page, made right after the allocators were
started. Free pages hold what they held at the start. -/
structure FirstPage (pmm : Pmm) (mem : WordMem) (as virt phys : Nat) (flags : BitVec 32) (a : AHeap)
    (S : Set Nat) (s1 s : Kmem) (fl : Nat → List Nat) (held : Set Block) (root g1 g2 g3 : Nat) :
    Prop where
  create : vmmCreateAddressSpace 0 ⟨pmm, mem, fun _ _ => 0⟩ = some (as, s1)
  map : vmmMapPage as virt phys flags s1 = some (true, s)
  inv : VmInv S s a fl held as root
  page : OnePage s.mem root g1 g2 g3 virt (leafEntry phys flags)
  small : g1 < 2 ^ 40 ∧ g2 < 2 ^ 40 ∧ g3 < 2 ^ 40
  free : ∀ f ∈ s.pmm.freePages, ∀ i < 512, entryAt s.mem f i = entryAt mem f i

lemma exists_firstPage {entries : List MemmapEntry} {hhdm : Nat} {ram : Nat → PageFrame}
    {pmm' : Pmm} (hm : MachineOk entries hhdm ram) (hinit : pmmInit entries hhdm ram = some pmm)
    (hspace : (AHeap.start pmm).newSpace = some (as, a)) (hne : as ≠ 0)
    (halloc : allocTimes 3 a.pmm = some (true, pmm')) (mem : WordMem) (hv : virt < 2 ^ 47)
    (phys : Nat) (flags : BitVec 32) : ∃ s1 s fl held root g1 g2 g3, FirstPage pmm mem as virt phys
      flags { a with pmm := pmm' } pmm.freePages s1 s fl held root g1 g2 g3 := by
  obtain ⟨href, hpages⟩ := hm.start hinit mem
  obtain ⟨fl0, hsys⟩ := href.inv
  have hk : KernelInv _ (HeapSys.start pmm mem).kmem _ fl0 _ :=
    ⟨hsys.rep, hsys.inv, fun f hf => (hpages f hf).1⟩
  obtain ⟨as1, s1, a1, hcreate, hspace1, hres⟩ := createAddressSpace_spec hk 0
  obtain ⟨rfl, rfl⟩ := Prod.mk.inj (Option.mem_unique hspace hspace1)
  obtain ⟨root, fl1, held1, hnew⟩ := hres.resolve_left hne
  obtain ⟨s, fl, held, g1, g2, g3, hmap, h, hone, hheld, hkeep⟩ :=
    hnew.inv.mapPage_first hnew.empty hv halloc phys flags
  have hsmall : ∀ g, (⟨0, g⟩ : Block) ∈ held → g < 2 ^ 40 := fun g hg =>
    h.small g (h.toKernelInv.mem_pages hg)
  have hroot : (⟨0, root⟩ : Block) ∈ held := (h.table tablePaths_nil (p := []) rfl).1
  have hg1 : (⟨0, g1⟩ : Block) ∈ held := by simp [hheld]
  have hg2 : (⟨0, g2⟩ : Block) ∈ held := by simp [hheld]
  have hg3 : (⟨0, g3⟩ : Block) ∈ held := by simp [hheld]
  refine ⟨s1, s, fl, held, root, g1, g2, g3, hcreate, hmap, h, hone,
    ⟨hsmall g1 hg1, hsmall g2 hg2, hsmall g3 hg3⟩, fun f hf i hi => ?_⟩
  have hslab := (h.free_not_used hf).2
  rw [h.rep.pmm, h.inv.pmmInv.mem_freePages] at hf
  have hnot : ∀ g, (⟨0, g⟩ : Block) ∈ held → f ≠ g := by
    intro g hg heq
    exact hf.2 _ hg (heq ▸ Block.base_mem_cells ⟨0, g⟩)
  have hpage : (f * 512 + i) / 512 = f := by omega
  unfold entryAt
  rw [hkeep _ (by rw [hpage]; exact hnot root hroot) (by rw [hpage]; exact hnot g1 hg1)
    (by rw [hpage]; exact hnot g2 hg2) (by rw [hpage]; exact hnot g3 hg3)]
  exact hnew.mem _ (by rw [hpage]; exact hslab) (by rw [hpage]; exact hnot root hroot)

section

variable {mem : WordMem} {phys : Nat} {flags : BitVec 32}
  {s1 : Kmem}

section

variable (h : FirstPage pmm mem as virt phys flags a S s1 s fl held root g1 g2 g3)
include h

lemma FirstPage.built (hne : as ≠ 0) (hv : virt < 2 ^ 47) : Built pmm mem as s := by
  refine ⟨[], _, 0, s1, [.map virt phys flags], trivial, rfl, h.create, hne, ⟨hv, ?_⟩, ?_⟩
  · intro s' _
    trivial
  · simp [run, vmStep, h.map]

lemma FirstPage.walk {p : List Nat} (hp : p ∈ pagePaths) :
    tableAt s.mem root p = if p = pathOf virt then nextFrame (leafEntry phys flags) else none :=
  h.page.walk h.small.1 h.small.2.1 h.small.2.2 hp

lemma FirstPage.last (hv : virt < 2 ^ 47) : tableAt s.mem root (upperIdx virt) = some g3 := by
  have hi : getPml4Idx virt < 256 := (userPath_pathOf hv).2 _ rfl
  have hj : getPdptIdx virt < 512 := and_511_lt _
  have hk : getPdIdx virt < 512 := and_511_lt _
  obtain ⟨h1, h2, h3⟩ := h.small
  simp only [upperIdx, tableAt_cons]
  rw [h.page.pml4 _ hi, if_pos rfl,
    show nextFrame (newTableEntry g1) = _ from nextFrame_newTable h1, Option.bind_some,
    h.page.pdpt _ hj, if_pos rfl, show nextFrame (newTableEntry g2) = _ from nextFrame_newTable h2,
    Option.bind_some, h.page.pd _ hk, if_pos rfl,
      show nextFrame (newTableEntry g3) = _ from nextFrame_newTable h3]
  rfl

end

end

/-! ## A machine with sixteen pages -/

def forkMap : List MemmapEntry := [⟨16 * pageSize, 17 * pageSize, .usable⟩]

lemma forkMap_ok : MachineOk forkMap 0 fun _ => blankFrame :=
  .single (.single (by decide)) (by decide)

def forkStart : Pmm := (pmmInit forkMap 0 fun _ => blankFrame).get (by decide)

lemma pmmInit_forkMap : pmmInit forkMap 0 (fun _ => blankFrame) = some forkStart :=
  (Option.some_get _).symm

/-- The first address space there, and the heap after it was made. -/
def forkSpace : Nat × AHeap := (AHeap.start forkStart).newSpace.get (by decide)

lemma newSpace_forkStart : (AHeap.start forkStart).newSpace = some forkSpace :=
  (Option.some_get _).symm

def forkTables : Pmm := ((allocTimes 3 forkSpace.2.pmm).get (by decide)).2

lemma allocTimes_eq (h : (allocTimes n p).isSome) (hok : ((allocTimes n p).get h).1 = true) :
    allocTimes n p = some (true, ((allocTimes n p).get h).2) := by
  rw [← hok]
  exact (Option.some_get h).symm

lemma allocTimes_forkSpace : allocTimes 3 forkSpace.2.pmm = some (true, forkTables) :=
  allocTimes_eq _ (by decide)

lemma forkSpace_ne_zero : forkSpace.1 ≠ 0 := by decide

def forkHeap : AHeap := { forkSpace.2 with pmm := forkTables }

lemma firstPage_forkMap (mem : WordMem) (virt phys : Nat) (flags : BitVec 32) (hv : virt < 2 ^ 47) :
    ∃ s1 s fl held root g1 g2 g3, FirstPage forkStart mem forkSpace.1 virt phys flags forkHeap
      forkStart.freePages s1 s fl held root g1 g2 g3 :=
  exists_firstPage forkMap_ok pmmInit_forkMap newSpace_forkStart forkSpace_ne_zero
    allocTimes_forkSpace mem hv phys flags

end VortexOS.Mm
