/-
VortexOS.Mm.CowFault — what one copy-on-write fault does to all memory.

`page_fault_handler` stores to the new page and to one slot of one table,
whatever the tables are (`CowStores`). If the last table on the way to the
faulting page has no second path, exactly the faulting page has moved, and
if it has one, another page has moved too (`cow_fault_iff`).

In an address space that was built call by call no table has a second path
(`VmInv.onePath`). A clone keeps old words in its new tables, and these may
lead to a table again (`cow_fault_shared`).
-/
import VortexOS.Mm.KernelHalf
import VortexOS.Mm.VmmIsolation
import VortexOS.Mm.VmmRefine

namespace VortexOS.Mm

open Function Lib

variable {s s' s1 : Kmem} {root virt errorCode t f g i r g1 g2 g3 u : Nat} {pmm : Pmm}
  {m mem : WordMem} {q : List Nat} {S : Set Nat} {fl : Nat → List Nat} {held : Set Block}

/-! ## The fault -/

/-- User mode has written to `virt`, in a page that the tables at `root` map
to `f` through the last table `t`. -/
structure WriteFault (s : Kmem) (root virt errorCode t f : Nat) : Prop where
  /-- The fault is a protection fault, of a write, in user mode. -/
  code : (errorCode.testBit 0 && errorCode.testBit 1 && errorCode.testBit 2) = true
  user : virt < 2 ^ 47
  /-- The tables on the way are in the direct map. -/
  direct : ∀ p, p <+: upperIdx virt → ∀ u, tableAt s.mem root p = some u → PageOk s.hhdm u
  last : tableAt s.mem root (upperIdx virt) = some t
  mapped : nextFrame (entryAt s.mem t (getPtIdx virt)) = some f

/-- The page is mapped without WRITE; the next page of the allocator is `g`,
and these tables do not use it. -/
structure CowFault (s : Kmem) (root virt errorCode t f g : Nat) : Prop
    extends WriteFault s root virt errorCode t f where
  readOnly : isWrite (entryAt s.mem t (getPtIdx virt)) = false
  /-- The page allocator is in order, and its pages are in the direct map. -/
  pmm : ∃ S fl held, PmmInv S s.pmm fl held ∧ ∀ x ∈ S, PageOk s.hhdm x ∧ x < 2 ^ 40
  alloc : ∃ pmm, pmmAllocPage s.pmm = some (pfnToPhys g, pmm)
  frame : g ≠ 0
  unused : g ≠ f ∧ g ∉ userTables s.mem root

/-- The faulting page has become a private copy in `g`, and nothing else
has changed. -/
structure CowDone (s : Kmem) (root virt t f g : Nat) (s' : Kmem) : Prop where
  /-- In this address space the page maps to `g`, writable for user mode,
  and every other page maps as before. -/
  map : pageMapAt s'.mem root = update (pageMapAt s.mem root) (virt / pageSize)
    (some (g, pagePresent ||| pageWrite ||| pageUser))
  copied : ∀ i < 512, entryAt s'.mem g i = entryAt s.mem f i
  old : ∀ i < 512, entryAt s'.mem f i = entryAt s.mem f i
  frames : ∀ x, x ≠ g → x ∉ userTables s.mem root →
    ∀ i < 512, entryAt s'.mem x i = entryAt s.mem x i
  /-- So does every page of an address space with other tables, -/
  others : ∀ r, Disjoint (userTables s.mem r) (userTables s.mem root) → g ∉ userTables s.mem r →
    pageMapAt s'.mem r = pageMapAt s.mem r
  /-- and every page of a kernel half that these two tables are not in. -/
  kernel : ∀ r, (∀ p ∈ kernelPaths, tableAt s.mem r p ≠ some t ∧ tableAt s.mem r p ≠ some g) →
    KernelSame s.mem s'.mem r

/-- The last table `t` on the way to `virt` is the last table of no other
pages. -/
def OnePath (m : WordMem) (root virt t : Nat) : Prop :=
  ∀ q ∈ tablePaths, q.length = 3 → tableAt m root q = some t → q = upperIdx virt

/-! ## The stores of the handler -/

namespace CowFault

section

variable (h : CowFault s root virt errorCode t f g)
include h

lemma last_mem : t ∈ userTables s.mem root :=
  ⟨_, upperIdx_mem h.user, h.last⟩

lemma page : ∃ pmm, pmmAllocPage s.pmm = some (pfnToPhys g, pmm) ∧ Pmm.Keeps s.pmm pmm ∧
    PageOk s.hhdm g ∧ g < 2 ^ 40 := by
  obtain ⟨S, fl, held, hpmm, hS⟩ := h.pmm
  obtain ⟨pmm, halloc⟩ := h.alloc
  obtain ⟨fl', hpmm', hkeeps, -⟩ := hpmm.allocPage_eq halloc h.frame
  obtain ⟨hok, hlt⟩ := hS g (hpmm'.mem_pages (b := ⟨0, g⟩) (Or.inl rfl))
  exact ⟨pmm, halloc, hkeeps, hok, hlt⟩

lemma lt : g < 2 ^ 40 := by
  obtain ⟨-, -, -, -, hlt⟩ := h.page
  exact hlt

lemma handler (hf0 : f ≠ 0) : ∃ s', pageFaultHandler errorCode virt (pfnToPhys root) s = some s' ∧
    CowStores s.mem s'.mem t (getPtIdx virt) f g := by
  obtain ⟨pmm, halloc, hkeeps, hok, -⟩ := h.page
  have hway : ∀ p, p <+: upperIdx virt → ∀ u, tableAt s.mem root p = some u →
      PageOk s.hhdm u ∧ u ≠ g := by
    intro p hp u hu
    refine ⟨h.direct p hp u hu, fun heq => h.unused.2 ?_⟩
    exact heq ▸ ⟨p, tablePaths_of_prefix hp (upperIdx_mem h.user), hu⟩
  exact pageFaultHandler_stores _ h.code hway h.last h.mapped hf0 halloc hkeeps hok.lt.1
    h.unused.1.symm

end

lemma panics (h : CowFault s root virt errorCode t 0 g) :
    pageFaultHandler errorCode virt (pfnToPhys root) s = none :=
  pageFaultHandler_zero h.code h.direct h.last h.mapped

end CowFault

/-! ## Translations -/

namespace CowStores

variable {m' : WordMem}

section

variable (h : CowStores m m' t i f g) (hold : nextFrame (entryAt m t i) = some f) (hlt : g < 2 ^ 40)
  (hq : ∀ j ∈ q, j < 512) (hg : ∀ p, p <+: q → tableAt m r p ≠ some g)
include h hold hlt hq hg

lemma table :
    tableAt m' r q = tableAt m r q ∨ tableAt m r q = some f ∧ tableAt m' r q = some g := by
  refine walk_moved hold ?_ (fun j hj => ?_) (fun u hu j hj hslot => ?_) hq (Or.inl rfl) hg
  · rw [h.slot]
    exact nextFrame_cowEntry hlt
  · rw [h.copy j hj]
  · rw [h.rest u hu j hj hslot]

lemma leaf {j : Nat} (hj : j < 512) (hslot : ¬ (tableAt m r q = some t ∧ j = i)) :
    leafAt m' r q j = leafAt m r q j := by
  unfold leafAt
  cases h.table hold hlt hq hg with
  | inl hsame =>
    rw [hsame]
    cases hu : tableAt m r q with
    | none => rfl
    | some u =>
      have hug : u ≠ g := fun heq => hg q List.prefix_rfl (heq ▸ hu)
      have hentry : entryAt m' u j = entryAt m u j := by
        refine h.rest u hug j hj fun heq => hslot ?_
        rw [hu, heq.1]
        exact ⟨rfl, heq.2⟩
      simp only [Option.bind_some, hentry]
  | inr hmoved =>
    -- a walk over a copy of the table
    rw [hmoved.1, hmoved.2]
    simp only [Option.bind_some, h.copy j hj]

lemma leaf_slot (ht : tableAt m r q = some t) (hne : f ≠ t) :
    leafAt m' r q i = some (cowEntry g) := by
  have hsame : tableAt m' r q = some t := by
    cases h.table hold hlt hq hg with
    | inl hsame => exact hsame.trans ht
    | inr hmoved => exact absurd (Option.mem_unique hmoved.1 ht) hne
  rw [leafAt, hsame]
  simp only [Option.bind_some, h.slot]
  exact if_pos (present_leafEntry _ _)

end

end CowStores

lemma decode_cowEntry (hg : g < 2 ^ 40) :
    frameOf (cowEntry g) = g ∧ flagsOf (cowEntry g) = pagePresent ||| pageWrite ||| pageUser := by
  obtain ⟨hframe, hflags⟩ :=
    decode_leafEntry hg
      (show ((pageWrite ||| pageUser).setWidth 32).setWidth 64 &&& addrMask = 0 by decide)
  exact ⟨hframe, hflags.trans (by decide)⟩

lemma not_on_way (h : g ∉ userTables m r) (hq : q ∈ tablePaths) :
    ∀ p, p <+: q → tableAt m r p ≠ some g := by
  intro p hp hg
  exact h ⟨p, tablePaths_of_prefix hp hq, hg⟩

section

variable (h : CowFault s root virt errorCode t f g)
include h

section

variable (hst : CowStores s.mem s'.mem t (getPtIdx virt) f g)
include hst

lemma CowFault.map_eq (hne : f ≠ t) (hone : OnePath s.mem root virt t) :
    pageMapAt s'.mem root = update (pageMapAt s.mem root) (virt / pageSize)
      (some (g, pagePresent ||| pageWrite ||| pageUser)) := by
  have hleaf : ∀ q i, q ++ [i] ∈ pagePaths → leafAt s'.mem root q i =
      if q = upperIdx virt ∧ i = getPtIdx virt then some (cowEntry g)
        else leafAt s.mem root q i := by
    intro q i hp
    obtain ⟨hq, hlen, hi⟩ := pagePaths_split hp
    have hway := not_on_way h.unused.2 hq
    split
    · rename_i heq
      obtain ⟨rfl, rfl⟩ := heq
      exact hst.leaf_slot h.mapped h.lt hq.1.1 hway h.last hne
    · rename_i hno
      refine hst.leaf h.mapped h.lt hq.1.1 hway hi fun heq => hno ?_
      exact ⟨hone q hq hlen heq.1, heq.2⟩
  rw [pageMapAt_update h.user hleaf]
  obtain ⟨hframe, hflags⟩ := decode_cowEntry h.lt
  simp only [Option.map_some, hframe, hflags]

lemma CowFault.onePath_of_map (hne : f ≠ t)
    (hmap : pageMapAt s'.mem root = update (pageMapAt s.mem root) (virt / pageSize) (some (g,
      pagePresent ||| pageWrite ||| pageUser))) : OnePath s.mem root virt t := by
  intro q hq hlen ht
  have hl : getPtIdx virt < 512 := and_511_lt _
  have hpath : q ++ [getPtIdx virt] ∈ pagePaths := by
    refine ⟨⟨fun j hj => ?_, fun j hj => ?_⟩, by simp [hlen]⟩
    · cases List.mem_append.mp hj with
      | inl hin => exact hq.1.1 j hin
      | inr hin => exact (List.mem_singleton.mp hin).symm ▸ hl
    · cases q with
      | nil => simp at hlen
      | cons k q => exact hq.1.2 j hj
  obtain ⟨v, hv, hvpath⟩ := exists_pathOf hpath
  obtain ⟨hup, hpt⟩ := List.append_inj' hvpath rfl
  have hidx : getPtIdx v = getPtIdx virt := (List.cons.inj hpt).1
  by_contra hno
  -- the page at the second path has moved as well
  have hpage : v / pageSize ≠ virt / pageSize := by
    intro heq
    obtain ⟨hup', -⟩ := (leaf_page h.user (page_lt hv)).mpr heq
    rw [pageAlignDown_eq, upperIdx_pageAlignDown] at hup'
    exact hno (hup.symm.trans hup')
  have hbefore : leafAt s.mem root q (getPtIdx virt) = some (entryAt s.mem t (getPtIdx virt)) := by
    rw [leafAt, ht]
    exact if_pos (nextFrame_eq_some.mp h.mapped).1
  have hafter := hst.leaf_slot h.mapped h.lt hq.1.1 (not_on_way h.unused.2 hq) ht hne
  have heq := congrFun hmap (v / pageSize)
  rw [update_of_ne hpage, pageMapAt_addr _ _ hv, pageMapAt_addr _ _ hv, hup, hidx, hbefore,
    hafter] at heq
  have hframes := (Prod.mk.inj (Option.some.inj heq)).1
  rw [(decode_cowEntry h.lt).1, (nextFrame_eq_some.mp h.mapped).2] at hframes
  exact h.unused.1 hframes

lemma CowFault.done (hne : f ≠ t)
    (hmap : pageMapAt s'.mem root = update (pageMapAt s.mem root) (virt / pageSize) (some (g,
      pagePresent ||| pageWrite ||| pageUser))) : CowDone s root virt t f g s' := by
  constructor
  · exact hmap
  · exact hst.copy
  · exact fun i hi => hst.rest f h.unused.1.symm i hi fun heq => hne heq.1
  · exact fun x hx hnot i hi => hst.rest x hx i hi fun heq => hnot (heq.1 ▸ h.last_mem)
  · intro r hdisj hg
    refine pageMapAt_same fun q i hp => ?_
    obtain ⟨hq, -, hi⟩ := pagePaths_split hp
    refine hst.leaf h.mapped h.lt hq.1.1 (not_on_way hg hq) hi fun heq => ?_
    exact Set.disjoint_left.mp hdisj ⟨q, hq, heq.1⟩ h.last_mem
  · intro r hr v hv
    have hk := kernelPath_upperIdx hv.high
    refine hst.leaf h.mapped h.lt (upperIdx_lt v) (fun p hp => ?_) (and_511_lt _) fun heq => ?_
    · obtain ⟨z, hz⟩ := hp
      rw [← hz] at hk
      exact (hr p (kernelPaths_append hk)).2
    · exact (hr _ hk).1 heq.1

lemma CowFault.ne_of_old (hold : ∀ i < 512, entryAt s'.mem f i = entryAt s.mem f i) : f ≠ t := by
  rintro rfl
  have heq := hold (getPtIdx virt) (and_511_lt _)
  rw [hst.slot] at heq
  have hmapped := h.mapped
  rw [← heq, nextFrame_cowEntry h.lt] at hmapped
  exact h.unused.1 (Option.some.inj hmapped)

end

end

/-- **A copy-on-write fault gives a private copy of the page** exactly if the
old frame is neither 0 nor the last table on the way, and that table is on
the way to no other pages of the address space. -/
theorem cow_fault_iff {s : Kmem} {root virt errorCode t f g : Nat}
    (h : CowFault s root virt errorCode t f g) :
    (∃ s', pageFaultHandler errorCode virt (pfnToPhys root) s = some s' ∧
        CowDone s root virt t f g s') ↔ f ≠ 0 ∧ f ≠ t ∧ OnePath s.mem root virt t := by
  constructor
  · rintro ⟨s', hcall, hdone⟩
    have hf0 : f ≠ 0 := by
      rintro rfl
      rw [h.panics] at hcall
      cases hcall
    obtain ⟨s1, hcall1, hst⟩ := h.handler hf0
    obtain rfl : s' = s1 := Option.mem_unique hcall hcall1
    have hne := h.ne_of_old hst hdone.old
    exact ⟨hf0, hne, h.onePath_of_map hst hne hdone.map⟩
  · rintro ⟨hf0, hne, hone⟩
    obtain ⟨s', hcall, hst⟩ := h.handler hf0
    exact ⟨s', hcall, h.done hst hne (h.map_eq hst hne hone)⟩

/-! ## Address spaces that were built call by call -/

section

variable {a : AHeap}
  {as : Nat}

lemma VmInv.onePath (h : VmInv S s a fl held as root) (hv : virt < 2 ^ 47)
    (ht : tableAt s.mem root (upperIdx virt) = some t) : OnePath s.mem root virt t :=
  fun q hq _ hqt => h.tree q hq _ (upperIdx_mem hv) t hqt ht

lemma VmInv.cowFault (h : VmInv S s a fl held as root)
    (hcode : (errorCode.testBit 0 && errorCode.testBit 1 && errorCode.testBit 2) = true)
    (hv : virt < 2 ^ 47) (ht : tableAt s.mem root (upperIdx virt) = some t)
    (hf : nextFrame (entryAt s.mem t (getPtIdx virt)) = some f)
    (hw : isWrite (entryAt s.mem t (getPtIdx virt)) = false)
    (halloc : pmmAllocPage s.pmm = some (pfnToPhys g, pmm)) (hg : g ≠ 0) (hgf : g ≠ f) :
    CowFault s root virt errorCode t f g := by
  have hS : ∀ x ∈ S, PageOk s.hhdm x ∧ x < 2 ^ 40 := fun x hx =>
    ⟨h.hhdm ▸ h.pageOk hx, h.small x hx⟩
  have hpmm : PmmInv S s.pmm fl held := by
    rw [h.rep.pmm]
    exact h.inv.pmmInv
  refine ⟨⟨hcode, hv, fun p hp u hu => ?_, ht, hf⟩, hw, ⟨S, fl, held, hpmm, hS⟩, ⟨pmm, halloc⟩, hg,
    hgf, fun hin => ?_⟩
  · exact (hS u (h.mem_of_table ⟨p, tablePaths_of_prefix hp (upperIdx_mem hv), hu⟩)).1
  · obtain ⟨fl', hpmm', -, hfresh⟩ := hpmm.allocPage_eq halloc hg
    exact (h.free_not_used (hpmm.freePages_insert hpmm' hfresh).1).1 hin

/-- In an address space built call by call nothing is shared. -/
theorem Built.cow_fault {entries : List MemmapEntry} {hhdm : Nat} {ram : Nat → PageFrame}
    (hm : MachineOk entries hhdm ram) (hinit : pmmInit entries hhdm ram = some pmm)
    (hb : Built pmm mem as s) (h : CowFault s (s.root as) virt errorCode t f g) (hf0 : f ≠ 0)
    (hne : f ≠ t) : ∃ s', pageFaultHandler errorCode virt (pfnToPhys (s.root as)) s = some s' ∧
      CowDone s (s.root as) virt t f g s' := by
  obtain ⟨a, fl, held, root, hvm, -⟩ := hb.inv hm hinit
  rw [hvm.root_eq] at h ⊢
  obtain ⟨s', hcall, hst⟩ := h.handler hf0
  exact ⟨s', hcall, h.done hst hne (h.map_eq hst hne (hvm.onePath h.user h.last))⟩

end

/-! ## The machine with sixteen pages -/

def forkPage : Nat × Pmm := (pmmAllocPage forkTables).get (by decide)

lemma pmmAllocPage_forkTables : pmmAllocPage forkTables = some forkPage := (Option.some_get _).symm

/-- A page without WRITE that was mapped at address 0. -/
lemma FirstPage.cowFault
    (h : FirstPage forkStart mem forkSpace.1 0 0x1000 4 forkHeap S s1 s fl held root g1 g2 g3) :
    CowFault s (s.root forkSpace.1) 0 7 g3 1 21 := by
  have hleaf : entryAt s.mem g3 (getPtIdx 0) = leafEntry 0x1000 4 := by
    rw [h.page.pt _ (by decide), if_pos rfl]
  have halloc : pmmAllocPage s.pmm = some (pfnToPhys 21, forkPage.2) := by
    rw [show s.pmm = forkTables from h.inv.rep.pmm, pmmAllocPage_forkTables]
    exact congrArg some (Prod.ext (by decide) rfl)
  rw [h.inv.root_eq]
  refine h.inv.cowFault (by decide) (by decide) (h.last (by decide)) ?_ ?_ halloc (by decide)
    (by decide)
  · rw [hleaf]
    decide
  · rw [hleaf]
    decide

theorem cow_fault_forkMap : ∃ s t, Built forkStart (fun _ => 0) forkSpace.1 s ∧
    CowFault s (s.root forkSpace.1) 0 7 t 1 21 ∧
    ((∃ s', pageFaultHandler 7 0 (pfnToPhys (s.root forkSpace.1)) s = some s' ∧
        CowDone s (s.root forkSpace.1) 0 t 1 21 s') ↔
      1 ≠ 0 ∧ 1 ≠ t ∧ OnePath s.mem (s.root forkSpace.1) 0 t) := by
  obtain ⟨s1, s, fl, held, root, g1, g2, g3, h⟩ :=
    firstPage_forkMap (fun _ => 0) 0 0x1000 4 (by decide)
  exact ⟨s, g3, h.built forkSpace_ne_zero (by decide), h.cowFault, cow_fault_iff h.cowFault⟩

theorem cow_built : ∃ s t s', pageFaultHandler 7 0 (pfnToPhys (s.root forkSpace.1)) s = some s' ∧
    CowDone s (s.root forkSpace.1) 0 t 1 21 s' := by
  obtain ⟨_, s, _, _, _, _, _, t, h⟩ := firstPage_forkMap (fun _ => 0) 0 0x1000 4 (by decide)
  have hne : 1 ≠ t := fun e =>
    h.inv.forkMap_page ⟨_, upperIdx_mem (by decide), e ▸ h.last (by decide)⟩
  exact ⟨s, t, Built.cow_fault forkMap_ok pmmInit_forkMap (h.built forkSpace_ne_zero (by decide))
    h.cowFault (by decide) hne⟩

/-- Memory in which slots 22 to 24 of every page lead to the pages of these
numbers. -/
def sharedMem : WordMem := fun w => if w % 512 ∈ [22, 23, 24] then newTableEntry (w % 512) else 0

lemma mem_of_clone (hbefore : u ∈ forkChild.2.pmm.freePages) (hafter : u ∉ forkCloned.freePages) :
    u ∈ [22, 23, 24] := by
  have hfree : forkChild.2.pmm.freeBlockList = [⟨1, 22⟩, ⟨3, 24⟩] := by decide
  have hleft : forkCloned.freeBlockList = [⟨0, 25⟩, ⟨1, 26⟩, ⟨2, 28⟩] := by decide
  simp only [Pmm.freePages, hfree, hleft, List.mem_cons, List.not_mem_nil, or_false,
    exists_eq_or_imp, exists_eq_left, Set.mem_ofPred_eq, Block.mem_cells, not_or] at *
  omega

/-- Tables of a clone whose pages held `sharedMem`: the last table `u3` is
in slot 0 of `u2`, where it belongs, and in the slot of its own number. -/
structure SharedTables (m : WordMem) (root u1 u2 u3 : Nat) : Prop where
  pml4 : nextFrame (entryAt m root 0) = some u1
  empty : ∀ i < 256, i ≠ 0 → nextFrame (entryAt m root i) = none
  pdpt : nextFrame (entryAt m u1 0) = some u2
  pd : nextFrame (entryAt m u2 0) = some u3
  pt : entryAt m u3 0 = leafEntry 0x1000 6 &&& ~~~pageWrite
  pages : ∀ x, x ∈ [22, 23, 24] ↔ x ∈ [u1, u2, u3]
  stale : ∀ u ∈ [u1, u2, u3], ∀ i < 512, i ≠ 0 →
    nextFrame (entryAt m u i) = if i ∈ [22, 23, 24] then some i else none

namespace SharedTables

variable {u1 u2 u3 : Nat}

section

variable (h : SharedTables m root u1 u2 u3)
include h

lemma second : tableAt m root [0, 0, u3] = some u3 := by
  have hmem : u3 ∈ [22, 23, 24] := (h.pages u3).mpr (by simp)
  have hstale := h.stale u2 (by simp) u3 (by simp at hmem; omega) (by simp at hmem; omega)
  rw [if_pos hmem] at hstale
  simp only [tableAt_cons, h.pml4, h.pdpt, Option.bind_some, hstale]
  rfl

lemma last : tableAt m root [0, 0, 0] = some u3 := by
  simp only [tableAt_cons, h.pml4, h.pdpt, Option.bind_some, h.pd]
  rfl

lemma next {x : Nat} (hu : u ∈ [22, 23, 24]) (hi : i < 512)
    (hx : nextFrame (entryAt m u i) = some x) : x ∈ [22, 23, 24] ∨ u = u3 ∧ x = 1 := by
  rw [h.pages] at hu
  by_cases h0 : i = 0
  · subst h0
    have hpage : nextFrame (entryAt m u3 0) = some 1 := by
      rw [h.pt]
      decide
    simp only [h.pages]
    simp only [List.mem_cons, List.not_mem_nil, or_false] at hu
    rcases hu with rfl | rfl | rfl
    · rw [h.pdpt] at hx
      simp [Option.some.inj hx]
    · rw [h.pd] at hx
      simp [Option.some.inj hx]
    · rw [hpage] at hx
      simp [Option.some.inj hx]
  · rw [h.stale u hu i hi h0] at hx
    split at hx
    · exact Or.inl (Option.some.inj hx ▸ ‹_›)
    · cases hx

lemma unused (hroot : root ≠ 25) (hlast : u1 ≠ u3) : 25 ∉ userTables m root := by
  have hu1 : u1 ∈ [22, 23, 24] := (h.pages u1).mpr (by simp)
  -- the first table is at slot 0, and it does not lead to page 1
  have hfirst : ∀ i < 256, ∀ x, nextFrame (entryAt m root i) = some x → x = u1 := by
    intro i hi x hx
    by_cases h0 : i = 0
    · subst h0
      exact Option.mem_unique hx h.pml4
    · rw [h.empty i hi h0] at hx
      cases hx
  have hsecond : ∀ i < 512, ∀ x, nextFrame (entryAt m u1 i) = some x → x ∈ [22, 23, 24] :=
    fun i hi x hx => (h.next hu1 hi hx).resolve_right fun heq => hlast heq.1
  rintro ⟨q, ⟨⟨hlt, hhead⟩, hlen⟩, hq⟩
  match q, hlen with
  | [], _ => exact hroot (Option.some.inj hq)
  | i :: q, hlen =>
    simp only [tableAt_cons] at hq
    obtain ⟨x, hx, hq⟩ := Option.bind_eq_some_iff.mp hq
    obtain rfl := hfirst i (hhead i rfl) x hx
    match q, hlen with
    | [], _ =>
      rw [Option.some.inj hq] at hu1
      simp at hu1
    | [j], _ =>
      simp only [tableAt_cons, walk_nil] at hq
      obtain ⟨y, hy, hq⟩ := Option.bind_eq_some_iff.mp hq
      have hmem := hsecond j (hlt j (by simp)) y hy
      rw [Option.some.inj hq] at hmem
      simp at hmem
    | [j, k], _ =>
      simp only [tableAt_cons, walk_nil] at hq
      obtain ⟨y, hy, hq⟩ := Option.bind_eq_some_iff.mp hq
      obtain ⟨z, hz, hq⟩ := Option.bind_eq_some_iff.mp hq
      have hmem := h.next (hsecond j (hlt j (by simp)) y hy) (hlt k (by simp)) hz
      rw [Option.some.inj hq] at hmem
      simp at hmem

end

end SharedTables

section

variable
  {as' root' : Nat} {lbl : Labels}
  (h : FirstPage forkStart sharedMem forkSpace.1 0 0x1000 6 forkHeap S s1 s fl held root g1 g2 g3)
  (hc : Cloned S s held root as' s' root' lbl) (hpmm : s'.pmm = forkCloned)
  (htaken : ∀ g, lbl g ≠ none → g ≠ root' → g ∈ forkChild.2.pmm.freePages)

include h hc hpmm htaken

lemma FirstPage.shared_copy {p : List Nat} (hne : p ≠ []) (hlen : p.length ≤ 3)
    (hlow : ∀ i ∈ p, i < 256) (ht : tableAt s.mem root p = some t)
    (hempty : ∀ i < 512, i ≠ 0 → entryAt s.mem t i = 0) :
    ∃ u ∈ [22, 23, 24], tableAt s'.mem root' p = some u ∧ lbl u = some p ∧ ∀ i < 512, i ≠ 0 →
    nextFrame (entryAt s'.mem u i) = if i ∈ [22, 23, 24] then some i else none := by
  obtain ⟨u, hu, hlabel, -⟩ := hc.copy_of_path h.inv.small hne hlen hlow ht
  have hl : lbl u ≠ none := by simp [hlabel]
  have hroot : u ≠ root' := by
    intro heq
    rw [(hc.top u).mpr heq] at hlabel
    exact hne (Option.some.inj hlabel).symm
  have hnot : u ∉ forkCloned.freePages := fun hin => hl (hc.freePages h.inv (hpmm ▸ hin)).2
  refine ⟨u, mem_of_clone (htaken u hl hroot) hnot, hu, hlabel, fun i hi h0 => ?_⟩
  have habs : present (entryAt s.mem t i) = false := by
    rw [hempty i hi h0]
    rfl
  obtain ⟨v, hfree, -, hv, hkeep⟩ := hc.hole h.inv.small hne hlen hlow ht hi habs
  obtain rfl : u = v := Option.mem_unique hu hv
  have hmod : (u * 512 + i) % 512 = i := by omega
  rw [hkeep, h.free u hfree i hi, entryAt, sharedMem, hmod]
  split
  · exact nextFrame_newTable (by omega)
  · rfl

lemma FirstPage.shared_tables : ∃ u1 u2 u3, SharedTables s'.mem root' u1 u2 u3 ∧ u1 ≠ u3 ∧
    root' ≠ 25 ∧ lbl root' ≠ none ∧ lbl u1 ≠ none ∧ lbl u2 ≠ none ∧ lbl u3 ≠ none := by
  obtain ⟨hs1, hs2, hs3⟩ := h.small
  have hnext : ∀ {g}, g < 2 ^ 40 → nextFrame (newTableEntry g) = some g :=
    fun hg => nextFrame_newTable hg
  have hroot0 : nextFrame (entryAt s.mem root 0) = some g1 := by
    rw [h.page.pml4 0 (by decide), if_pos (by decide), hnext hs1]
  have hpdpt0 : nextFrame (entryAt s.mem g1 0) = some g2 := by
    rw [h.page.pdpt 0 (by decide), if_pos (by decide), hnext hs2]
  have hleaf : entryAt s.mem g3 0 = leafEntry 0x1000 6 := by
    rw [h.page.pt 0 (by decide), if_pos (by decide)]
  have ht1 : tableAt s.mem root [0] = some g1 := by
    simp only [tableAt_cons, hroot0]
    rfl
  have ht2 : tableAt s.mem root [0, 0] = some g2 := by
    simp only [tableAt_cons, hroot0, hpdpt0, Option.bind_some]
    rfl
  have ht3 : tableAt s.mem root [0, 0, 0] = some g3 := h.last (by decide)
  -- the copies
  obtain ⟨u1, hm1, hu1, hl1, hst1⟩ :=
    h.shared_copy hc hpmm htaken (by decide) (by decide) (by decide) ht1
    fun i hi h0 => (h.page.pdpt i hi).trans (if_neg h0)
  obtain ⟨u2, hm2, hu2, hl2, hst2⟩ :=
    h.shared_copy hc hpmm htaken (by decide) (by decide) (by decide) ht2
    fun i hi h0 => (h.page.pd i hi).trans (if_neg h0)
  obtain ⟨u3, hm3, hu3, hl3, hst3⟩ :=
    h.shared_copy hc hpmm htaken (by decide) (by decide) (by decide) ht3
    fun i hi h0 => (h.page.pt i hi).trans (if_neg h0)
  have hdiff : ∀ {x y p q}, lbl x = some p → lbl y = some q → p ≠ q → x ≠ y := by
    rintro x y p q hx hy hne rfl
    exact hne (Option.mem_unique hx hy)
  have h12 : u1 ≠ u2 := hdiff hl1 hl2 (by decide)
  have h13 : u1 ≠ u3 := hdiff hl1 hl3 (by decide)
  have h23 : u2 ≠ u3 := hdiff hl2 hl3 (by decide)
  have hpml4 : nextFrame (entryAt s'.mem root' 0) = some u1 := by
    simpa [tableAt_cons] using hu1
  have hpdpt : nextFrame (entryAt s'.mem u1 0) = some u2 := by
    simpa [tableAt_cons, hpml4] using hu2
  have hpd : nextFrame (entryAt s'.mem u2 0) = some u3 := by
    simpa [tableAt_cons, hpml4, hpdpt] using hu3
  have hpt : entryAt s'.mem u3 0 = leafEntry 0x1000 6 &&& ~~~pageWrite := by
    obtain ⟨v, hv, -, hcop⟩ := hc.copy_of_path h.inv.small (by decide) (by decide) (by decide) ht3
    obtain rfl : u3 = v := Option.mem_unique hu3 hv
    have hslot := hcop 0 (by decide)
    rw [show 3 - [0, 0, 0].length = 0 by decide, Copied, SlotCopied, hleaf, if_pos (by decide),
      if_neg (by decide)] at hslot
    exact hslot.1
  have hroot : lbl root' ≠ none := by simp [(hc.top root').mpr rfl]
  refine ⟨u1, u2, u3, ⟨hpml4, fun i hi h0 => ?_, hpdpt, hpd, hpt, fun x => ?_, ?_⟩, h13, ?_, hroot,
    by simp [hl1], by simp [hl2], by simp [hl3]⟩
  · have hslot := hc.slots i hi
    have hzero : entryAt s.mem root i = 0 := (h.page.pml4 i hi).trans (if_neg h0)
    rw [RootCopied, hzero, if_neg (by decide)] at hslot
    rw [hslot]
    rfl
  · simp only [List.mem_cons, List.not_mem_nil, or_false] at hm1 hm2 hm3 ⊢
    omega
  · intro u hu
    simp only [List.mem_cons, List.not_mem_nil, or_false] at hu
    rcases hu with rfl | rfl | rfl
    · exact hst1
    · exact hst2
    · exact hst3
  · intro heq
    have hfree : 25 ∈ s'.pmm.freePages := by
      rw [hpmm]
      exact ⟨⟨0, 25⟩, by decide, Block.base_mem_cells _⟩
    exact hroot (hc.freePages h.inv (heq ▸ hfree)).2

lemma FirstPage.shared_fault :
    ∃ u1 u2 u3, SharedTables s'.mem root' u1 u2 u3 ∧ CowFault s' root' 0 7 u3 1 25 := by
  obtain ⟨u1, u2, u3, ht, hlast, hroot, hl0, hl1, hl2, hl3⟩ := h.shared_tables hc hpmm htaken
  have hS : ∀ x ∈ S, PageOk s'.hhdm x ∧ x < 2 ^ 40 := by
    intro x hx
    rw [hc.offset, h.inv.hhdm]
    exact ⟨h.inv.pageOk hx, h.inv.small x hx⟩
  have hok : ∀ x, lbl x ≠ none → PageOk s'.hhdm x := fun x hx => (hS x (hc.free x hx).1).1
  obtain ⟨fl', held', hinv, -⟩ := hc.pmm
  have halloc : pmmAllocPage s'.pmm = some (pfnToPhys 25, forkNext.2) := by
    rw [hpmm, pmmAllocPage_forkCloned]
    exact congrArg some (Prod.ext (by decide) rfl)
  refine ⟨u1, u2, u3, ht, ⟨by decide, by decide, fun p hp u hu => ?_, ht.last, ?_⟩, ?_,
    ⟨S, fl', held', hinv, hS⟩, ⟨_, halloc⟩, by decide, by decide, ht.unused hroot hlast⟩
  · rw [show upperIdx 0 = [0, 0, 0] from rfl] at hp
    simp only [List.prefix_cons_iff, List.prefix_nil] at hp
    rcases hp with rfl | ⟨_, rfl, rfl | ⟨_, rfl, rfl | ⟨_, rfl, rfl⟩⟩⟩
    · exact Option.some.inj hu ▸ hok root' hl0
    · simp only [tableAt_cons, ht.pml4, Option.bind_some, walk_nil] at hu
      exact Option.some.inj hu ▸ hok u1 hl1
    · simp only [tableAt_cons, ht.pml4, ht.pdpt, Option.bind_some, walk_nil] at hu
      exact Option.some.inj hu ▸ hok u2 hl2
    · exact Option.mem_unique ht.last hu ▸ hok u3 hl3
  · rw [show getPtIdx 0 = 0 from rfl, ht.pt]
    decide
  · rw [show getPtIdx 0 = 0 from rfl, ht.pt]
    exact isWrite_protect _

end

/-- A page is mapped at address 0 and the address space is cloned, in
memory with old words. The child's last table is then at a second path, so
when the child writes to address 0 another of its pages moves as well. -/
theorem cow_fault_shared : ∃ s1 s as' s' t s'' virt,
    vmmCreateAddressSpace 0 ⟨forkStart, sharedMem, fun _ _ => 0⟩ = some (forkSpace.1, s1) ∧
    vmmMapPage forkSpace.1 0 0x1000 6 s1 = some (true, s) ∧
    vmmCloneAddressSpace forkSpace.1 0 s = some (as', s') ∧ as' ≠ 0 ∧
    CowFault s' (s'.root as') 0 7 t 1 25 ∧
    pageFaultHandler 7 0 (pfnToPhys (s'.root as')) s' = some s'' ∧ pageSize ≤ virt ∧ virt < 2 ^ 47 ∧
    tableAt s'.mem (s'.root as') (pathOf virt) = some 1 ∧
    tableAt s''.mem (s'.root as') (pathOf virt) = some 25 ∧
    ¬ CowDone s' (s'.root as') 0 t 1 25 s'' := by
  obtain ⟨s1, s, fl, held, root, g1, g2, g3, h⟩ :=
    firstPage_forkMap sharedMem 0 0x1000 6 (by decide)
  obtain ⟨as', s', root', lbl, hcall, hne, hc, hpmm, htaken⟩ :=
    h.clone (by decide) (by decide) (by decide)
  obtain rfl := hc.rootEq
  obtain ⟨u1, u2, u3, ht, hfault⟩ := h.shared_fault hc hpmm htaken
  obtain ⟨s'', hhandler, hst⟩ := hfault.handler (by decide)
  have hmem : u3 ∈ [22, 23, 24] := (ht.pages u3).mpr (by simp)
  simp only [List.mem_cons, List.not_mem_nil, or_false] at hmem
  have hpath : pathOf (u3 * 2 ^ 21) = [0, 0, u3] ++ [0] := by
    rcases hmem with rfl | rfl | rfl <;> decide
  have hq : [0, 0, u3] ∈ tablePaths := by
    refine ⟨⟨fun i hi => ?_, fun i hi => ?_⟩, by simp⟩
    · simp only [List.mem_cons, List.not_mem_nil, or_false] at hi
      omega
    · simp at hi
      omega
  have hone : 1 ≠ u3 := by omega
  have hafter := hst.leaf_slot hfault.mapped hfault.lt hq.1.1
    (not_on_way hfault.unused.2 hq) ht.second hone
  have hbefore : leafAt s'.mem (s'.root as') [0, 0,
    u3] 0 = some (leafEntry 0x1000 6 &&& ~~~pageWrite) := by
    rw [leafAt, ht.second]
    simp only [Option.bind_some, ht.pt]
    decide
  refine ⟨s1, s, as', s', u3, s'', u3 * 2 ^ 21, h.create, h.map, hcall, hne, hfault, hhandler, ?_,
    ?_, ?_, ?_, fun hdone => ?_⟩
  · simp only [pageSize]
    omega
  · omega
  · rw [hpath, tableAt_leaf, hbefore]
    decide
  · rw [hpath, tableAt_leaf, show leafAt s''.mem _ _ 0 = _ from hafter]
    exact congrArg some (decode_cowEntry hfault.lt).1
  · have heq := hfault.onePath_of_map hst hone hdone.map _ hq rfl ht.second
    have hidx : u3 = 0 := (List.cons.inj (List.cons.inj (List.cons.inj heq).2).2).1
    omega

end VortexOS.Mm
