/-
VortexOS.Mm.VmmRefine — an address space as a map of pages.

`PageMap` is what an address space is for: it says for each page of the
user half which frame it has, and with which flags. `Kmem.pageMap` reads
it off the four levels of tables. `vmm_map_page` is an update of the map
or leaves it alone, `vmm_unmap_page` removes a page and
`vmm_walk_page_table` looks one up; none of them touches the kernel half
of the PML4 (`vmm_refines`).
-/
import VortexOS.Mm.VmmFork
import VortexOS.Mm.VmmUser

namespace VortexOS.Mm

open Function Lib

/-! ## The map -/

abbrev PageMap := Nat → Option (Nat × BitVec 64)

def flagsOf (e : BitVec 64) : BitVec 64 := e &&& ~~~addrMask

def userPages : Nat := 2 ^ 35

/-- The map that the tables at `root` give. -/
def pageMapAt (m : WordMem) (root : Nat) : PageMap := fun page =>
  if page < userPages then
    (leafAt m root (upperIdx (page * pageSize)) (getPtIdx (page * pageSize))).map fun e =>
      (frameOf e, flagsOf e)
  else none

def Kmem.pageMap (s : Kmem) (as : Nat) : PageMap := pageMapAt s.mem (s.root as)

def PageMap.phys (T : PageMap) (page : Nat) : Nat := ((T page).map fun e => pfnToPhys e.1).getD 0

/-! ## Pages and paths -/

lemma pathOf_page {page : Nat} : pathOf (page * pageSize) =
    [page / 2 ^ 27 % 512, page / 2 ^ 18 % 512, page / 2 ^ 9 % 512, page % 512] := by
  simp only [pathOf, upperIdx, getPml4Idx, getPdptIdx, getPdIdx, getPtIdx, and_511_eq, pageSize,
    Nat.shiftRight_eq_div_pow, List.cons_append, List.nil_append, List.cons.injEq, and_true]
  omega

lemma page_eq_of_pathOf {page page' : Nat} (h : page < userPages) (h' : page' < userPages)
    (heq : pathOf (page * pageSize) = pathOf (page' * pageSize)) : page = page' := by
  rw [pathOf_page, pathOf_page] at heq
  simp only [List.cons.injEq, and_true] at heq
  simp only [userPages] at h h'
  omega

lemma page_lt {virt : Nat} (hv : virt < 2 ^ 47) : virt / pageSize < userPages := by
  simp only [pageSize, userPages]
  omega

lemma pageAlignDown_eq (virt : Nat) : virt / pageSize * pageSize = pageAlignDown virt := by
  simp only [pageAlignDown, pageSize]
  omega

lemma leaf_page {virt page : Nat} (hv : virt < 2 ^ 47) (hpage : page < userPages) :
    (upperIdx (page * pageSize) = upperIdx virt ∧ getPtIdx (page * pageSize) = getPtIdx virt) ↔
      page = virt / pageSize := by
  rw [← upperIdx_pageAlignDown virt, ← getPtIdx_pageAlignDown virt, ← pageAlignDown_eq virt]
  constructor
  · intro heq
    apply page_eq_of_pathOf hpage (page_lt hv)
    rw [pathOf, pathOf, heq.1, heq.2]
  · intro heq
    rw [heq]
    exact ⟨rfl, rfl⟩

lemma page_path_mem {page : Nat} (hpage : page < userPages) :
    upperIdx (page * pageSize) ++ [getPtIdx (page * pageSize)] ∈ pagePaths := by
  apply pathOf_mem
  simp only [userPages, pageSize] at *
  omega

/-! ## What the calls do to the map -/

section

variable {m m' : WordMem} {root virt : Nat}

lemma pageMapAt_update (hv : virt < 2 ^ 47) {e : Option (BitVec 64)}
    (h : ∀ q i, q ++ [i] ∈ pagePaths → leafAt m' root q i = if q = upperIdx virt ∧
      i = getPtIdx virt then e else leafAt m root q i) : pageMapAt m' root =
      update (pageMapAt m root) (virt / pageSize) (e.map fun e => (frameOf e, flagsOf e)) := by
  funext page
  rw [update_apply]
  unfold pageMapAt
  by_cases hpage : page < userPages
  · rw [if_pos hpage, if_pos hpage, h _ _ (page_path_mem hpage)]
    by_cases heq : page = virt / pageSize
    · rw [if_pos ((leaf_page hv hpage).mpr heq), if_pos heq]
    · rw [if_neg fun hin => heq ((leaf_page hv hpage).mp hin), if_neg heq]
  · rw [if_neg hpage, if_neg hpage, if_neg]
    intro heq
    exact hpage (heq ▸ page_lt hv)

lemma pageMapAt_same (h : ∀ q i, q ++ [i] ∈ pagePaths → leafAt m' root q i = leafAt m root q i) :
    pageMapAt m' root = pageMapAt m root := by
  funext page
  unfold pageMapAt
  split
  · rename_i hpage
    rw [h _ _ (page_path_mem hpage)]
  · rfl

lemma pageMapAt_addr (m : WordMem) (root : Nat) {virt : Nat} (hv : virt < 2 ^ 47) :
    pageMapAt m root (virt / pageSize) =
      (leafAt m root (upperIdx virt) (getPtIdx virt)).map fun e => (frameOf e, flagsOf e) := by
  obtain ⟨hup, hpt⟩ := (leaf_page hv (page_lt hv)).mpr rfl
  rw [pageMapAt, if_pos (page_lt hv), hup, hpt]

lemma walkResult_eq (m : WordMem) (root : Nat) {virt : Nat} (hv : virt < 2 ^ 47) :
    walkResult (leafAt m root (upperIdx virt) (getPtIdx virt)) =
      (pageMapAt m root).phys (virt / pageSize) := by
  rw [PageMap.phys, pageMapAt_addr m root hv, walkResult]
  cases leafAt m root (upperIdx virt) (getPtIdx virt) with
  | none => rfl
  | some e => exact and_addrMask_eq e

end

lemma decode_leafEntry {f : Nat} (hf : f < 2 ^ 40) {flags : BitVec 32}
    (hflags : flags.setWidth 64 &&& addrMask = 0) : frameOf (leafEntry (pfnToPhys f) flags) = f ∧
    flagsOf (leafEntry (pfnToPhys f) flags) = flags.setWidth 64 ||| pagePresent := by
  constructor
  · rw [leafEntry, frameOf_or _ (by decide), frameOf_or _ hflags, frameOf_and_addrMask,
      frameOf_phys hf]
  · have hsplit : flags.setWidth 64 = flags.setWidth 64 &&& ~~~addrMask := by
      calc flags.setWidth 64 = flags.setWidth 64 &&& (addrMask ||| ~~~addrMask) := by
            rw [show addrMask ||| ~~~addrMask = BitVec.allOnes 64 by decide, BitVec.and_allOnes]
        _ = flags.setWidth 64 &&& ~~~addrMask := by
          rw [BitVec.and_or_distrib_left, hflags]
          simp
    rw [flagsOf, leafEntry, BitVec.and_or_distrib_right, BitVec.and_or_distrib_right, ← hsplit,
      BitVec.and_assoc, show addrMask &&& ~~~addrMask = 0 by decide,
      show pagePresent &&& ~~~addrMask = pagePresent by decide]
    simp

/-- The kernel half of an address space's PML4 is the same in `s'` as in
`s`. -/
def KernelHalfSame (as : Nat) (s s' : Kmem) : Prop :=
  s'.root as = s.root as ∧
    ∀ i, 256 ≤ i → i < 512 → entryAt s'.mem (s.root as) i = entryAt s.mem (s.root as) i

lemma Leaves.kernelHalf {S : Set Nat} {s s' : Kmem} {a a' : AHeap} {fl fl' : Nat → List Nat}
    {held held' : Set Block} {as root : Nat} {leaf : List Nat → Nat → Option (BitVec 64)}
    (hl : Leaves root s.mem s'.mem leaf) (h : VmInv S s a fl held as root)
    (h' : VmInv S s' a' fl' held' as root) : KernelHalfSame as s s' := by
  unfold KernelHalfSame
  rw [h.root_eq, h'.root_eq]
  exact ⟨rfl, hl.kernel⟩

/-- **Page tables refine the map of pages.** -/
theorem vmm_refines {entries : List MemmapEntry} {hhdm : Nat} {ram : Nat → PageFrame} {pmm : Pmm}
    {mem : WordMem} {as : Nat} {s : Kmem} (hm : MachineOk entries hhdm ram)
    (hinit : pmmInit entries hhdm ram = some pmm) (hb : Built pmm mem as s) {virt : Nat}
    (hv : virt < 2 ^ 47) : (∀ phys flags, ∃ ok s', vmmMapPage as virt phys flags s = some (ok, s') ∧
      s'.pageMap as = (if ok then update (s.pageMap as) (virt / pageSize)
        (some (frameOf (leafEntry phys flags), flagsOf (leafEntry phys flags))) else s.pageMap as) ∧
      KernelHalfSame as s s') ∧ (∀ f < 2 ^ 40, ∀ flags :
    BitVec 32, flags.setWidth 64 &&& addrMask = 0 →
      frameOf (leafEntry (pfnToPhys f) flags) = f ∧
        flagsOf (leafEntry (pfnToPhys f) flags) = flags.setWidth 64 ||| pagePresent) ∧
    ((vmmUnmapPage as virt s).pageMap as = update (s.pageMap as) (virt / pageSize) none ∧
      KernelHalfSame as s (vmmUnmapPage as virt s)) ∧
    ∃ r s', vmmWalkPageTable as virt s = some (r, s') ∧ s'.pageMap as = s.pageMap as ∧
      r = (s.pageMap as).phys (virt / pageSize) ∧ KernelHalfSame as s s' := by
  obtain ⟨a, fl, held, root, h, hleaves⟩ := hb.inv hm hinit
  have hroot := h.root_eq
  refine ⟨fun phys flags => ?_, fun f hf flags hflags => decode_leafEntry hf hflags, ?_, ?_⟩
  · obtain ⟨ok, s', a', fl', held', hcall, h', _, _, hmap⟩ := h.mapPage_spec hv phys flags
    refine ⟨ok, s', hcall, ?_, hmap.kernelHalf h h'⟩
    unfold Kmem.pageMap
    rw [hroot, h'.root_eq]
    cases ok with
    | false => exact pageMapAt_same (hmap.congr fun q i _ => by simp).pages
    | true =>
      exact pageMapAt_update hv (e := some (leafEntry phys flags))
        (hmap.congr fun q i _ => by simp).pages
  · obtain ⟨h', hunmap⟩ := h.unmapPage_spec hv
    refine ⟨?_, hunmap.kernelHalf h h'⟩
    unfold Kmem.pageMap
    rw [hroot, h'.root_eq]
    exact pageMapAt_update hv (e := none) hunmap.pages
  · obtain ⟨r, s', a', fl', held', hcall, h', hg, hres⟩ := h.walkPageTable_spec hv
    refine ⟨r, s', hcall, ?_, ?_, hg.leaves.kernelHalf h h'⟩
    · unfold Kmem.pageMap
      rw [hroot, h'.root_eq]
      exact pageMapAt_same hg.leaves.pages
    · rw [hres hleaves, Kmem.pageMap, hroot]
      exact walkResult_eq _ _ hv

theorem vmm_refines_forkMap : ∃ s s', Built forkStart (fun _ => 0) forkSpace.1 s ∧
    (s.pageMap forkSpace.1).phys 0 = 0x1000 ∧ (vmmUnmapPage forkSpace.1 0 s).pageMap forkSpace.1 =
      update (s.pageMap forkSpace.1) 0 none ∧ vmmWalkPageTable forkSpace.1 0 s = some (0x1000, s') ∧
    s'.pageMap forkSpace.1 = s.pageMap forkSpace.1 := by
  obtain ⟨s1, s, fl, held, root, g1, g2, g3, h⟩ :=
    firstPage_forkMap (fun _ => 0) 0 0x1000 6 (by decide)
  have hb := h.built forkSpace_ne_zero (by decide)
  obtain ⟨_, _, hunmap, r, s', hwalk, hsame, hr, _⟩ :=
    vmm_refines forkMap_ok pmmInit_forkMap hb (show 0 < 2 ^ 47 by decide)
  have hmapped : (s.pageMap forkSpace.1).phys 0 = 0x1000 := by
    have hlook := walkResult_eq s.mem root (show 0 < 2 ^ 47 by decide)
    rw [Kmem.pageMap, h.inv.root_eq]
    refine hlook.symm.trans ?_
    rw [leafAt, h.last (by decide), Option.bind_some, h.page.pt _ (by decide), if_pos rfl,
      if_pos (present_leafEntry _ _)]
    decide
  refine ⟨s, s', hb, hmapped, hunmap.1, ?_, hsame⟩
  rw [hwalk, hr]
  exact congrArg (fun x => some (x, s')) hmapped

end VortexOS.Mm
