/-
VortexOS.Proc.ElfKernel — the ELF loader and the kernel's addresses.

`elf_load` compares the addresses of the segments with nothing. Of an
address the tables see the lower 48 bits, and bit 47 says which half it is
in. A file whose pages have that bit clear leaves the kernel's translations
alone. Any other file is given pages in the upper half, for user mode
(`elfLoad_maps`), which is the same tables in all address spaces.
-/
import VortexOS.Mm.KernelHalf
import VortexOS.Proc.ExecStart

namespace VortexOS.Proc

open Lib Mm

lemma flags_user (phdr : Phdr) : phdr.flags.getLsbD 2 = true := by
  rw [Phdr.flags, BitVec.getLsbD_or]
  simp

/-- A page is allocated, mapped and filled. -/
def LoadsPage (elf : Image) (as : Nat) (phdr : Phdr) (v : Nat) (s s' : Kmem) : Prop :=
  ∃ p s1 s2, s.allocPage = some (p, s1) ∧ p ≠ 0 ∧
    vmmMapPage as v p phdr.flags s1 = some (true, s2) ∧
    fillPage elf phdr v (add64 p s2.hhdm) s2 = some s'

lemma LoadsPage.loadPage {elf : Image} {as v : Nat} {phdr : Phdr} {s s' : Kmem}
    (h : LoadsPage elf as phdr v s s') : loadPage elf as phdr v s = some (true, s') := by
  obtain ⟨p, s1, s2, halloc, hp, hmap, hfill⟩ := h
  simp only [Proc.loadPage, halloc, if_neg hp, hmap, hfill, Option.map_some]

/-- What a load of one page does besides mapping it: page `g` was free, and
now holds the part of the segment in the file. Where there is none, it holds
what it held before. -/
structure FrameLoaded (elf : Image) (phdr : Phdr) (v root g : Nat) (S : Set Nat) (s : Kmem)
    (a : AHeap) (s' : Kmem) (a' : AHeap) : Prop where
  maps : Maps root 4 s a s' a'
  page : g ∈ S
  free : g ∈ s.pmm.freePages
  plain : Plain s' a' root g
  bytes : ∀ o < pageSize, readByte s'.mem (g * pageSize + o) =
    phdr.byteAt elf (v + o) (readByte s.mem (g * pageSize + o))
  others : ∀ w, w / 512 ≠ g → (∀ p ∈ allPaths, tableAt s'.mem root p ≠ some (w / 512)) →
    s'.mem w = s.mem w

section

variable {elf : Image} {S : Set Nat} {s : Kmem} {a : AHeap} {fl : Nat → List Nat}
  {held : Set Block} {as root : Nat}

/-- One page, in either half: there is none, or the copy to it runs wild,
or it is filled and, if there are pages for its tables, mapped. -/
lemma loadPage_spec (elf : Image) (h : AllTables S s a fl held as root) (phdr : Phdr) {v : Nat}
    (hend : v + pageSize < 2 ^ 64) :
    (s.pmm.kFreePages = 0 ∧ loadPage elf as phdr v s = some (false, s)) ∨
    (phdr.Wild v ∧ loadPage elf as phdr v s = none) ∨
    ∃ g s' a' fl' held', ¬ phdr.Wild v ∧ loadPage elf as phdr v s = some (true, s') ∧
      AllTables S s' a' fl' held' as root ∧ FrameLoaded elf phdr v root g S s a s' a' ∧
      ((¬ LoadsPage elf as phdr v s s' ∧ s.pmm.kFreePages < 4 ∧ SameLeaves root s.mem s'.mem) ∨
        LoadsPage elf as phdr v s s' ∧
        SetLeaf root s.mem s'.mem v (leafEntry (pfnToPhys g) phdr.flags)) := by
  rcases h.takePage with
    ⟨hnull, hzero⟩ | ⟨g, s1, a1, fl1, held1, halloc, hphys, h1, hm1, hS, hfree, hg1, hmem⟩
  · refine Or.inl ⟨hzero, ?_⟩
    simp only [loadPage, hnull, if_true]
  · obtain ⟨ok, s2, a2, fl2, held2, hmap, h2, hm2, honly, hleaf⟩ :=
      h1.mapPage v (pfnToPhys g) phdr.flags
    have hg2 := hg1.maps hm2
    have hok : PageOk a2.hhdm g := h2.pageOk hS
    have hptr : add64 (pfnToPhys g) s2.hhdm = pagePtr a2.hhdm g := by
      rw [h2.hhdm]
      exact hok.add64_phys
    have hmap' : vmmMapPage as v (pfnToPhys g) phdr.flags s1 = some (ok, s2) := by
      rw [vmmMapPage, h1.pml4]
      exact hmap
    have hcall : loadPage elf as phdr v s =
        (fillPage elf phdr v (pagePtr a2.hhdm g) s2).map fun s => (true, s) := by
      simp only [loadPage, halloc, if_neg hphys, hmap', hptr]
    rw [hcall]
    rcases fillPage_cases elf phdr h2.hhdm hok (h2.small g hS) hend with
      ⟨htame, s3, hfill, hfilled⟩ | ⟨hwild, hfill⟩
    · obtain ⟨h3, hm3, hl3⟩ := h2.storePage hfilled.stores hg2
      refine Or.inr (Or.inr ⟨g, s3, a2, fl2, held2, htame, by rw [hfill, Option.map_some], h3,
        ⟨(hm1.trans hm2).trans hm3, hS, hfree, hg2.maps hm3, fun o ho => ?_, fun w hw ht => ?_⟩,
          ?_⟩)
      · -- mapping the page has not touched it
        have hold : readByte s2.mem (g * pageSize + o) = readByte s.mem (g * pageSize + o) := by
          have hword : (g * pageSize + o) / 8 / 512 = g := by
            simp only [pageSize] at *
            omega
          rw [← hmem, readByte, readByte,
            honly _ fun p hp hu => hg2.notTable p hp (hu.trans (congrArg some hword))]
        rw [hfilled.bytes o ho, hold]
      · rw [hfilled.stores.mem w hw, ← hmem]
        exact honly w fun p hp hu => ht p hp (hm3.stay p hp _ hu)
      · rw [hmem] at hleaf
        rcases hleaf with ⟨rfl, -, hlt, hsame⟩ | ⟨rfl, hset⟩
        · have hpages := hm1.pages
          refine Or.inl ⟨?_, by omega, hsame.trans hl3⟩
          rintro ⟨p, t1, t2, halloc', -, hmapped, -⟩
          cases halloc'.symm.trans halloc
          cases hmapped.symm.trans hmap'
        · refine Or.inr ⟨⟨_, s1, s2, halloc, hphys, hmap', ?_⟩, hset.before hl3⟩
          rw [hptr]
          exact hfill
    · exact Or.inr (Or.inl ⟨hwild, by rw [hfill, Option.map_none]⟩)

end

/-! On the machine with 32 pages: an address space with nothing in it. -/

def elfSpace : Nat × AHeap := (AHeap.start execBoot).newSpace.get (by decide)

lemma newSpace_execBoot : (AHeap.start execBoot).newSpace = some elfSpace :=
  (Option.some_get _).symm

lemma exists_elfSpace :
    ∃ s fl held root, VmInv execBoot.freePages s elfSpace.2 fl held elfSpace.1 root ∧
    ∀ i < 512, entryAt s.mem root i = 0 := by
  obtain ⟨fl0, held0, h⟩ := bootKernel_inv execMap_ok pmmInit_execMap fun _ => 0
  obtain ⟨as, s, a, fl, held, -, hspace, -, -, hres⟩ := h.toKernelInv.create 0
  obtain rfl : elfSpace.1 = as := by rw [Option.mem_unique newSpace_execBoot hspace]
  obtain rfl : elfSpace.2 = a := by rw [Option.mem_unique newSpace_execBoot hspace]
  obtain ⟨-, root, hnew⟩ := hres.resolve_left (by decide)
  obtain ⟨f, hobj⟩ := hnew.inv.object
  obtain ⟨hheld, hslab⟩ := hnew.inv.owned root ⟨[], tablePaths_nil, rfl⟩
  -- the same with the copied entries of the upper half taken out
  have hst : StoresTo {w | w / 512 = root} s
      { s with mem := fun w => if w / 512 = root then 0 else s.mem w } :=
    ⟨rfl, rfl, fun w hw => if_neg hw⟩
  have hblank : ∀ i < 512, entryAt (fun w => if w / 512 = root then 0 else s.mem w) root i = 0 :=
    fun i hi => if_pos (by omega)
  refine ⟨_, fl, held, root, ⟨hnew.inv.toKernelInv.stores hst fun w hw => ?_,
    spaceInv_of_empty ⟨f, hobj⟩ ?_ ⟨hheld, hslab⟩ fun i hi => hblank i (by omega)⟩, hblank⟩
  · exact (show w / 512 = root from hw) ▸ hslab
  · rw [← hnew.inv.pml4]
    refine hnew.inv.toKernelInv.pml4_congr hobj rfl fun w hw _ => if_neg fun heq => hslab ?_
    exact heq ▸ hw

end VortexOS.Proc
