/-
VortexOS.Mm.UserAccess — user-mode accesses and the entries for pages.

A read goes through when PRESENT and USER are set in every entry of the
walk, a write when WRITE is set as well. Of the faults `page_fault_handler`
returns from one kind only: a write to a page that is present. It gives the
page a copy and an entry with WRITE, and does not ask why WRITE was missing.

`UserSpace` is what the accesses keep. An access changes the entry of one
page at most, and only if it is a write that faults (`UserSpace.write`).
-/
import VortexOS.Mm.KernelHalf

namespace VortexOS.Mm

open Lib

/-! ## Accesses -/

def nextUser (e : BitVec 64) :
    Option Nat := if present e && isUser e then some (frameOf e) else none

/-- An access of one byte. Fetching an instruction is a read; the handler
does not look at the bit that tells the two apart. -/
inductive Access where
  | read (virt : Nat)
  | write (virt : Nat) (value : BitVec 8)

def Access.virt : Access → Nat
  | .read virt => virt
  | .write virt _ => virt

def readFaultCode (s : Kmem) (root virt : Nat) : Nat :=
  if (tableAt s.mem root (pathOf virt)).isSome then 5 else 4

/-- One access on the tables at `root`. An address that is not canonical is
a general protection fault, which is a panic. -/
def accessStep (root : Nat) (s : Kmem) (acc : Access) : Option Kmem :=
  if ¬ Canonical acc.virt then none
  else
    match acc with
    | .read virt =>
      match walk nextUser (entryAt s.mem) root (pathOf virt) with
      | some _ => some s
      | none => pageFaultHandler (readFaultCode s root virt) virt (pfnToPhys root) s
    | .write virt value => userWrite root virt value s

/-- The page of `v` is not mapped, or its entry does not have WRITE. -/
def ReadOnly (m : WordMem) (root v : Nat) : Prop :=
  ∀ e, leafAt m root (upperIdx v) (getPtIdx v) = some e → isWrite e = false

/-! ## Entries for pages -/

lemma pathOf_eq_iff {v w : Nat} :
    pathOf v = pathOf w ↔ upperIdx v = upperIdx w ∧ getPtIdx v = getPtIdx w := by
  rw [pathOf, pathOf, List.append_singleton_inj]

lemma frameOf_leafEntry {g : Nat} (hg : g < 2 ^ 40) {flags : BitVec 32}
    (hflags : flags.setWidth 64 &&& addrMask = 0) :
    frameOf (leafEntry (pfnToPhys g) flags) = g := by
  rw [leafEntry, frameOf_or _ (by decide), frameOf_or _ hflags, frameOf_and_addrMask,
    frameOf_phys hg]

section

variable {root v virt : Nat} {m m' : WordMem} {e : BitVec 64}

lemma SetLeaf.leaf_of_ne (h : SetLeaf root m m' virt e) (hne : pathOf virt ≠ pathOf v) :
    leafAt m' root (upperIdx v) (getPtIdx v) = leafAt m root (upperIdx v) (getPtIdx v) := by
  rw [h _ _ (lastSlot_of_virt v), if_neg]
  rintro ⟨hupper, hpt⟩
  exact hne (pathOf_eq_iff.mpr ⟨hupper.symm, hpt.symm⟩)

lemma leafAt_of_mapped (h : (tableAt m root (pathOf virt)).isSome) :
    ∃ e, leafAt m root (upperIdx virt) (getPtIdx virt) = some e := by
  rw [pathOf, tableAt_leaf, Option.isSome_map] at h
  exact Option.isSome_iff_exists.mp h

lemma leafAt_of_writable {f : Nat} (h : walk nextWritable (entryAt m) root (pathOf virt) = some f) :
    ∃ e, leafAt m root (upperIdx virt) (getPtIdx virt) = some e ∧ frameOf e = f ∧ isUser e = true ∧
    isWrite e = true := by
  rw [pathOf, walk_concat] at h
  obtain ⟨t, ht, hf⟩ := Option.bind_eq_some_iff.mp h
  obtain ⟨hframe, hwrite, huser⟩ := nextFrame_of_nextWritable hf
  obtain ⟨hp, hfr⟩ := nextFrame_eq_some.mp hframe
  refine ⟨_, ?_, hfr, huser, hwrite⟩
  rw [leafAt, tableAt_of_writable ht, Option.bind_some, if_pos hp]

end

/-! ## The invariant -/

/-- User mode has no page that is free, a slab or a table. -/
structure UserSpace (S : Set Nat) (s : Kmem) (a : AHeap) (fl : Nat → List Nat) (held : Set Block)
    (as root : Nat) : Prop extends AllTables S s a fl held as root where
  pages : ∀ q i, LastSlot q i → ∀ e, leafAt s.mem root q i = some e → isUser e = true →
    Plain s a root (frameOf e)

namespace UserSpace

variable {S : Set Nat} {s s' : Kmem} {a a' : AHeap} {fl fl' : Nat → List Nat}
    {held held' : Set Block}
  {as root n v virt : Nat} {e : BitVec 64}

lemma same (h : UserSpace S s a fl held as root) (h' : AllTables S s' a' fl' held' as root)
    (hm : Maps root n s a s' a') (hl : SameLeaves root s.mem s'.mem) :
    UserSpace S s' a' fl' held' as root := by
  refine ⟨h', fun q i hq e he huser => (h.pages q i hq e ?_ huser).maps hm⟩
  rw [← hl q i hq]
  exact he

lemma set (h : UserSpace S s a fl held as root) (h' : AllTables S s' a' fl' held' as root)
    (hm : Maps root n s a s' a') (hl : SetLeaf root s.mem s'.mem virt e)
    (he : Plain s' a' root (frameOf e)) : UserSpace S s' a' fl' held' as root := by
  refine ⟨h', fun q i hq e' he' huser => ?_⟩
  rw [hl q i hq] at he'
  split at he'
  · rw [← Option.some.inj he']
    exact he
  · exact (h.pages q i hq e' he' huser).maps hm

end UserSpace

section

variable {S : Set Nat} {s : Kmem} {a : AHeap} {fl : Nat → List Nat} {held : Set Block}
    {as root : Nat}

lemma AllTables.plain_zero (h : AllTables S s a fl held as root) : Plain s a root 0 where
  notFree hin := Nat.lt_irrefl 0 (h.pageOk (h.mem_freePages.mp hin).1).pos
  notSlab hin := Nat.lt_irrefl 0 (h.inv.page 0 hin).pos
  notTable p hp ht := Nat.lt_irrefl 0 (h.page p hp 0 ht).1.pos

end

/-! ## The page-fault handler -/

lemma pageFaultHandler_panics {code cr2 cr3 : Nat} {s : Kmem}
    (hcode : (code.testBit 0 && code.testBit 1 && code.testBit 2) = false) :
    pageFaultHandler code cr2 cr3 s = none := by
  unfold pageFaultHandler
  simp only [hcode, Bool.false_eq_true, if_false]

namespace UserSpace

variable {S : Set Nat} {s s' : Kmem} {a : AHeap} {fl : Nat → List Nat} {held : Set Block}
  {as root v virt : Nat} {e : BitVec 64}

section

variable (h : UserSpace S s a fl held as root)
include h

/-- The page that the handler takes, with the copy on it: a page of nobody,
or page 0 when there is none left. -/
lemma takeCopy (old : Nat) : ∃ g s1 s2 a2 fl2 held2, s.allocPage = some (pfnToPhys g, s1) ∧
    s1.copyEntries (List.range 512) (add64 old s1.hhdm) (add64 (pfnToPhys g) s1.hhdm) = s2 ∧
    UserSpace S s2 a2 fl2 held2 as root ∧ Maps root 1 s a s2 a2 ∧ SameLeaves root s.mem s2.mem ∧
    g < 2 ^ 40 ∧ Plain s2 a2 root g := by
  rcases h.takePage with ⟨hnull, -⟩ | ⟨g, s1, a1, fl1, held1, halloc, -, h1, hm1, hS, -, hg, hmem⟩
  · have hh : s.hhdm ≤ 2 ^ 64 := by
      rw [h.hhdm]
      exact h.root_ok.lt.2
    obtain ⟨h2, hm2, hl2⟩ := h.storePage
      (copyPage_stores (g := 0) hh (by decide) (add64 old s.hhdm))
      h.plain_zero
    exact ⟨0, s, _, a, fl, held, hnull, rfl, h.same h2 hm2 hl2, hm2.trans (.refl root 1 _ a), hl2,
      by decide, h.plain_zero.maps hm2⟩
  · have hh : s1.hhdm ≤ 2 ^ 64 := by
      rw [h1.hhdm]
      exact h1.root_ok.lt.2
    obtain ⟨h2, hm2, hl2⟩ := h1.storePage
      (copyPage_stores hh (h1.pageOk hS).lt.1 (add64 old s1.hhdm)) hg
    rw [hmem] at hl2
    exact ⟨g, s1, _, a1, fl1, held1, halloc, rfl, h.same h2 (hm1.trans hm2) hl2, hm1.trans hm2, hl2,
      h.small g hS, hg.maps hm2⟩

/-- A write fault on a page that is present. The handler panics if the page
is page 0. Otherwise it maps a copy with WRITE and USER. -/
lemma fault (he : leafAt s.mem root (upperIdx virt) (getPtIdx virt) = some e) :
    (frameOf e = 0 ∧ pageFaultHandler 7 virt (pfnToPhys root) s = none) ∨
    ∃ g s' a' fl' held', pageFaultHandler 7 virt (pfnToPhys root) s = some s' ∧
    UserSpace S s' a' fl' held' as root ∧ SetLeaf root s.mem s'.mem virt (cowEntry g) := by
  have hcode : (Nat.testBit 7 0 && Nat.testBit 7 1 && Nat.testBit 7 2) = true := by decide
  have hpml4 : add64 (pfnToPhys root) s.hhdm = pagePtr a.hhdm root := by
    rw [h.hhdm]
    exact h.root_ok.add64_phys
  obtain ⟨r, s1, a1, fl1, held1, hwalk, h1, hm1, hl1, hr⟩ := h.walkPageTable (pageAlignDown virt)
  rw [upperIdx_pageAlignDown, getPtIdx_pageAlignDown] at hr
  obtain rfl := hr e he
  unfold pageFaultHandler
  simp only [hcode, if_true, hpml4, hwalk]
  by_cases hzero : pfnToPhys (frameOf e) = 0
  · exact Or.inl ⟨pfnToPhys_eq_zero.mp hzero, by rw [if_pos hzero]⟩
  · rw [if_neg hzero]
    have hu1 := h.same h1 hm1 hl1
    obtain ⟨g, s2, s3, a3, fl3, held3, halloc, hcopy, h3, hm3, hl3, hsmall, hg⟩ :=
      hu1.takeCopy (pfnToPhys (frameOf e))
    obtain ⟨ok, s4, a4, fl4, held4, hmap, h4, hm4, -, hres⟩ :=
      h3.mapPage (pageAlignDown virt) (pfnToPhys g)
      ((pageWrite ||| pageUser).setWidth 32)
    rw [hm3.hhdm, hm1.hhdm] at hmap
    have hl := hl1.trans hl3
    refine Or.inr ⟨g, s4, a4, fl4, held4, by simp only [halloc, hcopy, hmap, Option.map_some], ?_⟩
    rcases hres with ⟨-, hnone, -⟩ | ⟨-, hset⟩
    · -- the tables on the way to the page are there
      rw [← hl _ _ (lastSlot_of_virt virt), leafAt] at he
      rw [upperIdx_pageAlignDown] at hnone
      rw [hnone] at he
      cases he
    · have hset' : SetLeaf root s3.mem s4.mem virt (cowEntry g) := by
        intro q i hq
        rw [hset q i hq, upperIdx_pageAlignDown, getPtIdx_pageAlignDown]
        rfl
      have hframe : frameOf (cowEntry g) = g := frameOf_leafEntry hsmall (by decide)
      exact ⟨h3.set h4 hm4 hset' (hframe.symm ▸ hg.maps hm4), hset'.after hl⟩

lemma write {value : BitVec 8} (hcall : userWrite root virt value s = some s') :
    ∃ a' fl' held', UserSpace S s' a' fl' held' as root ∧
      ((¬ ReadOnly s.mem root virt ∧ SameLeaves root s.mem s'.mem) ∨
        ∃ g, SetLeaf root s.mem s'.mem virt (cowEntry g)) := by
  unfold userWrite at hcall
  cases hw : walk nextWritable (entryAt s.mem) root (pathOf virt) with
  | some f =>
    simp only [hw] at hcall
    cases hcall
    obtain ⟨e, he, rfl, huser, hwrite⟩ := leafAt_of_writable hw
    have hplain := h.pages _ _ (lastSlot_of_virt virt) e he huser
    have hst : StoresTo {w | w / 512 = frameOf e} s
        { s with mem := writeByte s.mem (frameOf e * pageSize + virt % pageSize) value } := by
      refine ⟨rfl, rfl, fun w hne => writeByte_other value fun heq => hne ?_⟩
      have hlt : virt % pageSize < pageSize := Nat.mod_lt _ (by decide)
      simp only [Set.mem_ofPred_eq, pageSize] at *
      omega
    obtain ⟨h', hm, hl⟩ := h.storePage hst hplain
    refine ⟨a, fl, held, h.same h' hm hl, Or.inl ⟨fun hro => ?_, hl⟩⟩
    rw [hro e he] at hwrite
    cases hwrite
  | none =>
    simp only [hw, faultCode] at hcall
    split at hcall
    · rename_i hmapped
      obtain ⟨e, he⟩ := leafAt_of_mapped hmapped
      rcases h.fault he with ⟨-, hpanic⟩ | ⟨g, s1, a', fl', held', hret, h', hset⟩
      · rw [hpanic] at hcall
        cases hcall
      · cases hret.symm.trans hcall
        exact ⟨a', fl', held', h', Or.inr ⟨g, hset⟩⟩
    · rw [pageFaultHandler_absent] at hcall
      cases hcall

end

/-- No fault of a read is one that the handler returns from. -/
lemma read (hcall : accessStep root s (.read virt) = some s') : s' = s := by
  unfold accessStep at hcall
  split at hcall
  · cases hcall
  · simp only at hcall
    split at hcall
    · exact (Option.some.inj hcall).symm
    · have hcode : ∀ b : Bool, pageFaultHandler (if b then 5 else 4) virt
          (pfnToPhys root) s = none := fun b => pageFaultHandler_panics (by cases b <;> decide)
      rw [readFaultCode, hcode] at hcall
      cases hcall

end UserSpace

end VortexOS.Mm
