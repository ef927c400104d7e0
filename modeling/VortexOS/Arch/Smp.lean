/-
VortexOS.Arch.Smp — the memory that `arch/x86_64/smp.cpp` uses to start
the other processors.

`smp_init` copies the trampoline to physical address 0x8000 and then asks
the page allocator for one stack of four pages for each processor. The
allocator does not know about the trampoline: the page is its own like any
other if the memory map says that it is usable. So it is kept apart exactly
if the map does (`trampoline_apart_iff`).
-/
import VortexOS.Mm.PmmRuns

namespace VortexOS.Arch

open Lib Mm

def trampolinePhys : Nat := 0x8000

def trampolinePfn : Nat := physToPfn trampolinePhys

/-- The call of `pmm_alloc_pages` for the stack of a processor. -/
def apStack : PmmCall := .alloc 4

/-- The calls up to the end of `smp_init`: any before it, and one for each
of `n` processors. -/
def smpCalls (before : List PmmCall) (n : Nat) : List PmmCall := before ++ List.replicate n apStack

/-- Neither `kFrames` nor a block that has been handed out has the
trampoline's page. -/
def TrampolineFree (s0 : Pmm) (s : PmmSys) : Prop :=
  trampolinePfn ∉ metadataPages s0 ∧ ∀ b ∈ s.live, trampolinePfn ∉ b.cells

/-! ## What a memory map does with a page -/

/-- The page is one of a usable entry. An entry that ends at `2 ^ 64` has
none, as its end address is zero. -/
def IsUsable (entries : List MemmapEntry) (x : Nat) : Prop :=
  ∃ e ∈ entries, e.type = .usable ∧ e.startPfn ≤ x ∧ x < e.endPfn

section

variable {entries : List MemmapEntry} {hhdm : Nat} {ram : Nat → PageFrame} {s0 : Pmm}
  {fl : Nat → List Nat} {ms me : Nat}

lemma mem_listedPages_iff (hstart : PmmStart entries hhdm ram s0 fl ms me) (x : Nat) :
    x ∈ listedPages ms me entries ↔ IsUsable entries x ∧ x ∉ metadataPages s0 := by
  rw [hstart.metadata x]
  constructor
  · rintro ⟨e, he, hu, hin, hmeta⟩
    exact ⟨⟨e, he, hu, hin⟩, hmeta⟩
  · rintro ⟨⟨e, he, hu, hin⟩, hmeta⟩
    exact ⟨e, he, hu, hin, hmeta⟩

end

/-! ## Handing out everything -/

section

variable {S : Set Nat} {s0 : Pmm} {s : PmmSys} {fl : Nat → List Nat}

lemma exists_allocs_holding (n : Nat) : ∀ {s : PmmSys} {fl : Nat → List Nat}, SysInv S s0 s fl →
    0 ∉ S → s.pmm.kFreePages ≤ n → ∀ x ∈ S, ∃ calls s', Along pmmStep PmmLegal s calls ∧
      run pmmStep s calls = some s' ∧ ∃ b ∈ s'.live, x ∈ b.cells := by
  induction n with
  | zero =>
    intro s fl h h0 hn x hx
    refine ⟨[], s, trivial, rfl, ?_⟩
    by_contra hno
    -- then the page is in a free block, which counts
    have hfree : x ∈ s.pmm.freePages :=
      h.inv.mem_freePages.mpr ⟨hx, fun b hb hin => hno ⟨b, hb, hin⟩⟩
    obtain ⟨b, hb, -⟩ := hfree
    have hle := h.inv.pow_le_kFreePages (h.inv.repr.mem_freeBlockList.mp hb)
    have hpos : 0 < 2 ^ b.order := Nat.two_pow_pos _
    omega
  | succ n ih =>
    intro s fl h h0 hn x hx
    by_cases hzero : s.pmm.kFreePages = 0
    · exact ih h h0 (by omega) x hx
    · obtain ⟨s1, fl1, hstep, h1, -⟩ := h.alloc h0 (show 1 ≤ 2 ^ 52 by decide)
      obtain ⟨r, hcall, hr⟩ := Option.map_eq_some_iff.mp hstep
      have hpage : pmmAllocPage s.pmm = some (r.1, r.2) := hcall
      obtain ⟨hnull, -, hcount⟩ := pmmAllocPage_count h.inv h0 hpage
      have hne : ¬ r.1 = 0 := fun hr0 => hzero (hnull.mp hr0)
      have hpmm : s1.pmm = r.2 := by rw [← hr]
      rw [if_neg hne, ← hpmm] at hcount
      obtain ⟨calls, s', hlegal, hrun, hheld⟩ := ih h1 h0 (by omega) x hx
      refine ⟨.alloc 1 :: calls, s', ⟨⟨by decide, by decide⟩, fun s2 hs2 => ?_⟩, ?_, hheld⟩
      · rwa [← Option.mem_unique hstep hs2]
      · rw [run, hstep, Option.bind_some, hrun]

end

/-! ## The trampoline -/

/-- The trampoline's page is never anything else, whatever is allocated
before `smp_init` and by it, exactly if the memory map does not have it as
usable and no part of `kFrames` is put there. -/
theorem trampoline_apart_iff (entries : List MemmapEntry) (hhdm : Nat) (ram : Nat → PageFrame)
    (hok : MemmapOk entries) (hh : hhdm < 2 ^ 64) : ∃ s0, pmmInit entries hhdm ram = some s0 ∧
      ((∀ before n s, Along pmmStep PmmLegal ⟨s0, []⟩ before →
          run pmmStep ⟨s0, []⟩ (smpCalls before n) = some s → TrampolineFree s0 s) ↔
        ¬ IsUsable entries trampolinePfn ∧ ¬ HoldsMetadata entries trampolinePfn) := by
  obtain ⟨s0, fl0, ms, me, hinit, hstart⟩ := pmmInit_spec hok hh ram
  have h0 : 0 ∉ listedPages ms me entries := hok.zero_notMem
  have hmeta := mem_metadataPages_iff hok hh hinit
  have hlisted := mem_listedPages_iff hstart
  refine ⟨s0, hinit, fun hfree => ?_, fun hmap before n s hlegal hrun => ?_⟩
  · have hnometa : trampolinePfn ∉ metadataPages s0 := (hfree [] 0 _ trivial rfl).1
    refine ⟨fun husable => ?_, fun hm => hnometa ((hmeta _).mpr hm)⟩
    -- the page is on a free list, so some sequence of calls gets it
    obtain ⟨calls, s, hlegal, hrun, b, hb, hin⟩ :=
      exists_allocs_holding s0.kFreePages hstart.sysInv h0
      (Nat.le_refl _) trampolinePfn ((hlisted _).mpr ⟨husable, hnometa⟩)
    have hcalls : smpCalls calls 0 = calls := by simp [smpCalls]
    exact (hfree calls 0 s hlegal (hcalls.symm ▸ hrun)).2 b hb hin
  · have hnometa : trampolinePfn ∉ metadataPages s0 := fun hm => hmap.2 ((hmeta _).mp hm)
    refine ⟨hnometa, fun b hb hin => ?_⟩
    have hstep : ∀ s c s', (∃ fl, SysInv (listedPages ms me entries) s0 s fl) → PmmLegal s c →
        pmmStep s c = some s' → ∃ fl, SysInv (listedPages ms me entries) s0 s' fl := by
      rintro s c s' ⟨fl, h⟩ hl hs
      obtain ⟨s1, fl1, hs1, h1, -⟩ := h.step h0 hl
      exact ⟨fl1, Option.mem_unique hs1 hs ▸ h1⟩
    rw [smpCalls, run_append] at hrun
    obtain ⟨s1, hbefore, hstacks⟩ := Option.bind_eq_some_iff.mp hrun
    have h1 := run_preserves _ hstep ⟨fl0, hstart.sysInv⟩ hlegal hbefore
    have hlegal' : Along pmmStep PmmLegal s1 (List.replicate n apStack) :=
      Along.mono (fun s c (hc : c = apStack) => hc ▸ ⟨by decide, by decide⟩)
        (Along.of_forall fun c hc => List.eq_of_mem_replicate hc)
    obtain ⟨fl, h⟩ := run_preserves _ hstep h1 hlegal' hstacks
    exact hmap.1 ((hlisted _).mp (h.inv.tiles.cells_subset (Or.inr hb) hin)).1

theorem trampoline_apart_smallMap :
    ∃ s, run pmmStep ⟨smallStart, []⟩ (smpCalls [.alloc 1] 1) = some s ∧
    TrampolineFree smallStart s := by
  obtain ⟨s0, hinit, hiff⟩ := trampoline_apart_iff smallMap 0
    (fun _ => blankFrame) smallMap_ok (by decide)
  rw [pmmInit_smallMap] at hinit
  obtain rfl := Option.some.inj hinit
  have hsome : (run pmmStep ⟨smallStart, []⟩ (smpCalls [.alloc 1] 1)).isSome := by decide
  obtain ⟨s, hs⟩ := Option.isSome_iff_exists.mp hsome
  have hmap : ¬ IsUsable smallMap trampolinePfn ∧ ¬ HoldsMetadata smallMap trampolinePfn := by
    constructor
    · unfold IsUsable
      decide
    · rintro ⟨place, hplace, i, hi, hpage⟩
      obtain rfl : (⟨3 * pageSize, 3 * pageSize, .usable⟩ : MemmapEntry) = place :=
        Option.some.inj ((show findMetadataEntry smallMap
          (metadataSize smallMap) = some _ by rfl).symm.trans hplace)
      have hsize : metadataSize smallMap = 192 := by decide
      have htramp : trampolinePfn = 8 := by decide
      simp only [pageSize] at hpage
      omega
  exact ⟨s, hs, hiff.mpr hmap [.alloc 1] 1 s (by decide) hs⟩

def lowMap : List MemmapEntry := [⟨7 * pageSize, 5 * pageSize, .usable⟩]

lemma lowMap_ok : MemmapOk lowMap := .single (by decide)

def lowStart : Pmm := (pmmInit lowMap 0 fun _ => blankFrame).get (by decide)

/-- The stack of the first processor is put over the trampoline. -/
theorem trampoline_handed_out :
    MemmapOk lowMap ∧ pmmInit lowMap 0 (fun _ => blankFrame) = some lowStart ∧
    (run pmmStep ⟨lowStart, []⟩ (smpCalls [] 1)).map PmmSys.live = some [⟨2, trampolinePfn⟩] ∧
    trampolinePfn ∈ (⟨2, trampolinePfn⟩ : Block).cells :=
  ⟨lowMap_ok, (Option.some_get _).symm, by decide, Block.base_mem_cells _⟩

end VortexOS.Arch
