/-
VortexOS.Mm.CowStarved — copy-on-write faults when there is no page left.

`pmm_alloc_page` returns address 0 then, and `page_fault_handler` takes it
for a page: it copies the old page to frame 0, through the direct map, and
maps frame 0 for user mode, with WRITE. Only a page that was mapped to
frame 0 already is left alone, since there the handler panics
(`starved_fault_iff`).
-/
import VortexOS.Mm.CowFault

namespace VortexOS.Mm

open Lib

/-- Frame 0 has not changed, no entry of a table of the address space has
come to lead to it, and the page at `virt` is in the frame `f` that it was
in. -/
structure ZeroKept (s : Kmem) (root virt f : Nat) (s' : Kmem) : Prop where
  frame : ∀ i < 512, entryAt s'.mem 0 i = entryAt s.mem 0 i
  entries : ∀ u ∈ userTables s.mem root, ∀ i < 512, nextFrame (entryAt s'.mem u i) = some 0 →
    nextFrame (entryAt s.mem u i) = some 0
  old : ∃ e, leafAt s'.mem root (upperIdx virt) (getPtIdx virt) = some e ∧ frameOf e = f

section

variable {s : Kmem} {root virt errorCode t f : Nat}

lemma WriteFault.starved (h : WriteFault s root virt errorCode t f)
    (hnone : pmmAllocPage s.pmm = some (0, s.pmm)) (hf0 : f ≠ 0) :
    ∃ s', pageFaultHandler errorCode virt (pfnToPhys root) s = some s' ∧
    CowStores s.mem s'.mem t (getPtIdx virt) f 0 :=
  pageFaultHandler_stores _ h.code
    (fun p hp u hu => ⟨h.direct p hp u hu, (h.direct p hp u hu).pos.ne'⟩)
    h.last h.mapped hf0 hnone ⟨.refl _, fun _ => rfl, fun _ => rfl⟩ (by decide) hf0

/-- **With no page left, a write fault is harmless** exactly if the page is
mapped to frame 0 already. `vmm_map_page` does not fail, whatever page there
is. -/
theorem starved_fault_iff (h : WriteFault s root virt errorCode t f) :
    (pmmAllocPage s.pmm = some (0, s.pmm) →
    ((∀ s', pageFaultHandler errorCode virt (pfnToPhys root) s = some s' →
      ZeroKept s root virt f s') ↔ f = 0)) ∧ ∀ g pmm, pmm.kHhdmOffset = s.hhdm → g < 2 ^ 52 →
    (∀ p, p <+: upperIdx virt → tableAt s.mem root p ≠ some g) →
    ∃ s', mapPage (add64 (pfnToPhys root) s.hhdm) (pageAlignDown virt) (pfnToPhys g)
      ((pageWrite ||| pageUser).setWidth 32) (Kmem.copyEntries (List.range 512)
        (add64 (pfnToPhys f) s.hhdm) (add64 (pfnToPhys g) s.hhdm) { s with pmm := pmm }) =
      some (true, s') := by
  refine ⟨fun hnone => ⟨fun hsafe => ?_, ?_⟩, fun g pmm hh hg hway => ?_⟩
  · by_contra hf0
    obtain ⟨s', hcall, hst⟩ := h.starved hnone hf0
    -- the slot of the page leads to frame 0 now
    have hslot := (hsafe s' hcall).entries t ⟨_, upperIdx_mem h.user, h.last⟩ (getPtIdx virt)
      (and_511_lt _) (by rw [hst.slot]; exact nextFrame_cowEntry (by decide))
    exact hf0 (Option.mem_unique h.mapped hslot)
  · rintro rfl s' hcall
    rw [pageFaultHandler_zero h.code h.direct h.last h.mapped] at hcall
    cases hcall
  · have hh' : Kmem.hhdm { s with pmm := pmm } = s.hhdm := hh
    obtain ⟨m, hmap, -⟩ := mapPage_copy (s := { s with pmm := pmm }) hg
      (fun p hp u hu => ⟨hh'.symm ▸ h.direct p hp u hu,
        fun heq => hway p hp (heq ▸ hu)⟩) h.last h.mapped
    rw [hh'] at hmap
    rw [(h.direct [] List.nil_prefix root rfl).add64_phys]
    exact ⟨_, hmap⟩

end

/-! A machine with no page left. Pages 1 to 4 are the tables on the way to
address 0, which is mapped to page `f`, read-only. Page 5 holds ones. -/

def starvedMem (f : Nat) : WordMem := fun w =>
  if w = 512 then 0x2007
  else if w = 1024 then 0x3007
  else if w = 1536 then 0x4007
  else if w = 2048 then BitVec.ofNat 64 (f * 4096 + 5)
  else if w / 512 = 5 then 1
  else 0

def starvedMachine (f : Nat) : Kmem :=
  ⟨⟨0, fun _ => blankFrame, 32, 0, 0, fun _ => none⟩, starvedMem f, fun _ _ => 0⟩

lemma tables_starved : ∀ f < 8, tableAt (starvedMem f) 1 (upperIdx 0) = some 4 ∧
    nextFrame (entryAt (starvedMem f) 4 (getPtIdx 0)) = some f ∧
    ∀ p ∈ (upperIdx 0).inits, ((tableAt (starvedMem f) 1 p).all fun u => 0 < u ∧ u < 8) = true := by
  decide

lemma writeFault_starved {f : Nat} (hf : f < 8) : WriteFault (starvedMachine f) 1 0 7 4 f where
  code := by decide
  user := by decide
  direct := by
    intro p hp u hu
    have hway := (tables_starved f hf).2.2 p ((List.mem_inits p _).mpr hp)
    have hhdm : (starvedMachine f).hhdm = 0 := rfl
    rw [show tableAt (starvedMem f) 1 p = some u from hu, Option.all_some,
      decide_eq_true_eq] at hway
    refine ⟨hway.1, ?_⟩
    rw [hhdm]
    simp only [pageSize]
    omega
  last := (tables_starved f hf).1
  mapped := (tables_starved f hf).2.1

/-- The page is in frame 0: the handler panics. -/
theorem starved_fault_zero :
    pmmAllocPage (starvedMachine 0).pmm = some (0, (starvedMachine 0).pmm) ∧
    ∀ s', pageFaultHandler 7 0 (pfnToPhys 1) (starvedMachine 0) = some s' →
      ZeroKept (starvedMachine 0) 1 0 0 s' :=
  ⟨rfl, ((starved_fault_iff (writeFault_starved (by decide))).1 rfl).mpr rfl⟩

/-- The page is in frame 5: frame 0 is overwritten with its contents, and
the page is in frame 0 then, writable for user mode. -/
theorem starved_fault_maps_zero : ∃ s', WriteFault (starvedMachine 5) 1 0 7 4 5 ∧
    pmmAllocPage (starvedMachine 5).pmm = some (0, (starvedMachine 5).pmm) ∧
    pageFaultHandler 7 0 (pfnToPhys 1) (starvedMachine 5) = some s' ∧
    (∀ i < 512, entryAt (starvedMachine 5).mem 0 i = 0 ∧ entryAt s'.mem 0 i = 1) ∧
    leafAt s'.mem 1 (upperIdx 0) (getPtIdx 0) = some (cowEntry 0) ∧ frameOf (cowEntry 0) = 0 ∧
    isWrite (cowEntry 0) = true ∧ isUser (cowEntry 0) = true ∧
    ¬ ZeroKept (starvedMachine 5) 1 0 5 s' := by
  have h : WriteFault (starvedMachine 5) 1 0 7 4 5 := writeFault_starved (by decide)
  obtain ⟨s', hcall, hst⟩ := h.starved rfl (by decide)
  have hframe : ∀ i < 512, entryAt (starvedMachine 5).mem 0 i = 0 ∧
    entryAt (starvedMachine 5).mem 5 i = 1 := by
    decide +kernel
  have hleaf : leafAt s'.mem 1 (upperIdx 0) (getPtIdx 0) = some (cowEntry 0) := by
    refine hst.leaf_slot h.mapped (by decide) (upperIdx_lt 0) (fun p hp hu => ?_) h.last (by decide)
    exact Nat.lt_irrefl 0 (h.direct p hp 0 hu).pos
  refine ⟨s', h, rfl, hcall, fun i hi => ⟨(hframe i hi).1, ?_⟩,
    hleaf, by decide, by decide, by decide, fun hkept => ?_⟩
  · rw [hst.copy i hi]
    exact (hframe i hi).2
  · obtain ⟨e, he, hold⟩ := hkept.old
    rw [hleaf] at he
    cases he
    exact absurd hold (by decide)

end VortexOS.Mm
