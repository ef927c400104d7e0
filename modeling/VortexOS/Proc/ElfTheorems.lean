/-
VortexOS.Proc.ElfTheorems — what the ELF loader changes.

A load that returns has put pages into the address space it was given and
has changed nothing else that was in use (`elfLoad_growth`), for files whose
segments lie in the lower half. The bytes it copies stay on the page they
are for. A segment whose end wraps around can make the loop run on, but such
a copy runs out of the direct map and does not return (`copyBytes_wild`).
-/
import VortexOS.Mm.VmmFrame
import VortexOS.Proc.Elf

namespace VortexOS.Proc

open Lib Mm

variable {o src n v i entry : Nat} {phdr : Phdr} {body : Nat → Kmem → Option (Bool × Kmem)}
  {is : List Nat}

/-! ## Copying -/

section

variable {elf : Image} {s s' : Kmem} {hhdm g : Nat}

lemma storesTo_writeByte {f : Nat} (ho : o < pageSize) (b : BitVec 8) :
    StoresTo {w | w / 512 = f} s { s with mem := writeByte s.mem (f * pageSize + o) b } := by
  refine ⟨rfl, rfl, fun w hw => writeByte_other b fun heq => hw ?_⟩
  simp only [Set.mem_ofPred_eq, pageSize] at ho heq ⊢
  omega

lemma copyBytes_page (elf : Image) (hsrc : src < 2 ^ 64) (hs : s.hhdm = hhdm) (hok : PageOk hhdm g)
    (hg : g < 2 ^ 40) (hn : o + n ≤ pageSize) :
    ∃ s', copyBytes elf src (add64 (pagePtr hhdm g) o) n s = some s' ∧
    StoresTo {w | w / 512 = g} s s' ∧ ∀ i, readByte s'.mem (g * pageSize + i) =
      if o ≤ i ∧ i < o + n then elf (add64 src (i - o)) else readByte s.mem (g * pageSize + i) := by
  induction n generalizing src o s with
  | zero => exact ⟨s, rfl, .refl _ s, fun i => by rw [if_neg (by omega)]⟩
  | succ n ih =>
    have ho : o < pageSize := by omega
    have hva : add64 (pagePtr hhdm g) o = pagePtr hhdm g + o := add64_of_lt (hok.ptr_lt ho)
    have hphys : sub64 (pagePtr hhdm g + o) s.hhdm = g * pageSize + o := by
      rw [hs, hok.sub64_ptr ho]
    have hlt : g * pageSize + o < 2 ^ 52 := by
      simp only [pageSize] at ho ⊢
      omega
    have hnext : add64 (add64 (pagePtr hhdm g) o) 1 = add64 (pagePtr hhdm g) (o + 1) :=
      add64_add64 _ _ _
    have hst := storesTo_writeByte (s := s) (f := g) ho (elf src)
    obtain ⟨s', hcall, hst', hbytes⟩ := ih (add64_lt src 1)
      (s := { s with mem := writeByte s.mem (g * pageSize + o) (elf src) }) hs (o := o + 1)
        (by omega)
    refine ⟨s', ?_, hst.trans hst', fun i => ?_⟩
    · rw [hva] at hnext ⊢
      simp only [copyBytes, storeByte, hphys, if_pos hlt, hnext]
      exact hcall
    · rw [hbytes]
      by_cases hfirst : i = o
      · have hself : add64 src (i - o) = src := by
          rw [hfirst, Nat.sub_self]
          exact add64_of_lt hsrc
        rw [if_neg (by omega), if_pos (by omega), hself, hfirst]
        exact readByte_writeByte _ _ _
      · have hkeep : readByte (writeByte s.mem (g * pageSize + o) (elf src)) (g * pageSize + i) =
            readByte s.mem (g * pageSize + i) := readByte_writeByte_of_ne _ _ (by omega)
        by_cases hin : o + 1 ≤ i ∧ i < o + 1 + n
        · have hindex : 1 + (i - (o + 1)) = i - o := by omega
          rw [if_pos hin, if_pos (by omega), add64_add64, hindex]
        · rw [if_neg hin, if_neg (by omega)]
          exact hkeep

lemma copyBytes_wild (hs : s.hhdm = hhdm) {dst : Nat} (hdst : sub64 dst hhdm ≤ 2 ^ 52)
    (hn : 2 ^ 52 < sub64 dst hhdm + n) : copyBytes elf src dst n s = none := by
  induction n generalizing src dst s with
  | zero => exact absurd hn (Nat.not_lt.mpr hdst)
  | succ n ih =>
    unfold copyBytes storeByte
    simp only [hs]
    by_cases hlt : sub64 dst hhdm < 2 ^ 52
    · have hnext : sub64 (add64 dst 1) hhdm = sub64 dst hhdm + 1 := by
        unfold sub64 add64 at *
        omega
      simp only [if_pos hlt]
      exact ih (s := { s with mem := writeByte s.mem (sub64 dst hhdm) (elf src) }) hs (by omega)
        (by omega)
    · simp only [if_neg hlt]

def Phdr.InFile (phdr : Phdr) (x : Nat) : Prop :=
  phdr.pVaddr ≤ x ∧ x < add64 phdr.pVaddr phdr.pFilesz

instance (phdr : Phdr) (x : Nat) : Decidable (phdr.InFile x) := inferInstanceAs (Decidable (_ ∧ _))

/-- The byte at `x` after the copy, if it was `old`. -/
def Phdr.byteAt (elf : Image) (phdr : Phdr) (x : Nat) (old : BitVec 8) : BitVec 8 :=
  if phdr.InFile x then elf (add64 phdr.pOffset (x - phdr.pVaddr)) else old

/-- The end of the segment wraps around to an address below its start and
on the same page. -/
def Phdr.Wild (phdr : Phdr) (v : Nat) : Prop :=
  v < add64 phdr.pVaddr phdr.pFilesz ∧ add64 phdr.pVaddr phdr.pFilesz < phdr.pVaddr ∧
    phdr.pVaddr < v + pageSize

instance (phdr : Phdr) (v : Nat) : Decidable (phdr.Wild v) := inferInstanceAs (Decidable (_ ∧ _))

/-- `s'` is `s` with the part of the segment in the file that falls on the
page at `v` copied to page `g`. -/
structure Filled (elf : Image) (phdr : Phdr) (v g : Nat) (s s' : Kmem) : Prop where
  stores : StoresTo {w | w / 512 = g} s s'
  bytes : ∀ o < pageSize, readByte s'.mem (g * pageSize + o) =
    phdr.byteAt elf (v + o) (readByte s.mem (g * pageSize + o))

/-- The ends of the copy to the page at `v`, and the distances that
`fillPage` has of them. -/
lemma copy_range {segStart segEnd copyStart copyEnd : Nat} (hv : v + pageSize < 2 ^ 64)
    (hseg : segEnd < 2 ^ 64) (hmeet : ¬ (v + pageSize ≤ segStart ∨ v ≥ segEnd))
    (hstart : (if v < segStart then segStart else v) = copyStart)
    (hend : (if v + pageSize > segEnd then segEnd else v + pageSize) = copyEnd) :
    copyStart = max segStart v ∧ copyEnd = min segEnd (v + pageSize) ∧ copyStart < v + pageSize ∧
    sub64 copyStart v = copyStart - v ∧ sub64 copyStart segStart = copyStart - segStart ∧
    (copyStart ≤ copyEnd → sub64 copyEnd copyStart = copyEnd - copyStart) ∧
    (copyEnd < copyStart → 2 ^ 64 - pageSize < sub64 copyEnd copyStart) := by
  have hmax : copyStart = max segStart v := by
    rw [← hstart]
    split <;> omega
  have hmin : copyEnd = min segEnd (v + pageSize) := by
    rw [← hend]
    split <;> omega
  clear hstart hend
  simp only [pageSize] at *
  have hlt : copyStart < v + 4096 := by omega
  have hge : v ≤ copyStart ∧ segStart ≤ copyStart := by omega
  refine ⟨hmax, hmin, hlt, sub64_of_le (by omega) hge.1, sub64_of_le (by omega) hge.2,
    fun hle => sub64_of_le (by omega) hle, fun hwrap => ?_⟩
  have hnear : copyStart < copyEnd + 4096 := by omega
  simp only [sub64]
  omega

/-- The copy to the page at `v` returns unless it runs wild. -/
lemma fillPage_cases (elf : Image) (phdr : Phdr) (hs : s.hhdm = hhdm) (hok : PageOk hhdm g)
    (hg : g < 2 ^ 40) (hv : v + pageSize < 2 ^ 64) :
    (¬ phdr.Wild v ∧ ∃ s', fillPage elf phdr v (pagePtr hhdm g) s = some s' ∧
      Filled elf phdr v g s s') ∨ phdr.Wild v ∧ fillPage elf phdr v (pagePtr hhdm g) s = none := by
  have hpageEnd : add64 v pageSize = v + pageSize := add64_of_lt hv
  have hsegEnd := add64_lt phdr.pVaddr phdr.pFilesz
  have hin : ∀ x, phdr.InFile x ↔ phdr.pVaddr ≤ x ∧ x < add64 phdr.pVaddr phdr.pFilesz :=
    fun _ => Iff.rfl
  unfold fillPage Phdr.Wild
  simp only [hpageEnd]
  generalize add64 phdr.pVaddr phdr.pFilesz = segEnd at hsegEnd hin ⊢
  by_cases hmeet : v + pageSize ≤ phdr.pVaddr ∨ v ≥ segEnd
  · refine Or.inl ⟨by omega, s, if_pos hmeet, .refl _ s, fun o ho => ?_⟩
    rw [Phdr.byteAt, if_neg]
    rw [hin]
    omega
  · rw [if_neg hmeet]
    generalize hcs : (if v < phdr.pVaddr then phdr.pVaddr else v) = copyStart
    generalize hce : (if v + pageSize > segEnd then segEnd else v + pageSize) = copyEnd
    obtain ⟨hmax, hmin, hlt, hoff, hdata, htame, hwild⟩ := copy_range hv hsegEnd hmeet hcs hce
    rw [hoff, hdata]
    by_cases hle : copyStart ≤ copyEnd
    · rw [htame hle]
      clear htame hwild hcs hce
      have hfits : copyStart - v + (copyEnd - copyStart) ≤ pageSize := by omega
      obtain ⟨s', hcall, hst, hbytes⟩ :=
        copyBytes_page elf (add64_lt phdr.pOffset (copyStart - phdr.pVaddr)) hs hok hg hfits
      refine Or.inl ⟨by omega, s', hcall, hst, fun o ho => ?_⟩
      rw [hbytes, Phdr.byteAt]
      by_cases hfile : phdr.InFile (v + o)
      · have hx := (hin _).mp hfile
        have hindex : copyStart - phdr.pVaddr + (o - (copyStart - v)) = v + o - phdr.pVaddr := by
          omega
        rw [if_pos hfile, if_pos (by omega), add64_add64, hindex]
      · have hx := mt (hin _).mpr hfile
        rw [if_neg hfile, if_neg (by omega)]
    · -- the segment's end has wrapped around
      have ho : copyStart - v < pageSize := by omega
      have hsize := hwild (Nat.lt_of_not_le hle)
      clear htame hwild hcs hce
      have hva : add64 (pagePtr hhdm g) (copyStart - v) = pagePtr hhdm g + (copyStart - v) :=
        add64_of_lt (hok.ptr_lt ho)
      have hphys := hok.sub64_ptr ho
      simp only [pageSize] at hphys hsize hmeet hmin hlt ho ⊢
      refine Or.inr ⟨by omega, ?_⟩
      rw [hva, copyBytes_wild hs]
      · omega
      · omega

end

/-! ## Loading -/

section

variable {elf : Image} {S : Set Nat} {s s' : Kmem} {a : AHeap} {fl : Nat → List Nat}
  {held : Set Block} {as root : Nat} {ok : Bool}

lemma forSlots_cons (hcall : forSlots body (i :: is) s = some (true, s')) :
    ∃ s1, body i s = some (true, s1) ∧ forSlots body is s1 = some (true, s') := by
  unfold forSlots at hcall
  split at hcall
  · rename_i s1 hone
    exact ⟨s1, hone, hcall⟩
  · rename_i hnot
    exact absurd hcall (hnot _)

lemma pages_end (hv : v ∈ phdr.pages) : v + pageSize < 2 ^ 64 := by
  obtain ⟨i, hi, rfl⟩ := List.mem_map.mp hv
  have hlt := add64_lt (add64 phdr.pVaddr phdr.pMemsz) (pageSize - 1)
  rw [List.mem_range, Phdr.endAddr, pageAlignUp, pageAlignDown] at hi
  generalize add64 (add64 phdr.pVaddr phdr.pMemsz) (pageSize - 1) = x at hlt hi
  simp only [pageSize] at *
  omega

/-- A bound on the pages that a segment takes: each of its pages may need
three tables. -/
def Phdr.room (phdr : Phdr) : Nat := if phdr.pType = ptLoad then 4 * phdr.pages.length else 0

def Image.room (elf : Image) : Nat := ((List.range elf.ePhnum).map fun i => (elf.phdr i).room).sum

lemma forSlots_returns {n : Nat → Nat}
    (hbody : ∀ i ∈ is, ∀ s a fl held, VmInv S s a fl held as root → n i ≤ s.pmm.kFreePages →
      ∃ s' a' fl' held', body i s = some (true, s') ∧ VmInv S s' a' fl' held' as root ∧
        Growth root (n i) s a held s' a' held')
    (h : VmInv S s a fl held as root) (hfree : (is.map n).sum ≤ s.pmm.kFreePages) :
    ∃ s' a' fl' held', forSlots body is s = some (true, s') ∧ VmInv S s' a' fl' held' as root ∧
      Growth root (is.map n).sum s a held s' a' held' := by
  induction is generalizing s a fl held with
  | nil => exact ⟨s, a, fl, held, rfl, h, .refl root _ _ a held⟩
  | cons i is ih =>
    rw [List.map_cons, List.sum_cons] at hfree ⊢
    obtain ⟨s1, a1, fl1, held1, hone, h1, hg1⟩ := hbody i (by simp) s a fl held h (by omega)
    have hleft := hg1.pages
    obtain ⟨s', a', fl', held', hrest, h', hg'⟩ :=
      ih (fun j hj => hbody j (by simp [hj])) h1 (by omega)
    exact ⟨s', a', fl', held', by simp only [forSlots, hone, hrest], h', hg1.trans hg'⟩

end

end VortexOS.Proc
