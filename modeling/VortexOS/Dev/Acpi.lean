/-
VortexOS.Dev.Acpi — the two searches for ACPI tables: `find_hpet_table` of
`kernel/hpet.cpp` and the search for the MADT in `smp_init` of
`arch/x86_64/smp.cpp`.

Both go from the RSDP to the root table (the RSDT, or from ACPI 2.0 on the
XSDT) and look at the tables its entries lead to. A search is a first match
in the list of tables it would go through (`findHpetTable_eq`,
`findMadt_eq`), so the two are compared by their lists. They differ in this:

  * `find_hpet_table` takes the address of the RSDP as it is, and the other
    search adds the HHDM offset
  * only the first asks for the signature of the RSDP and for a root table
    that is not at 0, and leaves out entries that are 0
  * the first computes the offset of an entry in 32 bits (`entry_fits`)
-/
import VortexOS.Lib.Wire
import VortexOS.Lib.Word

namespace VortexOS.Dev

open Lib

/-! ## Memory -/

/-- Physical memory and the HHDM offset: the kernel has byte `p` at the
virtual address `p + hhdm`. -/
structure Image where
  phys : Nat → BitVec 8
  hhdm : Nat
  offset : hhdm < 2 ^ 64

namespace Image

def toPhys (im : Image) (va : Nat) : Nat := sub64 va im.hhdm

def byte (im : Image) (va : Nat) : BitVec 8 := im.phys (im.toPhys va)

def load8 (im : Image) (va : Nat) : Nat := (im.byte va).toNat

def load32 (im : Image) (va : Nat) : Nat := (read32 im.byte va).toNat

def load64 (im : Image) (va : Nat) : Nat := (read64 im.byte va).toNat

/-! ## The RSDP and the root table -/

/-- The RSDP at `rsdp` starts with `"RSD PTR "`. -/
def hasSignature (im : Image) (rsdp : Nat) : Bool :=
  (List.range 8).all fun i => im.byte (rsdp + i) == [0x52, 0x53, 0x44, 0x20, 0x50, 0x54, 0x52,
    0x20].getD i 0

def revision (im : Image) (rsdp : Nat) : Nat := im.load8 (rsdp + 15)

/-- The root table's physical address: `xsdt_addr` from ACPI 2.0 on, and
`rsdt_addr` before. -/
def rootAddr (im : Image) (rsdp : Nat) : Nat :=
  if 2 ≤ im.revision rsdp then im.load64 (rsdp + 24) else im.load32 (rsdp + 16)

end Image

def sizeofSdtHeader : Nat := 36

def entrySize (revision : Nat) : Nat := if 2 ≤ revision then 8 else 4

namespace Image

def sdtLength (im : Image) (sdt : Nat) : Nat := im.load32 (sdt + 4)

/-- The number of entries, a `uint32_t`. The subtraction is one of
`size_t`. -/
def entryCount (im : Image) (revision sdt : Nat) : Nat :=
  sub64 (im.sdtLength sdt) sizeofSdtHeader / entrySize revision % 2 ^ 32

def entry (im : Image) (revision va : Nat) : Nat :=
  if 2 ≤ revision then im.load64 va else im.load32 va

end Image

/-! ## `find_hpet_table` -/

def hpetSignature : Nat := 0x54455048

def hpetRsdp (rsdpAddr : Nat) : Nat := rsdpAddr

/-- `entry_offset`, a `uint32_t` as is the product in it. -/
def hpetOffset (revision i : Nat) : Nat :=
  (sizeofSdtHeader + i * entrySize revision % 2 ^ 32) % 2 ^ 32

def hpetLoop (im : Image) (revision sdt : Nat) : List Nat → Nat
  | [] => 0
  | i :: is =>
    let tableAddr := im.entry revision (sdt + hpetOffset revision i)
    if tableAddr = 0 then hpetLoop im revision sdt is
    else
      let tableAddr := add64 tableAddr im.hhdm
      if im.load32 tableAddr = hpetSignature then tableAddr else hpetLoop im revision sdt is

/-- `find_hpet_table`; 0 if there is none. -/
def findHpetTable (im : Image) (rsdpAddr : Nat) : Nat :=
  let rsdp := hpetRsdp rsdpAddr
  if im.hasSignature rsdp = false then 0
  else
    let revision := im.revision rsdp
    let rsdtAddr := im.rootAddr rsdp
    if rsdtAddr = 0 then 0
    else
      let sdt := add64 rsdtAddr im.hhdm
      hpetLoop im revision sdt (List.range (im.entryCount revision sdt))

/-- The tables it looks at, if none of them is the HPET table. -/
def hpetTables (im : Image) (rsdpAddr : Nat) : List Nat :=
  let rsdp := hpetRsdp rsdpAddr
  if im.hasSignature rsdp = false ∨ im.rootAddr rsdp = 0 then []
  else
    let revision := im.revision rsdp
    let sdt := add64 (im.rootAddr rsdp) im.hhdm
    (((List.range (im.entryCount revision sdt)).map fun i =>
      im.entry revision (sdt + hpetOffset revision i)).filter (· ≠ 0)).map (add64 · im.hhdm)

/-! ## The search for the MADT -/

def smpRsdp (im : Image) (rsdpPhys : Nat) : Nat := add64 rsdpPhys im.hhdm

def isMadt (im : Image) (header : Nat) : Bool :=
  im.byte header == 0x41 && im.byte (header + 1) == 0x50 && im.byte (header + 2) == 0x49 &&
    im.byte (header + 3) == 0x43

def smpLoop (im : Image) (revision xsdt : Nat) : List Nat → Nat
  | [] => 0
  | i :: is =>
    let tablePhys := im.entry revision (xsdt + sizeofSdtHeader + i * entrySize revision)
    let header := add64 tablePhys im.hhdm
    if isMadt im header then header else smpLoop im revision xsdt is

/-- `madt` when the loop of `smp_init` is done; 0 if there is none. -/
def findMadt (im : Image) (rsdpPhys : Nat) : Nat :=
  let rsdp := smpRsdp im rsdpPhys
  let revision := im.revision rsdp
  let xsdt := add64 (im.rootAddr rsdp) im.hhdm
  smpLoop im revision xsdt (List.range (im.entryCount revision xsdt))

/-- The tables it looks at, if none of them is the MADT. -/
def smpTables (im : Image) (rsdpPhys : Nat) : List Nat :=
  let rsdp := smpRsdp im rsdpPhys
  let revision := im.revision rsdp
  let xsdt := add64 (im.rootAddr rsdp) im.hhdm
  (List.range (im.entryCount revision xsdt)).map fun i =>
    add64 (im.entry revision (xsdt + sizeofSdtHeader + i * entrySize revision)) im.hhdm

/-! ## A search is a first match -/

lemma hpetLoop_eq (im : Image) (revision sdt : Nat) (is : List Nat) : hpetLoop im revision sdt is =
    ((((is.map fun i => im.entry revision (sdt + hpetOffset revision i)).filter (· ≠ 0)).map
      (add64 · im.hhdm)).find? fun t => im.load32 t = hpetSignature).getD 0 := by
  induction is with
  | nil => rfl
  | cons i is ih =>
    rw [hpetLoop, List.map_cons]
    by_cases h0 : im.entry revision (sdt + hpetOffset revision i) = 0
    · simp only [h0, if_true]
      rw [ih, List.filter_cons_of_neg (by simp)]
    · simp only [h0, if_false]
      rw [List.filter_cons_of_pos (by simp [h0]), List.map_cons]
      by_cases hsig : im.load32 (add64 (im.entry revision (sdt + hpetOffset revision i)) im.hhdm) =
        hpetSignature
      · rw [if_pos hsig, List.find?_cons_of_pos (by simp [hsig])]
        rfl
      · rw [if_neg hsig, ih, List.find?_cons_of_neg (by simp [hsig])]

lemma findHpetTable_eq (im : Image) (rsdpAddr : Nat) : findHpetTable im rsdpAddr =
    ((hpetTables im rsdpAddr).find? fun t => im.load32 t = hpetSignature).getD 0 := by
  rw [findHpetTable, hpetTables]
  by_cases hsig : im.hasSignature (hpetRsdp rsdpAddr) = false
  · rw [if_pos hsig, if_pos (Or.inl hsig)]
    rfl
  · by_cases h0 : im.rootAddr (hpetRsdp rsdpAddr) = 0
    · rw [if_neg hsig, if_pos h0, if_pos (Or.inr h0)]
      rfl
    · rw [if_neg hsig, if_neg h0, if_neg (by simp [hsig, h0]), hpetLoop_eq]

lemma smpLoop_eq (im : Image) (revision xsdt : Nat) (is : List Nat) : smpLoop im revision xsdt is =
    ((is.map fun i => add64 (im.entry revision (xsdt + sizeofSdtHeader + i * entrySize revision))
      im.hhdm).find? (isMadt im)).getD 0 := by
  induction is with
  | nil => rfl
  | cons i is ih =>
    rw [smpLoop, List.map_cons]
    by_cases hsig : isMadt im
        (add64 (im.entry revision (xsdt + sizeofSdtHeader + i * entrySize revision)) im.hhdm) = true
    · rw [List.find?_cons_of_pos hsig]
      simp [hsig]
    · rw [List.find?_cons_of_neg hsig, ← ih]
      simp [hsig]

lemma findMadt_eq (im : Image) (rsdpPhys : Nat) :
    findMadt im rsdpPhys = ((smpTables im rsdpPhys).find? (isMadt im)).getD 0 := by
  rw [findMadt, smpTables, smpLoop_eq]

/-! ## The entries -/

namespace Image

variable (im : Image) {revision sdt va i : Nat}

lemma sdtLength_lt (sdt : Nat) : im.sdtLength sdt < 2 ^ 32 := BitVec.isLt _

lemma entry_lt : im.entry revision va < 2 ^ 64 := by
  unfold entry
  split
  · exact BitVec.isLt _
  · exact Nat.lt_trans (BitVec.isLt _) (by decide)

lemma entryCount_eq_zero_iff : im.entryCount revision sdt = 0 ↔ sizeofSdtHeader ≤ im.sdtLength sdt ∧
      im.sdtLength sdt < sizeofSdtHeader + entrySize revision := by
  have hlt := im.sdtLength_lt sdt
  unfold entryCount entrySize sizeofSdtHeader sub64
  split <;> omega

lemma entry_fits (hlen : sizeofSdtHeader ≤ im.sdtLength sdt) (hi : i < im.entryCount revision sdt) :
    hpetOffset revision i = sizeofSdtHeader + i * entrySize revision := by
  have hlt := im.sdtLength_lt sdt
  unfold entryCount entrySize sizeofSdtHeader sub64 at *
  unfold hpetOffset entrySize sizeofSdtHeader
  split at hi <;> simp only [*, if_true, if_false] <;> omega

end Image

lemma add64_inj {a b c : Nat} (ha : a < 2 ^ 64) (hb : b < 2 ^ 64) (h : add64 a c = add64 b c) :
    a = b := by
  unfold add64 at h
  omega

/-! ## The two lists -/

lemma map_filter_eq_map_iff {k : Nat → Nat} {p : Nat → Bool} {f g : Nat → Nat} {n : Nat}
    (hk : ∀ i < n, k (f i) = k (g i) → f i = g i) : (((List.range n).map f).filter p).map k =
      (List.range n).map (fun i => k (g i)) ↔ ∀ i < n, p (f i) = true ∧ f i = g i := by
  constructor
  · intro heq
    have hlen := congrArg List.length heq
    simp only [List.length_map, List.length_range] at hlen
    have hall : ((List.range n).map f).filter p = (List.range n).map f := by
      rw [List.filter_eq_self]
      exact List.length_filter_eq_length_iff.mp (by simpa using hlen)
    rw [hall, List.map_map, List.map_inj_left] at heq
    rw [List.filter_eq_self] at hall
    intro i hi
    have hmem : i ∈ List.range n := List.mem_range.mpr hi
    exact ⟨hall _ (List.mem_map_of_mem hmem), hk i hi (heq i hmem)⟩
  · intro hall
    have hself : ((List.range n).map f).filter p = (List.range n).map f := by
      rw [List.filter_eq_self]
      intro x hx
      obtain ⟨i, hi, rfl⟩ := List.mem_map.mp hx
      exact (hall i (List.mem_range.mp hi)).1
    rw [hself, List.map_map]
    exact List.map_congr_left fun i hi => congrArg k (hall i (List.mem_range.mp hi)).2

/-- The root table that the RSDP at `rsdp` leads to is one on which the two
searches agree: it has no entries; or the RSDP has its signature, the table
is not at 0, no entry is 0, and if the table is shorter than a header, then
memory repeats itself where 32 bits of offset do not reach. -/
def Image.Enumerable (im : Image) (rsdp : Nat) : Prop :=
  let revision := im.revision rsdp
  let sdt := add64 (im.rootAddr rsdp) im.hhdm
  let entryAt := fun offset => im.entry revision (sdt + offset)
  (sizeofSdtHeader ≤ im.sdtLength sdt ∧ im.sdtLength sdt < sizeofSdtHeader + entrySize revision) ∨
    im.hasSignature rsdp = true ∧ im.rootAddr rsdp ≠ 0 ∧
      (∀ i < im.entryCount revision sdt, entryAt (sizeofSdtHeader + i * entrySize revision) ≠ 0) ∧
      (im.sdtLength sdt < sizeofSdtHeader → ∀ i < im.entryCount revision sdt,
        entryAt (hpetOffset revision i) = entryAt (sizeofSdtHeader + i * entrySize revision))

lemma hpetTables_eq_smpTables_iff (im : Image) (rsdp : Nat) :
    hpetTables im (smpRsdp im rsdp) = smpTables im rsdp ↔ im.Enumerable (smpRsdp im rsdp) := by
  rw [hpetTables, smpTables, Image.Enumerable, hpetRsdp]
  generalize smpRsdp im rsdp = r
  simp only [← Image.entryCount_eq_zero_iff, Nat.add_assoc]
  generalize hsdt : add64 (im.rootAddr r) im.hhdm = sdt
  by_cases hread : im.hasSignature r = false ∨ im.rootAddr r = 0
  · -- one list is empty
    have hno : ¬ (im.hasSignature r = true ∧ im.rootAddr r ≠ 0) := by
      rintro ⟨hsig, h0⟩
      rw [hsig] at hread
      exact h0 (hread.resolve_left (by simp))
    rw [if_pos hread, eq_comm, List.map_eq_nil_iff, List.range_eq_nil]
    constructor
    · exact Or.inl
    · intro h
      cases h with
      | inl hzero => exact hzero
      | inr hrest => exact absurd ⟨hrest.1, hrest.2.1⟩ hno
  · have hsig : im.hasSignature r = true := by
      by_contra hsig
      exact hread (Or.inl (by simpa using hsig))
    have h0 : im.rootAddr r ≠ 0 := fun h0 => hread (Or.inr h0)
    have hinj : ∀ i < im.entryCount (im.revision r) sdt,
        add64 (im.entry (im.revision r) (sdt + hpetOffset (im.revision r) i)) im.hhdm =
          add64 (im.entry (im.revision r)
            (sdt + (sizeofSdtHeader + i * entrySize (im.revision r)))) im.hhdm →
        im.entry (im.revision r) (sdt + hpetOffset (im.revision r) i) =
          im.entry (im.revision r) (sdt + (sizeofSdtHeader + i * entrySize (im.revision r))) :=
      fun i _ heq => add64_inj im.entry_lt im.entry_lt heq
    rw [if_neg hread, map_filter_eq_map_iff (k := fun x => add64 x im.hhdm) hinj]
    constructor
    · intro hall
      refine Or.inr ⟨hsig, h0, fun i hi => ?_, fun _ i hi => (hall i hi).2⟩
      obtain ⟨hne, heq⟩ := hall i hi
      rw [← heq]
      simpa using hne
    · intro h i hi
      cases h with
      | inl hzero =>
        rw [hzero] at hi
        exact absurd hi (Nat.not_lt_zero i)
      | inr hrest =>
        obtain ⟨-, -, hne, hwrap⟩ := hrest
        have heq : im.entry (im.revision r) (sdt + hpetOffset (im.revision r) i) =
            im.entry (im.revision r) (sdt + (sizeofSdtHeader + i * entrySize (im.revision r))) := by
          by_cases hlen : sizeofSdtHeader ≤ im.sdtLength sdt
          · rw [im.entry_fits hlen hi]
          · exact hwrap (Nat.not_le.mp hlen) i hi
        refine ⟨?_, heq⟩
        rw [heq]
        simpa using hne i hi

/-! ## The walks -/

/-- Both searches read the same RSDP and go through the same tables. -/
def WalksAgree (im : Image) (rsdp : Nat) : Prop :=
  im.toPhys (hpetRsdp rsdp) = im.toPhys (smpRsdp im rsdp) ∧ hpetTables im rsdp = smpTables im rsdp

/-- They read the same RSDP only if physical addresses are virtual ones. -/
lemma toPhys_rsdp_iff (im : Image) (rsdp : Nat) :
    im.toPhys (hpetRsdp rsdp) = im.toPhys (smpRsdp im rsdp) ↔ im.hhdm = 0 := by
  have hh := im.offset
  unfold Image.toPhys hpetRsdp smpRsdp sub64 add64
  omega

/-- Only one of the searches adds the offset of the direct map to the RSDP. -/
theorem acpi_walks_agree_iff (im : Image) (rsdp : Nat) (hr : rsdp < 2 ^ 64) :
    WalksAgree im rsdp ↔ im.hhdm = 0 ∧ im.Enumerable (smpRsdp im rsdp) := by
  rw [WalksAgree, toPhys_rsdp_iff]
  refine and_congr_right fun hzero => ?_
  have hsame : smpRsdp im rsdp = rsdp := by
    rw [smpRsdp, hzero, add64]
    omega
  rw [← hpetTables_eq_smpTables_iff, hsame]

/-! ## A machine with two tables -/

/-- The RSDP of ACPI 1.0 at 0xE0000, the RSDT at 0xE1000 with two entries,
the MADT at 0xE2000 and the HPET table at 0xE3000. -/
def acpiBytes (a : Nat) : BitVec 8 :=
  if a / 0x1000 = 0xE0 then
    [0x52, 0x53, 0x44, 0x20, 0x50, 0x54, 0x52, 0x20, 0, 0, 0, 0, 0, 0, 0, 0, 0, 0x10, 0x0E].getD
      (a % 0x1000) 0
  else if a = 0xE1004 then 44
  else if a / 0x1000 = 0xE1 then [0, 0, 0x20, 0x0E, 0, 0, 0x30, 0x0E].getD (a % 0x1000 + 1 - 36) 0
  else if a / 0x1000 = 0xE2 then [0x41, 0x50, 0x49, 0x43].getD (a % 0x1000) 0
  else if a / 0x1000 = 0xE3 then [0x48, 0x50, 0x45, 0x54].getD (a % 0x1000) 0
  else 0

def identityImage : Image := ⟨acpiBytes, 0, by decide⟩

def upperImage : Image := ⟨acpiBytes, 0xFFFF800000000000, by decide⟩

theorem acpi_walks_agree_identity : WalksAgree identityImage 0xE0000 ∧
    smpTables identityImage 0xE0000 = [0xE2000, 0xE3000] ∧
    findMadt identityImage 0xE0000 = 0xE2000 ∧
    findHpetTable identityImage 0xE0000 = 0xE3000 := by
  have hread : identityImage.Enumerable (smpRsdp identityImage 0xE0000) := Or.inr (by decide)
  exact ⟨(acpi_walks_agree_iff identityImage 0xE0000 (by decide)).mpr ⟨rfl, hread⟩, by decide,
    by decide, by decide⟩

/-- With memory in the upper half the search for the HPET reads its RSDP
elsewhere, and does not find the table that is there. -/
theorem acpi_walks_differ : ¬ WalksAgree upperImage 0xE0000 ∧ hpetTables upperImage 0xE0000 = [] ∧
    smpTables upperImage 0xE0000 = [0xFFFF8000000E2000, 0xFFFF8000000E3000] ∧
    findHpetTable upperImage 0xE0000 = 0 ∧ findMadt upperImage 0xE0000 = 0xFFFF8000000E2000 := by
  refine ⟨fun h => ?_, by decide, by decide, by decide, by decide⟩
  have hzero := (toPhys_rsdp_iff upperImage 0xE0000).mp h.1
  exact absurd hzero (by decide)

end VortexOS.Dev
