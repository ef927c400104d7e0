/-
VortexOS.Proc.ElfReads — the bytes of the file that the ELF loader reads.

The functions of namespace `Reads` are those of `VortexOS.Proc.Elf` with a
log: the distance from `elf_data` of every byte they read through it
(`Reads.result_elfLoad`). A field that is read in every round of a loop,
such as `e_phnum`, is logged once.

`elf_load` is not told how long the file is. It stays inside the file if
the file's own header fields say so (`Image.ReadsInside`), and as far as
there is memory for what they ask for, only then (`readsInside_iff`).
-/
import VortexOS.Lib.Logged
import VortexOS.Proc.ElfStale

namespace VortexOS.Proc

open Lib Mm

variable {body : Nat → Kmem → Logged Nat (Bool × Kmem)} {off k src dst hhdm i v root n as : Nat}
  {s : Kmem} {is : List Nat} {S : Set Nat} {a : AHeap} {fl : Nat → List Nat} {held : Set Block}
  {elf : Image}

/-! ## The loader with its reads -/

namespace Reads

open Logged (quiet)

def field (elf : Image) (off k : Nat) : Logged Nat Nat :=
  ⟨(List.range k).map fun j => (off + j) % 2 ^ 64, some (elf.number off k)⟩

def byte (elf : Image) (off : Nat) : Logged Nat (BitVec 8) := ⟨[off], some (elf off)⟩

/-- Bytes are compared up to the first that differs. -/
def isMagic (elf : Image) : Nat → List (BitVec 8) → Logged Nat Bool
  | _, [] => quiet (some true)
  | i, b :: bs => (byte elf i).bind fun c => if c = b then isMagic elf (i + 1) bs
    else quiet (some false)

def copyBytes (elf : Image) : Nat → Nat → Nat → Kmem → Logged Nat Kmem
  | _, _, 0, s => quiet (some s)
  | src, dst, n + 1, s =>
    (byte elf src).bind fun b =>
      match storeByte dst b s with
      | none => quiet none
      | some s => copyBytes elf (add64 src 1) (add64 dst 1) n s

def phdrBase (elf : Image) (i : Nat) : Nat := elf.ePhoff + sizeofPhdr * i

def fillPage (elf : Image) (i v pageVirt : Nat) (s : Kmem) : Logged Nat Kmem :=
  (field elf (phdrBase elf i + 16) 8).bind fun segStart =>
    (field elf (phdrBase elf i + 32) 8).bind fun pFilesz =>
      let pageEnd := add64 v pageSize
      let segEnd := add64 segStart pFilesz
      if pageEnd ≤ segStart ∨ v ≥ segEnd then quiet (some s)
      else
        let copyStart := if v < segStart then segStart else v
        let copyEnd := if pageEnd > segEnd then segEnd else pageEnd
        let offsetInData := sub64 copyStart segStart
        let offsetInPage := sub64 copyStart v
        let copySize := sub64 copyEnd copyStart
        (field elf (phdrBase elf i + 8) 8).bind fun pOffset =>
          copyBytes elf (add64 pOffset offsetInData) (add64 pageVirt offsetInPage) copySize s

def loadPage (elf : Image) (as i v : Nat) (s : Kmem) : Logged Nat (Bool × Kmem) :=
  match s.allocPage with
  | none => quiet none
  | some (p, s) =>
    if p = 0 then quiet (some (false, s))
    else
      match vmmMapPage as v p (elf.phdr i).flags s with
      | none => quiet none
      | some (_, s) => (fillPage elf i v (add64 p s.hhdm) s).map fun s => (true, s)

def forSlots (body : Nat → Kmem → Logged Nat (Bool × Kmem)) :
    List Nat → Kmem → Logged Nat (Bool × Kmem)
  | [], s => quiet (some (true, s))
  | i :: is, s => (body i s).bind fun r => if r.1 then forSlots body is r.2 else quiet (some r)

def loadSegment (elf : Image) (as i : Nat) (s : Kmem) : Logged Nat (Bool × Kmem) :=
  (field elf (phdrBase elf i) 4).bind fun pType =>
    if pType ≠ ptLoad then quiet (some (true, s))
    else
      (field elf (phdrBase elf i + 16) 8).bind fun _ =>
        (field elf (phdrBase elf i + 40) 8).bind fun _ =>
          (field elf (phdrBase elf i + 4) 4).bind fun _ =>
            forSlots (loadPage elf as i) (elf.phdr i).pages s

def elfLoad (elf : Image) (as : Nat) (s : Kmem) : Logged Nat (Nat × Kmem) :=
  (isMagic elf 0 elfMagic).bind fun ok =>
    if ok = false then quiet (some (0, s))
    else
      (field elf 18 2).bind fun eMachine =>
        if eMachine ≠ 0x3E then quiet (some (0, s))
        else
          (field elf 32 8).bind fun _ =>
            (field elf 56 2).bind fun ePhnum =>
              (forSlots (loadSegment elf as) (List.range ePhnum) s).bind fun r =>
                if r.1 then (field elf 24 8).map fun eEntry => (eEntry, r.2)
                  else quiet (some (0, r.2))

/-! ## Forgetting the log -/

variable {elf : Image} {as : Nat}

@[simp] lemma result_field (off k : Nat) : (field elf off k).result = some (elf.number off k) := rfl

@[simp] lemma result_byte (off : Nat) : (byte elf off).result = some (elf off) := rfl

section

variable (elf) (i : Nat)

@[simp] lemma number_eMachine : elf.number 18 2 = elf.eMachine := rfl

@[simp] lemma number_ePhnum : elf.number 56 2 = elf.ePhnum := rfl

@[simp] lemma number_pType : elf.number (phdrBase elf i) 4 = (elf.phdr i).pType := rfl

@[simp] lemma number_pOffset : elf.number (phdrBase elf i + 8) 8 = (elf.phdr i).pOffset := rfl

@[simp] lemma number_pVaddr : elf.number (phdrBase elf i + 16) 8 = (elf.phdr i).pVaddr := rfl

@[simp] lemma number_pFilesz : elf.number (phdrBase elf i + 32) 8 = (elf.phdr i).pFilesz := rfl

end

lemma result_isMagic (i : Nat) (bs : List (BitVec 8)) :
    (isMagic elf i bs).result = some (decide ((List.range' i bs.length).map elf = bs)) := by
  induction bs generalizing i with
  | nil => rfl
  | cons b bs ih =>
    rw [isMagic, Logged.result_bind, result_byte, Option.bind_some]
    by_cases hb : elf i = b
    · rw [if_pos hb, ih]
      simp [List.range'_succ, hb]
    · rw [if_neg hb]
      simp [List.range'_succ, hb]

@[simp] lemma result_copyBytes (src dst n : Nat) (s : Kmem) :
    (copyBytes elf src dst n s).result = Proc.copyBytes elf src dst n s := by
  induction n generalizing src dst s with
  | zero => rfl
  | succ n ih =>
    rw [copyBytes, Logged.result_bind, result_byte, Option.bind_some, Proc.copyBytes]
    cases storeByte dst (elf src) s with
    | none => rfl
    | some s1 => exact ih _ _ s1

@[simp] lemma result_fillPage (i v pageVirt : Nat) (s : Kmem) :
    (fillPage elf i v pageVirt s).result = Proc.fillPage elf (elf.phdr i) v pageVirt s := by
  unfold fillPage Proc.fillPage
  simp only [Logged.result_bind, result_field, Option.bind_some, number_pVaddr, number_pFilesz]
  by_cases hmeet : add64 v pageSize ≤ (elf.phdr i).pVaddr ∨
      v ≥ add64 (elf.phdr i).pVaddr (elf.phdr i).pFilesz
  · rw [if_pos hmeet, if_pos hmeet]
    rfl
  · rw [if_neg hmeet, if_neg hmeet, Logged.result_bind, result_field, Option.bind_some,
      result_copyBytes, number_pOffset]

@[simp] lemma result_loadPage (i v : Nat) (s : Kmem) :
    (loadPage elf as i v s).result = Proc.loadPage elf as (elf.phdr i) v s := by
  unfold loadPage Proc.loadPage
  cases s.allocPage with
  | none => rfl
  | some r =>
    by_cases hp : r.1 = 0
    · simp only [if_pos hp, Logged.result_quiet]
    · simp only [if_neg hp]
      cases vmmMapPage as v r.1 (elf.phdr i).flags r.2 with
      | none => rfl
      | some r' => simp only [Logged.result_map, result_fillPage]

lemma result_forSlots (is : List Nat) (s : Kmem) :
    (forSlots body is s).result = Mm.forSlots (fun i s => (body i s).result) is s := by
  induction is generalizing s with
  | nil => rfl
  | cons i is ih =>
    rw [forSlots, Logged.result_bind, Mm.forSlots]
    rcases (body i s).result with _ | ⟨_ | _, s1⟩
    · rfl
    · rfl
    · exact ih s1

@[simp] lemma result_loadSegment (i : Nat) (s : Kmem) :
    (loadSegment elf as i s).result = Proc.loadSegment elf as (elf.phdr i) s := by
  unfold loadSegment Proc.loadSegment
  simp only [Logged.result_bind, result_field, Option.bind_some, number_pType]
  by_cases htype : (elf.phdr i).pType = ptLoad
  · simp only [if_neg (not_not.mpr htype), Logged.result_bind, result_field, Option.bind_some,
      result_forSlots, result_loadPage]
  · simp only [if_pos htype, Logged.result_quiet]

lemma result_elfLoad (s : Kmem) : (elfLoad elf as s).result = Proc.elfLoad elf as s := by
  have hmagic : (List.range' 0 elfMagic.length).map elf = [elf 0, elf 1, elf 2, elf 3] := rfl
  rw [elfLoad, Logged.result_bind, result_isMagic, hmagic, Option.bind_some, Proc.elfLoad]
  by_cases hok : [elf 0, elf 1, elf 2, elf 3] = elfMagic
  · rw [decide_eq_true hok, if_neg (by decide), if_neg (not_not.mpr hok), Logged.result_bind,
      result_field, Option.bind_some]
    rw [number_eMachine]
    by_cases hmachine : elf.eMachine = 0x3E
    · rw [if_neg (not_not.mpr hmachine), if_neg (not_not.mpr hmachine)]
      simp only [Logged.result_bind, result_field, Option.bind_some, result_forSlots,
        result_loadSegment, number_ePhnum]
      rcases Mm.forSlots (fun i => Proc.loadSegment elf as (elf.phdr i)) (List.range elf.ePhnum) s
        with
        _ | ⟨_ | _, s1⟩
      · rfl
      · rfl
      · rfl
    · rw [if_pos hmachine, if_pos hmachine]
      rfl
  · rw [decide_eq_false hok, if_pos rfl, if_pos hok]
    rfl

/-! ## What is read -/

variable {P : Nat → Prop} {n : Nat}

lemma all_field (hn : n ≤ 2 ^ 20) (hk : 0 < k) :
    (field elf off k).All (· < n) ↔ off % 2 ^ 64 + k ≤ n := by
  simp only [Logged.All, field, List.forall_mem_map, List.mem_range]
  constructor
  · intro hall
    have hfirst := hall 0 hk
    by_contra hlt
    have hlast := hall (n - off % 2 ^ 64) (by omega)
    omega
  · intro hle j hj
    omega

lemma all_isMagic : (isMagic elf 0 elfMagic).All P ↔
    P 0 ∧ (elf 0 = 0x7F → P 1 ∧ (elf 1 = 0x45 → P 2 ∧ (elf 2 = 0x4C → P 3))) := by
  have hbyte : ∀ i, (byte elf i).All P ↔ P i := fun i => by simp [Logged.All, byte]
  have hite : ∀ (c : Prop) [Decidable c] (x : Logged Nat Bool),
      (if c then x else Logged.quiet (some false)).All P ↔ (c → x.All P) := by
    intro c _ x
    by_cases hc : c <;> simp [hc]
  simp only [elfMagic, isMagic, Logged.all_bind, hbyte, result_byte, Option.some.injEq, forall_eq',
    hite, Logged.all_quiet, implies_true, and_true]

lemma all_copyBytes (hsrc : src < 2 ^ 64) (hall : ∀ j < k, P (add64 src j)) :
    (copyBytes elf src dst k s).All P := by
  induction k generalizing src dst s with
  | zero => exact Logged.all_quiet _
  | succ k ih =>
    have hfirst := hall 0 (by omega)
    rw [add64_of_lt hsrc] at hfirst
    rw [copyBytes, Logged.all_bind]
    refine ⟨by simpa [Logged.All, byte] using hfirst, fun b _ => ?_⟩
    cases storeByte dst b s with
    | none => exact Logged.all_quiet _
    | some s1 =>
      refine ih (add64_lt src 1) fun j hj => ?_
      rw [add64_add64, Nat.add_comm 1]
      exact hall (j + 1) (by omega)

/-- It reads them as long as it stores inside the direct map. -/
lemma mem_copyBytes {j : Nat} (hsrc : src < 2 ^ 64) (hs : s.hhdm = hhdm) (hj : j < k)
    (hdst : sub64 dst hhdm + j ≤ 2 ^ 52) : add64 src j ∈ (copyBytes elf src dst k s).log := by
  induction j generalizing src dst k s with
  | zero =>
    obtain ⟨k, rfl⟩ := Nat.exists_eq_add_of_lt hj
    rw [add64_of_lt hsrc, Nat.zero_add, copyBytes, Logged.bind]
    simp [byte]
  | succ j ih =>
    obtain ⟨k, rfl⟩ : ∃ m, k = m + 1 := ⟨k - 1, by omega⟩
    have hstore : storeByte dst (elf src) s =
        some { s with mem := writeByte s.mem (sub64 dst hhdm) (elf src) } := by
      rw [storeByte]
      simp only [hs]
      rw [if_pos (by omega)]
    have hnext : add64 (add64 src 1) j = add64 src (j + 1) := by rw [add64_add64, Nat.add_comm 1]
    have hdst' : sub64 (add64 dst 1) hhdm + j ≤ 2 ^ 52 := by
      simp only [sub64, add64] at *
      omega
    have hrest := ih (add64_lt src 1)
      (s := { s with mem := writeByte s.mem (sub64 dst hhdm) (elf src) }) hs (k := k)
        (by omega) hdst'
    rw [copyBytes, Logged.bind, result_byte]
    simp only [hstore, List.mem_append]
    exact Or.inr (hnext ▸ hrest)

/-- The bytes that a page takes from the file. -/
def DataRead (phdr : Phdr) (v : Nat) (P : Nat → Prop) : Prop :=
  ∀ x, v ≤ x → x < v + pageSize → phdr.InFile x → P (add64 phdr.pOffset (x - phdr.pVaddr))

/-- The fields that are read for each page. -/
def FieldsRead (elf : Image) (i : Nat) (P : Nat → Prop) : Prop :=
  (field elf (phdrBase elf i + 16) 8).All P ∧ (field elf (phdrBase elf i + 32) 8).All P ∧
    (field elf (phdrBase elf i + 8) 8).All P

lemma all_fillPage_of {pageVirt : Nat} (hv : v + pageSize < 2 ^ 64) (hfields : FieldsRead elf i P)
    (htame : ¬ (elf.phdr i).Wild v) (hdata : DataRead (elf.phdr i) v P) :
    (fillPage elf i v pageVirt s).All P := by
  obtain ⟨hvaddr, hfilesz, hoffset⟩ := hfields
  have hpageEnd : add64 v pageSize = v + pageSize := add64_of_lt hv
  have hsegEnd := add64_lt (elf.phdr i).pVaddr (elf.phdr i).pFilesz
  unfold fillPage
  simp only [Logged.all_bind, hvaddr, hfilesz, true_and, result_field, Option.some.injEq,
    forall_eq', number_pVaddr, number_pFilesz, hpageEnd]
  unfold DataRead Phdr.InFile at hdata
  unfold Phdr.Wild at htame
  generalize add64 (elf.phdr i).pVaddr (elf.phdr i).pFilesz = segEnd at *
  by_cases hmeet : v + pageSize ≤ (elf.phdr i).pVaddr ∨ v ≥ segEnd
  · rw [if_pos hmeet]
    exact Logged.all_quiet _
  · rw [if_neg hmeet, Logged.all_bind]
    refine ⟨hoffset, fun off hoff => ?_⟩
    obtain rfl : (elf.phdr i).pOffset = off := Option.some.inj hoff
    generalize hcs : (if v < (elf.phdr i).pVaddr then (elf.phdr i).pVaddr else v) = copyStart
    generalize hce : (if v + pageSize > segEnd then segEnd else v + pageSize) = copyEnd
    obtain ⟨hmax, hmin, hlt, -, hstart, hsize, -⟩ := copy_range hv hsegEnd hmeet hcs hce
    rw [hstart, hsize (by omega)]
    refine all_copyBytes (add64_lt _ _) fun j hj => ?_
    have hx := hdata (copyStart + j) (by omega) (by omega) (by omega)
    have hindex : copyStart - (elf.phdr i).pVaddr + j = copyStart + j - (elf.phdr i).pVaddr := by
      omega
    rw [add64_add64, hindex]
    exact hx

/-- If all that is read for a page is inside the file, the copy does not run
wild. -/
lemma fillPage_inside {g : Nat} (hn : n ≤ 2 ^ 20) (hs : s.hhdm = hhdm) (hok : PageOk hhdm g)
    (hg : g < 2 ^ 39) (hv : v + pageSize < 2 ^ 64)
    (hall : (fillPage elf i v (pagePtr hhdm g) s).All (· < n)) :
    ¬ (elf.phdr i).Wild v ∧ DataRead (elf.phdr i) v (· < n) := by
  have hpageEnd : add64 v pageSize = v + pageSize := add64_of_lt hv
  have hsegEnd := add64_lt (elf.phdr i).pVaddr (elf.phdr i).pFilesz
  unfold fillPage at hall
  simp only [Logged.all_bind, result_field, Option.some.injEq, forall_eq', number_pVaddr,
    number_pFilesz, hpageEnd] at hall
  replace hall := hall.2.2
  unfold DataRead Phdr.InFile Phdr.Wild
  generalize add64 (elf.phdr i).pVaddr (elf.phdr i).pFilesz = segEnd at *
  by_cases hmeet : v + pageSize ≤ (elf.phdr i).pVaddr ∨ v ≥ segEnd
  · exact ⟨by omega, fun x hx hlt hin => by omega⟩
  · rw [if_neg hmeet, Logged.all_bind, result_field, number_pOffset] at hall
    replace hall := hall.2 _ rfl
    generalize hcs : (if v < (elf.phdr i).pVaddr then
      (elf.phdr i).pVaddr else v) = copyStart at hall
    generalize hce : (if v + pageSize > segEnd then segEnd else v + pageSize) = copyEnd at hall
    obtain ⟨hmax, hmin, hlt, hoff, hstart, htame, hwild⟩ := copy_range hv hsegEnd hmeet hcs hce
    rw [hstart, hoff] at hall
    -- the first bytes of the copy are read, as many as the file can have
    have hbytes : ∀ j < sub64 copyEnd copyStart, j ≤ 2 ^ 21 →
        add64 (add64 (elf.phdr i).pOffset (copyStart - (elf.phdr i).pVaddr)) j < n := by
      intro j hj hle
      refine hall _ (mem_copyBytes (add64_lt _ _) hs hj ?_)
      have ho : copyStart - v < pageSize := by omega
      rw [add64_of_lt (hok.ptr_lt ho), hok.sub64_ptr ho]
      simp only [pageSize] at *
      omega
    by_cases hle : copyStart ≤ copyEnd
    · refine ⟨by omega, fun x hx hxlt hin => ?_⟩
      have hpage : pageSize = 4096 := rfl
      have hread := hbytes (x - copyStart) (by rw [htame hle]; omega) (by omega)
      have hindex : copyStart - (elf.phdr i).pVaddr + (x - copyStart) =
        x - (elf.phdr i).pVaddr := by omega
      rwa [add64_add64, hindex] at hread
    · -- `n + 1` bytes in a row are not all inside
      exfalso
      have hsize := hwild (by omega)
      have hsrc := add64_lt (elf.phdr i).pOffset (copyStart - (elf.phdr i).pVaddr)
      generalize add64 (elf.phdr i).pOffset (copyStart - (elf.phdr i).pVaddr) = src at hbytes hsrc
      simp only [pageSize] at hsize
      have hfirst := hbytes 0 (by omega) (by omega)
      have hlast := hbytes (n - src) (by omega) (by omega)
      simp only [add64] at hfirst hlast
      omega

/-! ## Loops -/

lemma all_loadPage_of (hv : v + pageSize < 2 ^ 64) (hfields : FieldsRead elf i P)
    (htame : ¬ (elf.phdr i).Wild v) (hdata : DataRead (elf.phdr i) v P) (s : Kmem) :
    (loadPage elf as i v s).All P := by
  unfold loadPage
  split
  · exact Logged.all_quiet _
  · split
    · exact Logged.all_quiet _
    · split
      · exact Logged.all_quiet _
      · rw [Logged.all_map]
        exact all_fillPage_of hv hfields htame hdata

lemma all_forSlots_of (hbody : ∀ i ∈ is, ∀ s, (body i s).All P) (s : Kmem) :
    (forSlots body is s).All P := by
  induction is generalizing s with
  | nil => exact Logged.all_quiet _
  | cons i is ih =>
    rw [forSlots, Logged.all_bind]
    refine ⟨hbody i (by simp) s, fun r _ => ?_⟩
    split
    · exact ih (fun j hj => hbody j (by simp [hj])) r.2
    · exact Logged.all_quiet _

lemma loadPage_inside (hn : n ≤ 2 ^ 20) (hsmall : ∀ f ∈ S, f < 2 ^ 39)
    (h : AllTables S s a fl held as root) (hv : v + pageSize < 2 ^ 64)
    (hroom : 4 ≤ s.pmm.kFreePages) (hall : (loadPage elf as i v s).All (· < n)) :
    (¬ (elf.phdr i).Wild v ∧ DataRead (elf.phdr i) v (· < n)) ∧
    ∃ s' a' fl' held', (loadPage elf as i v s).result = some (true, s') ∧
    AllTables S s' a' fl' held' as root ∧ Maps root 4 s a s' a' := by
  have hinside : ¬ (elf.phdr i).Wild v ∧ DataRead (elf.phdr i) v (· < n) := by
    rcases h.takePage with ⟨-, hzero⟩ | ⟨g, s1, a1, fl1, held1, halloc, hphys, h1, -, hS, -⟩
    · omega
    · obtain ⟨ok, s2, a2, fl2, held2, hmap, h2, -⟩ := h1.mapPage v (pfnToPhys g) (elf.phdr i).flags
      have hok : PageOk a2.hhdm g := h2.pageOk hS
      have hptr : add64 (pfnToPhys g) s2.hhdm = pagePtr a2.hhdm g := by
        rw [h2.hhdm]
        exact hok.add64_phys
      simp only [loadPage, halloc, if_neg hphys, vmmMapPage, h1.pml4, hmap, hptr,
        Logged.all_map] at hall
      exact fillPage_inside hn h2.hhdm hok (hsmall g hS) hv hall
  rw [result_loadPage]
  rcases loadPage_spec elf h (elf.phdr i) hv with
    ⟨hzero, -⟩ | ⟨hwild, -⟩ | ⟨g, s', a', fl', held', -, hcall, h', hframe, -⟩
  · omega
  · exact absurd hwild hinside.1
  · exact ⟨hinside, s', a', fl', held', hcall, h', hframe.maps⟩

/-- A loop whose rounds need `need i` pages each, and return if all that
they read satisfies `P`. -/
lemma forSlots_all {need : Nat → Nat} {C : Nat → Prop}
    (hbody : ∀ i ∈ is, ∀ s a fl held, AllTables S s a fl held as root → need i ≤ s.pmm.kFreePages →
      (body i s).All P → C i ∧ ∃ s' a' fl' held', (body i s).result = some (true, s') ∧
      AllTables S s' a' fl' held' as root ∧ Maps root (need i) s a s' a')
    (h : AllTables S s a fl held as root) (hroom : (is.map need).sum ≤ s.pmm.kFreePages)
    (hall : (forSlots body is s).All P) :
    (∀ i ∈ is, C i) ∧ ∃ s' a' fl' held', (forSlots body is s).result = some (true, s') ∧
    AllTables S s' a' fl' held' as root ∧ Maps root (is.map need).sum s a s' a' := by
  induction is generalizing s a fl held with
  | nil => exact ⟨by simp, s, a, fl, held, rfl, h, .refl root _ s a⟩
  | cons i is ih =>
    rw [List.map_cons, List.sum_cons] at hroom ⊢
    rw [forSlots, Logged.all_bind] at hall
    obtain ⟨hi, s1, a1, fl1, held1, hone, h1, hm1⟩ :=
      hbody i (by simp) s a fl held h (by omega) hall.1
    have hleft := hm1.pages
    have hrest := hall.2 _ hone
    simp only [if_true] at hrest
    obtain ⟨his, s', a', fl', held', hend, h', hm'⟩ :=
      ih (fun j hj => hbody j (by simp [hj])) h1 (by omega) hrest
    refine ⟨List.forall_mem_cons.mpr ⟨hi, his⟩, s', a', fl', held', ?_, h', hm1.trans hm'⟩
    rw [forSlots, Logged.result_bind, hone, Option.bind_some]
    exact hend
end Reads

/-! ## Files that are read inside -/

/-- The number of bytes that are copied for a segment. -/
def Phdr.copied (phdr : Phdr) :
    Nat := min (add64 phdr.pVaddr phdr.pFilesz) phdr.endAddr - phdr.pVaddr

def Image.phdrAt (elf : Image) (i : Nat) : Nat := (elf.ePhoff + sizeofPhdr * i) % 2 ^ 64

/-- What program header `i` asks for is in the first `n` bytes. -/
structure Image.SegmentInside (elf : Image) (n i : Nat) : Prop where
  header : elf.phdrAt i + 48 ≤ n
  data : (elf.phdr i).copied = 0 ∨ (elf.phdr i).pOffset + (elf.phdr i).copied ≤ n
  tame : ∀ v ∈ (elf.phdr i).pages, ¬ (elf.phdr i).Wild v

/-- What the header fields ask for is in the first `n` bytes. -/
structure Image.ReadsInside (elf : Image) (n : Nat) : Prop where
  magic : 0 < n ∧ (elf 0 = 0x7F → 1 < n ∧ (elf 1 = 0x45 → 2 < n ∧ (elf 2 = 0x4C → 3 < n)))
  machine : [elf 0, elf 1, elf 2, elf 3] = elfMagic → 20 ≤ n
  header : elf.HeaderOk → 58 ≤ n
  phdrs : elf.HeaderOk → ∀ i < elf.ePhnum, elf.phdrAt i + 4 ≤ n
  segments : elf.HeaderOk → ∀ i < elf.ePhnum, (elf.phdr i).pType = ptLoad → elf.SegmentInside n i

lemma number_lt (elf : Image) (off k : Nat) : elf.number off k < 256 ^ k := by
  induction k generalizing off with
  | zero => exact Nat.one_pos
  | succ k ih =>
    have hbyte := (elf (off % 2 ^ 64)).isLt
    have hrest := ih (off + 1)
    rw [Image.number, Nat.pow_succ]
    omega

section

variable (hn : n ≤ 2 ^ 20)
include hn

lemma dataRead_iff : (∀ v ∈ (elf.phdr i).pages, Reads.DataRead (elf.phdr i) v (· < n)) ↔
    (elf.phdr i).copied = 0 ∨ (elf.phdr i).pOffset + (elf.phdr i).copied ≤ n := by
  have hoff : (elf.phdr i).pOffset < 2 ^ 64 := number_lt elf _ 8
  unfold Reads.DataRead Phdr.InFile Phdr.copied
  generalize add64 (elf.phdr i).pVaddr (elf.phdr i).pFilesz = segEnd
  constructor
  · intro hall
    by_contra hout
    have hbyte : ∀ j < min segEnd (elf.phdr i).endAddr - (elf.phdr i).pVaddr,
        add64 (elf.phdr i).pOffset j < n := by
      intro j hj
      have hpage : pageAlignDown ((elf.phdr i).pVaddr + j) ∈ (elf.phdr i).pages :=
        mem_pages (by omega) (by omega)
      have hread := hall _ hpage ((elf.phdr i).pVaddr + j)
        (by simp only [pageAlignDown]; omega) (by simp only [pageAlignDown, pageSize]; omega)
          (by omega)
      rwa [Nat.add_sub_cancel_left] at hread
    have hfirst := hbyte 0 (by omega)
    have hlast := hbyte (n - (elf.phdr i).pOffset) (by simp only [add64] at hfirst; omega)
    simp only [add64] at hfirst hlast
    omega
  · intro hin v hv x hx hlt hfile
    have hend := page_le_endAddr hv
    simp only [add64]
    omega

lemma fields_inside (hin : elf.phdrAt i + 48 ≤ n) (hk : 0 < k) (hend : off + k ≤ 48) :
    (Reads.field elf (Reads.phdrBase elf i + off) k).All (· < n) := by
  have hbase : elf.phdrAt i = Reads.phdrBase elf i % 2 ^ 64 := rfl
  rw [Reads.all_field hn hk]
  omega

lemma all_loadSegment_of (htype : elf.phdrAt i + 4 ≤ n)
    (hseg : (elf.phdr i).pType = ptLoad → elf.SegmentInside n i) (s : Kmem) :
    (Reads.loadSegment elf as i s).All (· < n) := by
  rw [Reads.loadSegment, Logged.all_bind]
  refine ⟨(Reads.all_field hn (by decide)).mpr htype, fun t ht => ?_⟩
  obtain rfl : (elf.phdr i).pType = t := Option.some.inj ht
  by_cases hload : (elf.phdr i).pType = ptLoad
  · obtain ⟨hheader, hdata, htame⟩ := hseg hload
    have hfields : Reads.FieldsRead elf i (· < n) :=
      ⟨fields_inside hn hheader (by decide) (by decide),
      fields_inside hn hheader (by decide) (by decide),
        fields_inside hn hheader (by decide) (by decide)⟩
    simp only [if_neg (not_not.mpr hload), Logged.all_bind]
    refine ⟨hfields.1, fun _ _ => ⟨fields_inside hn hheader (by decide) (by decide), fun _ _ =>
      ⟨fields_inside hn hheader (by decide) (by decide), fun _ _ => ?_⟩⟩⟩
    exact Reads.all_forSlots_of (fun v hv s =>
      Reads.all_loadPage_of (pages_end hv) hfields (htame v hv)
      ((dataRead_iff hn).mpr hdata v hv) s) s
  · rw [if_pos hload]
    exact Logged.all_quiet _

lemma loadSegment_inside (hsmall : ∀ f ∈ S, f < 2 ^ 39) (h : AllTables S s a fl held as root)
    (hroom : (elf.phdr i).room ≤ s.pmm.kFreePages)
    (hall : (Reads.loadSegment elf as i s).All (· < n)) :
    (elf.phdrAt i + 4 ≤ n ∧ ((elf.phdr i).pType = ptLoad → elf.SegmentInside n i)) ∧
    ∃ s' a' fl' held', (Reads.loadSegment elf as i s).result = some (true, s') ∧
    AllTables S s' a' fl' held' as root ∧ Maps root (elf.phdr i).room s a s' a' := by
  rw [Reads.loadSegment, Logged.all_bind] at hall
  obtain ⟨htype, hall⟩ := hall
  replace htype : elf.phdrAt i + 4 ≤ n := (Reads.all_field hn (by decide)).mp htype
  replace hall := hall _ rfl
  rw [Reads.result_loadSegment, loadSegment]
  rw [Reads.number_pType] at hall
  unfold Phdr.room at hroom ⊢
  by_cases hload : (elf.phdr i).pType = ptLoad
  · rw [if_pos hload] at hroom ⊢
    rw [if_neg (not_not.mpr hload)] at hall ⊢
    simp only [Logged.all_bind, Reads.result_field, Option.some.injEq, forall_eq'] at hall
    obtain ⟨-, hmemsz, -, hpages⟩ := hall
    have hsum : ((elf.phdr i).pages.map fun _ => 4).sum = 4 * (elf.phdr i).pages.length := by
      simp [Nat.mul_comm]
    rw [← hsum] at hroom ⊢
    obtain ⟨hpage, s', a', fl', held', hres, h', hm⟩ := Reads.forSlots_all
      (C := fun v => ¬ (elf.phdr i).Wild v ∧ Reads.DataRead (elf.phdr i) v (· < n))
      (fun v hv s a fl held h hfree hall =>
        Reads.loadPage_inside hn hsmall h (pages_end hv) hfree hall)
      h hroom hpages
    rw [Reads.result_forSlots] at hres
    simp only [Reads.result_loadPage] at hres
    refine ⟨⟨htype, fun _ => ⟨?_, (dataRead_iff hn).mp fun v hv => (hpage v hv).2,
      fun v hv => (hpage v hv).1⟩⟩, s', a', fl', held', hres, h', hm⟩
    have hbase : elf.phdrAt i = Reads.phdrBase elf i % 2 ^ 64 := rfl
    rw [Reads.all_field hn (by decide)] at hmemsz
    omega
  · rw [if_neg hload, if_pos hload]
    exact ⟨⟨htype, fun hin => absurd hin hload⟩, s, a, fl, held, rfl, h, .refl root 0 s a⟩

lemma all_elfLoad_of (hin : elf.ReadsInside n) (as : Nat) (s : Kmem) :
    (Reads.elfLoad elf as s).All (· < n) := by
  rw [Reads.elfLoad, Logged.all_bind]
  refine ⟨Reads.all_isMagic.mpr hin.magic, fun ok hok => ?_⟩
  rw [Reads.result_isMagic, Option.some.injEq] at hok
  split
  · exact Logged.all_quiet _
  · rename_i htrue
    have hmagic : [elf 0, elf 1, elf 2, elf 3] = elfMagic := by
      rw [Bool.not_eq_false, ← hok] at htrue
      exact of_decide_eq_true htrue
    have hlen := hin.machine hmagic
    rw [Logged.all_bind]
    refine ⟨(Reads.all_field hn (by decide)).mpr hlen, fun m hm => ?_⟩
    obtain rfl : elf.eMachine = m := Option.some.inj hm
    split
    · exact Logged.all_quiet _
    · rename_i hmachine
      have helf : elf.HeaderOk := ⟨hmagic, not_not.mp hmachine⟩
      have hlen := hin.header helf
      simp only [Logged.all_bind]
      refine ⟨(Reads.all_field hn (by decide)).mpr (by omega), fun _ _ =>
        ⟨(Reads.all_field hn (by decide)).mpr hlen, fun k hk => ⟨?_, fun r _ => ?_⟩⟩⟩
      · obtain rfl : elf.ePhnum = k := Option.some.inj hk
        exact Reads.all_forSlots_of (fun i hi s => all_loadSegment_of hn
          (hin.phdrs helf i (List.mem_range.mp hi))
          (hin.segments helf i (List.mem_range.mp hi)) s) s
      · split
        · rw [Logged.all_map]
          exact (Reads.all_field hn (by decide)).mpr (by omega)
        · exact Logged.all_quiet _

lemma readsInside_of_all (hsmall : ∀ f ∈ S, f < 2 ^ 39) (h : AllTables S s a fl held as root)
    (hroom : elf.room ≤ s.pmm.kFreePages) (hall : (Reads.elfLoad elf as s).All (· < n)) :
    elf.ReadsInside n := by
  rw [Reads.elfLoad, Logged.all_bind] at hall
  obtain ⟨hmagic, hall⟩ := hall
  have hmachine : [elf 0, elf 1, elf 2, elf 3] = elfMagic → 20 ≤ n ∧ (elf.eMachine = 0x3E →
      58 ≤ n ∧ ∀ i < elf.ePhnum,
        elf.phdrAt i + 4 ≤ n ∧ ((elf.phdr i).pType = ptLoad → elf.SegmentInside n i)) := by
    intro hok
    have hres : (Reads.isMagic elf 0 elfMagic).result = some true := by
      rw [Reads.result_isMagic]
      exact congrArg some (decide_eq_true hok)
    replace hall := hall _ hres
    rw [if_neg (by decide), Logged.all_bind] at hall
    refine ⟨(Reads.all_field hn (by decide)).mp hall.1, fun hm => ?_⟩
    replace hall := hall.2 _ rfl
    rw [Reads.number_eMachine, if_neg (not_not.mpr hm)] at hall
    simp only [Logged.all_bind, Reads.result_field, Option.some.injEq, forall_eq',
      Reads.number_ePhnum] at hall
    obtain ⟨-, hphnum, hloop, -⟩ := hall
    have hsegs := (Reads.forSlots_all (fun i _ s a fl held h hfree hall =>
      loadSegment_inside hn hsmall h hfree hall) h hroom hloop).1
    exact ⟨(Reads.all_field hn (by decide)).mp hphnum, fun i hi => hsegs i (List.mem_range.mpr hi)⟩
  exact ⟨Reads.all_isMagic.mp hmagic, fun hok => (hmachine hok).1, fun helf =>
    ((hmachine helf.1).2 helf.2).1, fun helf i hi => (((hmachine helf.1).2 helf.2).2 i hi).1,
    fun helf i hi => (((hmachine helf.1).2 helf.2).2 i hi).2⟩

end

lemma elfLoad_rejects (helf : ¬ elf.HeaderOk) (as : Nat) (s : Kmem) :
    elfLoad elf as s = some (0, s) := by
  unfold elfLoad
  by_cases hmagic : [elf 0, elf 1, elf 2, elf 3] = elfMagic
  · rw [if_neg (not_not.mpr hmagic), if_pos fun hm => helf ⟨hmagic, hm⟩]
  · rw [if_pos hmagic]

/-- A file of `n` bytes. If its header fields stay inside it, every byte that
`elf_load` reads is in the file, in whatever state, and a file that is not
accepted gives 0. If there is memory for the file, below `2 ^ 51`, every
byte that is read is in the file only then. -/
theorem readsInside_iff (h : AllTables S s a fl held as root) (hn : n ≤ 1048576) :
    (elf.ReadsInside n → (Reads.elfLoad elf as s).All (· < n) ∧
      (¬ elf.HeaderOk → elfLoad elf as s = some (0, s))) ∧
    (elf.room ≤ s.pmm.kFreePages → (∀ f ∈ S, f < 2 ^ 39) →
      ((Reads.elfLoad elf as s).All (· < n) ∧ (¬ elf.HeaderOk → elfLoad elf as s = some (0, s)) ↔
        elf.ReadsInside n)) := by
  have hgood : elf.ReadsInside n → (Reads.elfLoad elf as s).All (· < n) ∧
      (¬ elf.HeaderOk → elfLoad elf as s = some (0, s)) := fun hin =>
    ⟨all_elfLoad_of hn hin as s, fun helf => elfLoad_rejects helf as s⟩
  exact ⟨hgood, fun hroom hsmall => ⟨fun hall => readsInside_of_all hn hsmall h hroom hall.1,
    hgood⟩⟩

/-! On the machine with 32 pages. -/

lemma readsInside_programImage : programImage.ReadsInside 120 := by
  obtain ⟨-, -, -, hnum, hphdr⟩ := programImage_oneSegment
  have hat : programImage.phdrAt 0 = 64 := by decide
  have hpages : (filePhdr 0x400000).pages = [0x400000] := by decide
  refine ⟨by decide, fun _ => by decide, fun _ => by decide, fun _ i hi => ?_, fun _ i hi _ => ?_⟩
  · obtain rfl : i = 0 := by omega
    rw [hat]
    decide
  · obtain rfl : i = 0 := by omega
    refine ⟨by rw [hat]; decide, ?_, ?_⟩
    · rw [hphdr]
      exact Or.inr (by decide)
    · rw [hphdr, hpages]
      decide

theorem readsInside_program :
    ∃ s a fl held as root, AllTables execBoot.freePages s a fl held as root ∧
    (Reads.elfLoad programImage as s).All (· < 120) := by
  obtain ⟨s, fl, held, root, h, -⟩ := exists_userSpace
  exact ⟨s, _, fl, held, _, root, h.toAllTables,
    ((readsInside_iff h.toAllTables (by decide)).1 readsInside_programImage).1⟩

/-- A file of 120 bytes whose segment is a page. It is loaded, with bytes
from behind the file. -/
theorem full_reads_past :
    ∃ s a fl held as root s', AllTables execBoot.freePages s a fl held as root ∧
    fullImage.phdr 0 = ⟨ptLoad, 5, 0, 0x400000, 0x1000, 0x1000⟩ ∧
    elfLoad fullImage as s = some (0x400000, s') ∧ ∃ b ∈ (Reads.elfLoad fullImage as s).log, 120 ≤
      b := by
  obtain ⟨s, fl, held, root, h, hfree⟩ := exists_userSpace
  obtain ⟨helf, hnum, hphdr⟩ := fullImage_header
  have hroom : fullImage.room ≤ s.pmm.kFreePages := by
    have hfour : fullImage.room ≤ 4 := by decide
    omega
  have hsmall : ∀ f ∈ execBoot.freePages, f < 2 ^ 39 := fun f hf =>
    Nat.lt_trans (h.inv.pmmInv.bound f hf) (by decide)
  have hload : ∃ s', elfLoad fullImage elfSpace.1 s = some (0x400000, s') := by
    have hentry : fullImage.eEntry = 0x400000 := by decide
    have htame : ∀ l ∈ fullImage.loads, ¬ l.1.Wild l.2 := by decide
    rcases elfLoad_loadsAll helf h.toAllTables hroom with ⟨s', -, hcall⟩ | ⟨⟨l, hl, hwild⟩, -⟩
    · exact ⟨s', hentry ▸ hcall⟩
    · exact absurd hwild (htame l hl)
  have hout : ¬ (Reads.elfLoad fullImage elfSpace.1 s).All (· < 120) := by
    intro hall
    have hseg := (readsInside_of_all (by decide) hsmall h.toAllTables hroom hall).segments helf 0
      (by omega)
      (by rw [hphdr])
    have hdata := hseg.data
    rw [hphdr] at hdata
    exact absurd hdata (by decide)
  obtain ⟨s', hcall⟩ := hload
  simp only [Logged.All, not_forall, Nat.not_lt] at hout
  obtain ⟨b, hb, hle⟩ := hout
  exact ⟨s, _, fl, held, _, root, s', h.toAllTables, hphdr, hcall, b, hb, hle⟩

end VortexOS.Proc
