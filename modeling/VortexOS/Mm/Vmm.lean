/-
VortexOS.Mm.Vmm — page tables: `kernel/vmm.cpp` and the page-fault handler
of `kernel/pf.cpp`.

The kernel reaches a table through the direct map, so a `uint64_t* table`
is `phys + hhdm` and `table[i]` is a word of `Kmem.mem`. New tables come
with whatever their page held before; each function zeroes exactly what the
source zeroes.

An `AddressSpace*` is a heap block with `pml4` at offset 0 and `brk` at
offset 8. Functions that read CR3, CR2 or an error code take them as
arguments. `none` is a panic; null pointers are 0.
-/
import VortexOS.Mm.Heap

namespace VortexOS.Mm

open Lib

/-! ## Entries -/

def pagePresent : BitVec 64 := 1#64 <<< 0
def pageWrite : BitVec 64 := 1#64 <<< 1
def pageUser : BitVec 64 := 1#64 <<< 2

def addrMask : BitVec 64 := 0x000FFFFFFFFFF000#64

def present (e : BitVec 64) : Bool := e &&& pagePresent != 0

namespace Kmem

def entry (s : Kmem) (table i : Nat) : BitVec 64 := s.mem (s.wordAt (table + 8 * i))

def setEntry (s : Kmem) (table i : Nat) (e : BitVec 64) : Kmem :=
  { s with mem := Function.update s.mem (s.wordAt (table + 8 * i)) e }

/-- The table an entry points to, in the direct map. -/
def tablePtr (s : Kmem) (e : BitVec 64) : Nat := add64 (e &&& addrMask).toNat s.hhdm

def allocPage (s : Kmem) : Option (Nat × Kmem) :=
  (pmmAllocPage s.pmm).map fun r => (r.1, { s with pmm := r.2 })

/-- `for (i : is) dst[i] = src[i]`. -/
def copyEntries (is : List Nat) (src dst : Nat) (s : Kmem) : Kmem :=
  is.foldl (fun s i => s.setEntry dst i (s.entry src i)) s

def zeroTable (table : Nat) (s : Kmem) : Kmem :=
  (List.range 512).foldl (fun s i => s.setEntry table i 0) s

def pml4 (s : Kmem) (as : Nat) : Nat := s.load as

end Kmem

/-! ## Indices -/

def getPml4Idx (virt : Nat) : Nat := (virt >>> 39) &&& 0x1FF
def getPdptIdx (virt : Nat) : Nat := (virt >>> 30) &&& 0x1FF
def getPdIdx (virt : Nat) : Nat := (virt >>> 21) &&& 0x1FF
def getPtIdx (virt : Nat) : Nat := (virt >>> 12) &&& 0x1FF

def upperIdx (virt : Nat) : List Nat := [getPml4Idx virt, getPdptIdx virt, getPdIdx virt]

/-! ## Walking and mapping -/

/-- The table in slot `idx`, created if the slot is empty; null when there
is no page left. -/
def getOrCreateNextLevel (table idx : Nat) (s : Kmem) : Option (Nat × Kmem) :=
  if present (s.entry table idx) then some (s.tablePtr (s.entry table idx), s)
  else
    s.allocPage.map fun (phys, s) =>
      if phys = 0 then (0, s)
      else
        let s := s.setEntry table idx
          (BitVec.ofNat 64 phys ||| pagePresent ||| pageWrite ||| pageUser)
        let s := s.zeroTable (add64 phys s.hhdm)
        (s.tablePtr (s.entry table idx), s)

/-- `get_or_create_next_level` once for each slot; null as soon as one
call returns null. -/
def descend : List Nat → Nat → Kmem → Option (Nat × Kmem)
  | [], table, s => some (table, s)
  | i :: is, table, s =>
    match getOrCreateNextLevel table i s with
    | none => none
    | some (next, s) => if next = 0 then some (0, s) else descend is next s

def walkPageTable (pml4 virt : Nat) (s : Kmem) : Option (Nat × Kmem) :=
  (descend (upperIdx virt) pml4 s).map fun (pt, s) =>
    if pt = 0 then (0, s) else ((s.entry pt (getPtIdx virt) &&& addrMask).toNat, s)

def vmmWalkPageTable (as virt : Nat) (s : Kmem) : Option (Nat × Kmem) :=
  walkPageTable (s.pml4 as) virt s

def mapPage (pml4 virt phys : Nat) (flags : BitVec 32) (s : Kmem) : Option (Bool × Kmem) :=
  (descend (upperIdx virt) pml4 s).map fun (pt, s) =>
    if pt = 0 then (false, s)
    else
      let e := (BitVec.ofNat 64 phys &&& addrMask) ||| flags.setWidth 64 ||| pagePresent
      (true, s.setEntry pt (getPtIdx virt) e)

def vmmMapPage (as virt phys : Nat) (flags : BitVec 32) (s : Kmem) : Option (Bool × Kmem) :=
  mapPage (s.pml4 as) virt phys flags s

/-- The table the slots lead to, if all of them are present. -/
def findTable : List Nat → Nat → Kmem → Option Nat
  | [], table, _ => some table
  | i :: is, table, s =>
    if present (s.entry table i) then findTable is (s.tablePtr (s.entry table i)) s else none

def vmmUnmapPage (as virt : Nat) (s : Kmem) : Kmem :=
  match findTable (upperIdx virt) (s.pml4 as) s with
  | none => s
  | some pt => s.setEntry pt (getPtIdx virt) 0

/-! ## Address spaces -/

def sizeofAddressSpace : Nat := 16

/-- `vmm_create_address_space` with `cr3` in CR3. -/
def vmmCreateAddressSpace (cr3 : Nat) (s : Kmem) : Option (Nat × Kmem) :=
  match s.allocPage with
  | none => none
  | some (pml4Phys, s) =>
    if pml4Phys = 0 then some (0, s)
    else
      let pml4Virt := add64 pml4Phys s.hhdm
      let s := s.zeroTable pml4Virt
      -- the kernel half
      let s := s.copyEntries (List.range' 256 256) (add64 cr3 s.hhdm) pml4Virt
      (kmalloc sizeofAddressSpace s).map fun (as, s) =>
        if as = 0 then (0, s)
        else
          let s := s.store as pml4Virt
          (as, s.store (as + 8) 0)

/-! ## Cloning -/

/-- A loop over slots that stops when `body` returns false. -/
def forSlots (body : Nat → Kmem → Option (Bool × Kmem)) : List Nat → Kmem → Option (Bool × Kmem)
  | [], s => some (true, s)
  | i :: is, s =>
    match body i s with
    | some (true, s) => forSlots body is s
    | r => r

/-- The case of a page at the last level. -/
def shareLeaf (src dst i : Nat) (s : Kmem) : Option (Bool × Kmem) :=
  let s := s.setEntry dst i (s.entry src i &&& ~~~pageWrite)
  some (true, s.setEntry src i (s.entry src i &&& ~~~pageWrite))

/-- The case of a table at the levels above: a new table, which is not
zeroed, is filled by `copyTable`. -/
def copyLower (copyTable : Nat → Nat → Kmem → Option (Bool × Kmem)) (src dst i : Nat) (s : Kmem) :
    Option (Bool × Kmem) :=
  match s.allocPage with
  | none => none
  | some (newPhys, s) =>
    if newPhys = 0 then some (false, s)
    else
      let newVirt := add64 newPhys s.hhdm
      let srcNext := s.tablePtr (s.entry src i)
      match copyTable srcNext newVirt s with
      | some (true, s) =>
        some (true, s.setEntry dst i (BitVec.ofNat 64 newPhys ||| (s.entry src i &&& 0xFFF#64)))
      | r => r

/-- One slot of `copy_page_table_level`; `copyUser` copies a present entry
that is not shared. -/
def copySlot (copyUser : Nat → Kmem → Option (Bool × Kmem)) (src dst : Nat) (isKernel : Bool)
    (i : Nat) (s : Kmem) : Option (Bool × Kmem) :=
  if ¬ present (s.entry src i) then some (true, s)
  else if isKernel ∨ 256 ≤ i then some (true, s.setEntry dst i (s.entry src i))
  else copyUser i s

/-- `copy_page_table_level(src, dst, level, is_kernel)`. The first argument
is the number of levels below, `3 - level`. -/
def copyPageTableLevel : Nat → Nat → Nat → Bool → Kmem → Option (Bool × Kmem)
  | 0, src, dst, isKernel, s =>
    forSlots (copySlot (shareLeaf src dst) src dst isKernel) (List.range 512) s
  | n + 1, src, dst, isKernel, s =>
    let copyTable := fun src dst s => copyPageTableLevel n src dst false s
    forSlots (copySlot (copyLower copyTable src dst) src dst isKernel) (List.range 512) s

/-- `vmm_clone_address_space`. What a failed clone has allocated is kept:
`vmm_destroy_address_space` does nothing. -/
def vmmCloneAddressSpace (srcAs cr3 : Nat) (s : Kmem) : Option (Nat × Kmem) :=
  match vmmCreateAddressSpace cr3 s with
  | none => none
  | some (dstAs, s) =>
    if dstAs = 0 then some (0, s)
    else
      (copyPageTableLevel 3 (s.pml4 srcAs) (s.pml4 dstAs) false s).map fun (ok, s) =>
        (if ok then dstAs else 0, s)

/-! ## The page-fault handler -/

/-- `page_fault_handler`; `none` is a panic. The handler does not check
the page it allocates. -/
def pageFaultHandler (errorCode cr2 cr3 : Nat) (s : Kmem) : Option Kmem :=
  let isPresent := errorCode.testBit 0
  let isWrite := errorCode.testBit 1
  let isUser := errorCode.testBit 2
  if isPresent && isWrite && isUser then
    let pml4 := add64 cr3 s.hhdm
    let virt := pageAlignDown cr2
    match walkPageTable pml4 virt s with
    | none => none
    | some (oldPhys, s) =>
      if oldPhys = 0 then none
      else
        match s.allocPage with
        | none => none
        | some (newPhys, s) =>
          let s := s.copyEntries (List.range 512) (add64 oldPhys s.hhdm) (add64 newPhys s.hhdm)
          (mapPage pml4 virt newPhys ((pageWrite ||| pageUser).setWidth 32) s).map Prod.snd
  else none

end VortexOS.Mm
