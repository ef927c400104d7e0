/-
VortexOS.Mm.Heap — the slab allocator of `kernel/heap.cpp`.

Nine caches hand out objects of 8 to 2048 bytes; larger requests go to the
page allocator. A slab is one page: a `Slab` header of 40 bytes followed
by the objects. A free object's first word is the link to the next one, and
slabs are threaded on three lists per cache through their headers. So
every header field and every link is a word of `Kmem.mem`.

Pointers are virtual addresses (`phys + hhdm`) with 0 for null. A pointer
to `kCaches[i]` is represented by `i`. The header fields are at

    free_list 0, free_count 8 (32 bits), next 16, prev 24, cache 32
-/
import VortexOS.Lib.Memory
import VortexOS.Mm.Pmm

namespace VortexOS.Mm

open Function Lib

inductive SlabList where
  /-- Slabs with some free objects (`partial`). -/
  | partly
  /-- Slabs with no free objects. -/
  | full
  /-- Slabs with all objects free. -/
  | empty
  deriving DecidableEq, Repr

/-- The memory allocators' state: the page allocator, physical memory and
the list heads of `kCaches`. -/
structure Kmem where
  pmm : Pmm
  mem : WordMem
  kCaches : Nat → SlabList → Nat

def numCaches : Nat := 9

def objectSize (i : Nat) : Nat := [8, 16, 32, 64, 128, 256, 512, 1024, 2048].getD i 0

def sizeofSlab : Nat := 40

def slabCapacity (i : Nat) : Nat := (pageSize - sizeofSlab) / objectSize i

/-! ## Memory access -/

namespace Kmem

def hhdm (s : Kmem) : Nat := s.pmm.kHhdmOffset

/-- The word a virtual address of the direct map stands for. -/
def wordAt (s : Kmem) (va : Nat) : Nat := sub64 va s.hhdm / 8

def load (s : Kmem) (va : Nat) : Nat := (s.mem (s.wordAt va)).toNat

def store (s : Kmem) (va v : Nat) : Kmem :=
  { s with mem := update s.mem (s.wordAt va) (BitVec.ofNat 64 v) }

def setHead (s : Kmem) (i : Nat) (l : SlabList) (slab : Nat) : Kmem :=
  { s with kCaches := update s.kCaches i (update (s.kCaches i) l slab) }

def slabFreeList (s : Kmem) (slab : Nat) : Nat := s.load slab

def slabNext (s : Kmem) (slab : Nat) : Nat := s.load (slab + 16)

def slabPrev (s : Kmem) (slab : Nat) : Nat := s.load (slab + 24)

def slabCache (s : Kmem) (slab : Nat) : Nat := s.load (slab + 32)

def slabFreeCount (s : Kmem) (slab : Nat) : Nat := lo32 (s.mem (s.wordAt (slab + 8)))

def setNext (s : Kmem) (slab v : Nat) : Kmem := s.store (slab + 16) v

def setPrev (s : Kmem) (slab v : Nat) : Kmem := s.store (slab + 24) v

def setFreeCount (s : Kmem) (slab v : Nat) : Kmem :=
  let w := s.wordAt (slab + 8)
  { s with mem := update s.mem w (setLo32 (s.mem w) v) }

end Kmem

/-! ## Slab lists -/

def addSlab (l : SlabList) (i slab : Nat) (s : Kmem) : Kmem :=
  let s := s.setNext slab (s.kCaches i l)
  let s := if s.kCaches i l ≠ 0 then s.setPrev (s.kCaches i l) slab else s
  let s := s.setHead i l slab
  s.setPrev slab 0

def removeSlab (l : SlabList) (i slab : Nat) (s : Kmem) : Kmem :=
  let s := if s.slabPrev slab ≠ 0 then s.setNext (s.slabPrev slab) (s.slabNext slab)
    else s.setHead i l (s.slabNext slab)
  if s.slabNext slab ≠ 0 then s.setPrev (s.slabNext slab) (s.slabPrev slab) else s

def popEmpty (i slab : Nat) (s : Kmem) : Kmem :=
  let s := s.setHead i .empty (s.slabNext slab)
  if s.kCaches i .empty ≠ 0 then s.setPrev (s.kCaches i .empty) 0 else s

/-! ## `slab_create` -/

/-- Link the objects from `curr` on: `n` times to the next one, then null. -/
def linkObjects (size : Nat) : Nat → Nat → Kmem → Kmem
  | 0, curr, s => s.store curr 0
  | n + 1, curr, s => linkObjects size n (curr + size) (s.store curr (curr + size))

def initSlab (i virt : Nat) (s : Kmem) : Kmem :=
  let s := s.setFreeCount virt (slabCapacity i)
  let s := s.setNext virt 0
  let s := s.setPrev virt 0
  let s := s.store (virt + 32) i
  let s := s.store virt (virt + sizeofSlab)
  linkObjects (objectSize i) (slabCapacity i - 1) (virt + sizeofSlab) s

/-- A new slab for cache `i`, or null. -/
def slabCreate (i : Nat) (s : Kmem) : Option (Nat × Kmem) :=
  match pmmAllocPage s.pmm with
  | none => none
  | some (phys, pmm) =>
    let s := { s with pmm := pmm }
    if phys = 0 then some (0, s)
    else
      let virt := add64 phys s.hhdm
      let s := initSlab i virt s
      some (virt, { s with
        pmm := s.pmm.modFrame? (pmmGetFrame phys s.pmm) fun f => { f with privateData := virt } })

/-! ## `kmalloc` -/

/-- The first cache whose objects hold `size` bytes. -/
def findCache (size : Nat) : Option Nat := (List.range numCaches).find? fun i => size ≤ objectSize i

/-- A slab of cache `i` with a free object, on the list of partly used
slabs; or null. -/
def getSlab (i : Nat) (s : Kmem) : Option (Nat × Kmem) :=
  if s.kCaches i .partly ≠ 0 then some (s.kCaches i .partly, s)
  else if s.kCaches i .empty ≠ 0 then
    let slab := s.kCaches i .empty
    some (slab, addSlab .partly i slab (popEmpty i slab s))
  else
    match slabCreate i s with
    | none => none
    | some (slab, s) =>
      if slab = 0 then some (0, s) else some (slab, addSlab .partly i slab s)

def takeObject (i slab : Nat) (s : Kmem) : Nat × Kmem :=
  let obj := s.slabFreeList slab
  let s := s.store slab (s.load obj)
  -- a 32-bit decrement
  let s := s.setFreeCount slab (s.slabFreeCount slab + (2 ^ 32 - 1))
  let s := if s.slabFreeCount slab = 0 then addSlab .full i slab (removeSlab .partly i slab s)
    else s
  (obj, s)

def kmalloc (size : Nat) (s : Kmem) : Option (Nat × Kmem) :=
  if size = 0 then some (0, s)
  else
    match findCache size with
    | none =>
      -- full pages; the rounding wraps for sizes near `2 ^ 64`
      let pages := add64 size (pageSize - 1) / pageSize
      (pmmAllocPages pages s.pmm).map fun (phys, pmm) =>
        (if phys = 0 then 0 else add64 phys s.hhdm, { s with pmm := pmm })
    | some i =>
      (getSlab i s).map fun (slab, s) => if slab = 0 then (0, s) else takeObject i slab s

/-! ## `kfree` -/

def freeObject (slab ptr : Nat) (s : Kmem) : Kmem :=
  let i := s.slabCache slab
  let s := s.store ptr (s.slabFreeList slab)
  let s := s.store slab ptr
  let s := s.setFreeCount slab (s.slabFreeCount slab + 1)
  let s := if s.slabFreeCount slab = 1 then addSlab .partly i slab (removeSlab .full i slab s)
    else s
  if s.slabFreeCount slab ≥ slabCapacity i then
    addSlab .empty i slab (removeSlab .partly i slab s)
  else s

def kfree (ptr : Nat) (s : Kmem) : Kmem :=
  if ptr = 0 then s
  else
    let phys := sub64 ptr s.hhdm
    match pmmGetFrame phys s.pmm with
    | none => s
    | some pfn =>
      let frame := s.pmm.kFrames pfn
      if frame.privateData ≠ 0 then freeObject frame.privateData ptr s
      else { s with pmm := pmmFreePages phys (2 ^ frame.order) s.pmm }

end VortexOS.Mm
