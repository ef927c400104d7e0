/-
VortexOS.Mm.Pmm — the physical memory manager of `kernel/mm.cpp`.

The manager is a buddy system. A `PageFrame*` is the number of the record
it points at (`frame - kFrames`), a null pointer `none`. Loops are
recursions on their trip count: `while (order < MAX_ORDER)` runs at most
`MAX_ORDER - order` times.

* `pmmInit` takes the bytes the metadata array is placed on as a
  parameter (`ram`). The source initialises every field of a `PageFrame`
  but `private_data`, which keeps what the memory held.
* `pmmInit` returns `none` where the source calls `KERNEL_PANIC`.
* `pmmAllocPages` returns `none` for a page count above `2 ^ 63`: no
  64-bit power of two reaches it, and the call never returns.
-/
import VortexOS.Lib.Word

namespace VortexOS.Mm

open Lib

/-! ## Constants and page arithmetic (`mm.hpp`) -/

def pageSize : Nat := 4096
def pageShift : Nat := 12
def maxOrder : Nat := 10

def pageFree : BitVec 8 := 1#8 <<< 0
def pageUsed : BitVec 8 := 1#8 <<< 1
def pageReserved : BitVec 8 := 1#8 <<< 2

def sizeofPageFrame : Nat := 32

def pageAlignDown (addr : Nat) : Nat := addr - addr % pageSize

def pageAlignUp (addr : Nat) : Nat := pageAlignDown (add64 addr (pageSize - 1))

def physToPfn (phys : Nat) : Nat := phys >>> pageShift

def pfnToPhys (pfn : Nat) : Nat := pfn <<< pageShift

/-! ## State -/

structure PageFrame where
  order : Nat
  flags : BitVec 8
  refcount : Nat
  numaNode : Nat
  /-- A raw pointer value; `0` is null. -/
  privateData : Nat
  next : Option Nat
  prev : Option Nat
  deriving DecidableEq, Repr

def PageFrame.isFree (f : PageFrame) : Bool := f.flags &&& pageFree != 0

def PageFrame.isReserved (f : PageFrame) : Bool := f.flags &&& pageReserved != 0

/-- The static variables of `mm.cpp`. `kFrames` is the metadata array,
`kFramesAddr` the pointer the source keeps in its variable of that name. -/
structure Pmm where
  kFramesAddr : Nat
  kFrames : Nat → PageFrame
  kTotalPages : Nat
  kFreePages : Nat
  kHhdmOffset : Nat
  kFreeLists : Nat → Option Nat

def Pmm.modFrame (s : Pmm) (pfn : Nat) (f : PageFrame → PageFrame) : Pmm :=
  { s with kFrames := Function.update s.kFrames pfn (f (s.kFrames pfn)) }

def Pmm.modFrame? (s : Pmm) (o : Option Nat) (f : PageFrame → PageFrame) : Pmm :=
  match o with
  | some pfn => s.modFrame pfn f
  | none => s

def Pmm.setFreeList (s : Pmm) (order : Nat) (head : Option Nat) : Pmm :=
  { s with kFreeLists := Function.update s.kFreeLists order head }

/-! ## List helpers -/

def buddyOf (pfn order : Nat) : Nat := pfn ^^^ 2 ^ order

def listAdd (order pfn : Nat) (s : Pmm) : Pmm :=
  let s := s.modFrame pfn fun f => { f with next := s.kFreeLists order }
  let s := s.modFrame pfn fun f => { f with prev := none }
  let s := s.modFrame? (s.kFreeLists order) fun f => { f with prev := some pfn }
  let s := s.setFreeList order (some pfn)
  let s := s.modFrame pfn fun f => { f with flags := f.flags ||| pageFree }
  s.modFrame pfn fun f => { f with order := order }

def listRemove (order pfn : Nat) (s : Pmm) : Pmm :=
  let s := match (s.kFrames pfn).prev with
    | some prev => s.modFrame prev fun f => { f with next := (s.kFrames pfn).next }
    | none => s.setFreeList order (s.kFrames pfn).next
  let s := s.modFrame? (s.kFrames pfn).next fun f => { f with prev := (s.kFrames pfn).prev }
  s.modFrame pfn fun f => { f with flags := f.flags &&& ~~~pageFree }

/-! ## Initialization -/

inductive MemmapType where
  | usable
  | reserved
  | acpiReclaimable
  | acpiNvs
  | badMemory
  | bootloaderReclaimable
  | executableAndModules
  | framebuffer
  deriving DecidableEq, Repr

structure MemmapEntry where
  base : Nat
  length : Nat
  type : MemmapType
  deriving DecidableEq, Repr

def MemmapEntry.endAddr (e : MemmapEntry) : Nat := add64 e.base e.length

def highestAddr (entries : List MemmapEntry) : Nat :=
  entries.foldl (fun highest e => if e.endAddr > highest then e.endAddr else highest) 0

/-- Step 2: the first usable region that is large enough. -/
def findMetadataEntry (entries : List MemmapEntry) (metadataSize : Nat) : Option MemmapEntry :=
  entries.find? fun e => e.type = .usable ∧ e.length ≥ metadataSize

def resetFrame (f : PageFrame) : PageFrame :=
  { f with order := 0, flags := pageReserved, refcount := 0, numaNode := 0,
           next := none, prev := none }

/-- The largest order that fits and is aligned. The first argument is the
trip count left, `MAX_ORDER - order`. -/
def initOrder (pfn endPfn metaStart : Nat) : Nat → Nat → Nat
  | 0, order => order
  | n + 1, order =>
    if pfn % 2 ^ (order + 1) = 0 ∧ pfn + 2 ^ (order + 1) ≤ endPfn then
      -- would the block overlap the metadata?
      if pfn < metaStart ∧ pfn + 2 ^ (order + 1) > metaStart then order
      else initOrder pfn endPfn metaStart n (order + 1)
    else order

/-- The `pfn` loop over one region. Each iteration moves `pfn` forward, so
`endPfn - pfn` iterations are enough; that is the first argument. -/
def initRegion (metaStart metaEnd endPfn : Nat) : Nat → Nat → Pmm → Pmm
  | 0, _, s => s
  | n + 1, pfn, s =>
    if pfn < endPfn then
      if metaStart ≤ pfn ∧ pfn < metaEnd then
        initRegion metaStart metaEnd endPfn n metaEnd s
      else
        let order := initOrder pfn endPfn metaStart maxOrder 0
        let s := s.modFrame pfn fun f => { f with flags := 0 }
        let s := listAdd order pfn s
        let s := { s with kFreePages := s.kFreePages + 2 ^ order }
        initRegion metaStart metaEnd endPfn n (pfn + 2 ^ order) s
    else s

def initEntry (metaStart metaEnd : Nat) (s : Pmm) (e : MemmapEntry) : Pmm :=
  if e.type ≠ .usable then s
  else
    let startPfn := physToPfn (pageAlignUp e.base)
    let endPfn := physToPfn (pageAlignDown e.endAddr)
    initRegion metaStart metaEnd endPfn (endPfn - startPfn) startPfn s

/-- The metadata pages `[meta_start, meta_end)` of an initialised state. -/
def metaStart (kFramesAddr hhdm : Nat) : Nat := physToPfn (sub64 kFramesAddr hhdm)

def metaEnd (kFramesAddr hhdm totalPages : Nat) : Nat :=
  metaStart kFramesAddr hhdm + (totalPages * sizeofPageFrame + pageSize - 1) / pageSize

def pmmInit (entries : List MemmapEntry) (hhdm : Nat) (ram : Nat → PageFrame) : Option Pmm :=
  let totalPages := physToPfn (highestAddr entries)
  match findMetadataEntry entries (totalPages * sizeofPageFrame) with
  | none => none
  | some place =>
    let addr := add64 place.base hhdm
    let s : Pmm :=
      { kFramesAddr := addr
        kFrames := fun i => if i < totalPages then resetFrame (ram i) else ram i
        kTotalPages := totalPages
        kFreePages := 0
        kHhdmOffset := hhdm
        kFreeLists := fun _ => none }
    some (entries.foldl (initEntry (metaStart addr hhdm) (metaEnd addr hhdm totalPages)) s)

/-! ## Allocation -/

/-- The smallest order whose block holds `count` pages. -/
def targetOrder (count : Nat) : Option Nat :=
  (List.range 64).find? fun t => ¬ 2 ^ t < count

/-- Split the block at `pfn` down from `order` to `target`. -/
def splitLoop (pfn target : Nat) : Nat → Pmm → Pmm
  | 0, s => s
  | order + 1, s =>
    if order + 1 > target then splitLoop pfn target order (listAdd order (buddyOf pfn order) s)
    else s

/-- The body of the search loop once a free block has been found. -/
def takeBlock (target order pfn : Nat) (s : Pmm) : Pmm :=
  let s := listRemove order pfn s
  let s := splitLoop pfn target order s
  let s := s.modFrame pfn fun f => { f with flags := f.flags ||| pageUsed }
  let s := s.modFrame pfn fun f => { f with order := target }
  { s with kFreePages := s.kFreePages - 2 ^ target }

/-- The first non-empty free list from `target` upwards, and its head. -/
def findBlock (target : Nat) (s : Pmm) : Option (Nat × Nat) :=
  (List.range' target (maxOrder + 1 - target)).findSome? fun order =>
    (s.kFreeLists order).map fun pfn => (order, pfn)

def pmmAllocPages (count : Nat) (s : Pmm) : Option (Nat × Pmm) :=
  if count = 0 then some (0, s)
  else
    match targetOrder count with
    | none => none
    | some target =>
      if target > maxOrder then some (0, s)
      else
        match findBlock target s with
        | some (order, pfn) => some (pfnToPhys pfn, takeBlock target order pfn s)
        | none => some (0, s)

def pmmAllocPage (s : Pmm) : Option (Nat × Pmm) := pmmAllocPages 1 s

/-! ## Deallocation -/

/-- The merge loop. The first argument is the trip count left, `MAX_ORDER -
order`; the result is the merged block and the state. -/
def mergeLoop : Nat → Nat → Nat → Pmm → Nat × Nat × Pmm
  | 0, pfn, order, s => (pfn, order, s)
  | n + 1, pfn, order, s =>
    let buddyPfn := buddyOf pfn order
    if buddyPfn ≥ s.kTotalPages then (pfn, order, s)
    else
      let buddy := s.kFrames buddyPfn
      if !buddy.isFree || buddy.order != order || buddy.isReserved then (pfn, order, s)
      else
        let s := listRemove order buddyPfn s
        mergeLoop n (if buddyPfn < pfn then buddyPfn else pfn) (order + 1) s

def pmmFreePages (phys _count : Nat) (s : Pmm) : Pmm :=
  if phys = 0 then s
  else
    let pfn := physToPfn phys
    let order := (s.kFrames pfn).order
    let s := { s with kFreePages := s.kFreePages + 2 ^ order }
    let s := s.modFrame pfn fun f => { f with flags := f.flags &&& ~~~pageUsed }
    let (pfn, order, s) := mergeLoop (maxOrder - order) pfn order s
    listAdd order pfn s

/-! ## Frame lookup -/

def pmmGetFrame (phys : Nat) (s : Pmm) : Option Nat :=
  let pfn := physToPfn phys
  if pfn ≥ s.kTotalPages then none else some pfn

end VortexOS.Mm
