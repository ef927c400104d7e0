/-
VortexOS.Proc.Elf — the ELF loader, `kernel/elf.cpp`.

`Image` are the bytes from the pointer to the file on, by their distance
modulo `2 ^ 64`: the file, and behind it what memory holds there. The loader
checks no offset against the file's size. Those bytes are taken not to
change while the file is loaded.

`none` as the result of a function means that it does not return: a store
through the direct map that leaves memory. The messages on the serial port
are left out, and so are header fields that the loader does not read.
-/
import VortexOS.Mm.Vmm

namespace VortexOS.Proc

open Lib Mm

/-! ## Headers (`elf.hpp`) -/

abbrev Image := Nat → BitVec 8

/-- The number in the `n` bytes at `off`, lowest byte first. -/
def Image.number (elf : Image) (off : Nat) : Nat → Nat
  | 0 => 0
  | n + 1 => (elf (off % 2 ^ 64)).toNat + 256 * elf.number (off + 1) n

structure Phdr where
  pType : Nat
  pFlags : Nat
  pOffset : Nat
  pVaddr : Nat
  pFilesz : Nat
  pMemsz : Nat
  deriving DecidableEq, Repr

def sizeofPhdr : Nat := 56
def ptLoad : Nat := 1
def pfX : Nat := 1
def pfW : Nat := 2

namespace Image

variable (elf : Image)

def eMachine : Nat := elf.number 18 2
def eEntry : Nat := elf.number 24 8
def ePhoff : Nat := elf.number 32 8
def ePhnum : Nat := elf.number 56 2

def phdr (i : Nat) : Phdr where
  pType := elf.number (elf.ePhoff + sizeofPhdr * i) 4
  pFlags := elf.number (elf.ePhoff + sizeofPhdr * i + 4) 4
  pOffset := elf.number (elf.ePhoff + sizeofPhdr * i + 8) 8
  pVaddr := elf.number (elf.ePhoff + sizeofPhdr * i + 16) 8
  pFilesz := elf.number (elf.ePhoff + sizeofPhdr * i + 32) 8
  pMemsz := elf.number (elf.ePhoff + sizeofPhdr * i + 40) 8

end Image

namespace Phdr

variable (phdr : Phdr)

def start : Nat := pageAlignDown phdr.pVaddr

def endAddr : Nat := pageAlignUp (add64 phdr.pVaddr phdr.pMemsz)

/-- The values of `v` in the loop over the pages of a segment. Both bounds
are multiples of the page size. -/
def pages : List Nat :=
  (List.range ((phdr.endAddr - phdr.start) / pageSize)).map fun i => phdr.start + i * pageSize

/-- `flags` has 32 bits: `PAGE_NX`, bit 63, is lost. -/
def flags : BitVec 32 :=
  pageUser.setWidth 32 ||| if phdr.pFlags &&& pfW ≠ 0 then pageWrite.setWidth 32 else 0

end Phdr

/-! ## `elf_load` -/

/-- A byte stored through the direct map, which ends with the physical
addresses. -/
def storeByte (va : Nat) (b : BitVec 8) (s : Kmem) : Option Kmem :=
  let phys := sub64 va s.hhdm
  if phys < 2 ^ 52 then some { s with mem := writeByte s.mem phys b } else none

def copyBytes (elf : Image) : Nat → Nat → Nat → Kmem → Option Kmem
  | _, _, 0, s => some s
  | src, dst, n + 1, s =>
    match storeByte dst (elf src) s with
    | none => none
    | some s => copyBytes elf (add64 src 1) (add64 dst 1) n s

/-- The part of the segment in the file that falls on the page at `v`, a
page that was put at `pageVirt`. -/
def fillPage (elf : Image) (phdr : Phdr) (v pageVirt : Nat) (s : Kmem) : Option Kmem :=
  let pageEnd := add64 v pageSize
  let segStart := phdr.pVaddr
  let segEnd := add64 phdr.pVaddr phdr.pFilesz
  if pageEnd ≤ segStart ∨ v ≥ segEnd then some s
  else
    let copyStart := if v < segStart then segStart else v
    let copyEnd := if pageEnd > segEnd then segEnd else pageEnd
    let offsetInData := sub64 copyStart segStart
    let offsetInPage := sub64 copyStart v
    let copySize := sub64 copyEnd copyStart
    copyBytes elf (add64 phdr.pOffset offsetInData) (add64 pageVirt offsetInPage) copySize s

/-- One page. The result of `vmm_map_page` is not looked at. -/
def loadPage (elf : Image) (as : Nat) (phdr : Phdr) (v : Nat) (s : Kmem) : Option (Bool × Kmem) :=
  match s.allocPage with
  | none => none
  | some (p, s) =>
    if p = 0 then some (false, s)
    else
      match vmmMapPage as v p phdr.flags s with
      | none => none
      | some (_, s) => (fillPage elf phdr v (add64 p s.hhdm) s).map fun s => (true, s)

def loadSegment (elf : Image) (as : Nat) (phdr : Phdr) (s : Kmem) : Option (Bool × Kmem) :=
  if phdr.pType ≠ ptLoad then some (true, s) else forSlots (loadPage elf as phdr) phdr.pages s

def elfMagic : List (BitVec 8) := [0x7F, 0x45, 0x4C, 0x46]

/-- `elf_load` into the address space `as`; `0` means failure. -/
def elfLoad (elf : Image) (as : Nat) (s : Kmem) : Option (Nat × Kmem) :=
  if [elf 0, elf 1, elf 2, elf 3] ≠ elfMagic then some (0, s)
  else if elf.eMachine ≠ 0x3E then some (0, s)
  else
    (forSlots (fun i => loadSegment elf as (elf.phdr i)) (List.range elf.ePhnum) s).map fun (ok,
      s) =>
      (if ok then elf.eEntry else 0, s)

end VortexOS.Proc
