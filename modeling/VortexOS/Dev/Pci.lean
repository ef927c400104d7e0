/-
VortexOS.Dev.Pci — the bus scan of `kernel/pci.cpp`.

Configuration space is what port `0xCFC` answers for each address written
to port `0xCF8`. What a scan does is the list of its reads and of the lines
it prints. The three scan functions are mutually recursive: they take the
call of `pci_scan_bus` as a parameter, and `pciScanBus` closes the recursion
with a bound on its depth. `none` means that the call has not returned.
-/
import VortexOS.Lib.Calls

namespace VortexOS.Dev

open Lib

/-! ## Configuration space -/

/-- The dword read from port `PCI_CONFIG_DATA` for each value of port
`PCI_CONFIG_ADDR`. -/
abbrev ConfigSpace := BitVec 32 → BitVec 32

def pciAddrEnable : BitVec 32 := 0x80000000

def pciVendorId : BitVec 8 := 0x00
def pciDeviceId : BitVec 8 := 0x02
def pciRevision : BitVec 8 := 0x08
def pciClassSubclass : BitVec 8 := 0x0A
def pciClassCode : BitVec 8 := 0x0B
def pciHeaderType : BitVec 8 := 0x0E
/-- The register that `pci_scan_function` reads as `0x19`. -/
def pciSecondaryBus : BitVec 8 := 0x19

structure PciFunction where
  bus : BitVec 8
  dev : BitVec 8
  func : BitVec 8
  deriving DecidableEq, Repr

def configAddr (fn : PciFunction) (offset : BitVec 8) : BitVec 32 :=
  pciAddrEnable ||| fn.bus.setWidth 32 <<< 16 ||| fn.dev.setWidth 32 <<< 11 |||
    fn.func.setWidth 32 <<< 8 ||| (offset &&& 0xFC#8).setWidth 32

variable (cfg : ConfigSpace)

def pciConfigReadDword (fn : PciFunction) (offset : BitVec 8) : BitVec 32 :=
  cfg (configAddr fn offset)

def pciConfigReadWord (fn : PciFunction) (offset : BitVec 8) : BitVec 16 :=
  let dword := pciConfigReadDword cfg fn (offset &&& ~~~3#8)
  (if offset &&& 2#8 ≠ 0#8 then dword >>> 16 else dword).setWidth 16

def pciConfigReadByte (fn : PciFunction) (offset : BitVec 8) : BitVec 8 :=
  let dword := pciConfigReadDword cfg fn (offset &&& ~~~3#8)
  (if offset &&& 3#8 ≠ 0#8 then dword >>> ((offset &&& 3#8).toNat * 8) else dword).setWidth 8

/-! ## The scan -/

inductive PciEvent where
  /-- `[PCI] Scanning bus ` and the number -/
  | scanning (bus : BitVec 8)
  | read (fn : PciFunction) (offset : BitVec 8)
  /-- the line that is printed for a function that is there -/
  | found (fn : PciFunction) (vendorId deviceId : BitVec 16)
      (classCode subclass progIf headerType : BitVec 8)
  deriving DecidableEq, Repr

def pciScanFunction (scanBus : BitVec 8 → Option (List PciEvent)) (bus dev func : BitVec 8) :
    Option (List PciEvent) :=
  let fn : PciFunction := ⟨bus, dev, func⟩
  let vendorId := pciConfigReadWord cfg fn pciVendorId
  if vendorId = 0xFFFF#16 then some [.read fn pciVendorId]
  else
    let deviceId := pciConfigReadWord cfg fn pciDeviceId
    let classCode := pciConfigReadByte cfg fn pciClassCode
    let subclass := pciConfigReadByte cfg fn pciClassSubclass
    let progIf := pciConfigReadByte cfg fn pciRevision
    let headerType := pciConfigReadByte cfg fn pciHeaderType
    let log := [.read fn pciVendorId, .read fn pciDeviceId, .read fn pciClassCode,
      .read fn pciClassSubclass, .read fn pciRevision, .read fn pciHeaderType,
      .found fn vendorId deviceId classCode subclass progIf headerType]
    if headerType = 0x01#8 then
      let secondaryBus := pciConfigReadByte cfg fn pciSecondaryBus
      let log := log ++ [.read fn pciSecondaryBus]
      if secondaryBus ≠ bus then (scanBus secondaryBus).map (log ++ ·) else some log
    else some log

def otherFunctions : List (BitVec 8) := [1#8, 2#8, 3#8, 4#8, 5#8, 6#8, 7#8]

def pciScanDevice (scanBus : BitVec 8 → Option (List PciEvent)) (bus dev : BitVec 8) :
    Option (List PciEvent) :=
  let fn : PciFunction := ⟨bus, dev, 0#8⟩
  let vendorId := pciConfigReadWord cfg fn pciVendorId
  if vendorId = 0xFFFF#16 then some [.read fn pciVendorId]
  else do
    let first ← pciScanFunction cfg scanBus bus dev 0#8
    let headerType := pciConfigReadByte cfg fn pciHeaderType
    let log := .read fn pciVendorId :: first ++ [.read fn pciHeaderType]
    if headerType &&& 0x80#8 ≠ 0#8 then
      let others ← concatM (pciScanFunction cfg scanBus bus dev) otherFunctions
      return log ++ others
    else return log

def devices : List (BitVec 8) := (List.range 32).map (BitVec.ofNat 8)

def pciScanBus : Nat → BitVec 8 → Option (List PciEvent)
  | 0, _ => none
  | depth + 1, bus =>
    (concatM (pciScanDevice cfg (pciScanBus depth) bus) devices).map (.scanning bus :: ·)

/-! ## The topology that a configuration space describes -/

namespace PciFunction

variable (fn : PciFunction)

def vendorId : BitVec 16 := pciConfigReadWord cfg fn pciVendorId

def headerType : BitVec 8 := pciConfigReadByte cfg fn pciHeaderType

def secondaryBus : BitVec 8 := pciConfigReadByte cfg fn pciSecondaryBus

def first : PciFunction := { fn with func := 0#8 }

/-- The device has more functions than function 0: bit 7 of the header type
of function 0. -/
def MultiFunction : Prop := (fn.first.headerType cfg) &&& 0x80#8 ≠ 0#8

/-- The function is there. A device has a function 0, and it has others only
if it is a multi-function device: a single-function device may answer for
every function number. -/
structure Present : Prop where
  dev : fn.dev < 32#8
  func : fn.func < 8#8
  device : fn.first.vendorId cfg ≠ 0xFFFF#16
  vendor : fn.vendorId cfg ≠ 0xFFFF#16
  multi : fn.func ≠ 0#8 → fn.MultiFunction cfg

/-- A PCI-PCI bridge: header type 1, whatever the multi-function bit. -/
def IsBridge : Prop := (fn.headerType cfg) &&& 0x7F#8 = 0x01#8

end PciFunction

/-- A bridge on bus `b` leads to bus `s`. -/
def Leads (b s : BitVec 8) : Prop :=
  ∃ fn : PciFunction, fn.bus = b ∧ fn.Present cfg ∧ fn.IsBridge cfg ∧ fn.secondaryBus cfg = s

/-- Bus `b` is reached from bus 0 through bridges. -/
def BusReached (b : BitVec 8) : Prop := Relation.ReflTransGen (Leads cfg) 0#8 b

structure BridgeReached (fn : PciFunction) : Prop where
  bus : BusReached cfg fn.bus
  present : fn.Present cfg
  bridge : fn.IsBridge cfg

/-- Each bridge leads to a bus of its own, and none leads to bus 0. -/
structure TreeShaped : Prop where
  distinct : ∀ fn gn, BridgeReached cfg fn → BridgeReached cfg gn →
    fn.secondaryBus cfg = gn.secondaryBus cfg → fn = gn
  root : ∀ fn, BridgeReached cfg fn → fn.secondaryBus cfg ≠ 0#8

/-- No bus with a function on it is behind a bridge whose header type has
the multi-function bit set. -/
def NoHiddenBus : Prop :=
  ∀ fn, BridgeReached cfg fn → fn.headerType cfg = 0x01#8 ∨
    ∀ gn : PciFunction, gn.bus = fn.secondaryBus cfg → ¬ gn.Present cfg

/-- `pci_scan_function` follows a bridge from bus `b` to bus `s`. -/
def Follows (b s : BitVec 8) : Prop :=
  ∃ fn : PciFunction, fn.bus = b ∧ fn.Present cfg ∧ fn.headerType cfg = 0x01#8 ∧
    fn.secondaryBus cfg ≠ b ∧ fn.secondaryBus cfg = s

/-! ## Visits -/

def PciEvent.line? : PciEvent → Option PciFunction
  | .found fn _ _ _ _ _ _ => some fn
  | _ => none

def visits (log : List PciEvent) : List PciFunction := log.filterMap PciEvent.line?

/-- Every function that can be reached is visited once, and of a
single-function device only function 0 is looked at. -/
structure Enumerated (log : List PciEvent) : Prop where
  once : ∀ fn : PciFunction, fn.Present cfg → BusReached cfg fn.bus → (visits log).count fn = 1
  single : ∀ (fn : PciFunction) (offset : BitVec 8), .read fn offset ∈ log → fn.func ≠ 0#8 →
    fn.MultiFunction cfg

end VortexOS.Dev
