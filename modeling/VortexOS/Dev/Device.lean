/-
VortexOS.Dev.Device — the device manager, `kernel/device.cpp`.

A `Device*` is an address, a null pointer is `none`, and `devices` has the
record at every address. The list of the registered devices runs through
their fields `private_data`. A string is as in `VortexOS.Fs.Vfs`; a `name`
is terminated within its 64 bytes.

`none` as the result of a function means that it does not return: a list
with more devices than there are addresses has a cycle. The fields `type`,
`major` and `minor` only go into a text for the serial port or are not used
at all, and are left out with it.
-/
import VortexOS.Fs.VfsStrings

namespace VortexOS.Dev

open Lib Fs

structure Device where
  name : List Byte
  ops : Option Nat
  privateData : Option Nat
  deriving DecidableEq, Repr

structure Registry where
  devices : Nat → Device
  kDeviceList : Option Nat
  kDeviceCount : UInt32

def maxDevices : UInt32 := 128

/-- More devices than addresses. -/
def listBound : Nat := 2 ^ 64

namespace Registry

def modDevice (s : Registry) (dev : Nat) (f : Device → Device) : Registry :=
  { s with devices := Function.update s.devices dev (f (s.devices dev)) }

def next (s : Registry) (dev : Nat) : Option Nat := (s.devices dev).privateData

/-- `*prev = v`, where `prev` is the address of `kDeviceList` or of the field
`private_data` of a device. -/
def setLink (s : Registry) (prev v : Option Nat) : Registry :=
  match prev with
  | none => { s with kDeviceList := v }
  | some dev => s.modDevice dev fun d => { d with privateData := v }

end Registry

def deviceManagerInit (devices : Nat → Device) : Registry := ⟨devices, none, 0⟩

def sameName : List Byte → List Byte → Bool
  | a :: as, b :: bs =>
    if a ≠ 0 ∧ b ≠ 0 ∧ a = b then sameName as bs else decide (a = 0 ∧ b = 0)
  | a :: _, [] => decide (a = 0)
  | [], b :: _ => decide (b = 0)
  | [], [] => true

def deviceFind (name : Option (List Byte)) (s : Registry) : Option (Option Nat) :=
  match name with
  | none => some none
  | some name => searchChain s.next (fun curr => sameName (s.devices curr).name name) listBound
      s.kDeviceList

/-- The stores of `device_register` once it has accepted the device. -/
def addDevice (dev : Nat) (s : Registry) : Registry :=
  let s := s.modDevice dev fun d => { d with privateData := none, ops := none }
  let next := s.kDeviceList
  let s := { s with kDeviceList := some dev }
  let s := s.modDevice dev fun d => { d with privateData := next }
  { s with kDeviceCount := s.kDeviceCount + 1 }

def deviceRegister (dev : Option Nat) (s : Registry) : Option (Bool × Registry) :=
  match dev with
  | none => some (false, s)
  | some dev =>
    if s.kDeviceCount ≥ maxDevices then some (false, s)
    else (deviceFind (some (s.devices dev).name) s).map fun found =>
      match found with
      | some _ => (false, s)
      | none => (true, addDevice dev s)

def unregisterLoop (dev : Nat) : Nat → Option Nat → Option Nat → Registry → Option (Bool × Registry)
  | _, _, none, s => some (false, s)
  | 0, _, some _, _ => none
  | n + 1, prev, some curr, s =>
    if curr = dev then
      let s := s.setLink prev (s.next curr)
      some (true, { s with kDeviceCount := s.kDeviceCount - 1 })
    else unregisterLoop dev n (some curr) (s.next curr) s

def deviceUnregister (dev : Option Nat) (s : Registry) : Option (Bool × Registry) :=
  match dev, s.kDeviceList with
  | none, _ => some (false, s)
  | some _, none => some (false, s)
  | some dev, some first => unregisterLoop dev listBound none (some first) s

/-! ## Calls

Between two calls the owner of a device may store to it. -/

inductive DeviceCall where
  | store (dev : Nat) (value : Device)
  | setOps (dev : Nat) (ops : Option Nat)
  | register (dev : Option Nat)
  | unregister (dev : Option Nat)

def deviceStep (s : Registry) : DeviceCall → Option (Bool × Registry)
  | .store dev value => some (true, s.modDevice dev fun _ => value)
  | .setOps dev ops => some (true, s.modDevice dev fun d => { d with ops := ops })
  | .register dev => deviceRegister dev s
  | .unregister dev => deviceUnregister dev s

end VortexOS.Dev
