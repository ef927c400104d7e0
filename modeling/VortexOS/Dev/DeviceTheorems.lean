/-
VortexOS.Dev.DeviceTheorems — the device registry as a finite map.

`RegInv s l` says that the list of `s` has the devices `l`. Registering and
unregistering act as on a map from names to devices with room for
`MAX_DEVICES` names (`registry_refines_map`), unless a driver sets its
`private_data` while registered (`private_data_cuts_list`).

The second part is about what the drivers get back. The registry clears
`ops` and uses `private_data` for its list, so what a driver has put there
survives only if it is what the registry would store.
-/
import VortexOS.Dev.Device

namespace VortexOS.Dev

open Function Lib Fs

/-! ## Names -/

lemma sameName_eq (a b : List Byte) : sameName a b = decide (cstr a = cstr b) := by
  induction a generalizing b with
  | nil =>
    cases b with
    | nil => rfl
    | cons b bs => by_cases hb : b = 0 <;> simp [sameName, hb]
  | cons a as ih =>
    cases b with
    | nil => by_cases ha : a = 0 <;> simp [sameName, ha]
    | cons b bs =>
      rw [sameName, cstr_cons, cstr_cons, ih]
      by_cases ha : a = 0 <;> by_cases hb : b = 0 <;> by_cases hab : a = b <;> simp_all

/-! ## The list -/

namespace Registry

def nameOf (s : Registry) (dev : Nat) : List Byte := cstr (s.devices dev).name

end Registry

/-- The registered devices are `l`, the newest first. -/
structure RegInv (s : Registry) (l : List Nat) : Prop where
  seg : Seg s.next s.kDeviceList l none
  nodup : l.Nodup
  names : (l.map s.nameOf).Nodup
  count : s.kDeviceCount.toNat = l.length
  room : l.length ≤ maxDevices.toNat

section

variable {s s' : Registry} {l a b : List Nat} {dev : Nat}

lemma RegInv.init (devices : Nat → Device) : RegInv (deviceManagerInit devices) [] :=
  ⟨rfl, List.nodup_nil, List.nodup_nil, rfl, by decide⟩

lemma RegInv.length_le_bound (h : RegInv s l) : l.length ≤ listBound :=
  Nat.le_trans h.room (by decide)

lemma RegInv.congr (h : RegInv s l) (hhead : s'.kDeviceList = s.kDeviceList)
    (hcount : s'.kDeviceCount = s.kDeviceCount) (hnext : ∀ d ∈ l, s'.next d = s.next d)
    (hname : ∀ d ∈ l, s'.nameOf d = s.nameOf d) : RegInv s' l where
  seg := hhead ▸ h.seg.congr hnext
  nodup := h.nodup
  names := by
    rw [List.map_congr_left hname]
    exact h.names
  count := hcount ▸ h.count
  room := h.room

lemma deviceFind_eq (h : RegInv s l) (name : List Byte) :
    deviceFind (some name) s = some (l.find? fun d => decide (s.nameOf d = cstr name)) := by
  simp only [deviceFind, sameName_eq]
  exact h.seg.searchChain_eq h.length_le_bound

lemma deviceFind_eq_some (h : RegInv s l) {name : List Byte} :
    deviceFind (some name) s = some (some dev) ↔ dev ∈ l ∧ s.nameOf dev = cstr name := by
  rw [deviceFind_eq h, Option.some.injEq, find?_key_eq_some h.names]

/-! ### Registering -/

lemma addDevice_devices (dev : Nat) (s : Registry) : (addDevice dev s).devices =
      update s.devices dev ⟨(s.devices dev).name, none, s.kDeviceList⟩ := by
  simp [addDevice, Registry.modDevice]

lemma addDevice_nameOf (dev : Nat) (s : Registry) : (addDevice dev s).nameOf = s.nameOf := by
  funext d
  rw [Registry.nameOf, addDevice_devices]
  by_cases hd : d = dev
  · rw [hd, update_self, Registry.nameOf]
  · rw [update_of_ne hd, Registry.nameOf]

lemma addDevice_next (dev : Nat) (s : Registry) :
    (addDevice dev s).next = update s.next dev s.kDeviceList := by
  funext d
  rw [Registry.next, addDevice_devices]
  by_cases hd : d = dev
  · rw [hd, update_self, update_self]
  · rw [update_of_ne hd, update_of_ne hd, Registry.next]

lemma RegInv.add (h : RegInv s l) (hroom : l.length < maxDevices.toNat)
    (hnew : s.nameOf dev ∉ l.map s.nameOf) : RegInv (addDevice dev s) (dev :: l) where
  seg := by
    rw [addDevice_next]
    exact h.seg.push fun hd => hnew (List.mem_map_of_mem hd)
  nodup := List.nodup_cons.mpr ⟨fun hd => hnew (List.mem_map_of_mem hd), h.nodup⟩
  names := by
    rw [addDevice_nameOf]
    exact List.nodup_cons.mpr ⟨hnew, h.names⟩
  count := by
    have hlt : l.length < 128 := hroom
    have hcount : (addDevice dev s).kDeviceCount = s.kDeviceCount + 1 := rfl
    rw [hcount, UInt32.toNat_add, h.count, List.length_cons, UInt32.toNat_one]
    omega
  room := hroom

lemma deviceRegister_eq (h : RegInv s l) (dev : Nat) : deviceRegister (some dev) s =
    some (if l.length < maxDevices.toNat ∧ s.nameOf dev ∉ l.map s.nameOf
      then (true, addDevice dev s) else (false, s)) := by
  have hfull : s.kDeviceCount ≥ maxDevices ↔ ¬ l.length < maxDevices.toNat := by
    rw [ge_iff_le, UInt32.le_iff_toNat_le, h.count, Nat.not_lt]
  simp only [deviceRegister, hfull, deviceFind_eq h, Option.map_some]
  by_cases hroom : l.length < maxDevices.toNat
  · rw [if_neg (fun hn => hn hroom)]
    cases hf : l.find? (fun d => decide (s.nameOf d = cstr (s.devices dev).name)) with
    | none =>
      have hnew : s.nameOf dev ∉ l.map s.nameOf := by
        intro hm
        obtain ⟨d, hd, hname⟩ := List.mem_map.mp hm
        exact List.find?_eq_none.mp hf d hd (decide_eq_true hname)
      rw [if_pos ⟨hroom, hnew⟩]
    | some d =>
      obtain ⟨hd, hname⟩ := (find?_key_eq_some h.names).mp hf
      rw [if_neg]
      rintro ⟨-, hnew⟩
      exact hnew (List.mem_map.mpr ⟨d, hd, hname⟩)
  · rw [if_pos hroom, if_neg (fun hc => hroom hc.1)]

/-! ### Unregistering -/

lemma unregisterLoop_eq (n : Nat) (prev curr : Option Nat) (s : Registry) :
    unregisterLoop dev n prev curr s =
      (findCell s.next dev n prev curr).map fun | none => (false, s) | some prev => (true,
      { s.setLink prev (s.next dev) with kDeviceCount := s.kDeviceCount - 1 }) := by
  induction n generalizing prev curr with
  | zero => cases curr <;> rfl
  | succ n ih =>
    cases curr with
    | none => rfl
    | some c =>
      rw [unregisterLoop, findCell]
      by_cases hc : c = dev
      · subst hc
        rw [if_pos rfl, if_pos rfl]
        cases prev <;> rfl
      · rw [if_neg hc, if_neg hc, ih]

/-- The registry without `dev`, to which `prev` points. -/
def dropDevice (prev : Option Nat) (dev : Nat) (s : Registry) : Registry :=
  { s.setLink prev (s.next dev) with kDeviceCount := s.kDeviceCount - 1 }

section

variable (prev : Option Nat) (dev : Nat) (s : Registry)

lemma dropDevice_next : (dropDevice prev dev s).next = setNext? s.next prev (s.next dev) := by
  cases prev with
  | none => rfl
  | some p =>
    funext d
    simp only [dropDevice, Registry.setLink, Registry.modDevice, Registry.next, setNext?]
    by_cases hd : d = p
    · simp [hd]
    · rw [update_of_ne hd, update_of_ne hd]
      rfl

lemma dropDevice_nameOf : (dropDevice prev dev s).nameOf = s.nameOf := by
  cases prev with
  | none => rfl
  | some p =>
    funext d
    simp only [dropDevice, Registry.setLink, Registry.modDevice, Registry.nameOf]
    by_cases hd : d = p
    · simp [hd]
    · rw [update_of_ne hd]

lemma dropDevice_kDeviceList :
    (dropDevice prev dev s).kDeviceList = if prev = none then s.next dev else s.kDeviceList := by
  cases prev <;> rfl

end

lemma RegInv.drop (h : RegInv s (a ++ dev :: b)) :
    RegInv (dropDevice a.getLast? dev s) (a ++ b) where
  seg := by
    rw [dropDevice_next, dropDevice_kDeviceList]
    simpa only [List.getLast?_eq_none_iff] using h.seg.unlink h.nodup
  nodup := h.nodup.sublist (by simp)
  names := by
    rw [dropDevice_nameOf]
    exact h.names.sublist (by simp)
  count := by
    have hcount : (dropDevice a.getLast? dev s).kDeviceCount = s.kDeviceCount - 1 := rfl
    have hlen := h.count
    have hroom : (a ++ dev :: b).length ≤ 128 := h.room
    simp only [List.length_append, List.length_cons] at hlen hroom ⊢
    rw [hcount, UInt32.toNat_sub_of_le _ _
      (UInt32.le_iff_toNat_le.mpr (by rw [UInt32.toNat_one]; omega)), UInt32.toNat_one]
    omega
  room := by
    have hroom := h.room
    simp only [List.length_append, List.length_cons] at hroom ⊢
    omega

lemma deviceUnregister_of_mem (h : RegInv s (a ++ dev :: b)) :
    deviceUnregister (some dev) s = some (true, dropDevice a.getLast? dev s) := by
  have hne : s.kDeviceList ≠ none := by
    rw [h.seg.head]
    simp
  obtain ⟨first, hfirst⟩ := Option.ne_none_iff_exists'.mp hne
  have hda : dev ∉ a := fun hd => (List.nodup_append.mp h.nodup).2.2 dev hd dev (by simp) rfl
  have hlen : a.length < listBound := by
    have hle := h.length_le_bound
    simp only [List.length_append, List.length_cons] at hle
    omega
  simp only [deviceUnregister, hfirst]
  rw [unregisterLoop_eq, ← hfirst, h.seg.findCell_eq hda hlen, Option.map_some, Option.or_none]
  rfl

lemma deviceUnregister_of_not_mem (h : RegInv s l) (hd : dev ∉ l) :
    deviceUnregister (some dev) s = some (false, s) := by
  cases hfirst : s.kDeviceList with
  | none => simp only [deviceUnregister, hfirst]
  | some first =>
    simp only [deviceUnregister, hfirst]
    rw [unregisterLoop_eq, ← hfirst, h.seg.findCell_eq_none hd h.length_le_bound, Option.map_some]

end

/-! ## The specification -/

/-- The names that the devices have, and the registered devices by name. -/
structure DeviceMap where
  name : Nat → List Byte
  find : List Byte → Option Nat

namespace DeviceMap

noncomputable def size (m : DeviceMap) : Nat := Set.ncard {n | m.find n ≠ none}

def Registered (m : DeviceMap) (dev : Nat) : Prop := ∃ n, m.find n = some dev

def empty (devices : Nat → Device) : DeviceMap := ⟨fun d => cstr (devices d).name, fun _ => none⟩

open Classical in
noncomputable def step (m : DeviceMap) : DeviceCall → Bool × DeviceMap
  | .store dev value => (true, { m with name := update m.name dev (cstr value.name) })
  | .setOps _ _ => (true, m)
  | .register none => (false, m)
  | .register (some dev) =>
    if m.size < maxDevices.toNat ∧ m.find (m.name dev) = none then
      (true, { m with find := update m.find (m.name dev) (some dev) })
    else (false, m)
  | .unregister none => (false, m)
  | .unregister (some dev) =>
    if m.Registered dev then
      (true, { m with find := fun n => if m.find n = some dev then none else m.find n })
    else (false, m)

/-- The owner of a registered device may set its operations, and leaves its
name and its private data alone, which is the registry's link. -/
def OwnerKeeps (m : DeviceMap) : DeviceCall → Prop
  | .store dev _ => ¬ m.Registered dev
  | _ => True

end DeviceMap

structure Lists (m : DeviceMap) (s : Registry) (l : List Nat) : Prop extends RegInv s l where
  name_eq : m.name = s.nameOf
  find_eq : ∀ n, m.find n = l.find? fun d => decide (s.nameOf d = n)

section

variable {m : DeviceMap} {s : Registry} {l : List Nat} {dev : Nat}

section

variable (h : Lists m s l)
include h

lemma Lists.find_eq_some {n : List Byte} : m.find n = some dev ↔ dev ∈ l ∧ s.nameOf dev = n := by
  rw [h.find_eq, find?_key_eq_some h.names]

lemma Lists.registered : m.Registered dev ↔ dev ∈ l := by
  constructor
  · rintro ⟨n, hn⟩
    exact (h.find_eq_some.mp hn).1
  · exact fun hd => ⟨_, h.find_eq_some.mpr ⟨hd, rfl⟩⟩

lemma Lists.find_eq_none {n : List Byte} : m.find n = none ↔ n ∉ l.map s.nameOf := by
  rw [h.find_eq, List.find?_eq_none, List.mem_map]
  simp

lemma Lists.size_eq : m.size = l.length := by
  have hdom : {n | m.find n ≠ none} = ↑(l.map s.nameOf).toFinset := by
    ext n
    simp [h.find_eq_none]
  rw [DeviceMap.size, hdom, Set.ncard_coe_finset, List.toFinset_card_of_nodup h.names,
    List.length_map]

lemma Lists.store (hd : dev ∉ l) (value : Device) :
    Lists (m.step (.store dev value)).2 (s.modDevice dev fun _ => value) l := by
  have hother : ∀ d ∈ l, (s.modDevice dev fun _ => value).devices d = s.devices d := fun d hdl =>
    update_of_ne (fun e : d = dev => hd (e ▸ hdl)) _ _
  have hname : ∀ d ∈ l, (s.modDevice dev fun _ => value).nameOf d = s.nameOf d := fun d hdl => by
    rw [Registry.nameOf, hother d hdl, Registry.nameOf]
  refine ⟨h.toRegInv.congr rfl rfl (fun d hdl => ?_) hname, ?_, fun n => ?_⟩
  · rw [Registry.next, hother d hdl, Registry.next]
  · funext d
    simp only [DeviceMap.step, Registry.nameOf, Registry.modDevice, h.name_eq]
    by_cases hdd : d = dev
    · rw [hdd, update_self, update_self]
    · rw [update_of_ne hdd, update_of_ne hdd, Registry.nameOf]
  · have hnames := List.map_congr_left hname ▸ h.names
    refine Option.ext fun d => ?_
    rw [find?_key_eq_some hnames]
    refine h.find_eq_some.trans (and_congr_right fun hdl => ?_)
    rw [hname d hdl]

lemma Lists.setOps (ops : Option Nat) :
    Lists m (s.modDevice dev fun d => { d with ops := ops }) l := by
  have hnext : (s.modDevice dev fun d => { d with ops := ops }).next = s.next := by
    funext d
    simp only [Registry.next, Registry.modDevice]
    by_cases hd : d = dev
    · simp [hd]
    · rw [update_of_ne hd]
  have hname : (s.modDevice dev fun d => { d with ops := ops }).nameOf = s.nameOf := by
    funext d
    simp only [Registry.nameOf, Registry.modDevice]
    by_cases hd : d = dev
    · simp [hd]
    · rw [update_of_ne hd]
  refine ⟨h.toRegInv.congr rfl rfl (fun d _ => ?_) (fun d _ => ?_), ?_, fun n => ?_⟩
  · rw [hnext]
  · rw [hname]
  · rw [hname, h.name_eq]
  · rw [hname, h.find_eq]

lemma Lists.register (hroom : l.length < maxDevices.toNat) (hnew : s.nameOf dev ∉ l.map s.nameOf) :
    Lists { m with find := update m.find (m.name dev) (some dev) } (addDevice dev s)
      (dev :: l) := by
  refine ⟨h.toRegInv.add hroom hnew, ?_, fun n => ?_⟩
  · rw [addDevice_nameOf, ← h.name_eq]
  · rw [addDevice_nameOf, h.name_eq, List.find?_cons]
    by_cases hn : n = s.nameOf dev
    · simp [hn]
    · simp [update_of_ne hn, Ne.symm hn, h.find_eq]

end

lemma Lists.unregister {a b : List Nat} (h : Lists m s (a ++ dev :: b)) :
    Lists { m with find := fun n => if m.find n = some dev then none else m.find n }
      (dropDevice a.getLast? dev s) (a ++ b) := by
  have hinv := h.toRegInv.drop
  refine ⟨hinv, ?_, fun n => ?_⟩
  · rw [dropDevice_nameOf, ← h.name_eq]
  · -- both sides name the same device, if any
    have hnodup := List.nodup_middle.mp h.nodup
    refine Option.ext fun d => ?_
    rw [find?_key_eq_some hinv.names, dropDevice_nameOf]
    by_cases hfound : m.find n = some dev
    · obtain ⟨-, hname⟩ := h.find_eq_some.mp hfound
      simp only [if_pos hfound, reduceCtorEq, false_iff, not_and]
      intro hd hn
      have hd' : d ∈ a ++ dev :: b := by
        simp only [List.mem_append, List.mem_cons] at hd ⊢
        tauto
      have heq : d = dev := List.inj_on_of_nodup_map h.names hd' (by simp) (hn.trans hname.symm)
      exact (List.nodup_cons.mp hnodup).1 (heq ▸ hd)
    · have hne : d = dev → s.nameOf d ≠ n := fun heq hn =>
        hfound (h.find_eq_some.mpr ⟨by simp, heq ▸ hn⟩)
      simp only [if_neg hfound]
      rw [h.find_eq_some, List.mem_append, List.mem_append, List.mem_cons]
      tauto

lemma Lists.step (h : Lists m s l) {call : DeviceCall} (howner : m.OwnerKeeps call) :
    ∃ s' l', deviceStep s call = some ((m.step call).1, s') ∧ Lists (m.step call).2 s' l' := by
  cases call with
  | store dev value => exact ⟨_, l, rfl, h.store (fun hd => howner (h.registered.mpr hd)) value⟩
  | setOps dev ops => exact ⟨_, l, rfl, h.setOps ops⟩
  | register dev =>
    cases dev with
    | none => exact ⟨s, l, rfl, h⟩
    | some dev =>
      simp only [deviceStep, deviceRegister_eq h.toRegInv, DeviceMap.step, h.size_eq,
        h.find_eq_none, h.name_eq]
      by_cases hok : l.length < maxDevices.toNat ∧ s.nameOf dev ∉ l.map s.nameOf
      · rw [if_pos hok, if_pos hok]
        exact ⟨_, dev :: l, rfl, h.name_eq ▸ h.register hok.1 hok.2⟩
      · rw [if_neg hok, if_neg hok]
        exact ⟨s, l, rfl, h⟩
  | unregister dev =>
    cases dev with
    | none => exact ⟨s, l, rfl, h⟩
    | some dev =>
      simp only [deviceStep, DeviceMap.step, h.registered]
      by_cases hd : dev ∈ l
      · rw [if_pos hd]
        obtain ⟨a, b, rfl⟩ := List.append_of_mem hd
        exact ⟨_, a ++ b, deviceUnregister_of_mem h.toRegInv, h.unregister⟩
      · rw [if_neg hd]
        exact ⟨s, l, deviceUnregister_of_not_mem h.toRegInv hd, h⟩

lemma Lists.empty (devices : Nat → Device) :
    Lists (DeviceMap.empty devices) (deviceManagerInit devices) [] :=
  ⟨RegInv.init devices, rfl, fun _ => rfl⟩

end

/-- The registry behaves as a map from names to devices with room for
`MAX_DEVICES`: all calls return, with the results of the specification, and
then a search finds what the map has, the counter is its size, and the list
has an end and visits each registered device once. -/
theorem registry_refines_map (devices : Nat → Device) (calls : List DeviceCall)
    (howner : Permitted DeviceMap.step DeviceMap.OwnerKeeps (DeviceMap.empty devices) calls) :
    ∃ results m s, specTrace DeviceMap.step (DeviceMap.empty devices) calls = (results, m) ∧
      trace deviceStep (deviceManagerInit devices) calls = some (results, s) ∧
      (∀ name, deviceFind (some name) s = some (m.find (cstr name))) ∧
      (∀ name dev, m.find name = some dev → cstr (s.devices dev).name = name) ∧
      s.kDeviceCount.toNat = m.size ∧ m.size ≤ maxDevices.toNat ∧
      ∃ l, Seg s.next s.kDeviceList l none ∧ l.Nodup ∧ ∀ dev, dev ∈ l ↔ m.Registered dev := by
  obtain ⟨s, htrace, l, h⟩ := trace_refines (fun s m => ∃ l, Lists m s l)
    (fun s m call ⟨l, h⟩ hp => by
      obtain ⟨s', l', hcall, h'⟩ := h.step hp
      exact ⟨s', hcall, l', h'⟩)
    ⟨[], Lists.empty devices⟩ howner
  refine ⟨_, _, s, rfl, htrace, fun name => ?_, fun name dev hfind => ?_, ?_, ?_, l, h.seg, h.nodup,
    fun dev => h.registered.symm⟩
  · rw [deviceFind_eq h.toRegInv, h.find_eq]
  · exact (h.find_eq_some.mp hfind).2
  · rw [h.count, h.size_eq]
  · rw [h.size_eq]
    exact h.room

def uart : List Byte := [0x75, 0x61, 0x72, 0x74]

def uarts : Nat → Device := fun _ => ⟨uart, none, none⟩

/-- The name is taken until its device goes; then that device can come back. -/
theorem registry_refines_map_uarts : ∃ m s, specTrace DeviceMap.step (DeviceMap.empty uarts)
      [.register (some 1), .register (some 2), .unregister (some 1), .register (some 2)] =
        ([true, false, true, true], m) ∧
    deviceFind (some uart) s = some (m.find uart) ∧ s.kDeviceCount.toNat = m.size := by
  obtain ⟨results, m, s, hspec, htrace, hfind, -, hcount, -⟩ := registry_refines_map uarts
    [.register (some 1), .register (some 2), .unregister (some 1), .register (some 2)]
    ⟨trivial, trivial, trivial, trivial, trivial⟩
  have hresults : (trace deviceStep (deviceManagerInit uarts)
      [.register (some 1), .register (some 2), .unregister (some 1), .register (some 2)]).map
        Prod.fst = some [true, false, true, true] := by decide
  rw [htrace, Option.map_some, Option.some.injEq] at hresults
  obtain rfl : results = [true, false, true, true] := hresults
  exact ⟨m, s, hspec, hfind uart, hcount⟩

def disk : List Byte := [0x64, 0x69, 0x73, 0x6B]

/-- `uart` at 1 and `disk` at 2; the private data of `disk` points to
`uart`. -/
def twoDevices (dev : Nat) : Device :=
  if dev = 1 then ⟨uart, none, none⟩ else if dev = 2 then ⟨disk, none, some 1⟩ else ⟨[], none, none⟩

/-- The driver of `disk` sets its private data, which was cleared, after the
registration. `uart` is on the list no longer, though it is registered. -/
theorem private_data_cuts_list : (trace deviceStep (deviceManagerInit twoDevices)
    [.register (some 1), .register (some 2), .store 2 ⟨disk, none, some 0x5000⟩]).map
      (fun r => (r.1, deviceFind (some uart) r.2, r.2.kDeviceCount)) =
    some ([true, true, true], some none, 2) := by
  decide

/-! ## What the drivers get back -/

/-- The registry, and every device as it was when it was last registered. -/
structure Drivers where
  registry : Registry
  supplied : Nat → Device

def driverStep (w : Drivers) (call : DeviceCall) : Option Drivers :=
  (deviceStep w.registry call).map fun r =>
    ⟨r.2, match call, r.1 with
      | .register (some dev), true => update w.supplied dev (w.registry.devices dev)
      | _, _ => w.supplied⟩

/-- `device_find` can return the device. -/
def Registry.Registered (s : Registry) (dev : Nat) : Prop :=
  ∃ name, deviceFind (some name) s = some (some dev)

/-- A device that is found has the operations and the private data its driver
has supplied. -/
def Preserved (w : Drivers) : Prop :=
  ∀ name dev, deviceFind (some name) w.registry = some (some dev) →
    (w.registry.devices dev).ops = (w.supplied dev).ops ∧
    (w.registry.devices dev).privateData = (w.supplied dev).privateData

/-- The owners prepare devices that are not registered. -/
def OwnerPrepares (w : Drivers) : DeviceCall → Prop
  | .store dev _ => ¬ w.registry.Registered dev
  | .setOps dev _ => ¬ w.registry.Registered dev
  | _ => True

/-- A device that is accepted has no operations and its private data points
to the device registered last; only that one is unregistered. -/
def Harmless (w : Drivers) : DeviceCall → Prop
  | .register (some dev) =>
    w.registry.kDeviceCount ≥ maxDevices ∨
    (∃ d, w.registry.Registered d ∧ w.registry.nameOf d = w.registry.nameOf dev) ∨
    (w.registry.devices dev).ops = none ∧
      (w.registry.devices dev).privateData = w.registry.kDeviceList
  | .unregister (some dev) => w.registry.kDeviceList = some dev ∨ ¬ w.registry.Registered dev
  | _ => True

section

variable {s : Registry} {supplied : Nat → Device} {l : List Nat} {dev : Nat}

lemma RegInv.registered (h : RegInv s l) : s.Registered dev ↔ dev ∈ l := by
  constructor
  · rintro ⟨name, hfind⟩
    exact ((deviceFind_eq_some h).mp hfind).1
  · exact fun hd => ⟨(s.devices dev).name, (deviceFind_eq_some h).mpr ⟨hd, rfl⟩⟩

lemma RegInv.preserved_iff (h : RegInv s l) : Preserved ⟨s, supplied⟩ ↔ ∀ d ∈ l, (s.devices d).ops =
      (supplied d).ops ∧ (s.devices d).privateData = (supplied d).privateData := by
  constructor
  · intro hp d hd
    exact hp (s.devices d).name d ((deviceFind_eq_some h).mpr ⟨hd, rfl⟩)
  · intro hp name d hfind
    exact hp d ((deviceFind_eq_some h).mp hfind).1

lemma RegInv.prepare (h : RegInv s l) (hd : dev ∉ l) (f : Device → Device) :
    RegInv (s.modDevice dev f) l ∧
    (Preserved ⟨s, supplied⟩ → Preserved ⟨s.modDevice dev f, supplied⟩) := by
  have hother : ∀ d ∈ l, (s.modDevice dev f).devices d = s.devices d := fun d hdl =>
    update_of_ne (fun e : d = dev => hd (e ▸ hdl)) _ _
  have h' : RegInv (s.modDevice dev f) l := by
    refine h.congr rfl rfl (fun d hdl => ?_) (fun d hdl => ?_)
    · rw [Registry.next, hother d hdl, Registry.next]
    · rw [Registry.nameOf, hother d hdl, Registry.nameOf]
  refine ⟨h', fun hp => h'.preserved_iff.mpr fun d hdl => ?_⟩
  rw [hother d hdl]
  exact h.preserved_iff.mp hp d hdl

lemma RegInv.preserved_add (h : RegInv s l) (h' : RegInv (addDevice dev s) (dev :: l))
    (hp : Preserved ⟨s, supplied⟩) :
    Preserved ⟨addDevice dev s, update supplied dev (s.devices dev)⟩ ↔
      (s.devices dev).ops = none ∧ (s.devices dev).privateData = s.kDeviceList := by
  have hold : ∀ d ∈ l, (addDevice dev s).devices d = s.devices d ∧
      update supplied dev (s.devices dev) d = supplied d := by
    intro d hd
    have hne : d ≠ dev := fun e => (List.nodup_cons.mp h'.nodup).1 (e ▸ hd)
    rw [addDevice_devices, update_of_ne hne, update_of_ne hne]
    exact ⟨rfl, rfl⟩
  have hnew : (addDevice dev s).devices dev = ⟨(s.devices dev).name, none, s.kDeviceList⟩ := by
    rw [addDevice_devices, update_self]
  rw [h'.preserved_iff, List.forall_mem_cons, hnew, update_self]
  constructor
  · rintro ⟨⟨hops, hdata⟩, -⟩
    exact ⟨hops.symm, hdata.symm⟩
  · rintro ⟨hops, hdata⟩
    refine ⟨⟨hops.symm, hdata.symm⟩, fun d hd => ?_⟩
    rw [(hold d hd).1, (hold d hd).2]
    exact h.preserved_iff.mp hp d hd

lemma RegInv.preserved_drop {a b : List Nat} (h : RegInv s (a ++ dev :: b))
    (hp : Preserved ⟨s, supplied⟩) :
    Preserved ⟨dropDevice a.getLast? dev s, supplied⟩ ↔ a = [] := by
  have hkeep := h.preserved_iff.mp hp
  rw [h.drop.preserved_iff]
  rcases List.eq_nil_or_concat' a with rfl | ⟨a', p, rfl⟩
  · exact iff_of_true (fun d hd => hkeep d (by simpa using Or.inr hd)) rfl
  · refine iff_of_false (fun hall => ?_) (by simp)
    obtain ⟨-, hdata⟩ := hall p (by simp)
    obtain ⟨-, hdata'⟩ := hkeep p (by simp)
    -- `p` led to `dev`, and now to what follows it
    have hnow : (dropDevice (a' ++ [p]).getLast? dev s).next p = s.next dev := by
      rw [dropDevice_next, List.getLast?_concat, setNext?, update_self]
    obtain ⟨m, hseg, rfl, htail⟩ := seg_append.mp h.seg
    obtain ⟨m', -, rfl, hlink⟩ := seg_append.mp hseg
    have hloop : s.next dev = some dev := by
      calc s.next dev = (supplied p).privateData := hnow.symm.trans hdata
        _ = s.next p := hdata'.symm
        _ = some dev := hlink
    have hdev : dev ∉ b := (List.nodup_cons.mp (List.nodup_append.mp h.nodup).2.1).1
    rw [hloop] at htail
    cases b with
    | nil => cases htail
    | cons c b => exact hdev (by simp [Option.some.inj htail.1])

lemma RegInv.driverStep (h : RegInv s l) {call : DeviceCall}
    (howner : OwnerPrepares ⟨s, supplied⟩ call) :
    ∃ w, driverStep ⟨s, supplied⟩ call = some w ∧ (∃ l, RegInv w.registry l) ∧
    (Preserved ⟨s, supplied⟩ → (Preserved w ↔ Harmless ⟨s, supplied⟩ call)) := by
  cases call with
  | store dev value =>
    obtain ⟨h', hp'⟩ := h.prepare (fun hd => howner (h.registered.mpr hd)) fun _ => value
    exact ⟨_, rfl, ⟨l, h'⟩, fun hp => iff_of_true (hp' hp) trivial⟩
  | setOps dev ops =>
    obtain ⟨h', hp'⟩ := h.prepare (fun hd => howner (h.registered.mpr hd)) fun d =>
      { d with ops := ops }
    exact ⟨_, rfl, ⟨l, h'⟩, fun hp => iff_of_true (hp' hp) trivial⟩
  | register dev =>
    cases dev with
    | none => exact ⟨_, rfl, ⟨l, h⟩, fun hp => iff_of_true hp trivial⟩
    | some dev =>
      have hfull : s.kDeviceCount ≥ maxDevices ↔ ¬ l.length < maxDevices.toNat := by
        rw [ge_iff_le, UInt32.le_iff_toNat_le, h.count, Nat.not_lt]
      have htaken : (∃ d, s.Registered d ∧ s.nameOf d = s.nameOf dev) ↔
          s.nameOf dev ∈ l.map s.nameOf := by
        simp only [h.registered, List.mem_map]
      simp only [Dev.driverStep, deviceStep, deviceRegister_eq h, Harmless, hfull, htaken]
      by_cases hok : l.length < maxDevices.toNat ∧ s.nameOf dev ∉ l.map s.nameOf
      · rw [if_pos hok]
        have h' := h.add hok.1 hok.2
        refine ⟨_, rfl, ⟨_, h'⟩, fun hp => (h.preserved_add h' hp).trans ?_⟩
        tauto
      · rw [if_neg hok]
        refine ⟨_, rfl, ⟨l, h⟩, fun hp => iff_of_true hp ?_⟩
        tauto
  | unregister dev =>
    cases dev with
    | none => exact ⟨_, rfl, ⟨l, h⟩, fun hp => iff_of_true hp trivial⟩
    | some dev =>
      simp only [Dev.driverStep, deviceStep, Harmless, h.registered]
      by_cases hd : dev ∈ l
      · obtain ⟨a, b, rfl⟩ := List.append_of_mem hd
        rw [deviceUnregister_of_mem h]
        refine ⟨_, rfl, ⟨_, h.drop⟩, fun hp => (h.preserved_drop hp).trans ?_⟩
        have hhead : s.kDeviceList = some dev ↔ a = [] := by
          rw [h.seg.head]
          cases a with
          | nil => simp
          | cons c a =>
            have hne : c ≠ dev := fun e => (List.nodup_cons.mp h.nodup).1 (by simp [e])
            simp [hne]
        rw [hhead]
        tauto
      · rw [deviceUnregister_of_not_mem h hd]
        exact ⟨_, rfl, ⟨l, h⟩, fun hp => iff_of_true hp (Or.inr hd)⟩

end

/-- What drivers have supplied is there in all states on the way exactly if
it is, at every call, what the registry itself would store. -/
theorem registry_preserves_iff (devices supplied : Nat → Device) (calls : List DeviceCall)
    (howner : Along driverStep OwnerPrepares ⟨deviceManagerInit devices, supplied⟩ calls) :
    (∀ pre w, pre <+: calls → run driverStep ⟨deviceManagerInit devices, supplied⟩ pre = some w →
      Preserved w) ↔ Along driverStep Harmless ⟨deviceManagerInit devices, supplied⟩ calls := by
  refine prefixes_iff_along (fun w => ∃ l, RegInv w.registry l)
    (fun w call ⟨l, h⟩ hp => h.driverStep hp)
    ⟨[], RegInv.init devices⟩ ?_ howner
  exact (RegInv.init devices).preserved_iff.mpr fun d hd => by cases hd

/-- Without operations, and with the head of the list as private data; the
device at the head goes again. -/
theorem registry_preserves_two : ∃ w, run driverStep ⟨deviceManagerInit twoDevices, uarts⟩
      [.register (some 1), .register (some 2)] = some w ∧
    deviceFind (some disk) w.registry = some (some 2) ∧
    (w.registry.devices 2).privateData = some 1 ∧ Preserved w := by
  obtain ⟨w, hw⟩ : ∃ w, run driverStep ⟨deviceManagerInit twoDevices, uarts⟩
      [.register (some 1), .register (some 2)] = some w := ⟨_, rfl⟩
  have hharmless : Along driverStep Harmless ⟨deviceManagerInit twoDevices, uarts⟩
      [.register (some 1), .register (some 2), .unregister (some 2)] := by
    refine ⟨Or.inr (Or.inr ⟨rfl, rfl⟩), fun w1 h1 => ?_⟩
    cases h1
    refine ⟨Or.inr (Or.inr ⟨rfl, rfl⟩), fun w2 h2 => ?_⟩
    cases h2
    exact ⟨Or.inl rfl, fun _ _ => trivial⟩
  have hpreserved := (registry_preserves_iff twoDevices uarts
    [.register (some 1), .register (some 2), .unregister (some 2)]
    ⟨trivial, fun _ _ => ⟨trivial, fun _ _ => ⟨trivial, fun _ _ => trivial⟩⟩⟩).mpr hharmless _ w
    ⟨[.unregister (some 2)], rfl⟩ hw
  cases hw
  exact ⟨_, rfl, by decide, by decide, hpreserved⟩

/-- A driver with operations and private data finds neither. -/
theorem registry_clears_ops : ∃ w,
    run driverStep ⟨deviceManagerInit fun _ => ⟨uart, some 0x1000, some 0x2000⟩, uarts⟩
      [.register (some 1)] = some w ∧ deviceFind (some uart) w.registry = some (some 1) ∧
    (w.registry.devices 1).ops = none ∧ (w.registry.devices 1).privateData = none ∧
    (w.supplied 1).ops = some 0x1000 ∧ (w.supplied 1).privateData = some 0x2000 ∧
    ¬ Preserved w := by
  obtain ⟨w, hw⟩ : ∃ w, run driverStep
      ⟨deviceManagerInit fun _ => ⟨uart, some 0x1000, some 0x2000⟩, uarts⟩ [.register (some 1)] =
        some w := ⟨_, rfl⟩
  obtain rfl := Option.some.inj hw
  refine ⟨_, rfl, by decide, rfl, rfl, rfl, rfl, fun hp => ?_⟩
  cases (hp uart 1 (by decide)).1

end VortexOS.Dev
