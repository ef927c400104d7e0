/-
VortexOS.Dev.PciTheorems — which functions the PCI scan visits, and when
it returns.

The scan is a recursive procedure on bus numbers in the sense of
`Lib.Calls` (`pciScanBus_eq`). The functions for which the body of one bus
prints a line are exactly those that are there, each once (`lines_nodup`,
`mem_lines`), and it calls the scan for the buses behind the bridges whose
header type is exactly 1 (`mem_calls`).
-/
import VortexOS.Dev.Pci

namespace VortexOS.Dev

open Lib

variable {func b s offset headerType : BitVec 8} {depth : Nat} {log : List PciEvent}

variable (cfg : ConfigSpace)

/-! ## The scan as a recursive procedure -/

/-- What a function that is there reads and prints. -/
def describe (fn : PciFunction) : List PciEvent :=
  [.read fn pciVendorId, .read fn pciDeviceId, .read fn pciClassCode,
    .read fn pciClassSubclass, .read fn pciRevision, .read fn pciHeaderType,
    .found fn (fn.vendorId cfg) (pciConfigReadWord cfg fn pciDeviceId)
      (pciConfigReadByte cfg fn pciClassCode) (pciConfigReadByte cfg fn pciClassSubclass)
      (pciConfigReadByte cfg fn pciRevision) (fn.headerType cfg)]

def functionBody (fn : PciFunction) : List (PciEvent ⊕ BitVec 8) :=
  if fn.vendorId cfg = 0xFFFF#16 then [.inl (.read fn pciVendorId)]
  else (describe cfg fn).map .inl ++
    if fn.headerType cfg = 0x01#8 then
      .inl (.read fn pciSecondaryBus) ::
        if fn.secondaryBus cfg ≠ fn.bus then [.inr (fn.secondaryBus cfg)] else []
    else []

def deviceBody (bus dev : BitVec 8) : List (PciEvent ⊕ BitVec 8) :=
  let fn : PciFunction := ⟨bus, dev, 0#8⟩
  .inl (.read fn pciVendorId) ::
    if fn.vendorId cfg = 0xFFFF#16 then []
    else functionBody cfg fn ++ .inl (.read fn pciHeaderType) ::
      if fn.headerType cfg &&& 0x80#8 ≠ 0#8 then
        otherFunctions.flatMap fun func => functionBody cfg ⟨bus, dev, func⟩
      else []

def busBody (bus : BitVec 8) : List (PciEvent ⊕ BitVec 8) :=
  .inl (.scanning bus) :: devices.flatMap (deviceBody cfg bus)

variable {cfg}

lemma concatM_inl (f : BitVec 8 → Option (List PciEvent)) (l : List PciEvent) :
    concatM (Sum.elim (fun e => some [e]) f) (l.map Sum.inl) = some l := by
  induction l with
  | nil => rfl
  | cons e l ih => simp [ih]

lemma pciScanFunction_eq (scanBus : BitVec 8 → Option (List PciEvent)) (bus dev func : BitVec 8) :
    pciScanFunction cfg scanBus bus dev func =
      concatM (Sum.elim (fun e => some [e]) scanBus) (functionBody cfg ⟨bus, dev, func⟩) := by
  simp only [pciScanFunction, functionBody, describe, PciFunction.vendorId,
    PciFunction.headerType, PciFunction.secondaryBus]
  by_cases hv : pciConfigReadWord cfg ⟨bus, dev, func⟩ pciVendorId = 0xFFFF#16
  · simp [hv]
  · simp only [hv, if_false, concatM_append, concatM_inl]
    by_cases hh : pciConfigReadByte cfg ⟨bus, dev, func⟩ pciHeaderType = 0x01#8
    · by_cases hs : pciConfigReadByte cfg ⟨bus, dev, func⟩ pciSecondaryBus = bus
      · simp [hh, hs]
      · cases hb : scanBus (pciConfigReadByte cfg ⟨bus, dev, func⟩ pciSecondaryBus) <;>
          simp [hh, hs, hb]
    · simp only [hh, if_false]
      simp

lemma pciScanDevice_eq (scanBus : BitVec 8 → Option (List PciEvent)) (bus dev : BitVec 8) :
    pciScanDevice cfg scanBus bus dev =
      concatM (Sum.elim (fun e => some [e]) scanBus) (deviceBody cfg bus dev) := by
  have hall : pciScanFunction cfg scanBus bus dev = fun func =>
      concatM (Sum.elim (fun e => some [e]) scanBus) (functionBody cfg ⟨bus, dev, func⟩) :=
    funext (pciScanFunction_eq scanBus bus dev)
  simp only [pciScanDevice, deviceBody, PciFunction.vendorId, PciFunction.headerType, hall]
  by_cases hv : pciConfigReadWord cfg ⟨bus, dev, 0#8⟩ pciVendorId = 0xFFFF#16
  · simp only [hv, if_true]
    rfl
  · simp only [hv, if_false, concatM_cons, concatM_append]
    cases concatM (Sum.elim (fun e => some [e]) scanBus) (functionBody cfg ⟨bus, dev, 0#8⟩) with
    | none => rfl
    | some l =>
      by_cases hm : pciConfigReadByte cfg ⟨bus, dev, 0#8⟩ pciHeaderType &&& 0x80#8 = 0#8
      · simp only [hm, ne_eq, not_true_eq_false, if_false]
        simp
      · simp only [hm, ne_eq, not_false_eq_true, if_true, concatM_flatMap]
        cases concatM (fun func => concatM (Sum.elim (fun e => some [e]) scanBus)
          (functionBody cfg ⟨bus, dev, func⟩)) otherFunctions <;> simp

lemma pciScanBus_eq (depth : Nat) :
    ∀ bus, pciScanBus cfg depth bus = Calls.exec (busBody cfg) depth bus := by
  induction depth with
  | zero => exact fun _ => rfl
  | succ depth ih =>
    intro bus
    have hrec : pciScanBus cfg depth = Calls.exec (busBody cfg) depth := funext ih
    have hdev : pciScanDevice cfg (Calls.exec (busBody cfg) depth) bus = fun dev =>
        concatM (Sum.elim (fun e => some [e]) (Calls.exec (busBody cfg) depth))
          (deviceBody cfg bus dev) := funext (pciScanDevice_eq _ bus)
    simp [pciScanBus, Calls.exec, busBody, concatM_flatMap, hrec, hdev]

/-! ## The functions that are looked at -/

variable (cfg)

/-- The function numbers that `pci_scan_device` looks at. -/
def functionsOf (bus dev : BitVec 8) : List (BitVec 8) :=
  let fn : PciFunction := ⟨bus, dev, 0#8⟩
  if fn.vendorId cfg = 0xFFFF#16 then []
  else 0#8 :: if fn.headerType cfg &&& 0x80#8 ≠ 0#8 then otherFunctions else []

/-- The arguments of `pci_scan_function` in the scan of one bus. -/
def scanned (bus : BitVec 8) : List PciFunction :=
  devices.flatMap fun dev => (functionsOf cfg bus dev).map fun func => ⟨bus, dev, func⟩

variable {cfg} {bus dev : BitVec 8} {fn : PciFunction}

lemma filterMap_busBody {γ : Type} (g : PciEvent ⊕ BitVec 8 → Option γ)
    (hread : ∀ fn offset, g (.inl (.read fn offset)) = none)
    (hscanning : ∀ bus, g (.inl (.scanning bus)) = none) (bus : BitVec 8) :
    (busBody cfg bus).filterMap g =
      (scanned cfg bus).flatMap fun fn => (functionBody cfg fn).filterMap g := by
  have hdev : ∀ dev, (deviceBody cfg bus dev).filterMap g = (functionsOf cfg bus dev).flatMap
      fun func => (functionBody cfg ⟨bus, dev, func⟩).filterMap g := by
    intro dev
    unfold deviceBody functionsOf
    by_cases hv : PciFunction.vendorId cfg ⟨bus, dev, 0#8⟩ = 0xFFFF#16
    · simp only [hv, if_true]
      simp [hread]
    · by_cases hm : PciFunction.headerType cfg ⟨bus, dev, 0#8⟩ &&& 0x80#8 = 0#8
      · simp only [hv, if_false, hm, ne_eq, not_true_eq_false]
        simp [hread]
      · simp only [hv, if_false, hm, ne_eq, not_false_eq_true, if_true]
        simp [hread, List.filterMap_flatMap]
  simp [busBody, scanned, hscanning, List.filterMap_flatMap, hdev, List.flatMap_assoc,
    List.flatMap_map]

lemma mem_devices : dev ∈ devices ↔ dev < 32#8 := by
  revert dev
  decide

lemma mem_otherFunctions : func ∈ otherFunctions ↔ func ≠ 0#8 ∧ func < 8#8 := by
  revert func
  decide

lemma mem_functionsOf : func ∈ functionsOf cfg bus dev ↔
    func < 8#8 ∧ PciFunction.vendorId cfg ⟨bus, dev, 0#8⟩ ≠ 0xFFFF#16 ∧
      (func ≠ 0#8 → PciFunction.MultiFunction cfg ⟨bus, dev, func⟩) := by
  unfold functionsOf
  by_cases hv : PciFunction.vendorId cfg ⟨bus, dev, 0#8⟩ = 0xFFFF#16
  · simp [hv]
  · by_cases hf : func = 0#8
    · subst hf
      simp [hv]
    · by_cases hm : PciFunction.headerType cfg ⟨bus, dev, 0#8⟩ &&& 0x80#8 = 0#8
      · simp [hv, hf, hm, PciFunction.MultiFunction, PciFunction.first]
      · simp [hv, hf, hm, PciFunction.MultiFunction, PciFunction.first, mem_otherFunctions]

lemma mem_scanned : fn ∈ scanned cfg bus ↔ fn.bus = bus ∧ fn.dev < 32#8 ∧ fn.func < 8#8 ∧
      fn.first.vendorId cfg ≠ 0xFFFF#16 ∧ (fn.func ≠ 0#8 → fn.MultiFunction cfg) := by
  obtain ⟨b, d, f⟩ := fn
  simp only [scanned, List.mem_flatMap, List.mem_map, mem_devices, mem_functionsOf,
    PciFunction.mk.injEq, PciFunction.first]
  constructor
  · rintro ⟨_, hd, _, ⟨hf, hv, hm⟩, rfl, rfl, rfl⟩
    exact ⟨rfl, hd, hf, hv, hm⟩
  · rintro ⟨rfl, hd, hf, hv, hm⟩
    exact ⟨d, hd, f, ⟨hf, hv, hm⟩, rfl, rfl, rfl⟩

lemma functionsOf_nodup (bus dev : BitVec 8) : (functionsOf cfg bus dev).Nodup := by
  unfold functionsOf
  dsimp only
  split
  · exact List.nodup_nil
  · split <;> decide

lemma scanned_nodup (bus : BitVec 8) : (scanned cfg bus).Nodup := by
  refine List.nodup_flatMap.2 ⟨?_, ?_⟩
  · intro dev _
    refine (functionsOf_nodup bus dev).map ?_
    intro f g h
    simpa using h
  · have hd : devices.Nodup := by decide
    refine hd.imp ?_
    intro d e hne fn hfn hfn'
    simp only [List.mem_map] at hfn hfn'
    obtain ⟨f, -, rfl⟩ := hfn
    obtain ⟨g, -, heq⟩ := hfn'
    exact hne (PciFunction.mk.inj heq).2.1.symm

/-! ## Lines and calls -/

lemma visits_own (bus : BitVec 8) : visits (Calls.own (busBody cfg) bus) =
      (scanned cfg bus).filter fun fn => fn.vendorId cfg ≠ 0xFFFF#16 := by
  have hbody : visits (Calls.own (busBody cfg) bus) =
      (busBody cfg bus).filterMap fun i => i.getLeft?.bind PciEvent.line? :=
    List.filterMap_filterMap
  have hfn : ∀ fn : PciFunction,
      ((functionBody cfg fn).filterMap fun i => i.getLeft?.bind PciEvent.line?) =
        if fn.vendorId cfg ≠ 0xFFFF#16 then [fn] else [] := by
    intro fn
    unfold functionBody describe
    split_ifs <;> first | rfl | tauto
  rw [hbody, filterMap_busBody _ (fun _ _ => rfl) (fun _ => rfl)]
  induction scanned cfg bus with
  | nil => rfl
  | cons fn l ih =>
    rw [List.flatMap_cons, ih, hfn, List.filter_cons]
    split_ifs <;> simp_all

lemma calls_eq (bus : BitVec 8) : Calls.calls (busBody cfg) bus =
      (scanned cfg bus).filterMap fun fn => if fn.vendorId cfg ≠ 0xFFFF#16 ∧ fn.headerType cfg =
      0x01#8 ∧ fn.secondaryBus cfg ≠ fn.bus then some (fn.secondaryBus cfg) else none := by
  have hfn : ∀ fn : PciFunction, (functionBody cfg fn).filterMap Sum.getRight? =
      if fn.vendorId cfg ≠ 0xFFFF#16 ∧ fn.headerType cfg = 0x01#8 ∧ fn.secondaryBus cfg ≠ fn.bus
      then [fn.secondaryBus cfg] else [] := by
    intro fn
    unfold functionBody describe
    split_ifs <;> first | rfl | tauto
  rw [Calls.calls, filterMap_busBody _ (fun _ _ => rfl) (fun _ => rfl)]
  induction scanned cfg bus with
  | nil => rfl
  | cons fn l ih =>
    rw [List.flatMap_cons, ih, hfn, List.filterMap_cons]
    split_ifs <;> simp_all

lemma present_iff : fn.Present cfg ↔ fn ∈ scanned cfg fn.bus ∧ fn.vendorId cfg ≠ 0xFFFF#16 := by
  rw [mem_scanned]
  constructor
  · intro h
    exact ⟨⟨rfl, h.dev, h.func, h.device, h.multi⟩, h.vendor⟩
  · rintro ⟨⟨-, hd, hf, hdev, hm⟩, hv⟩
    exact ⟨hd, hf, hdev, hv, hm⟩

lemma count_visits_own (fn : PciFunction) (bus : BitVec 8) :
    (visits (Calls.own (busBody cfg) bus)).count fn =
      open Classical in if fn.Present cfg ∧ fn.bus = bus then 1 else 0 := by
  rw [visits_own, List.Nodup.count ((scanned_nodup bus).filter _)]
  congr 1
  have hmem : fn ∈ (scanned cfg bus).filter (fun fn => fn.vendorId cfg ≠ 0xFFFF#16) ↔
      fn.Present cfg ∧ fn.bus = bus := by
    rw [List.mem_filter, present_iff]
    constructor
    · rintro ⟨hs, hv⟩
      have hbus := (mem_scanned.1 hs).1
      exact ⟨⟨hbus ▸ hs, by simpa using hv⟩, hbus⟩
    · rintro ⟨⟨hs, hv⟩, rfl⟩
      exact ⟨hs, by simpa using hv⟩
  exact propext hmem

lemma mem_calls : s ∈ Calls.calls (busBody cfg) b ↔ Follows cfg b s := by
  simp only [calls_eq, List.mem_filterMap, Option.ite_none_right_eq_some, Option.some.injEq]
  constructor
  · rintro ⟨fn, hs, ⟨hv, hh, hne⟩, heq⟩
    obtain rfl := (mem_scanned.1 hs).1
    exact ⟨fn, rfl, present_iff.2 ⟨hs, hv⟩, hh, hne, heq⟩
  · rintro ⟨fn, rfl, hp, hh, hne, heq⟩
    obtain ⟨hs, hv⟩ := present_iff.1 hp
    exact ⟨fn, hs, ⟨hv, hh, hne⟩, heq⟩

lemma call_eq_follows : (fun b s => s ∈ Calls.calls (busBody cfg) b) = Follows cfg := by
  funext b s
  exact propext mem_calls

lemma read_functionBody {gn : PciFunction} (h : .inl (.read fn offset) ∈ functionBody cfg gn) :
    fn = gn := by
  unfold functionBody describe at h
  split_ifs at h <;> simp at h <;> tauto

lemma read_own (h : .read fn offset ∈ Calls.own (busBody cfg) bus) (hfunc : fn.func ≠ 0#8) :
    fn.MultiFunction cfg := by
  have hbody : .inl (.read fn offset) ∈ busBody cfg bus := by
    obtain ⟨i, hi, heq⟩ := List.mem_filterMap.1 h
    rwa [Sum.getLeft?_eq_some_iff.1 heq] at hi
  simp only [busBody, List.mem_cons, List.mem_flatMap, reduceCtorEq, Sum.inl.injEq,
    false_or] at hbody
  obtain ⟨dev, -, hdev⟩ := hbody
  have hfirst : fn ≠ ⟨bus, dev, 0#8⟩ := by
    rintro rfl
    exact hfunc rfl
  unfold deviceBody at hdev
  by_cases hv : PciFunction.vendorId cfg ⟨bus, dev, 0#8⟩ = 0xFFFF#16
  · simp [hv, hfirst] at hdev
  · by_cases hm : PciFunction.headerType cfg ⟨bus, dev, 0#8⟩ &&& 0x80#8 = 0#8
    · simp only [hv, hm, if_false, ne_eq, not_true_eq_false, List.mem_cons, List.mem_append,
        Sum.inl.injEq, PciEvent.read.injEq, hfirst, false_and, false_or, List.not_mem_nil,
          or_false] at hdev
      exact absurd (read_functionBody hdev) hfirst
    · simp only [hv, hm, if_false, if_true, ne_eq, not_false_eq_true, List.mem_cons,
        List.mem_append, Sum.inl.injEq, PciEvent.read.injEq, hfirst, false_and, false_or,
        List.mem_flatMap] at hdev
      rcases hdev with hdev | ⟨func, -, hdev⟩
      · exact absurd (read_functionBody hdev) hfirst
      · obtain rfl := read_functionBody hdev
        exact hm

/-! ## The scan of bus 0 -/

instance finite_byte : Finite (BitVec 8) := Finite.of_injective BitVec.toFin BitVec.toFin_injective

/-- What a scan that returns has visited: the functions that are there of
the buses that it followed a bridge to, and nothing else is looked at. -/
lemma pciScanBus_log (h : pciScanBus cfg depth bus = some log) :
    ∃ o, Calls.order (busBody cfg) depth bus = some o ∧
    (∀ fn, fn.Present cfg → (visits log).count fn = o.count fn.bus) ∧
    ∀ fn offset, .read fn offset ∈ log → fn.func ≠ 0#8 → fn.MultiFunction cfg := by
  rw [pciScanBus_eq] at h
  obtain ⟨o, ho, hperm⟩ := Calls.exec_perm depth bus log h
  refine ⟨o, ho, ?_, ?_⟩
  · intro fn hp
    have hvis : (visits log).Perm (o.flatMap fun b => visits (Calls.own (busBody cfg) b)) := by
      have := hperm.filterMap PciEvent.line?
      rwa [List.filterMap_flatMap] at this
    rw [hvis.count_eq]
    clear hperm hvis ho h
    induction o with
    | nil => rfl
    | cons b o ih =>
      rw [List.flatMap_cons, List.count_append, ih, count_visits_own, List.count_cons]
      by_cases hb : b = fn.bus
      · simp [hp, hb, Nat.add_comm]
      · simp [hb, Ne.symm hb]
  · intro fn offset hmem hfunc
    obtain ⟨b, -, hb⟩ := List.mem_flatMap.1 (hperm.subset hmem)
    exact read_own hb hfunc

lemma isBridge_of_headerType (h : fn.headerType cfg = 0x01#8) : fn.IsBridge cfg := by
  rw [PciFunction.IsBridge, h]
  decide

lemma Follows.leads (h : Follows cfg b s) : Leads cfg b s := by
  obtain ⟨fn, hb, hp, hh, -, hs⟩ := h
  exact ⟨fn, hb, hp, isBridge_of_headerType hh, hs⟩

lemma busReached_of_follows (h : Relation.ReflTransGen (Follows cfg) 0#8 b) :
    BusReached cfg b := h.lift id fun _ _ => Follows.leads

section

variable (h : TreeShaped cfg)
include h

/-- In a tree a bridge does not lead back to its own bus: the bridge that
leads to this bus would be the same one. -/
lemma TreeShaped.secondaryBus_ne (hb : BusReached cfg b) :
    ∀ fn, BridgeReached cfg fn → fn.bus = b → fn.secondaryBus cfg ≠ b := by
  induction hb with
  | refl =>
    intro fn hfn _
    exact h.root fn hfn
  | @tail c b hc hcb ih =>
    intro fn hfn hbus hsec
    obtain ⟨gn, hgbus, hgp, hgb, hgsec⟩ := hcb
    have hgn : BridgeReached cfg gn := ⟨hgbus ▸ hc, hgp, hgb⟩
    obtain rfl := h.distinct gn fn hgn hfn (hgsec.trans hsec.symm)
    exact ih gn hgn hgbus (hsec.trans (hbus.symm.trans hgbus))

lemma TreeShaped.tree : Calls.Tree (busBody cfg) 0#8 := by
  have hreached : ∀ {b}, Calls.Reach (busBody cfg) 0#8 b → BusReached cfg b := by
    intro b hb
    rw [Calls.Reach, call_eq_follows] at hb
    exact busReached_of_follows hb
  constructor
  case nodup =>
    intro b hb
    rw [calls_eq, List.Nodup, List.pairwise_filterMap]
    refine (scanned_nodup b).imp_of_mem ?_
    intro fn gn hfn hgn hne s hs t ht heq
    simp only [Option.ite_none_right_eq_some, Option.some.injEq] at hs ht
    have hmem : ∀ {fn}, fn ∈ scanned cfg b → fn.vendorId cfg ≠ 0xFFFF#16 →
        fn.headerType cfg = 0x01#8 → BridgeReached cfg fn := by
      intro fn hfn hv hh
      have hbus := (mem_scanned.1 hfn).1
      exact ⟨hbus ▸ hreached hb, present_iff.2 ⟨hbus ▸ hfn, hv⟩, isBridge_of_headerType hh⟩
    exact hne (h.distinct fn gn (hmem hfn hs.1.1 hs.1.2.1) (hmem hgn ht.1.1 ht.1.2.1)
      (hs.2.trans (heq.trans ht.2.symm)))
  case unique =>
    intro y z c hy hz hyc hzc
    obtain ⟨fn, rfl, hp, hh, -, hs⟩ := mem_calls.1 hyc
    obtain ⟨gn, rfl, hp', hh', -, hs'⟩ := mem_calls.1 hzc
    rw [h.distinct fn gn ⟨hreached hy, hp, isBridge_of_headerType hh⟩
      ⟨hreached hz, hp', isBridge_of_headerType hh'⟩ (hs.trans hs'.symm)]
  case root =>
    intro y hy hcall
    obtain ⟨fn, rfl, hp, hh, -, hs⟩ := mem_calls.1 hcall
    exact h.root fn ⟨hreached hy, hp, isBridge_of_headerType hh⟩ hs

/-- In a tree the scan returns, and it has visited the functions of the
buses it followed a bridge to once each, and no function of another bus. -/
lemma TreeShaped.count_visits (hlog : pciScanBus cfg depth 0#8 = some log) (hp : fn.Present cfg) :
    (visits log).count fn =
      open Classical in if Relation.ReflTransGen (Follows cfg) 0#8 fn.bus then 1 else 0 := by
  obtain ⟨o, ho, hcount, -⟩ := pciScanBus_log hlog
  have hmem : fn.bus ∈ o ↔ Relation.ReflTransGen (Follows cfg) 0#8 fn.bus := by
    rw [Calls.mem_order depth ho, Calls.Reach, call_eq_follows]
  rw [hcount fn hp, List.Nodup.count (h.tree.order_nodup depth _ o ho)]
  congr 1
  exact propext hmem

lemma TreeShaped.returns : ∃ depth log, pciScanBus cfg depth 0#8 = some log := by
  obtain ⟨depth, hdepth⟩ := (Calls.returns_iff_acyclic 0#8).2 fun _ => h.tree.acyclic
  refine ⟨depth, Option.isSome_iff_exists.1 ?_⟩
  rwa [pciScanBus_eq, Calls.isSome_exec]

/-- A bus that is hidden behind a multi-function bridge is not followed. -/
lemma TreeShaped.headerType_of_follows (hfn : BridgeReached cfg fn)
    (hf : Relation.ReflTransGen (Follows cfg) 0#8 (fn.secondaryBus cfg)) :
    fn.headerType cfg = 0x01#8 := by
  rcases (Relation.ReflTransGen.cases_tail_iff _ _ _).1 hf with heq | ⟨b, hb, hlast⟩
  · exact absurd heq (h.root fn hfn)
  · obtain ⟨gn, rfl, hp, hh, -, hs⟩ := hlast
    have hgn : BridgeReached cfg gn :=
      ⟨busReached_of_follows hb, hp, isBridge_of_headerType hh⟩
    have heq := h.distinct gn fn hgn hfn hs
    subst heq
    exact hh

lemma TreeShaped.follows_of_noHiddenBus (hn : NoHiddenBus cfg) (hb : BusReached cfg b) :
    ∀ fn : PciFunction, fn.bus = b → fn.Present cfg →
    Relation.ReflTransGen (Follows cfg) 0#8 b := by
  induction hb with
  | refl => exact fun _ _ _ => .refl
  | @tail c b hc hcb ih =>
    intro fn hbus hp
    obtain ⟨gn, rfl, hgp, hgb, rfl⟩ := hcb
    have hgn : BridgeReached cfg gn := ⟨hc, hgp, hgb⟩
    have hne := h.secondaryBus_ne hc gn hgn rfl
    rcases hn gn hgn with hh | hempty
    · exact (ih gn rfl hgp).tail ⟨gn, rfl, hgp, hh, hne, rfl⟩
    · exact absurd hp (hempty fn hbus)

lemma TreeShaped.noHiddenBus (hlog : pciScanBus cfg depth 0#8 = some log)
    (henum : Enumerated cfg log) : NoHiddenBus cfg := by
  intro fn hfn
  by_contra! hno
  obtain ⟨hh, gn, hbus, hp⟩ := hno
  have hreached : BusReached cfg gn.bus :=
    hfn.bus.tail ⟨fn, rfl, hfn.present, hfn.bridge, hbus.symm⟩
  have hcount := henum.once gn hp hreached
  rw [h.count_visits hlog hp] at hcount
  have hf : Relation.ReflTransGen (Follows cfg) 0#8 gn.bus := by
    by_contra hf
    simp [hf] at hcount
  exact hh (h.headerType_of_follows hfn (hbus ▸ hf))

/-- **Enumeration of a tree.** -/
theorem pci_enumeration_iff :
    (∃ depth log, pciScanBus cfg depth 0#8 = some log ∧ Enumerated cfg log) ↔ NoHiddenBus cfg := by
  constructor
  · rintro ⟨depth, log, hlog, henum⟩
    exact h.noHiddenBus hlog henum
  · intro hn
    obtain ⟨depth, log, hlog⟩ := h.returns
    obtain ⟨_, -, -, hsingle⟩ := pciScanBus_log hlog
    refine ⟨depth, log, hlog, ?_, hsingle⟩
    intro fn hp hb
    rw [h.count_visits hlog hp, if_pos (h.follows_of_noHiddenBus hn hb fn rfl hp)]

end

/-! A machine with two functions: `00:00.0` is a bridge to bus 1 with the
given header type, and `01:00.0` is a device. -/

def bridgeSpace (headerType : BitVec 8) : ConfigSpace := fun addr =>
  if addr = 0x80000000#32 then 0x00011AF4#32
  else if addr = 0x8000000C#32 then headerType.setWidth 32 <<< 16
  else if addr = 0x80000018#32 then 0x00000100#32
  else if addr = 0x80010000#32 then 0x10001AF4#32
  else if addr = 0x8001000C#32 then 0#32
  else 0xFFFFFFFF#32

lemma or_eq_add {i a b : Nat} (h : b < 2 ^ i) : a * 2 ^ i ||| b = a * 2 ^ i + b := by
  rw [Nat.mul_comm, Nat.two_pow_add_eq_or_of_lt h]

lemma toNat_shift (x : BitVec 8) {k : Nat} (hk : k ≤ 24) :
    (x.setWidth 32 <<< k).toNat = x.toNat * 2 ^ k := by
  have hx : x.toNat < 2 ^ 32 := lt_trans x.isLt (by decide)
  have hlt : x.toNat * 2 ^ k < 2 ^ 32 := calc
    x.toNat * 2 ^ k < 2 ^ 8 * 2 ^ 24 :=
      Nat.mul_lt_mul_of_lt_of_le x.isLt (Nat.pow_le_pow_right (by decide) hk) (by decide)
    _ = 2 ^ 32 := by decide
  rw [BitVec.toNat_shiftLeft, BitVec.toNat_setWidth, Nat.shiftLeft_eq, Nat.mod_eq_of_lt hx,
    Nat.mod_eq_of_lt hlt]

lemma toNat_configAddr (hd : fn.dev < 32#8) (hf : fn.func < 8#8) : (configAddr fn 0#8).toNat =
      2 ^ 31 + fn.bus.toNat * 2 ^ 16 + fn.dev.toNat * 2 ^ 11 + fn.func.toNat * 2 ^ 8 := by
  have hd' : fn.dev.toNat < 32 := by simpa [BitVec.lt_def] using hd
  have hf' : fn.func.toNat < 8 := by simpa [BitVec.lt_def] using hf
  have hb := fn.bus.isLt
  have henable : pciAddrEnable.toNat = 1 * 2 ^ 31 := by decide
  have hbus : 1 * 2 ^ 31 ||| fn.bus.toNat * 2 ^ 16 = (2 ^ 15 + fn.bus.toNat) * 2 ^ 16 := by
    rw [or_eq_add (by omega)]
    omega
  have hdev : (2 ^ 15 + fn.bus.toNat) * 2 ^ 16 ||| fn.dev.toNat * 2 ^ 11 =
      ((2 ^ 15 + fn.bus.toNat) * 2 ^ 5 + fn.dev.toNat) * 2 ^ 11 := by
    rw [or_eq_add (by omega)]
    omega
  have hfunc : ((2 ^ 15 + fn.bus.toNat) * 2 ^ 5 + fn.dev.toNat) * 2 ^ 11 ||| fn.func.toNat * 2 ^ 8 =
      2 ^ 31 + fn.bus.toNat * 2 ^ 16 + fn.dev.toNat * 2 ^ 11 + fn.func.toNat * 2 ^ 8 := by
    rw [or_eq_add (by omega)]
    omega
  rw [configAddr, BitVec.toNat_or, BitVec.toNat_or, BitVec.toNat_or, BitVec.toNat_or,
    toNat_shift _ (by decide), toNat_shift _ (by decide), toNat_shift _ (by decide), henable,
    hbus, hdev, hfunc]
  simp

lemma eq_of_configAddr (hp : fn.Present cfg)
    (h : configAddr fn 0#8 = configAddr ⟨b, 0#8, 0#8⟩ 0#8) : fn = ⟨b, 0#8, 0#8⟩ := by
  have haddr := congrArg BitVec.toNat h
  rw [toNat_configAddr hp.dev hp.func] at haddr
  rw [toNat_configAddr (show 0#8 < 32#8 by decide) (show 0#8 < 8#8 by decide)] at haddr
  have hd : fn.dev.toNat < 32 := by simpa [BitVec.lt_def] using hp.dev
  have hf : fn.func.toNat < 8 := by simpa [BitVec.lt_def] using hp.func
  obtain ⟨bus, dev, func⟩ := fn
  simp only [BitVec.toNat_ofNat, PciFunction.mk.injEq] at haddr hd hf ⊢
  exact ⟨BitVec.eq_of_toNat_eq (by omega),
    BitVec.eq_of_toNat_eq (by rw [BitVec.toNat_ofNat]; omega),
      BitVec.eq_of_toNat_eq (by rw [BitVec.toNat_ofNat]; omega)⟩

lemma vendorId_eq (cfg : ConfigSpace) (fn : PciFunction) :
    fn.vendorId cfg = (cfg (configAddr fn 0#8)).setWidth 16 := rfl

lemma present_bridgeSpace (hp : fn.Present (bridgeSpace headerType)) :
    fn = ⟨0#8, 0#8, 0#8⟩ ∨ fn = ⟨1#8, 0#8, 0#8⟩ := by
  by_contra! hne
  have hlow : ∀ a : BitVec 32, a.toNat % 256 ≠ 0 → configAddr fn 0#8 ≠ a := by
    rintro _ ha rfl
    rw [toNat_configAddr hp.dev hp.func] at ha
    omega
  have h0 : configAddr fn 0#8 ≠ 0x80000000#32 := fun h => hne.1 (eq_of_configAddr hp h)
  have h1 : configAddr fn 0#8 ≠ 0x80010000#32 := fun h => hne.2 (eq_of_configAddr hp h)
  refine hp.vendor ?_
  rw [vendorId_eq, bridgeSpace, if_neg h0, if_neg (hlow _ (by decide)), if_neg (hlow _ (by decide)),
    if_neg h1, if_neg (hlow _ (by decide))]
  rfl

lemma reads_bridgeSpace :
    ∀ headerType : BitVec 8, PciFunction.vendorId (bridgeSpace headerType) ⟨0#8, 0#8, 0#8⟩ =
      0x1AF4#16 ∧ PciFunction.headerType (bridgeSpace headerType) ⟨0#8, 0#8, 0#8⟩ = headerType ∧
    PciFunction.secondaryBus (bridgeSpace headerType) ⟨0#8, 0#8, 0#8⟩ = 1#8 ∧
    PciFunction.vendorId (bridgeSpace headerType) ⟨1#8, 0#8, 0#8⟩ = 0x1AF4#16 ∧
    PciFunction.headerType (bridgeSpace headerType) ⟨1#8, 0#8, 0#8⟩ = 0#8 := by
  decide

lemma treeShaped_bridgeSpace (headerType : BitVec 8) : TreeShaped (bridgeSpace headerType) := by
  obtain ⟨-, -, hsec, -, hheader⟩ := reads_bridgeSpace headerType
  have hroot : ∀ fn, BridgeReached (bridgeSpace headerType) fn → fn = ⟨0#8, 0#8, 0#8⟩ := by
    intro fn hfn
    rcases present_bridgeSpace hfn.present with rfl | rfl
    · rfl
    · have hbridge := hfn.bridge
      rw [PciFunction.IsBridge, hheader] at hbridge
      exact absurd hbridge (by decide)
  constructor
  case distinct =>
    intro fn gn hfn hgn _
    rw [hroot fn hfn, hroot gn hgn]
  case root =>
    intro fn hfn
    rw [hroot fn hfn, hsec]
    decide

lemma present_of_first (hv : PciFunction.vendorId cfg ⟨b, 0#8, 0#8⟩ = 0x1AF4#16) :
    PciFunction.Present cfg ⟨b, 0#8, 0#8⟩ where
  dev := show 0#8 < 32#8 by decide
  func := show 0#8 < 8#8 by decide
  device := by simp [PciFunction.first, hv]
  vendor := by simp [hv]
  multi h := absurd rfl h

lemma bridgeReached_bridgeSpace (h : headerType &&& 0x7F#8 = 0x01#8) :
    BridgeReached (bridgeSpace headerType) ⟨0#8, 0#8, 0#8⟩ where
  bus := .refl
  present := present_of_first (reads_bridgeSpace headerType).1
  bridge := by rwa [PciFunction.IsBridge, (reads_bridgeSpace headerType).2.1]

theorem pci_enumeration_single_function :
    TreeShaped (bridgeSpace 0x01#8) ∧ NoHiddenBus (bridgeSpace 0x01#8) ∧
    ∃ depth log, pciScanBus (bridgeSpace 0x01#8) depth 0#8 = some log ∧
      Enumerated (bridgeSpace 0x01#8) log := by
  have hno : NoHiddenBus (bridgeSpace 0x01#8) := by
    intro fn hfn
    rcases present_bridgeSpace hfn.present with rfl | rfl
    · exact .inl (reads_bridgeSpace 0x01#8).2.1
    · have hbridge := hfn.bridge
      rw [PciFunction.IsBridge, (reads_bridgeSpace 0x01#8).2.2.2.2] at hbridge
      exact absurd hbridge (by decide)
  exact ⟨treeShaped_bridgeSpace _, hno, (pci_enumeration_iff (treeShaped_bridgeSpace _)).2 hno⟩

/-- With the multi-function bit of the bridge set the device behind it is
never visited. -/
theorem pci_hides_subtree : TreeShaped (bridgeSpace 0x81#8) ∧ BusReached (bridgeSpace 0x81#8) 1#8 ∧
    PciFunction.Present (bridgeSpace 0x81#8) ⟨1#8, 0#8, 0#8⟩ ∧
    (pciScanBus (bridgeSpace 0x81#8) 1 0#8).map visits = some [⟨0#8, 0#8, 0#8⟩] ∧
    ¬ ∃ depth log, pciScanBus (bridgeSpace 0x81#8) depth 0#8 = some log ∧
      Enumerated (bridgeSpace 0x81#8) log := by
  obtain ⟨-, hheader, hsec, hv, -⟩ := reads_bridgeSpace 0x81#8
  have hbridge : BridgeReached (bridgeSpace 0x81#8) ⟨0#8, 0#8, 0#8⟩ :=
    bridgeReached_bridgeSpace (by decide)
  have hp : PciFunction.Present (bridgeSpace 0x81#8) ⟨1#8, 0#8, 0#8⟩ := present_of_first hv
  refine ⟨treeShaped_bridgeSpace _, ?_, hp, by decide, ?_⟩
  · exact hbridge.bus.tail ⟨_, rfl, hbridge.present, hbridge.bridge, hsec⟩
  · rintro ⟨depth, log, hlog, henum⟩
    rcases (treeShaped_bridgeSpace 0x81#8).noHiddenBus hlog henum _ hbridge with h | h
    · rw [hheader] at h
      exact absurd h (by decide)
    · exact h _ hsec.symm hp

/-! ## Termination -/

/-- **Termination of the scan**, for every configuration space. -/
theorem pci_terminates_iff (cfg : ConfigSpace) :
    (∃ depth log, pciScanBus cfg depth 0#8 = some log) ↔
    ∀ b, Relation.ReflTransGen (Follows cfg) 0#8 b → ¬ Relation.TransGen (Follows cfg) b b := by
  have hret : (∃ depth log, pciScanBus cfg depth 0#8 = some log) ↔
      ∃ n, (Calls.order (busBody cfg) n 0#8).isSome := by
    simp only [pciScanBus_eq, ← Option.isSome_iff_exists, Calls.isSome_exec]
  rw [hret, Calls.returns_iff_acyclic]
  simp only [Calls.Reach, call_eq_follows]

def loopSpace : ConfigSpace := fun addr =>
  if addr = 0x80000000#32 then 0x00011AF4#32
  else if addr = 0x8000000C#32 then 0x00010000#32
  else if addr = 0x80000018#32 then 0x00000100#32
  else if addr = 0x80010000#32 then 0x00011AF4#32
  else if addr = 0x8001000C#32 then 0x00010000#32
  else if addr = 0x80010018#32 then 0x00000000#32
  else 0xFFFFFFFF#32

/-- The scan of each bus calls the scan of the other. -/
theorem pci_scan_diverges : ¬ ∃ depth log, pciScanBus loopSpace depth 0#8 = some log := by
  have h01 : 1#8 ∈ Calls.calls (busBody loopSpace) 0#8 := by decide
  have h10 : 0#8 ∈ Calls.calls (busBody loopSpace) 1#8 := by decide
  rintro ⟨depth, log, hlog⟩
  have hret : (Calls.order (busBody loopSpace) depth 0#8).isSome := by
    rw [← Calls.isSome_exec, ← pciScanBus_eq, hlog]
    rfl
  exact (Calls.returns_iff_acyclic 0#8).1 ⟨depth, hret⟩ 0#8 .refl (.tail (.single h01) h10)

end VortexOS.Dev
