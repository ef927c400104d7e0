/-
VortexOS.Dev.PciCaps — the capability list of a function, as
`pci_parse_msix_capability` of `kernel/pci.cpp` walks it.

The list starts at the pointer in register `0x34`, and each capability has
the pointer to the next in its second byte. The walk keeps nothing but the
pointer it is at. So it ends if and only if the pointers do not come back to
one of them before the end of the list or an MSI-X capability
(`capability_walk_ends_iff`).
-/
import VortexOS.Dev.Pci

namespace VortexOS.Dev

def pciCapabilities : BitVec 8 := 0x34
def pciCapIdMsix : BitVec 8 := 0x11

structure MsixCapability where
  capOffset : BitVec 8
  tableSize : BitVec 16
  tableBir : BitVec 8
  tableOffset : BitVec 32
  pbaBir : BitVec 8
  pbaOffset : BitVec 32
  deriving DecidableEq, Repr

variable (cfg : ConfigSpace) (fn : PciFunction)

/-- What is stored for a capability at `capPtr`. -/
def msixCapability (capPtr : BitVec 8) : MsixCapability :=
  let msgCtrl := pciConfigReadWord cfg fn (capPtr + 2)
  let tableReg := pciConfigReadDword cfg fn (capPtr + 4)
  let pbaReg := pciConfigReadDword cfg fn (capPtr + 8)
  { capOffset := capPtr
    tableSize := (msgCtrl >>> 11 &&& 0x7FF) + 1
    tableBir := (tableReg &&& 0x7).setWidth 8
    tableOffset := tableReg &&& ~~~0x7
    pbaBir := (pbaReg &&& 0x7).setWidth 8
    pbaOffset := pbaReg &&& ~~~0x7 }

/-- The loop, with `*out` before and after; `none` if it has not ended after
so many rounds. -/
def capLoop (out : MsixCapability) : Nat → BitVec 8 → Option (Bool × MsixCapability)
  | 0, _ => none
  | rounds + 1, capPtr =>
    if capPtr = 0 then some (false, out)
    else if pciConfigReadByte cfg fn capPtr = pciCapIdMsix then
      some (true, msixCapability cfg fn capPtr)
    else capLoop out rounds (pciConfigReadByte cfg fn (capPtr + 1))

/-- `pci_parse_msix_capability` with an `out` that is not null. -/
def pciParseMsixCapability (rounds : Nat) (out : MsixCapability) : Option (Bool × MsixCapability) :=
  let capPtr := pciConfigReadByte cfg fn pciCapabilities
  if capPtr = 0 then some (false, out) else capLoop cfg fn out rounds capPtr

/-! ## The list -/

/-- The pointer after `n` capabilities. -/
def capAt (n : Nat) : BitVec 8 :=
  (fun capPtr => pciConfigReadByte cfg fn (capPtr + 1))^[n]
    (pciConfigReadByte cfg fn pciCapabilities)

/-- The walk goes on behind the capability. -/
def CapPasses (capPtr : BitVec 8) :
    Prop := capPtr ≠ 0 ∧ pciConfigReadByte cfg fn capPtr ≠ pciCapIdMsix

/-- The pointers come back to one of them. -/
def CapCycle : Prop := ∃ i j, i < j ∧ capAt cfg fn i = capAt cfg fn j ∧
    ∀ k < j, CapPasses cfg fn (capAt cfg fn k)

variable {cfg fn} {out : MsixCapability}

lemma capAt_succ (n : Nat) : capAt cfg fn (n + 1) = pciConfigReadByte cfg fn (capAt cfg fn n + 1) :=
  Function.iterate_succ_apply' _ _ _

lemma pciParse_eq (rounds : Nat) :
    pciParseMsixCapability cfg fn rounds out = if capAt cfg fn 0 = 0 then some (false, out)
      else capLoop cfg fn out rounds (capAt cfg fn 0) := rfl

lemma capLoop_pass {rounds n : Nat} (h : CapPasses cfg fn (capAt cfg fn n)) :
    capLoop cfg fn out (rounds + 1) (capAt cfg fn n) =
      capLoop cfg fn out rounds (capAt cfg fn (n + 1)) := by
  rw [capLoop, if_neg h.1, if_neg h.2, capAt_succ]

lemma capLoop_eq (rounds : Nat) {n : Nat} (hpass : ∀ k < n, CapPasses cfg fn (capAt cfg fn k)) :
    capLoop cfg fn out (rounds + n) (capAt cfg fn 0) =
      capLoop cfg fn out rounds (capAt cfg fn n) := by
  induction n generalizing rounds with
  | zero => rfl
  | succ n ih =>
    have hbefore := ih (rounds + 1) fun k hk => hpass k (Nat.lt_succ_of_lt hk)
    rw [← Nat.add_assoc, Nat.add_right_comm, hbefore]
    exact capLoop_pass (hpass n (Nat.lt_succ_self n))

lemma CapCycle.passes (h : CapCycle cfg fn) (n : Nat) : CapPasses cfg fn (capAt cfg fn n) := by
  obtain ⟨i, j, hij, heq, hpass⟩ := h
  induction n using Nat.strongRecOn with
  | ind n ih =>
    by_cases hn : n < j
    · exact hpass n hn
    · -- one turn earlier
      have hback : capAt cfg fn n = capAt cfg fn (n - j + i) := by
        have hsplit : ∀ m, capAt cfg fn (n - j + m) =
            (fun capPtr => pciConfigReadByte cfg fn (capPtr + 1))^[n - j] (capAt cfg fn m) :=
          fun m => Function.iterate_add_apply _ _ _ _
        rw [hsplit, heq, ← hsplit, Nat.sub_add_cancel (Nat.not_lt.mp hn)]
      rw [hback]
      exact ih _ (by omega)

lemma CapCycle.capLoop_none (h : CapCycle cfg fn) (rounds : Nat) :
    capLoop cfg fn out rounds (capAt cfg fn 0) = none := by
  rw [← Nat.zero_add rounds, capLoop_eq 0 fun k _ => h.passes k]
  rfl

lemma exists_capStop (h : ¬ CapCycle cfg fn) :
    ∃ n, ¬ CapPasses cfg fn (capAt cfg fn n) ∧ ∀ k < n, CapPasses cfg fn (capAt cfg fn k) := by
  classical
  have hstop : ∃ n, ¬ CapPasses cfg fn (capAt cfg fn n) := by
    by_contra hall
    push Not at hall
    obtain ⟨i, j, hne, heq⟩ := Finite.exists_ne_map_eq_of_infinite fun n => (capAt cfg fn n).toFin
    have heq := BitVec.eq_of_toFin_eq heq
    rcases Nat.lt_or_gt_of_ne hne with hlt | hlt
    · exact h ⟨i, j, hlt, heq, fun k _ => hall k⟩
    · exact h ⟨j, i, hlt, heq.symm, fun k _ => hall k⟩
  exact ⟨Nat.find hstop, Nat.find_spec hstop, fun k hk => not_not.mp (Nat.find_min hstop hk)⟩

/-- The walk ends if and only if the pointers form no cycle, and what it
finds is an MSI-X capability of the list. -/
theorem capability_walk_ends_iff (cfg : ConfigSpace) (fn : PciFunction) (out : MsixCapability) :
    ((∃ rounds, (pciParseMsixCapability cfg fn rounds out).isSome) ↔ ¬ CapCycle cfg fn) ∧
      ∀ rounds cap, pciParseMsixCapability cfg fn rounds out = some (true, cap) →
        ∃ n, capAt cfg fn n = cap.capOffset ∧ pciConfigReadByte cfg fn cap.capOffset =
          pciCapIdMsix := by
  refine ⟨⟨?_, fun h => ?_⟩, fun rounds cap hcall => ?_⟩
  · rintro ⟨rounds, hsome⟩ h
    rw [pciParse_eq, if_neg (h.passes 0).1, h.capLoop_none] at hsome
    cases hsome
  · obtain ⟨n, hstop, hpass⟩ := exists_capStop h
    refine ⟨1 + n, ?_⟩
    rw [pciParse_eq, capLoop_eq 1 hpass, capLoop]
    split
    · rfl
    · split
      · rfl
      next hne =>
        rw [if_pos (not_not.mp fun hid => hstop ⟨hne, hid⟩)]
        rfl
  · rw [pciParse_eq] at hcall
    split at hcall
    · cases hcall
    · have hloop : ∀ rounds n, capLoop cfg fn out rounds (capAt cfg fn n) = some (true, cap) →
          ∃ n, capAt cfg fn n = cap.capOffset ∧
            pciConfigReadByte cfg fn cap.capOffset = pciCapIdMsix := by
        intro rounds
        induction rounds with
        | zero => exact fun n h => nomatch h
        | succ rounds ih =>
          intro n h
          rw [capLoop] at h
          split at h
          · cases h
          · split at h
            next hid => cases h; exact ⟨n, rfl, hid⟩
            · exact ih (n + 1) (capAt_succ n ▸ h)
      exact hloop rounds 0 hcall

/-- One capability, at `0x40`, that points to itself. -/
def selfSpace : ConfigSpace := fun addr =>
  if addr &&& 0xFC = 0x34 then 0x40 else if addr &&& 0xFC = 0x40 then 0x4005 else 0

/-- The loop has no bound on the number of capabilities. -/
theorem capability_walk_loops : CapCycle selfSpace ⟨0, 0, 0⟩ ∧ ∀ rounds,
    pciParseMsixCapability selfSpace ⟨0, 0, 0⟩ rounds ⟨0, 0, 0, 0, 0, 0⟩ = none := by
  have hcycle : CapCycle selfSpace ⟨0, 0, 0⟩ :=
    ⟨0, 1, Nat.one_pos, by decide, fun k hk => by
      rw [Nat.lt_one_iff.mp hk]; exact ⟨by decide, by decide⟩⟩
  refine ⟨hcycle, fun rounds => ?_⟩
  rw [pciParse_eq, if_neg (hcycle.passes 0).1, hcycle.capLoop_none]

end VortexOS.Dev
