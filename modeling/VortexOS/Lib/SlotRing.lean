/-
VortexOS.Lib.SlotRing — the last entries of a sequence in a ring of slots.

A ring has `size` slots and the index `next` of the slot that the next entry
goes to. `Ring` says that the slots hold the list `recent`, newest first,
from the slot before `next` backwards. A new entry takes the place of the
oldest one if there is no empty slot (`Ring.push`), and entries may change
in place (`Ring.map`). Entries with keys of their own are in one slot each
(`Ring.slot_inj`).
-/
import Mathlib

namespace VortexOS.Lib

open Function

/-- The slot of the entry before which `age` newer ones were put in. -/
def slotOf (size next age : Nat) : Nat := (next + (size - 1 - age)) % size

section

variable {size next age : Nat}

lemma slotOf_eq (hnext : next < size) (hage : age < size) :
    slotOf size next age = if age < next then next - 1 - age else size + next - 1 - age := by
  unfold slotOf
  split
  · rw [show next + (size - 1 - age) = next - 1 - age + size by omega, Nat.add_mod_right]
    exact Nat.mod_eq_of_lt (by omega)
  · rw [Nat.mod_eq_of_lt (by omega)]
    omega

lemma slotOf_lt (hnext : next < size) : slotOf size next age < size :=
  Nat.mod_lt _ (Nat.zero_lt_of_lt hnext)

lemma exists_slotOf {i : Nat} (hnext : next < size) (hi : i < size) :
    ∃ age < size, slotOf size next age = i := by
  by_cases hlt : i < next
  · refine ⟨next - 1 - i, by omega, ?_⟩
    rw [slotOf_eq hnext (by omega), if_pos (by omega)]
    omega
  · refine ⟨size + next - 1 - i, by omega, ?_⟩
    rw [slotOf_eq hnext (by omega), if_neg (by omega)]
    omega

lemma slotOf_zero_succ (hnext : next < size) : slotOf size ((next + 1) % size) 0 = next := by
  by_cases hlast : next + 1 = size
  · rw [hlast, Nat.mod_self, slotOf_eq (by omega) (by omega), if_neg (by omega)]
    omega
  · rw [Nat.mod_eq_of_lt (by omega), slotOf_eq (by omega) (by omega), if_pos (by omega)]
    omega

lemma slotOf_succ_succ (hnext : next < size) (hage : age + 1 < size) :
    slotOf size ((next + 1) % size) (age + 1) = slotOf size next age := by
  rw [slotOf_eq hnext (by omega)]
  by_cases hlast : next + 1 = size
  · rw [hlast, Nat.mod_self, slotOf_eq (by omega) hage, if_neg (by omega), if_pos (by omega)]
    omega
  · rw [Nat.mod_eq_of_lt (by omega), slotOf_eq (by omega) hage]
    split <;> split <;> omega

end

/-- The slots hold the entries of `recent`, newest first. -/
structure Ring {α : Type} (size : Nat) (slots : Nat → Option α) (next : Nat) (recent : List α) :
    Prop where
  next_lt : next < size
  length_le : recent.length ≤ size
  slot : ∀ age < size, slots (slotOf size next age) = recent[age]?

namespace Ring

variable {α κ : Type} {size next : Nat} {slots : Nat → Option α} {recent : List α}

lemma empty (hnext : next < size) (hnone : ∀ i < size, slots i = none) :
    Ring size slots next [] where
  next_lt := hnext
  length_le := Nat.zero_le _
  slot age _ := by
    rw [hnone _ (slotOf_lt hnext)]
    rfl

section

variable (h : Ring size slots next recent)
include h

lemma push (a : α) :
    Ring size (update slots next (some a)) ((next + 1) % size) ((a :: recent).take size) where
  next_lt := Nat.mod_lt _ (Nat.zero_lt_of_lt h.next_lt)
  length_le := List.length_take_le _ _
  slot age hage := by
    rw [List.getElem?_take_of_lt hage]
    cases age with
    | zero =>
      rw [slotOf_zero_succ h.next_lt, update_self]
      rfl
    | succ age =>
      have hne : slotOf size next age ≠ next := by
        rw [slotOf_eq h.next_lt (by omega)]
        split <;> omega
      rw [slotOf_succ_succ h.next_lt hage, update_of_ne hne, h.slot age (by omega)]
      rfl

lemma map (f : α → α) : Ring size (fun i => (slots i).map f) next (recent.map f) where
  next_lt := h.next_lt
  length_le := by
    rw [List.length_map]
    exact h.length_le
  slot age hage := by rw [h.slot age hage, List.getElem?_map]

lemma congr {slots' : Nat → Option α} (hsame : ∀ i < size, slots' i = slots i) :
    Ring size slots' next recent where
  next_lt := h.next_lt
  length_le := h.length_le
  slot age hage := by rw [hsame _ (slotOf_lt h.next_lt), h.slot age hage]

lemma mem_iff {a : α} : (∃ i < size, slots i = some a) ↔ a ∈ recent := by
  rw [List.mem_iff_getElem?]
  constructor
  · rintro ⟨i, hi, hslot⟩
    obtain ⟨age, hage, rfl⟩ := exists_slotOf h.next_lt hi
    exact ⟨age, (h.slot age hage).symm.trans hslot⟩
  · rintro ⟨age, hentry⟩
    have hage : age < size :=
      Nat.lt_of_lt_of_le (List.getElem?_eq_some_iff.mp hentry).1 h.length_le
    exact ⟨_, slotOf_lt h.next_lt, (h.slot age hage).trans hentry⟩

lemma slot_inj {key : α → κ} (hkeys : (recent.map key).Nodup) {i j : Nat} {a b : α} (hi : i < size)
    (hj : j < size) (ha : slots i = some a) (hb : slots j = some b) (hkey : key a = key b) :
    i = j := by
  obtain ⟨age, hage, rfl⟩ := exists_slotOf h.next_lt hi
  obtain ⟨age', hage', rfl⟩ := exists_slotOf h.next_lt hj
  have hentry : (recent.map key)[age]? = some (key a) := by
    rw [List.getElem?_map, ← h.slot age hage, ha, Option.map_some]
  have hentry' : (recent.map key)[age']? = some (key a) := by
    rw [List.getElem?_map, ← h.slot age' hage', hb, Option.map_some, hkey]
  have hlt := (List.getElem?_eq_some_iff.mp hentry).1
  rw [(List.getElem?_inj hlt hkeys).mp (hentry.trans hentry'.symm)]

end

end Ring

end VortexOS.Lib
