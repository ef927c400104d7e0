/-
VortexOS.Lib.PhaseRing — a ring buffer whose entries carry a phase bit.

The producer writes entry `k` to the cell `k % size`, with the bit
`lap size k`: set on the first pass over the ring, clear on the second, and
so on. The consumer compares the bit of the cell at its own position with
the bit of its own pass. It sees its bit if and only if the queue is not
empty (`Holds.ready_iff`).
-/
import Mathlib

namespace VortexOS.Lib

open Function

def lap (size k : Nat) : Bool := k / size % 2 == 0

section

variable {size : Nat}

lemma lap_of_lt {k : Nat} (h : k < size) : lap size k = true := by
  simp [lap, Nat.div_eq_of_lt h]

lemma lap_succ (size k : Nat) :
    lap size (k + 1) = if (k + 1) % size = 0 then !lap size k else lap size k := by
  unfold lap
  rw [Nat.succ_div]
  by_cases hdvd : size ∣ k + 1
  · rw [if_pos hdvd, if_pos (Nat.mod_eq_zero_of_dvd hdvd)]
    cases Nat.mod_two_eq_zero_or_one (k / size) with
    | inl h => simp [Nat.add_mod, h]
    | inr h => simp [Nat.add_mod, h]
  · rw [if_neg hdvd, if_neg fun hmod => hdvd (Nat.dvd_of_mod_eq_zero hmod), Nat.add_zero]

lemma lap_add_size (hsize : 0 < size) (k : Nat) : lap size (k + size) = !lap size k := by
  unfold lap
  rw [Nat.add_div_right k hsize]
  cases Nat.mod_two_eq_zero_or_one (k / size) with
  | inl h => simp [Nat.add_mod, h]
  | inr h => simp [Nat.add_mod, h]

lemma mod_ne_of_lt {a b : Nat} (hlt : a < b) (hb : b < a + size) : a % size ≠ b % size := by
  intro heq
  have hdvd := (Nat.modEq_iff_dvd' (Nat.le_of_lt hlt)).mp heq
  have hle := Nat.le_of_dvd (Nat.sub_pos_of_lt hlt) hdvd
  omega

end

/-- The entries from number `taken` on are `queue`, and every other cell has
the bit of the pass before. -/
structure Holds {α : Type} (bit : α → Bool) (size : Nat) (cell : Nat → α) (taken : Nat)
    (queue : List α) : Prop where
  queued : ∀ i a, queue[i]? = some a → cell ((taken + i) % size) = a ∧ bit a = lap size (taken + i)
  stale : ∀ k, taken + queue.length ≤ k → k < taken + queue.length + size →
    bit (cell (k % size)) = !lap size k

section

variable {α : Type} {bit : α → Bool} {size taken : Nat} {cell : Nat → α} {queue : List α}

lemma holds_nil (h : ∀ i < size, bit (cell i) = false) : Holds bit size cell 0 [] where
  queued i a ha := by simp at ha
  stale k _ hk := by
    have hlt : k < size := by simpa using hk
    rw [Nat.mod_eq_of_lt hlt, h k hlt, lap_of_lt hlt]
    rfl

lemma Holds.ready_iff (h : Holds bit size cell taken queue) (hsize : 0 < size) :
    bit (cell (taken % size)) = lap size taken ↔ queue ≠ [] := by
  cases queue with
  | nil =>
    have hbit := h.stale taken (by simp) (by simpa using hsize)
    simp [hbit]
  | cons a rest =>
    obtain ⟨hcell, hbit⟩ := h.queued 0 a rfl
    rw [Nat.add_zero] at hcell hbit
    simp [hcell, hbit]

lemma Holds.head {a : α} {rest : List α} (h : Holds bit size cell taken (a :: rest)) :
    cell (taken % size) = a :=
  (h.queued 0 a rfl).1

lemma Holds.pop {a : α} {rest : List α} (h : Holds bit size cell taken (a :: rest)) :
    Holds bit size cell (taken + 1) rest where
  queued i b hb := by
    have hnext := h.queued (i + 1) b (by simpa using hb)
    rwa [Nat.add_assoc, Nat.add_comm 1 i]
  stale k hk hk' := h.stale k (by rw [List.length_cons]; omega) (by rw [List.length_cons]; omega)

lemma Holds.push (h : Holds bit size cell taken queue) (hroom : queue.length < size) {a : α}
    (hbit : bit a = lap size (taken + queue.length)) :
    Holds bit size (update cell ((taken + queue.length) % size) a) taken (queue ++ [a]) where
  queued i b hb := by
    by_cases hi : i < queue.length
    · rw [List.getElem?_append_left hi] at hb
      rw [update_of_ne (mod_ne_of_lt (by omega) (by omega))]
      exact h.queued i b hb
    · rw [List.getElem?_append_right (Nat.not_lt.mp hi)] at hb
      have hi0 : i - queue.length = 0 := by
        have hlen := (List.getElem?_eq_some_iff.mp hb).1
        simpa using hlen
      have hlast : i = queue.length := by omega
      subst hlast
      rw [hi0] at hb
      cases hb
      exact ⟨update_self _ _ _, hbit⟩
  stale k hk hk' := by
    rw [List.length_append, List.length_singleton] at hk hk'
    by_cases hlast : k = taken + queue.length + size
    · subst hlast
      rw [Nat.add_mod_right, update_self, hbit, lap_add_size (Nat.zero_lt_of_lt hroom),
        Bool.not_not]
    · rw [update_of_ne (mod_ne_of_lt (by omega) (by omega)).symm]
      exact h.stale k (by omega) (by omega)

end

end VortexOS.Lib
