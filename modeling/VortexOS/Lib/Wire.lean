/-
VortexOS.Lib.Wire — words in memory and on the wire.

Memory is a function from addresses to bytes. A little-endian machine reads
and writes words with the low byte first; `swap16` and `swap32` turn such a
word into the one with the other byte order. `Starts m o l` says that the
bytes from `o` on are `l`, and `reads16` and `reads32` say what a word read
there is.
-/
import Mathlib

namespace VortexOS.Lib

def read16 (m : Nat → BitVec 8) (o : Nat) : BitVec 16 := m (o + 1) ++ m o
def read32 (m : Nat → BitVec 8) (o : Nat) : BitVec 32 := m (o + 3) ++ m (o + 2) ++ m (o + 1) ++ m o
def read64 (m : Nat → BitVec 8) (o : Nat) : BitVec 64 := read32 m (o + 4) ++ read32 m o

def bytes16 (x : BitVec 16) : List (BitVec 8) := [x.extractLsb' 0 8, x.extractLsb' 8 8]
def bytes32 (x : BitVec 32) : List (BitVec 8) :=
  [x.extractLsb' 0 8, x.extractLsb' 8 8, x.extractLsb' 16 8, x.extractLsb' 24 8]

def swap16 (x : BitVec 16) : BitVec 16 := x.extractLsb' 0 8 ++ x.extractLsb' 8 8
def swap32 (x : BitVec 32) : BitVec 32 :=
  x.extractLsb' 0 8 ++ x.extractLsb' 8 8 ++ x.extractLsb' 16 8 ++ x.extractLsb' 24 8

@[simp] lemma bytes16_length (x : BitVec 16) : (bytes16 x).length = 2 := rfl
@[simp] lemma bytes32_length (x : BitVec 32) : (bytes32 x).length = 4 := rfl

lemma append_extract16 (x : BitVec 16) : x.extractLsb' 8 8 ++ x.extractLsb' 0 8 = x := by
  have h : x.extractLsb' 8 8 ++ x.extractLsb' 0 8 = x.extractLsb' 0 16 :=
    BitVec.extractLsb'_append_extractLsb'_eq_extractLsb' rfl
  rw [h]
  exact BitVec.extractLsb'_eq_self

lemma append_extract32 (x : BitVec 32) :
    x.extractLsb' 24 8 ++ x.extractLsb' 16 8 ++ x.extractLsb' 8 8 ++ x.extractLsb' 0 8 = x := by
  have h1 : x.extractLsb' 24 8 ++ x.extractLsb' 16 8 = x.extractLsb' 16 16 :=
    BitVec.extractLsb'_append_extractLsb'_eq_extractLsb' rfl
  have h2 : x.extractLsb' 16 16 ++ x.extractLsb' 8 8 = x.extractLsb' 8 24 :=
    BitVec.extractLsb'_append_extractLsb'_eq_extractLsb' rfl
  have h3 : x.extractLsb' 8 24 ++ x.extractLsb' 0 8 = x.extractLsb' 0 32 :=
    BitVec.extractLsb'_append_extractLsb'_eq_extractLsb' rfl
  rw [h1, h2, h3]
  exact BitVec.extractLsb'_eq_self

lemma swap16_append (a b : BitVec 8) : swap16 (a ++ b) = b ++ a := by
  have hlo : (a ++ b).extractLsb' 0 8 = b := BitVec.extractLsb'_append_eq_right
  have hhi : (a ++ b).extractLsb' 8 8 = a := BitVec.extractLsb'_append_eq_left
  unfold swap16
  rw [hlo, hhi]

lemma extract_append32 (a b c d : BitVec 8) :
    (a ++ b ++ c ++ d).extractLsb' 0 8 = d ∧ (a ++ b ++ c ++ d).extractLsb' 8 8 = c ∧
    (a ++ b ++ c ++ d).extractLsb' 16 8 = b ∧ (a ++ b ++ c ++ d).extractLsb' 24 8 = a := by
  refine ⟨BitVec.extractLsb'_append_eq_right, ?_, ?_, ?_⟩
  · exact (BitVec.extractLsb'_append_eq_of_le (by decide)).trans BitVec.extractLsb'_append_eq_right
  · exact (BitVec.extractLsb'_append_eq_of_le (by decide)).trans
      ((BitVec.extractLsb'_append_eq_of_le (by decide)).trans BitVec.extractLsb'_append_eq_right)
  · exact (BitVec.extractLsb'_append_eq_of_le (by decide)).trans
      ((BitVec.extractLsb'_append_eq_of_le (by decide)).trans BitVec.extractLsb'_append_eq_left)

@[simp] lemma swap16_swap16 (x : BitVec 16) : swap16 (swap16 x) = x := by
  rw [show swap16 x = x.extractLsb' 0 8 ++ x.extractLsb' 8 8 from rfl, swap16_append,
    append_extract16]

/-! ## Bytes at an address -/

/-- The bytes from `o` on are `l`. -/
def Starts (m : Nat → BitVec 8) (o : Nat) (l : List (BitVec 8)) : Prop :=
  ∀ i b, l[i]? = some b → m (o + i) = b

section

variable {m : Nat → BitVec 8} {o : Nat} {l l' : List (BitVec 8)}

@[simp] lemma starts_nil : Starts m o [] := by simp [Starts]

@[simp] lemma starts_cons {b : BitVec 8} : Starts m o (b :: l) ↔ m o = b ∧ Starts m (o + 1) l := by
  constructor
  · intro h
    refine ⟨h 0 b rfl, fun i c hc => ?_⟩
    rw [Nat.add_right_comm]
    exact h (i + 1) c (by simpa using hc)
  · rintro ⟨hb, hl⟩ i c hc
    cases i with
    | zero =>
      cases hc
      exact hb
    | succ i =>
      rw [← Nat.add_assoc, Nat.add_right_comm]
      exact hl i c (by simpa using hc)

@[simp] lemma starts_append : Starts m o (l ++ l') ↔ Starts m o l ∧ Starts m (o + l.length) l' := by
  induction l generalizing o with
  | nil => simp
  | cons b l ih =>
    rw [List.cons_append, starts_cons, starts_cons, ih, List.length_cons, and_assoc,
      Nat.add_right_comm, Nat.add_assoc]

lemma Starts.reads16 {x : BitVec 16} (h : Starts m o (bytes16 x)) : read16 m o = x := by
  simp only [bytes16, starts_cons, starts_nil, and_true] at h
  rw [read16, h.1, h.2, append_extract16]

lemma Starts.reads32 {x : BitVec 32} (h : Starts m o (bytes32 x)) : read32 m o = x := by
  simp only [bytes32, starts_cons, starts_nil, and_true] at h
  obtain ⟨h0, h1, h2, h3⟩ := h
  rw [read32, h0, h1, h2, h3, append_extract32]

end

end VortexOS.Lib
