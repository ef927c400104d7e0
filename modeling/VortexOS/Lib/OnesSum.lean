/-
VortexOS.Lib.OnesSum — the ones' complement sum of 16-bit words.

Two words are added with end-around carry. The sum of a list of words is
then its ordinary sum modulo 65535, where a sum that is not zero has a
representative from 1 to 65535 (`onesSum_eq`). So it may be computed in a
wider accumulator that is folded at the end (`residue_fold`). `words` reads
bytes with the high byte first, and takes an odd byte at the end for one.
-/
import Mathlib

namespace VortexOS.Lib

/-- Addition with end-around carry. -/
def onesAdd (a b : Nat) : Nat := (a + b) % 65536 + (a + b) / 65536

def onesSum (ws : List Nat) : Nat := ws.foldl onesAdd 0

def words : List (BitVec 8) → List Nat
  | [] => []
  | [a] => [a.toNat * 256]
  | a :: b :: l => (a.toNat * 256 + b.toNat) :: words l

def checksum (bytes : List (BitVec 8)) : BitVec 16 := ~~~ BitVec.ofNat 16 (onesSum (words bytes))

def residue (n : Nat) : Nat := if n = 0 then 0 else (n - 1) % 65535 + 1

lemma residue_of_lt {n : Nat} (h : n < 65536) : residue n = n := by
  unfold residue
  split <;> omega

lemma residue_lt (n : Nat) : residue n < 65536 := by
  unfold residue
  split <;> omega

lemma residue_eq_zero {n : Nat} : residue n = 0 ↔ n = 0 := by
  unfold residue
  split <;> omega

lemma residue_fold (n : Nat) : residue (n % 65536 + n / 65536) = residue n := by
  unfold residue
  split <;> split <;> omega

lemma onesAdd_residue (n : Nat) {w : Nat} (hw : w < 65536) :
    onesAdd (residue n) w = residue (n + w) := by
  unfold onesAdd residue
  split <;> split <;> omega

lemma residue_complement (n : Nat) : residue (n + (65535 - residue n)) = 65535 := by
  unfold residue
  split <;> split <;> omega

lemma exists_residue {n t : Nat} (hn : n ≠ 0) (ht : t ≠ 0) (hlt : t < 65536) :
    ∃ w < 65536, residue (n + w) = t := by
  refine ⟨(t + 65535 - residue n) % 65535, by omega, ?_⟩
  unfold residue
  split <;> split <;> omega

lemma onesSum_eq {ws : List Nat} (h : ∀ w ∈ ws, w < 65536) : onesSum ws = residue ws.sum := by
  have hfold : ∀ n, ws.foldl onesAdd (residue n) = residue (n + ws.sum) := by
    induction ws with
    | nil => simp
    | cons w ws ih =>
      intro n
      rw [List.foldl_cons, onesAdd_residue n (h w List.mem_cons_self),
        ih (fun w hw => h w (List.mem_cons_of_mem _ hw)), List.sum_cons, Nat.add_assoc]
  have hzero := hfold 0
  rwa [Nat.zero_add] at hzero

lemma words_lt (bytes : List (BitVec 8)) : ∀ w ∈ words bytes, w < 65536 := by
  induction bytes using words.induct with
  | case1 => simp [words]
  | case2 a =>
    simp only [words, List.mem_singleton, forall_eq]
    have := a.isLt
    omega
  | case3 a b l ih =>
    simp only [words, List.mem_cons, forall_eq_or_imp]
    refine ⟨?_, ih⟩
    have := a.isLt
    have := b.isLt
    omega

lemma words_length (l : List (BitVec 8)) : (words l).length = (l.length + 1) / 2 := by
  induction l using words.induct with
  | case1 => rfl
  | case2 a => simp [words]
  | case3 a b l ih =>
    simp only [words, List.length_cons, ih]
    omega

lemma words_append {l : List (BitVec 8)} (h : l.length % 2 = 0) (l' : List (BitVec 8)) :
    words (l ++ l') = words l ++ words l' := by
  induction l using words.induct with
  | case1 => rfl
  | case2 a => simp at h
  | case3 a b l ih =>
    simp only [List.length_cons] at h
    simp only [List.cons_append, words, ih (by omega)]

lemma sum_words_eq_zero {l : List (BitVec 8)} : (words l).sum = 0 ↔ ∀ b ∈ l, b = 0#8 := by
  have hzero : ∀ b : BitVec 8, b = 0#8 ↔ b.toNat = 0 := fun b => BitVec.toNat_inj.symm
  induction l using words.induct with
  | case1 => simp [words]
  | case2 a =>
    rw [words, List.sum_singleton, List.forall_mem_singleton, hzero]
    omega
  | case3 a b l ih =>
    rw [words, List.sum_cons, List.forall_mem_cons, List.forall_mem_cons, hzero, hzero,
      Nat.add_eq_zero_iff, ← and_assoc]
    exact and_congr (by omega) ih

lemma checksum_eq (bytes : List (BitVec 8)) :
    checksum bytes = ~~~ BitVec.ofNat 16 (residue (words bytes).sum) := by
  rw [checksum, onesSum_eq (words_lt bytes)]

end VortexOS.Lib
