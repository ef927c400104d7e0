/-
VortexOS.Lib.Memory — memory as aligned 64-bit words.

A memory is a function from word numbers (`address / 8`) to words. A
program's aligned word accesses are reads and updates of that function;
byte accesses are defined from them. All a proof needs to know of a store
is which word it changes, and that is in its definition.

Where only bytes are accessed, a memory is a function from addresses to
bytes, and `storeLoop` is a loop that stores one byte after the other.
-/
import VortexOS.Lib.Word

namespace VortexOS.Lib

open Function

/-- Word `i` holds the bytes `8 * i .. 8 * i + 7`. -/
abbrev WordMem := Nat → BitVec 64

def readByte (m : WordMem) (a : Nat) : BitVec 8 := (m (a / 8)).extractLsb' (8 * (a % 8)) 8

def insertByte (w : BitVec 64) (i : Nat) (b : BitVec 8) : BitVec 64 :=
  (w &&& ~~~(0xFF#64 <<< (8 * i))) ||| (b.setWidth 64 <<< (8 * i))

def writeByte (m : WordMem) (a : Nat) (b : BitVec 8) : WordMem :=
  update m (a / 8) (insertByte (m (a / 8)) (a % 8) b)

lemma writeByte_other {m : WordMem} {a w : Nat} (b : BitVec 8) (h : w ≠ a / 8) :
    writeByte m a b w = m w :=
  update_of_ne h _ _

lemma extractLsb'_insertByte (w : BitVec 64) {i : Nat} (hi : i < 8) (b : BitVec 8) :
    (insertByte w i b).extractLsb' (8 * i) 8 = b := by
  apply BitVec.eq_of_getLsbD_eq
  intro k hk
  have hbyte : (0xFF#64).getLsbD k = true := by
    have hall : ∀ k < 8, (0xFF#64).getLsbD k = true := by decide
    exact hall k hk
  have hlt : 8 * i + k < 64 := by omega
  have hge : ¬ 8 * i + k < 8 * i := by omega
  rw [BitVec.getLsbD_extractLsb', insertByte, BitVec.getLsbD_or, BitVec.getLsbD_and,
    BitVec.getLsbD_not, BitVec.getLsbD_shiftLeft, BitVec.getLsbD_shiftLeft, BitVec.getLsbD_setWidth,
    Nat.add_sub_cancel_left, hbyte]
  simp only [hk, hlt, hge, decide_true, decide_false, Bool.not_false, Bool.not_true, Bool.and_true,
    Bool.and_false, Bool.true_and, Bool.false_or]
  simp only [show k < 64 by omega, decide_true, Bool.true_and]

lemma extractLsb'_insertByte_of_ne (w : BitVec 64) {i j : Nat} (hj : j < 8) (hne : j ≠ i)
    (b : BitVec 8) : (insertByte w i b).extractLsb' (8 * j) 8 = w.extractLsb' (8 * j) 8 := by
  apply BitVec.eq_of_getLsbD_eq
  intro k hk
  have hlt : 8 * j + k < 64 := by omega
  rw [BitVec.getLsbD_extractLsb', BitVec.getLsbD_extractLsb', insertByte, BitVec.getLsbD_or,
    BitVec.getLsbD_and, BitVec.getLsbD_not, BitVec.getLsbD_shiftLeft, BitVec.getLsbD_shiftLeft,
    BitVec.getLsbD_setWidth]
  by_cases hbelow : 8 * j + k < 8 * i
  · simp [hlt, hbelow]
  · -- the byte is above the mask
    have habove : ∀ n, 8 ≤ n → (0xFF#64).getLsbD n = false := fun n hn => by
      by_cases h64 : n < 64
      · have hall : ∀ n < 64, 8 ≤ n → (0xFF#64).getLsbD n = false := by decide
        exact hall n h64 hn
      · exact BitVec.getLsbD_of_ge _ _ (Nat.le_of_not_lt h64)
    rw [habove _ (by omega), BitVec.getLsbD_of_ge b _ (by omega)]
    simp [hlt]

lemma readByte_writeByte_of_ne (m : WordMem) {a c : Nat} (b : BitVec 8) (h : c ≠ a) :
    readByte (writeByte m a b) c = readByte m c := by
  unfold readByte writeByte
  by_cases hword : c / 8 = a / 8
  · rw [hword, update_self]
    exact extractLsb'_insertByte_of_ne _ (Nat.mod_lt _ (by decide)) (by omega) b
  · rw [update_of_ne hword]

lemma readByte_writeByte (m : WordMem) (a : Nat) (b : BitVec 8) :
    readByte (writeByte m a b) a = b := by
  rw [readByte, writeByte, update_self]
  exact extractLsb'_insertByte _ (Nat.mod_lt _ (by decide)) b

def lo32 (w : BitVec 64) : Nat := w.toNat % 2 ^ 32

def setLo32 (w : BitVec 64) (v : Nat) : BitVec 64 :=
  BitVec.ofNat 64 (w.toNat / 2 ^ 32 * 2 ^ 32 + v % 2 ^ 32)

lemma lo32_setLo32 (w : BitVec 64) {v : Nat} (hv : v < 2 ^ 32) : lo32 (setLo32 w v) = v := by
  have hw := w.isLt
  simp only [lo32, setLo32, BitVec.toNat_ofNat]
  omega

/-! ## Bytes by address -/

/-- `for (; n > 0; ++i, --n) p[i] = f(i);` -/
def storeLoop (p : Nat) (f : Nat → BitVec 8) : Nat → Nat → (Nat → BitVec 8) → Nat → BitVec 8
  | 0, _, m => m
  | n + 1, i, m => storeLoop p f n (i + 1) (update m (add64 p i) (f i))

variable {p n i : Nat} {f : Nat → BitVec 8}

lemma storeLoop_apply (h : p + i + n ≤ 2 ^ 64) (m : Nat → BitVec 8) (a : Nat) :
    storeLoop p f n i m a = if p + i ≤ a ∧ a < p + i + n then f (a - p) else m a := by
  induction n generalizing i m with
  | zero => rw [storeLoop, if_neg (by omega)]
  | succ n ih =>
    rw [storeLoop, ih (by omega), add64_of_lt (by omega)]
    by_cases ha : a = p + i
    · subst ha
      rw [if_neg (by omega), if_pos (by omega), update_self, Nat.add_sub_cancel_left]
    · rw [update_of_ne ha]
      by_cases hin : p + i ≤ a ∧ a < p + i + (n + 1)
      · rw [if_pos hin, if_pos (by omega)]
      · rw [if_neg hin, if_neg (by omega)]

/-! A loop may also wrap around the address space. -/

lemma storeLoop_miss {a : Nat} (m : Nat → BitVec 8) (h : ∀ k, i ≤ k → k < i + n → add64 p k ≠ a) :
    storeLoop p f n i m a = m a := by
  induction n generalizing i m with
  | zero => rfl
  | succ n ih =>
    rw [storeLoop, ih _ fun k hi hk => h k (by omega) (by omega)]
    exact update_of_ne (Ne.symm (h i (Nat.le_refl i) (by omega))) _ _

lemma storeLoop_hit {k : Nat} (m : Nat → BitVec 8) (hn : n ≤ 2 ^ 64) (hi : i ≤ k) (hk : k < i + n) :
    storeLoop p f n i m (add64 p k) = f k := by
  induction n generalizing i m with
  | zero => omega
  | succ n ih =>
    rw [storeLoop]
    by_cases heq : k = i
    · -- the rounds behind it store elsewhere
      subst heq
      rw [storeLoop_miss _ fun j hj hlt => ?_, update_self]
      unfold add64
      omega
    · exact ih _ (by omega) (by omega) (by omega)

lemma storeLoop_const {a : Nat} {b : BitVec 8} {m : Nat → BitVec 8} (h : m a = b) :
    storeLoop p (fun _ => b) n i m a = b := by
  induction n generalizing i m with
  | zero => exact h
  | succ n ih =>
    refine ih ?_
    by_cases ha : a = add64 p i
    · rw [ha, update_self]
    · rw [update_of_ne ha, h]

end VortexOS.Lib
