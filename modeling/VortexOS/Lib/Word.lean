/-
VortexOS.Lib.Word — 64-bit unsigned arithmetic on natural numbers.

Addresses and sizes are modelled as natural numbers below `2 ^ 64`. The
two operations whose wrap-around a caller can observe are named here; all
other arithmetic of the models stays below the bound and is plain `Nat`.
-/
import Mathlib

namespace VortexOS.Lib

def add64 (a b : Nat) : Nat := (a + b) % 2 ^ 64

def sub64 (a b : Nat) : Nat := (a + (2 ^ 64 - b)) % 2 ^ 64

lemma add64_lt (a b : Nat) : add64 a b < 2 ^ 64 := Nat.mod_lt _ (by decide)

lemma add64_of_lt {a b : Nat} (h : a + b < 2 ^ 64) : add64 a b = a + b :=
  Nat.mod_eq_of_lt h

lemma add64_add64 (a b c : Nat) : add64 (add64 a b) c = add64 a (b + c) := by
  unfold add64
  omega

lemma sub64_of_le {a b : Nat} (ha : a < 2 ^ 64) (h : b ≤ a) : sub64 a b = a - b := by
  unfold sub64
  omega

/-- Subtracting the offset that was added gives the address back, also
when the sum wrapped. -/
lemma sub64_add64 {a b : Nat} (ha : a < 2 ^ 64) (hb : b < 2 ^ 64) : sub64 (add64 a b) b = a := by
  unfold sub64 add64
  omega

end VortexOS.Lib
