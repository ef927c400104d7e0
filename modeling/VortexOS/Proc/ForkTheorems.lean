/-
VortexOS.Proc.ForkTheorems — what a failed `fork` leaves behind.

`fork` allocates in this order: the record of the child, the top table of
its address space, the address-space object, the tables below, a thread.
From the top table on a failure keeps pages: `vmm_create_address_space` does
not free its table and `vmm_destroy_address_space` is empty. A slab that
`kmalloc` makes stays a slab, so pages are counted by `loosePages`.
-/
import VortexOS.Proc.ProcessTheorems

namespace VortexOS.Proc

open Lib Mm Sched Arch

section

variable {S : Set Nat} {k k' : Kernel} {a : AHeap} {fl : Nat → List Nat} {held : Set Block}
  {l : List Nat} {parent root : Nat}

lemma kthreadCreate_none {priority : Nat} (hcall : kthreadCreate priority k = some (none, k')) :
    k' = k := by
  unfold kthreadCreate at hcall
  split at hcall
  · cases hcall
    rfl
  · rename_i hidx
    split at hcall
    · cases hcall
    · simp only [Sched.kthreadCreate, allocTcb, if_neg hidx] at hcall
      split at hcall <;> simp at hcall

end

/-! ## A machine with three pages -/

end VortexOS.Proc
