/-
VortexOS.Mm.VmmTables — entries and tables.

What the MMU makes of an entry is its frame and its flags; `entryAt m f i`
is slot `i` of the table on page `f`, by physical address. The kernel's
accesses through the direct map are stated in these terms here
(`Kmem.entry_page`, `Kmem.setEntry_page`, `Kmem.tablePtr_eq`), so that
later proofs speak of pages and never of pointers.
-/
import VortexOS.Lib.Radix
import VortexOS.Mm.HeapLists
import VortexOS.Mm.PmmTheorems
import VortexOS.Mm.Vmm

namespace VortexOS.Mm

open Function Lib

variable {e : BitVec 64} {f k p g i j : Nat} {s : Kmem}

/-! ## Entries -/

def frameOf (e : BitVec 64) : Nat := physToPfn (e &&& addrMask).toNat

def isWrite (e : BitVec 64) : Bool := e &&& pageWrite != 0

def isUser (e : BitVec 64) : Bool := e &&& pageUser != 0

def nextFrame (e : BitVec 64) : Option Nat := if present e then some (frameOf e) else none

/-- Where the walk of a user-mode write goes on. -/
def nextWritable (e : BitVec 64) : Option Nat :=
  if present e && isWrite e && isUser e then some (frameOf e) else none

section

variable (e : BitVec 64)

lemma and_flag (k : Nat) (hk : k < 64) : (e &&& 1#64 <<< k != 0) = e.getLsbD k := by
  have htwo : e &&& 1#64 <<< k = if e.getLsbD k then BitVec.twoPow 64 k else 0#64 :=
    BitVec.and_twoPow e k
  have hne : BitVec.twoPow 64 k ≠ 0#64 := by
    intro heq
    have hbit := congrArg (BitVec.getLsbD · k) heq
    simp [hk] at hbit
  rw [htwo]
  cases e.getLsbD k with
  | false => rfl
  | true => simpa using hne

lemma present_eq : present e = e.getLsbD 0 := and_flag e 0 (by decide)

lemma isWrite_eq : isWrite e = e.getLsbD 1 := and_flag e 1 (by decide)

lemma isUser_eq : isUser e = e.getLsbD 2 := and_flag e 2 (by decide)

lemma and_addrMask_toNat : (e &&& addrMask).toNat = e.toNat / 2 ^ 12 % 2 ^ 40 * 2 ^ 12 := by
  have hmask : addrMask.toNat = (2 ^ 40 - 1) <<< 12 := by decide
  rw [BitVec.toNat_and, hmask, ← Nat.shiftLeft_eq, ← Nat.shiftRight_eq_div_pow]
  apply Nat.eq_of_testBit_eq
  intro i
  simp only [Nat.testBit_and, Nat.testBit_shiftLeft, Nat.testBit_mod_two_pow,
    Nat.testBit_two_pow_sub_one, Nat.testBit_shiftRight]
  by_cases h : 12 ≤ i
  · simp [h, Bool.and_comm]
  · simp [h]

lemma and_addrMask_eq : (e &&& addrMask).toNat = pfnToPhys (frameOf e) := by
  rw [frameOf, and_addrMask_toNat, physToPfn, pfnToPhys, pageShift, Nat.shiftRight_eq_div_pow,
    Nat.shiftLeft_eq, Nat.mul_div_cancel _ (by decide)]

lemma frameOf_lt : frameOf e < 2 ^ 40 := by
  rw [frameOf, and_addrMask_toNat, physToPfn, pageShift, Nat.shiftRight_eq_div_pow]
  omega

end

lemma frameOf_congr {e' : BitVec 64} (h : e &&& addrMask = e' &&& addrMask) :
    frameOf e = frameOf e' := by
  rw [frameOf, frameOf, h]

lemma frameOf_or (e : BitVec 64) {x : BitVec 64} (hx : x &&& addrMask = 0) :
    frameOf (e ||| x) = frameOf e := by
  apply frameOf_congr
  rw [BitVec.and_or_distrib_right, hx]
  simp

@[simp] lemma frameOf_and_addrMask (e : BitVec 64) : frameOf (e &&& addrMask) = frameOf e := by
  apply frameOf_congr
  rw [BitVec.and_assoc, BitVec.and_self]

lemma frameOf_phys (hf : f < 2 ^ 40) : frameOf (BitVec.ofNat 64 (pfnToPhys f)) = f := by
  rw [frameOf, and_addrMask_toNat, pfnToPhys, physToPfn, pageShift, BitVec.toNat_ofNat,
    Nat.shiftLeft_eq, Nat.shiftRight_eq_div_pow]
  omega

lemma getLsbD_phys (f : Nat) (hk : k < 12) : (BitVec.ofNat 64 (pfnToPhys f)).getLsbD k = false := by
  rw [BitVec.getLsbD_ofNat, pfnToPhys, pageShift, Nat.testBit_shiftLeft]
  simp [Nat.not_le.mpr hk]

@[simp] lemma getLsbD_pagePresent (k : Nat) : pagePresent.getLsbD k = decide (k = 0) := by
  rw [pagePresent, ← BitVec.twoPow, BitVec.getLsbD_twoPow]
  simp [eq_comm]

@[simp] lemma getLsbD_pageWrite (k : Nat) : pageWrite.getLsbD k = decide (k = 1) := by
  rw [pageWrite, ← BitVec.twoPow, BitVec.getLsbD_twoPow]
  simp [eq_comm]

@[simp] lemma getLsbD_pageUser (k : Nat) : pageUser.getLsbD k = decide (k = 2) := by
  rw [pageUser, ← BitVec.twoPow, BitVec.getLsbD_twoPow]
  simp [eq_comm]

/-! ### Write protection -/

@[simp] lemma present_protect (e : BitVec 64) : present (e &&& ~~~pageWrite) = present e := by
  rw [present_eq, present_eq, BitVec.getLsbD_and, BitVec.getLsbD_not, getLsbD_pageWrite]
  simp

@[simp] lemma isWrite_protect (e : BitVec 64) : isWrite (e &&& ~~~pageWrite) = false := by
  rw [isWrite_eq, BitVec.getLsbD_and, BitVec.getLsbD_not, getLsbD_pageWrite]
  simp

@[simp] lemma frameOf_protect (e : BitVec 64) : frameOf (e &&& ~~~pageWrite) = frameOf e := by
  apply frameOf_congr
  rw [BitVec.and_assoc]
  congr 1

@[simp] lemma nextFrame_protect (e : BitVec 64) : nextFrame (e &&& ~~~pageWrite) = nextFrame e := by
  simp [nextFrame]

lemma protect_protect (e : BitVec 64) :
    e &&& ~~~pageWrite &&& ~~~pageWrite = e &&& ~~~pageWrite := by
  rw [BitVec.and_assoc, BitVec.and_self]

/-! ### Entries the kernel writes -/

lemma nextFrame_newTable (hf : f < 2 ^ 40) :
    nextFrame (BitVec.ofNat 64 (pfnToPhys f) ||| pagePresent ||| pageWrite ||| pageUser) =
      some f := by
  have hframe : frameOf (BitVec.ofNat 64 (pfnToPhys f) ||| pagePresent ||| pageWrite ||| pageUser)
      = f := by
    rw [frameOf_or _ (by decide), frameOf_or _ (by decide), frameOf_or _ (by decide),
      frameOf_phys hf]
  rw [nextFrame, hframe]
  simp [present_eq]

/-- The entry that `copy_page_table_level` writes for a new table `f` in
place of `e`. -/
def copiedEntry (f : Nat) (e : BitVec 64) : BitVec 64 :=
  BitVec.ofNat 64 (pfnToPhys f) ||| (e &&& 0xFFF#64)

lemma frameOf_copiedEntry (hf : f < 2 ^ 40) (e : BitVec 64) : frameOf (copiedEntry f e) = f := by
  rw [copiedEntry, frameOf_or, frameOf_phys hf]
  rw [BitVec.and_assoc, show 0xFFF#64 &&& addrMask = 0 from by decide]
  simp

lemma getLsbD_copiedEntry (f : Nat) (e : BitVec 64) (hk : k < 12) :
    (copiedEntry f e).getLsbD k = e.getLsbD k := by
  have hlow : (0xFFF#64).getLsbD k = true := by
    have hall : ∀ k < 12, (0xFFF#64).getLsbD k = true := by decide
    exact hall k hk
  rw [copiedEntry, BitVec.getLsbD_or, getLsbD_phys f hk, BitVec.getLsbD_and, hlow]
  simp

lemma nextFrame_copiedEntry (hf : f < 2 ^ 40) (he : present e = true) :
    nextFrame (copiedEntry f e) = some f := by
  rw [present_eq] at he
  rw [nextFrame, present_eq, getLsbD_copiedEntry f e (by decide), frameOf_copiedEntry hf, he]
  rfl

lemma nextFrame_eq_some : nextFrame e = some f ↔ present e = true ∧ frameOf e = f := by
  unfold nextFrame
  split <;> simp_all

lemma nextFrame_eq_none : nextFrame e = none ↔ present e = false := by
  unfold nextFrame
  split <;> simp_all

lemma nextFrame_of_nextWritable (h : nextWritable e = some f) :
    nextFrame e = some f ∧ isWrite e = true ∧ isUser e = true := by
  unfold nextWritable at h
  split at h
  · rename_i hbits
    simp only [Bool.and_eq_true] at hbits
    exact ⟨nextFrame_eq_some.mpr ⟨hbits.1.1, Option.some.inj h⟩, hbits.1.2, hbits.2⟩
  · cases h

/-! ## Tables in memory -/

def entryAt (m : WordMem) (f i : Nat) : BitVec 64 := m (f * 512 + i)

section

variable {s : Kmem} {hhdm f i : Nat}

section

variable (hs : s.hhdm = hhdm) (hok : PageOk hhdm f) (hi : i < 512)
include hs hok hi

lemma Kmem.wordAt_entry : s.wordAt (pagePtr hhdm f + 8 * i) = f * 512 + i := by
  rw [Kmem.wordAt_ptr hs hok (by simp only [pageSize]; omega)]
  omega

lemma Kmem.entry_page : s.entry (pagePtr hhdm f) i = entryAt s.mem f i := by
  rw [Kmem.entry, Kmem.wordAt_entry hs hok hi]
  rfl

lemma Kmem.setEntry_page (e : BitVec 64) :
    s.setEntry (pagePtr hhdm f) i e = { s with mem := update s.mem (f * 512 + i) e } := by
  rw [Kmem.setEntry, Kmem.wordAt_entry hs hok hi]

end

/-- With the direct map at `hhdm`, page `f` is at `p`. -/
def PointsTo (hhdm p f : Nat) : Prop :=
  ∀ s : Kmem, s.hhdm = hhdm → ∀ i < 512, s.wordAt (p + 8 * i) = f * 512 + i

lemma PageOk.pointsTo (hok : PageOk hhdm f) : PointsTo hhdm (pagePtr hhdm f) f :=
  fun _ hs _ hi => Kmem.wordAt_entry hs hok hi

/-- Page 0 included, and even where the direct map wraps around. -/
lemma pointsTo_phys (hh : hhdm ≤ 2 ^ 64) (hf : f < 2 ^ 52) :
    PointsTo hhdm (add64 (pfnToPhys f) hhdm) f := by
  intro s hs i hi
  rw [Kmem.wordAt, hs, sub64, add64, pfnToPhys, pageShift, Nat.shiftLeft_eq]
  omega

lemma PageOk.lt (hok : PageOk hhdm f) : f < 2 ^ 52 ∧ hhdm ≤ 2 ^ 64 := by
  have hspace := hok.space
  simp only [pageSize] at hspace
  omega

lemma PointsTo.entry (hp : PointsTo hhdm p f) (hs : s.hhdm = hhdm) (hi : i < 512) :
    s.entry p i = entryAt s.mem f i := by
  rw [Kmem.entry, hp s hs i hi]
  rfl

lemma PointsTo.setEntry (hp : PointsTo hhdm p f) (hs : s.hhdm = hhdm) (hi : i < 512)
    (e : BitVec 64) : s.setEntry p i e = { s with mem := update s.mem (f * 512 + i) e } := by
  rw [Kmem.setEntry, hp s hs i hi]

lemma Kmem.tablePtr_eq (hs : s.hhdm = hhdm) (hok : PageOk hhdm (frameOf e)) :
    s.tablePtr e = pagePtr hhdm (frameOf e) := by
  rw [Kmem.tablePtr, and_addrMask_eq, hs, hok.add64_phys]

@[simp] lemma Kmem.setEntry_hhdm (table i : Nat) (e : BitVec 64) :
    (s.setEntry table i e).hhdm = s.hhdm := rfl

end

lemma slot_ne (hi : i < 512) (hj : j < 512) (h : ¬ (g = f ∧ j = i)) :
    g * 512 + j ≠ f * 512 + i := by
  omega

lemma entryAt_update_self (m : WordMem) (f i : Nat) (e : BitVec 64) :
    entryAt (update m (f * 512 + i) e) f i = e :=
  update_self _ _ _

lemma entryAt_update_of_ne {m : WordMem} (e : BitVec 64) (hi : i < 512) (hj : j < 512)
    (h : ¬ (g = f ∧ j = i)) : entryAt (update m (f * 512 + i) e) g j = entryAt m g j :=
  update_of_ne (slot_ne hi hj h) _ _

/-! ## Loops over a table -/

/-- A state after stores to the words in `W`. -/
structure StoresTo (W : Set Nat) (s s' : Kmem) : Prop where
  pmm : s'.pmm = s.pmm
  kCaches : s'.kCaches = s.kCaches
  mem : ∀ w ∉ W, s'.mem w = s.mem w

namespace StoresTo

variable {W V : Set Nat} {s' s'' : Kmem}

lemma refl (W : Set Nat) (s : Kmem) : StoresTo W s s := ⟨rfl, rfl, fun _ _ => rfl⟩

lemma trans (h : StoresTo W s s') (h' : StoresTo W s' s'') : StoresTo W s s'' :=
  ⟨h'.pmm.trans h.pmm, h'.kCaches.trans h.kCaches, fun w hw => (h'.mem w hw).trans (h.mem w hw)⟩

lemma mono (h : StoresTo W s s') (hsub : W ⊆ V) : StoresTo V s s' :=
  ⟨h.pmm, h.kCaches, fun w hw => h.mem w fun hin => hw (hsub hin)⟩

lemma hhdm (h : StoresTo W s s') : s'.hhdm = s.hhdm := congrArg Pmm.kHhdmOffset h.pmm

end StoresTo

def slotWords (f : Nat) (is : List Nat) : Set Nat := {w | w / 512 = f ∧ w % 512 ∈ is}

lemma storesTo_setEntry {hhdm : Nat} (hs : s.hhdm = hhdm) (hp : PointsTo hhdm p f) (hi : i < 512)
    (e : BitVec 64) : StoresTo (slotWords f [i]) s (s.setEntry p i e) := by
  rw [hp.setEntry hs hi]
  refine ⟨rfl, rfl, fun w hw => update_of_ne ?_ _ _⟩
  intro heq
  apply hw
  constructor
  · omega
  · have hmod : w % 512 = i := by omega
    simp [hmod]

lemma storesTo_foldl {hhdm : Nat} (hp : PointsTo hhdm p f) (v : Kmem → Nat → BitVec 64) :
    ∀ (is : List Nat) (s : Kmem), s.hhdm = hhdm → (∀ i ∈ is, i < 512) →
    StoresTo (slotWords f is) s (is.foldl (fun s i => s.setEntry p i (v s i)) s) := by
  intro is
  induction is with
  | nil =>
    intro s _ _
    exact .refl _ s
  | cons i is ih =>
    intro s hs hlt
    have hone := storesTo_setEntry hs hp (hlt i (by simp)) (v s i)
    have hrest := ih (s.setEntry p i (v s i)) hs fun j hj => hlt j (by simp [hj])
    have hhead : slotWords f [i] ⊆ slotWords f (i :: is) := fun w hw =>
      ⟨hw.1, List.mem_cons.mpr (Or.inl (List.mem_singleton.mp hw.2))⟩
    have htail : slotWords f is ⊆ slotWords f (i :: is) := fun w hw =>
      ⟨hw.1, List.mem_cons_of_mem _ hw.2⟩
    exact (hone.mono hhead).trans (hrest.mono htail)

lemma copyEntries_stores {hhdm : Nat} (hs : s.hhdm = hhdm) (hp : PointsTo hhdm p f) {is : List Nat}
    (hlt : ∀ i ∈ is, i < 512) (src : Nat) : StoresTo (slotWords f is) s (s.copyEntries is src p) :=
  storesTo_foldl hp (fun s i => s.entry src i) is s hs hlt

lemma copyPage_stores (hh : s.hhdm ≤ 2 ^ 64) (hg : g < 2 ^ 52) (src : Nat) :
    StoresTo {w | w / 512 = g} s
    (s.copyEntries (List.range 512) src (add64 (pfnToPhys g) s.hhdm)) :=
  (copyEntries_stores rfl (pointsTo_phys hh hg) (fun _ hi => List.mem_range.mp hi) src).mono
    fun _ hw => hw.1

lemma zeroTable_spec {hhdm : Nat} (hs : s.hhdm = hhdm) (hok : PageOk hhdm f) :
    StoresTo (slotWords f (List.range 512)) s (s.zeroTable (pagePtr hhdm f)) ∧
    ∀ i < 512, entryAt (s.zeroTable (pagePtr hhdm f)).mem f i = 0 := by
  refine ⟨storesTo_foldl hok.pointsTo (fun _ _ => 0) _ s hs fun i hi => List.mem_range.mp hi, ?_⟩
  -- a slot that is zero stays zero, so the last store to it decides
  have hloop : ∀ (is : List Nat) (s : Kmem), s.hhdm = hhdm → (∀ i ∈ is, i < 512) →
      ∀ j < 512, (j ∈ is ∨ entryAt s.mem f j = 0) →
        entryAt (is.foldl (fun s i => s.setEntry (pagePtr hhdm f) i 0) s).mem f j = 0 := by
    intro is
    induction is with
    | nil =>
      intro s _ _ j _ hj
      simpa using hj
    | cons i is ih =>
      intro s hs hlt j hj512 hj
      have hi : i < 512 := hlt i (by simp)
      rw [List.foldl_cons]
      refine ih (s.setEntry (pagePtr hhdm f) i 0) hs (fun k hk => hlt k (by simp [hk])) j hj512 ?_
      rw [Kmem.setEntry_page hs hok hi]
      by_cases hji : j = i
      · exact Or.inr (hji ▸ entryAt_update_self _ _ _ _)
      · rw [entryAt_update_of_ne 0 hi hj512 fun heq => hji heq.2]
        simpa [hji] using hj
  exact fun i hi => hloop _ s hs (fun k hk => List.mem_range.mp hk) i hi
    (Or.inl (List.mem_range.mpr hi))

lemma copyEntries_page {hhdm src dst : Nat} (hs : s.hhdm = hhdm) (hsrc : PointsTo hhdm src f)
    (hdst : PointsTo hhdm dst g) (hne : f ≠ g) (hi : i < 512) :
    entryAt (s.copyEntries (List.range 512) src dst).mem g i = entryAt s.mem f i := by
  -- the source does not change, and a slot is done or still to come
  have hloop : ∀ (is : List Nat) (s' : Kmem), s'.hhdm = hhdm → (∀ i ∈ is, i < 512) →
      (∀ j < 512, entryAt s'.mem f j = entryAt s.mem f j) →
      ∀ j < 512, (j ∈ is ∨ entryAt s'.mem g j = entryAt s.mem f j) →
        entryAt (s'.copyEntries is src dst).mem g j = entryAt s.mem f j := by
    intro is
    induction is with
    | nil =>
      intro s' _ _ _ j _ hj
      simpa [Kmem.copyEntries] using hj
    | cons i is ih =>
      intro s' hs' hlt hkeep j hj512 hj
      have hi : i < 512 := hlt i (by simp)
      show entryAt (Kmem.copyEntries is _ _ (s'.setEntry _ i (s'.entry _ i))).mem g j = _
      rw [hsrc.entry hs' hi, hdst.setEntry hs' hi, hkeep i hi]
      apply ih
      · exact hs'
      · exact fun k hk => hlt k (by simp [hk])
      · intro k hk
        rw [entryAt_update_of_ne _ hi hk fun heq => hne heq.1]
        exact hkeep k hk
      · exact hj512
      · by_cases hji : j = i
        · exact Or.inr (hji ▸ entryAt_update_self _ _ _ _)
        · rw [entryAt_update_of_ne _ hi hj512 fun heq => hji heq.2]
          simpa [hji] using hj
  exact hloop _ s hs (fun k hk => List.mem_range.mp hk) (fun _ _ => rfl) i hi
    (Or.inl (List.mem_range.mpr hi))

end VortexOS.Mm
