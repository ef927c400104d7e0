/-
VortexOS.Mm.HeapAbstract — the slab allocator without its memory.

`AHeap` keeps what the words of memory stand for: the slab pages on each
list, the free objects of each slab in the order of its free list, and the
cache a slab belongs to. `AHeap.kmalloc` and `AHeap.kfree` read no memory,
so nothing a client writes can have an influence. `HeapRep` is the
refinement relation between memory and an abstract heap.
-/
import VortexOS.Mm.HeapLists
import VortexOS.Mm.PmmTheorems

namespace VortexOS.Mm

open Function Lib

structure AHeap where
  pmm : Pmm
  /-- The slab pages on each list of each cache. -/
  lists : Nat → SlabList → List Nat
  /-- The free objects of a slab page. -/
  free : Nat → List Nat
  cacheOf : Nat → Nat

namespace AHeap

def hhdm (a : AHeap) : Nat := a.pmm.kHhdmOffset

def slabs (a : AHeap) : Set Nat := {f | ∃ i l, f ∈ a.lists i l}

end AHeap

def objects (hhdm i f : Nat) : List Nat :=
  (List.range (slabCapacity i)).map fun k => pagePtr hhdm f + sizeofSlab + k * objectSize i

/-! ## Operations -/

namespace AHeap

def move (i f : Nat) (l k : SlabList) (a : AHeap) : AHeap :=
  let lists := setList a.lists i l ((a.lists i l).erase f)
  { a with lists := setList lists i k (f :: lists i k) }

def setFree (f : Nat) (objs : List Nat) (a : AHeap) : AHeap :=
  { a with free := update a.free f objs }

def take (i f : Nat) (a : AHeap) : Nat × AHeap :=
  let rest := (a.free f).tail
  let a' := a.setFree f rest
  ((a.free f).headD 0, if rest = [] then a'.move i f .partly .full else a')

/-- Page `f`, just taken from the page allocator, becomes a slab of cache
`i` on the list of partly used slabs. -/
def insert (i f : Nat) (pmm : Pmm) (a : AHeap) : AHeap where
  pmm := pmm.modFrame f fun g => { g with privateData := pagePtr a.hhdm f }
  lists := setList a.lists i .partly (f :: a.lists i .partly)
  free := update a.free f (objects a.hhdm i f)
  cacheOf := update a.cacheOf f i

def create (i : Nat) (a : AHeap) : Option (Option Nat × AHeap) :=
  match pmmAllocPage a.pmm with
  | none => none
  | some (phys, pmm) =>
    if phys = 0 then some (none, { a with pmm := pmm })
    else some (some (physToPfn phys), a.insert i (physToPfn phys) pmm)

def getSlab (i : Nat) (a : AHeap) : Option (Option Nat × AHeap) :=
  match (a.lists i .partly).head?, (a.lists i .empty).head? with
  | some f, _ => some (some f, a)
  | none, some f => some (some f, a.move i f .empty .partly)
  | none, none => a.create i

def kmalloc (size : Nat) (a : AHeap) : Option (Nat × AHeap) :=
  if size = 0 then some (0, a)
  else
    match findCache size with
    | none =>
      (pmmAllocPages (add64 size (pageSize - 1) / pageSize) a.pmm).map fun (phys, pmm) =>
        (if phys = 0 then 0 else add64 phys a.hhdm, { a with pmm := pmm })
    | some i =>
      (a.getSlab i).map fun (slab, a) =>
        match slab with
        | none => (0, a)
        | some f => a.take i f

def put (f ptr : Nat) (a : AHeap) : AHeap :=
  let i := a.cacheOf f
  let objs := ptr :: a.free f
  let a := a.setFree f objs
  let a := if objs.length = 1 then a.move i f .full .partly else a
  if objs.length ≥ slabCapacity i then a.move i f .partly .empty else a

def kfree (ptr : Nat) (a : AHeap) : AHeap :=
  if ptr = 0 then a
  else
    let phys := sub64 ptr a.hhdm
    match pmmGetFrame phys a.pmm with
    | none => a
    | some pfn =>
      let frame := a.pmm.kFrames pfn
      if frame.privateData ≠ 0 then a.put pfn ptr
      else { a with pmm := pmmFreePages phys (2 ^ frame.order) a.pmm }

section

variable {a : AHeap} {i f g : Nat} {objs : List Nat} {pmm : Pmm}

lemma setFree_free_self : (a.setFree f objs).free f = objs := update_self _ _ _

lemma setFree_free_of_ne (h : g ≠ f) : (a.setFree f objs).free g = a.free g :=
  update_of_ne h _ _

lemma insert_free_self : (a.insert i f pmm).free f = objects a.hhdm i f := update_self _ _ _

lemma insert_free_of_ne (h : g ≠ f) : (a.insert i f pmm).free g = a.free g :=
  update_of_ne h _ _

lemma insert_cacheOf_self : (a.insert i f pmm).cacheOf f = i := update_self _ _ _

lemma insert_cacheOf_of_ne (h : g ≠ f) : (a.insert i f pmm).cacheOf g = a.cacheOf g :=
  update_of_ne h _ _

end

end AHeap

/-! ## The refinement relation -/

/-- `w` points at the first object of the free list `objs`. -/
def FreeChain (m : WordMem) (hhdm : Nat) : BitVec 64 → List Nat → Prop
  | w, [] => w = 0
  | w, o :: os => w = BitVec.ofNat 64 o ∧ FreeChain m hhdm (m (sub64 o hhdm / 8)) os

structure SlabRep (m : WordMem) (hhdm f i : Nat) (objs : List Nat) : Prop where
  chain : FreeChain m hhdm (m (f * 512)) objs
  count : lo32 (m (f * 512 + 1)) = objs.length
  cache : m (f * 512 + 4) = BitVec.ofNat 64 i

/-- Memory represents the abstract heap. -/
structure HeapRep (s : Kmem) (a : AHeap) : Prop where
  pmm : s.pmm = a.pmm
  lists : ∃ L, ListsRep s L a.slabs a.lists
  slab : ∀ f ∈ a.slabs, SlabRep s.mem a.hhdm f (a.cacheOf f) (a.free f)

/-! ## Invariants -/

/-- What the slabs of an abstract heap look like. -/
structure SlabsOk (a : AHeap) : Prop where
  page : ∀ f ∈ a.slabs, PageOk a.hhdm f
  nodup : ∀ i l, (a.lists i l).Nodup
  apart : ∀ f i j l k, f ∈ a.lists i l → f ∈ a.lists j k → i = j ∧ l = k
  cache : ∀ i l f, f ∈ a.lists i l → i < numCaches ∧ a.cacheOf f = i
  objNodup : ∀ f ∈ a.slabs, (a.free f).Nodup
  objMem : ∀ f ∈ a.slabs, ∀ o ∈ a.free f, o ∈ objects a.hhdm (a.cacheOf f) f

/-- The number of free objects of a slab on list `l`. -/
def CountOk (i n : Nat) : SlabList → Prop
  | .partly => 0 < n ∧ n < slabCapacity i
  | .full => n = 0
  | .empty => n = slabCapacity i

/-- Every slab is a page the heap holds and is marked in its frame; no
other frame is marked. -/
structure HeapBase (S : Set Nat) (a : AHeap) (fl : Nat → List Nat) (held : Set Block) : Prop
    extends SlabsOk a where
  pmmInv : PmmInv S a.pmm fl held
  zero : 0 ∉ S
  space : a.pmm.kTotalPages * pageSize + a.hhdm ≤ 2 ^ 64
  slabHeld : ∀ f ∈ a.slabs, (⟨0, f⟩ : Block) ∈ held
  marked : ∀ f ∈ a.slabs, (a.pmm.kFrames f).privateData = pagePtr a.hhdm f
  unmarked : ∀ f, f < a.pmm.kTotalPages → f ∉ a.slabs → (a.pmm.kFrames f).privateData = 0

/-- The invariant of the heap: every slab is also on the list its number
of free objects puts it on. -/
structure HeapInv (S : Set Nat) (a : AHeap) (fl : Nat → List Nat) (held : Set Block) : Prop
    extends HeapBase S a fl held where
  count : ∀ i l f, f ∈ a.lists i l → CountOk i (a.free f).length l

/-- When the heap goes from `a` to `a'`, word `w` is in no slab header and
on no new slab page. -/
def AHeap.Keeps (a a' : AHeap) (w : Nat) : Prop :=
  w / 512 ∈ a'.slabs → w / 512 ∈ a.slabs ∧ 5 ≤ w % 512

/-! ## Object addresses -/

lemma objectSize_eq : ∀ i < numCaches, objectSize i = 8 * 2 ^ i := by decide

lemma objectSize_pos {i : Nat} (hi : i < numCaches) : 0 < objectSize i := by
  rw [objectSize_eq i hi]
  exact Nat.mul_pos (by decide) (Nat.two_pow_pos i)

lemma mem_objects {hhdm i f o : Nat} (hi : i < numCaches) (ho : o ∈ objects hhdm i f) :
    ∃ k, 5 ≤ k ∧ o = pagePtr hhdm f + 8 * k ∧ 8 * k + objectSize i ≤ pageSize := by
  obtain ⟨j, hj, rfl⟩ := List.mem_map.mp ho
  rw [List.mem_range] at hj
  have hend : (j + 1) * objectSize i ≤ pageSize - sizeofSlab :=
    Nat.le_trans (Nat.mul_le_mul_right _ hj) (Nat.div_mul_le_self _ _)
  have hmul : j * objectSize i = 8 * (j * 2 ^ i) := by
    rw [objectSize_eq i hi, Nat.mul_left_comm]
  rw [Nat.add_mul, Nat.one_mul, hmul] at hend
  simp only [pageSize, sizeofSlab] at hend ⊢
  exact ⟨5 + j * 2 ^ i, by omega, by omega, by omega⟩

lemma nodup_objects {hhdm i : Nat} (hi : i < numCaches) (f : Nat) : (objects hhdm i f).Nodup := by
  refine List.nodup_range.map fun j k hjk => ?_
  have hmul : j * objectSize i = k * objectSize i := by omega
  have hpos := objectSize_pos hi
  exact Nat.eq_of_mul_eq_mul_right hpos hmul

lemma objects_apart {hhdm i f o p : Nat} (ho : o ∈ objects hhdm i f) (hp : p ∈ objects hhdm i f)
    (hne : o ≠ p) : o + objectSize i ≤ p ∨ p + objectSize i ≤ o := by
  obtain ⟨j, _, rfl⟩ := List.mem_map.mp ho
  obtain ⟨k, _, rfl⟩ := List.mem_map.mp hp
  cases Nat.lt_trichotomy j k with
  | inl hlt =>
    have hle := Nat.mul_le_mul_right (objectSize i) hlt
    rw [Nat.succ_mul] at hle
    omega
  | inr hge =>
    cases hge with
    | inl heq => exact absurd (by rw [heq]) hne
    | inr hlt =>
      have hle := Nat.mul_le_mul_right (objectSize i) hlt
      rw [Nat.succ_mul] at hle
      omega

lemma object_word {hhdm i f o : Nat} (hok : PageOk hhdm f) (hi : i < numCaches)
    (ho : o ∈ objects hhdm i f) :
    ∃ k, 5 ≤ k ∧ k < 512 ∧ o = pagePtr hhdm f + 8 * k ∧ sub64 o hhdm / 8 = f * 512 + k := by
  obtain ⟨k, h5, rfl, hend⟩ := mem_objects hi ho
  have hpos := objectSize_pos hi
  have hlt : 8 * k < pageSize := by omega
  rw [hok.sub64_ptr hlt]
  simp only [pageSize] at hlt ⊢
  exact ⟨k, h5, by omega, rfl, by omega⟩

end VortexOS.Mm
