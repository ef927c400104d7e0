/-
VortexOS.Mm.HeapTheorems — `kmalloc` and `kfree`.

An object is `Handed` out when it is one of its slab's objects and not on
the slab's free list. `kmalloc_spec` and `kfree_spec` say that the two
functions refine their abstract versions, keep the invariant of the heap,
and what they do to the set of objects handed out and to the page blocks
the heap holds. They also bound the words that change: those of slab pages.
-/
import VortexOS.Mm.HeapSlabs

namespace VortexOS.Mm

open Lib

/-! ## Objects handed out -/

/-- Object `p` of slab `f` is in a client's hands. -/
structure AHeap.Handed (a : AHeap) (f p : Nat) : Prop where
  slab : f ∈ a.slabs
  object : p ∈ objects a.hhdm (a.cacheOf f) f
  taken : p ∉ a.free f

def AHeap.slabBlocks (a : AHeap) : Set Block := {b | ∃ f ∈ a.slabs, b = ⟨0, f⟩}

section

variable {S : Set Nat} {a : AHeap} {fl : Nat → List Nat} {held : Set Block} {i f o ptr : Nat}
  {l k : SlabList} {rest : List Nat}

section

variable (h : HeapBase S a fl held)
include h

lemma HeapBase.move (hlk : l ≠ k) (hf : f ∈ a.lists i l) : HeapBase S (a.move i f l k) fl held := by
  have hslabs := AHeap.slabs_move (h.nodup i l) hlk hf
  refine ⟨h.toSlabsOk.move hlk hf, h.pmmInv, h.zero, h.space, ?_, ?_, ?_⟩
  · rw [hslabs]
    exact h.slabHeld
  · rw [hslabs]
    exact h.marked
  · rw [hslabs]
    exact h.unmarked

/-- All counts are right if that of `f` and those of the others are. -/
lemma HeapBase.stay (hf : f ∈ a.lists i l)
    (hcount : ∀ j m g, g ≠ f → g ∈ a.lists j m → CountOk j (a.free g).length m)
    (hself : CountOk i (a.free f).length l) : HeapInv S a fl held := by
  refine ⟨h, fun j m g hg => ?_⟩
  by_cases hgf : g = f
  · subst hgf
    obtain ⟨rfl, rfl⟩ := h.apart g i j l m hf hg
    exact hself
  · exact hcount j m g hgf hg

/-- So they are after a move of `f` to the list for its count. -/
lemma HeapBase.settle (hlk : l ≠ k) (hf : f ∈ a.lists i l)
    (hcount : ∀ j m g, g ≠ f → g ∈ a.lists j m → CountOk j (a.free g).length m)
    (hself : CountOk i (a.free f).length k) : HeapInv S (a.move i f l k) fl held := by
  have hmem : ∀ {j m g}, g ∈ (a.move i f l k).lists j m ↔ _ := AHeap.mem_move (h.nodup i l) hlk
  refine (h.move hlk hf).stay (hmem.mpr (Or.inl ⟨rfl, rfl, rfl⟩)) (fun j m g hne hg => ?_) hself
  cases hmem.mp hg with
  | inl heq => exact absurd heq.1 hne
  | inr hold => exact hcount j m g hne hold.1

lemma HeapBase.setFree {objs : List Nat} (hnd : objs.Nodup)
    (hobjs : ∀ o ∈ objs, o ∈ objects a.hhdm (a.cacheOf f) f) :
    HeapBase S (a.setFree f objs) fl held :=
  ⟨h.toSlabsOk.setFree hnd hobjs, h.pmmInv, h.zero, h.space, h.slabHeld, h.marked, h.unmarked⟩

end

lemma AHeap.handed_move (h : SlabsOk a) (hlk : l ≠ k) (hf : f ∈ a.lists i l) (g q : Nat) :
    (a.move i f l k).Handed g q ↔ a.Handed g q := by
  have hslabs := AHeap.slabs_move (h.nodup i l) hlk hf
  constructor
  · intro hh
    exact ⟨hslabs ▸ hh.slab, hh.object, hh.taken⟩
  · intro hh
    exact ⟨hslabs ▸ hh.slab, hh.object, hh.taken⟩

lemma AHeap.handed_pop (h : SlabsOk a) (hf : f ∈ a.slabs) (hobjs : a.free f = o :: rest)
    (g q : Nat) : (a.setFree f rest).Handed g q ↔ a.Handed g q ∨ (g = f ∧ q = o) := by
  have hnd := h.objNodup f hf
  have hmem := h.objMem f hf
  rw [hobjs] at hnd hmem
  constructor
  · intro hh
    have ht := hh.taken
    by_cases hgf : g = f
    · subst hgf
      by_cases hqo : q = o
      · exact Or.inr ⟨rfl, hqo⟩
      · refine Or.inl ⟨hh.slab, hh.object, ?_⟩
        rw [setFree_free_self] at ht
        simp [hobjs, hqo, ht]
    · rw [setFree_free_of_ne hgf] at ht
      exact Or.inl ⟨hh.slab, hh.object, ht⟩
  · intro hh
    cases hh with
    | inl hold =>
      refine ⟨hold.slab, hold.object, ?_⟩
      by_cases hgf : g = f
      · subst hgf
        have ht := hold.taken
        rw [hobjs] at ht
        rw [setFree_free_self]
        exact fun hin => ht (List.mem_cons_of_mem o hin)
      · rw [setFree_free_of_ne hgf]
        exact hold.taken
    | inr hnew =>
      obtain ⟨rfl, rfl⟩ := hnew
      refine ⟨hf, hmem q (by simp), ?_⟩
      rw [setFree_free_self]
      exact (List.nodup_cons.mp hnd).1

lemma AHeap.handed_push (g q : Nat) :
    (a.setFree f (ptr :: a.free f)).Handed g q ↔ a.Handed g q ∧ ¬ (g = f ∧ q = ptr) := by
  constructor
  · intro hh
    have ht := hh.taken
    by_cases hgf : g = f
    · subst hgf
      rw [setFree_free_self, List.mem_cons, not_or] at ht
      exact ⟨⟨hh.slab, hh.object, ht.2⟩, fun heq => ht.1 heq.2⟩
    · rw [setFree_free_of_ne hgf] at ht
      exact ⟨⟨hh.slab, hh.object, ht⟩, fun heq => hgf heq.1⟩
  · intro hh
    refine ⟨hh.1.slab, hh.1.object, ?_⟩
    by_cases hgf : g = f
    · subst hgf
      rw [setFree_free_self, List.mem_cons, not_or]
      exact ⟨fun heq => hh.2 ⟨rfl, heq⟩, hh.1.taken⟩
    · rw [setFree_free_of_ne hgf]
      exact hh.1.taken

lemma AHeap.handed_insert {pmm : Pmm} (hk : Pmm.Keeps a.pmm pmm) (hf : f ∉ a.slabs) (g q : Nat) :
    (a.insert i f pmm).Handed g q ↔ a.Handed g q := by
  have hhdm : (a.insert i f pmm).hhdm = a.hhdm := hk.hhdm
  constructor
  · intro hh
    obtain ⟨hs, ho, ht⟩ := hh
    rw [AHeap.slabs_insert] at hs
    rw [hhdm] at ho
    by_cases hgf : g = f
    · subst hgf
      rw [insert_cacheOf_self] at ho
      rw [insert_free_self] at ht
      exact absurd ho ht
    · rw [insert_cacheOf_of_ne hgf] at ho
      rw [insert_free_of_ne hgf] at ht
      exact ⟨hs.resolve_left hgf, ho, ht⟩
  · intro hh
    have hgf : g ≠ f := fun heq => hf (heq ▸ hh.slab)
    refine ⟨?_, ?_, ?_⟩
    · rw [AHeap.slabs_insert]
      exact Or.inr hh.slab
    · rw [hhdm, insert_cacheOf_of_ne hgf]
      exact hh.object
    · rw [insert_free_of_ne hgf]
      exact hh.taken

/-! ## `AHeap.take` and `AHeap.put` keep the invariant -/

lemma AHeap.take_eq (hobjs : a.free f = o :: rest) : a.take i f =
      (o, if rest = [] then (a.setFree f rest).move i f .partly .full else a.setFree f rest) := by
  simp [AHeap.take, hobjs]

/-- A slab on the list of partly used ones whose own count is not yet
right gives up an object; after that every count is right. -/
lemma HeapBase.take (h : HeapBase S a fl held) (hf : f ∈ a.lists i .partly)
    (hobjs : a.free f = o :: rest)
    (hcount : ∀ j l g, g ≠ f → g ∈ a.lists j l → CountOk j (a.free g).length l) :
    HeapInv S (a.take i f).2 fl held ∧ (a.take i f).2.slabs = a.slabs ∧
    (∀ g q, (a.take i f).2.Handed g q ↔ a.Handed g q ∨ (g = f ∧ q = o)) ∧
    (a.take i f).2.cacheOf = a.cacheOf ∧ (a.take i f).2.pmm = a.pmm := by
  have hfs : f ∈ a.slabs := ⟨i, .partly, hf⟩
  have hnd := h.objNodup f hfs
  have hmem := h.objMem f hfs
  have hlen := h.length_le hfs
  rw [(h.cache i .partly f hf).2] at hlen
  rw [hobjs] at hnd hmem hlen
  rw [List.length_cons] at hlen
  have hbase : HeapBase S (a.setFree f rest) fl held :=
    h.setFree (List.nodup_cons.mp hnd).2 fun p hp => hmem p (List.mem_cons_of_mem o hp)
  have hhanded := AHeap.handed_pop h.toSlabsOk hfs hobjs
  have hin : f ∈ (a.setFree f rest).lists i .partly := hf
  have hothers : ∀ j m g, g ≠ f → g ∈ (a.setFree f rest).lists j m →
      CountOk j ((a.setFree f rest).free g).length m := by
    intro j m g hne hg
    rw [AHeap.setFree_free_of_ne hne]
    exact hcount j m g hne hg
  rw [AHeap.take_eq hobjs]
  by_cases hempty : rest = []
  · have hfull : CountOk i ((a.setFree f rest).free f).length .full := by
      rw [AHeap.setFree_free_self, hempty]
      rfl
    simp only [if_pos hempty]
    exact ⟨hbase.settle (by decide) hin hothers hfull,
      AHeap.slabs_move (hbase.nodup i .partly) (by decide) hin,
      fun g q => (AHeap.handed_move hbase.toSlabsOk (by decide) hin g q).trans (hhanded g q), rfl,
        rfl⟩
  · have hpartly : CountOk i ((a.setFree f rest).free f).length .partly := by
      rw [AHeap.setFree_free_self]
      exact ⟨List.length_pos_iff.mpr hempty, by omega⟩
    simp only [if_neg hempty]
    exact ⟨hbase.stay hin hothers hpartly, rfl, hhanded, rfl, rfl⟩

lemma HeapInv.put (h : HeapInv S a fl held) (hh : a.Handed f ptr) :
    HeapInv S (a.put f ptr) fl held ∧ (a.put f ptr).slabs = a.slabs ∧
    (∀ g q, (a.put f ptr).Handed g q ↔ a.Handed g q ∧ ¬ (g = f ∧ q = ptr)) ∧
    (a.put f ptr).cacheOf = a.cacheOf ∧ (a.put f ptr).pmm = a.pmm := by
  obtain ⟨i, l, hl⟩ := hh.slab
  have hc := (h.cache i l f hl).2
  have hobj := hh.object
  rw [hc] at hobj
  have hwhere := h.toSlabsOk.list_of_missing hl (h.count i l f hl) hobj hh.taken
  generalize ha1 : a.setFree f (ptr :: a.free f) = a1
  have hbase : HeapBase S a1 fl held := by
    rw [← ha1]
    exact h.toHeapBase.setFree (List.nodup_cons.mpr ⟨hh.taken, h.objNodup f hh.slab⟩)
      (List.forall_mem_cons.mpr ⟨hh.object, h.objMem f hh.slab⟩)
  have hlen := hbase.length_le (f := f) (by rw [← ha1]; exact hh.slab)
  have hhanded : ∀ g q, a1.Handed g q ↔ a.Handed g q ∧ ¬ (g = f ∧ q = ptr) := by
    rw [← ha1]
    exact AHeap.handed_push
  have hlists : a1.lists = a.lists := by rw [← ha1]; rfl
  have hcacheOf : a1.cacheOf = a.cacheOf := by rw [← ha1]; rfl
  have hpmm : a1.pmm = a.pmm := by rw [← ha1]; rfl
  have hslabs : a1.slabs = a.slabs := by rw [AHeap.slabs, hlists]; rfl
  have hfree : ∀ g, g ≠ f → a1.free g = a.free g := by
    intro g hne
    rw [← ha1]
    exact AHeap.setFree_free_of_ne hne
  have hself : a1.free f = ptr :: a.free f := by
    rw [← ha1]
    exact AHeap.setFree_free_self
  rw [hself, hcacheOf, hc, List.length_cons] at hlen
  -- the slab's list after the first move
  generalize ha2 : (if (ptr :: a.free f).length = 1 then a1.move i f .full .partly else a1) = a2
  have hfirst : HeapBase S a2 fl held ∧ f ∈ a2.lists i .partly ∧ a2.slabs = a.slabs ∧
      (∀ g q, a2.Handed g q ↔ a1.Handed g q) ∧ a2.free = a1.free ∧ a2.cacheOf = a.cacheOf ∧
      a2.pmm = a.pmm ∧ ∀ j l g, g ≠ f → g ∈ a2.lists j l → g ∈ a.lists j l := by
    rw [← ha2]
    cases hwhere with
    | inl hfull =>
      have hin : f ∈ a1.lists i .full := hlists ▸ hfull.2 ▸ hl
      rw [if_pos (by rw [List.length_cons, hfull.1])]
      have hmem := fun g j m => AHeap.mem_move (f := f) (g := g) (j := j) (m := m)
        (hbase.nodup i .full) (k := .partly) (by decide)
      refine ⟨hbase.move (by decide) hin, (hmem f i .partly).mpr (Or.inl ⟨rfl, rfl, rfl⟩), ?_,
        AHeap.handed_move hbase.toSlabsOk (by decide) hin, rfl, hcacheOf, hpmm,
          fun j m g hne hg => ?_⟩
      · rw [AHeap.slabs_move (hbase.nodup i .full) (by decide) hin, hslabs]
      · cases (hmem g j m).mp hg with
        | inl heq => exact absurd heq.1 hne
        | inr hold => exact hlists ▸ hold.1
    | inr hpart =>
      rw [if_neg (by rw [List.length_cons]; omega)]
      exact ⟨hbase, hlists ▸ hpart.2 ▸ hl, hslabs, fun _ _ => Iff.rfl, rfl, hcacheOf, hpmm,
        fun j m g _ hg => hlists ▸ hg⟩
  obtain ⟨hbase2, hin2, hslabs2, hhanded2, hfree2, hcache2, hpmm2, hold2⟩ := hfirst
  have hput : a.put f ptr = if (ptr :: a.free f).length ≥ slabCapacity i
      then a2.move i f .partly .empty else a2 := by
    simp only [AHeap.put, hc, ha1, ha2]
  rw [hput]
  have hothers : ∀ j m g, g ≠ f → g ∈ a2.lists j m → CountOk j (a2.free g).length m := by
    intro j m g hne hg
    rw [hfree2, hfree g hne]
    exact h.count j m g (hold2 j m g hne hg)
  by_cases hcap : (ptr :: a.free f).length ≥ slabCapacity i
  · have hempty : CountOk i (a2.free f).length .empty := by
      rw [hfree2, hself]
      show (ptr :: a.free f).length = slabCapacity i
      rw [List.length_cons] at hcap ⊢
      omega
    rw [if_pos hcap]
    refine ⟨hbase2.settle (by decide) hin2 hothers hempty, ?_, fun g q => ?_, hcache2, hpmm2⟩
    · rw [AHeap.slabs_move (hbase2.nodup i .partly) (by decide) hin2, hslabs2]
    · rw [AHeap.handed_move hbase2.toSlabsOk (by decide) hin2, hhanded2, hhanded]
  · have hpartly : CountOk i (a2.free f).length .partly := by
      rw [hfree2, hself]
      exact ⟨by rw [List.length_cons]; omega, by omega⟩
    rw [if_neg hcap]
    refine ⟨hbase2.stay hin2 hothers hpartly, hslabs2, fun g q => ?_, hcache2, hpmm2⟩
    rw [hhanded2, hhanded]

end

/-! ## `getSlab` -/

/-- What `getSlab` gives: a partly used slab `f` with a free object in the
heap `a'`. Only the count of `f` may be wrong for its list. -/
structure GotSlab (S : Set Nat) (a : AHeap) (held : Set Block) (i f : Nat) (a' : AHeap)
    (fl' : Nat → List Nat) : Prop where
  base : HeapBase S a' fl' (held ∪ a'.slabBlocks)
  mem : f ∈ a'.lists i .partly
  free : a'.free f ≠ []
  count : ∀ j l g, g ≠ f → g ∈ a'.lists j l → CountOk j (a'.free g).length l
  handed : ∀ g q, a'.Handed g q ↔ a.Handed g q
  globals : Pmm.SameGlobals a.pmm a'.pmm
  mono : a.slabs ⊆ a'.slabs
  cacheOf : ∀ g ∈ a.slabs, a'.cacheOf g = a.cacheOf g
  fresh : ∀ g ∈ a'.slabs, g ∉ a.slabs → (⟨0, g⟩ : Block) ∉ held

section

variable {S : Set Nat} {s : Kmem} {a a' : AHeap} {fl : Nat → List Nat} {held : Set Block}
    {i f ptr : Nat}
  {pmm : Pmm}

lemma HeapBase.held_union (h : HeapBase S a fl held) : held ∪ a.slabBlocks = held := by
  refine Set.union_eq_self_of_subset_right fun b hb => ?_
  obtain ⟨f, hf, rfl⟩ := hb
  exact h.slabHeld f hf

lemma CountOk.free_ne_nil {n : Nat} {l : SlabList} (hi : i < numCaches) (h : CountOk i n l)
    (hl : l ≠ .full) : 0 < n := by
  have hpos := slabCapacity_pos i hi
  cases l with
  | partly => exact h.1
  | full => exact absurd rfl hl
  | empty =>
    have heq : n = slabCapacity i := h
    omega

lemma GotSlab.of_same (h : HeapInv S a fl held) (hf : f ∈ a.lists i .partly) :
    GotSlab S a held i f a fl := by
  have hpos := (h.count i .partly f hf).1
  refine ⟨?_, hf, List.ne_nil_of_length_pos hpos, fun j l g _ hg => h.count j l g hg,
    fun _ _ => Iff.rfl, .refl _, fun _ hg => hg, fun _ _ => rfl, fun g hg hn => absurd hg hn⟩
  rw [h.held_union]
  exact h.toHeapBase

lemma GotSlab.of_move (h : HeapInv S a fl held) (hf : f ∈ a.lists i .empty) :
    GotSlab S a held i f (a.move i f .empty .partly) fl := by
  have hslabs := AHeap.slabs_move (h.nodup i .empty) (k := .partly) (by decide) hf
  have hbase := h.toHeapBase.move (k := .partly) (by decide) hf
  have hpos := (h.count i .empty f hf).free_ne_nil (h.cache i .empty f hf).1 (by decide)
  have hmem := fun g j m => AHeap.mem_move (f := f) (g := g) (j := j) (m := m)
    (h.nodup i .empty) (k := .partly) (by decide)
  refine ⟨?_, (hmem f i .partly).mpr (Or.inl ⟨rfl, rfl, rfl⟩), List.ne_nil_of_length_pos hpos,
    fun j l g hne hg => ?_, AHeap.handed_move h.toSlabsOk (by decide) hf, .refl _,
    hslabs ▸ fun _ hg => hg, fun _ _ => rfl, fun g hg hn => absurd (hslabs ▸ hg) hn⟩
  · rw [hbase.held_union]
    exact hbase
  · cases (hmem g j l).mp hg with
    | inl heq => exact absurd heq.1 hne
    | inr hold => exact h.count j l g hold.1

lemma GotSlab.of_insert (h : HeapInv S a fl held) (hi : i < numCaches) {fl' : Nat → List Nat}
    (hpmm : PmmInv S pmm fl' (insert ⟨0, f⟩ held)) (hk : Pmm.Keeps a.pmm pmm)
    (hfresh : (⟨0, f⟩ : Block) ∉ held) : GotSlab S a held i f (a.insert i f pmm) fl' := by
  have hbase := h.toHeapBase.insert hi hpmm hk hfresh
  have hf : f ∉ a.slabs := h.not_slab hfresh
  have hheld : held ∪ (a.insert i f pmm).slabBlocks = insert ⟨0, f⟩ held := by
    ext b
    simp only [AHeap.slabBlocks, AHeap.slabs_insert, Set.mem_union, Set.mem_ofPred_eq,
      Set.mem_insert_iff]
    constructor
    · intro hb
      cases hb with
      | inl hin => exact Or.inr hin
      | inr hslab =>
        obtain ⟨g, hg, rfl⟩ := hslab
        cases hg with
        | inl heq => exact Or.inl (by rw [heq])
        | inr hin => exact Or.inr (h.slabHeld g hin)
    · intro hb
      cases hb with
      | inl heq => exact Or.inr ⟨f, Or.inl rfl, heq⟩
      | inr hin => exact Or.inl hin
  refine ⟨hheld ▸ hbase, AHeap.mem_insert.mpr (Or.inl ⟨rfl, rfl, rfl⟩), ?_, fun j l g hne hg => ?_,
    AHeap.handed_insert hk hf, ⟨hk.addr, hk.total, hk.hhdm⟩, ?_, fun g hg => ?_, fun g hg hn => ?_⟩
  · rw [AHeap.insert_free_self]
    refine List.ne_nil_of_length_pos ?_
    simpa [objects] using slabCapacity_pos i hi
  · rw [AHeap.insert_free_of_ne hne]
    cases AHeap.mem_insert.mp hg with
    | inl heq => exact absurd heq.1 hne
    | inr hold => exact h.count j l g hold
  · rw [AHeap.slabs_insert]
    exact fun g hg => Or.inr hg
  · have hne : g ≠ f := fun heq => hf (heq ▸ hg)
    exact AHeap.insert_cacheOf_of_ne hne
  · rw [AHeap.slabs_insert] at hg
    cases hg with
    | inl heq => exact heq ▸ hfresh
    | inr hin => exact absurd hin hn

lemma getSlab_spec (h : HeapRep s a) (hinv : HeapInv S a fl held) (hi : i < numCaches) :
    (getSlab i s = some (0, s) ∧ a.getSlab i = some (none, a)) ∨
    ∃ f s' a' fl', getSlab i s = some (pagePtr a.hhdm f, s') ∧ a.getSlab i = some (some f, a') ∧
    HeapRep s' a' ∧ GotSlab S a held i f a' fl' ∧ ∀ w, a.Keeps a' w → s'.mem w = s.mem w := by
  obtain ⟨L, hlists⟩ := h.lists
  have hpartly := hlists.heads i .partly
  have hempty := hlists.heads i .empty
  rw [h.hhdm_eq] at hpartly hempty
  have hptr : ∀ l f, (a.lists i l).head? = some f → pagePtr a.hhdm f ≠ 0 := fun l f hf =>
    (hinv.page f ⟨i, l, List.mem_of_mem_head? hf⟩).ptr_ne_zero
  unfold getSlab AHeap.getSlab
  rw [hpartly, hempty]
  cases hp : (a.lists i .partly).head? with
  | some f =>
    have hf := List.mem_of_mem_head? hp
    simp only [pagePtr?_some, ne_eq, hptr _ f hp, not_false_eq_true, if_true]
    exact Or.inr ⟨f, s, a, fl, rfl, rfl, h, .of_same hinv hf, fun _ _ => rfl⟩
  | none =>
    simp only [pagePtr?_none, ne_eq, not_true_eq_false, if_false]
    cases he : (a.lists i .empty).head? with
    | some f =>
      have hf := List.mem_of_mem_head? he
      simp only [pagePtr?_some, hptr _ f he, not_false_eq_true, if_true]
      have hpop := hlists.popEmpty_eq he
      rw [h.hhdm_eq] at hpop
      obtain ⟨hrep, honly⟩ := h.move hinv.toSlabsOk (k := .partly) (by decide) hf
      have hslabs := AHeap.slabs_move (hinv.nodup i .empty) (k := .partly) (by decide) hf
      rw [hpop]
      exact Or.inr ⟨f, _, _, fl, rfl, rfl, hrep, .of_move hinv hf,
        fun w hw => honly.headers fun hin => (hw (hslabs ▸ hin)).2⟩
    | none =>
      simp only [pagePtr?_none, not_true_eq_false, if_false]
      cases pmmAllocPage_spec hinv.pmmInv with
      | inl hnull =>
        refine Or.inl ⟨?_, ?_⟩
        · have hc : slabCreate i s = some (0, s) := by
            rw [slabCreate, h.pmm, hnull]
            simp [← h.pmm]
          simp [hc]
        · simp [AHeap.create, hnull]
      | inr hgot =>
        obtain ⟨f, pmm, fl', halloc, hpmm, hk, hfresh⟩ := hgot
        obtain ⟨s', hcreate, hrep, hmem⟩ :=
          slabCreate_refines h hinv.toHeapBase hi halloc hpmm hk hfresh
        have hok : PageOk a.hhdm f := hinv.pageOk (hpmm.mem_pages (b := ⟨0, f⟩) (Or.inl rfl))
        have hphys : pfnToPhys f ≠ 0 := hok.phys_ne_zero
        refine Or.inr ⟨f, _, _, fl', ?_, ?_, hrep, .of_insert hinv hi hpmm hk hfresh, hmem⟩
        · simp [hcreate, hok.ptr_ne_zero]
        · simp [AHeap.create, halloc, hphys, physToPfn_pfnToPhys]

/-! ## `kmalloc` -/

/-- What a call of `kmalloc(size)` does to the heap and to the blocks the
page allocator has handed out. -/
inductive MallocResult (size : Nat) (a : AHeap) (held : Set Block) :
    Nat → AHeap → Set Block → Prop where
  | null : MallocResult size a held 0 a held
  /-- Whole pages. -/
  | large {order pfn : Nat} {pmm : Pmm} (hcache : findCache size = none)
      (hpages : add64 size (pageSize - 1) / pageSize ≠ 0)
      (horder : targetOrder (add64 size (pageSize - 1) / pageSize) = some order)
      (hfresh : (⟨order, pfn⟩ : Block) ∉ held) (hk : Pmm.Keeps a.pmm pmm) :
      MallocResult size a held (pagePtr a.hhdm pfn) { a with pmm := pmm } (insert ⟨order, pfn⟩ held)
  /-- An object of a slab, which may be new. -/
  | small {i f p : Nat} {a' : AHeap} (hcache : findCache size = some i) (hc : a'.cacheOf f = i)
      (hnew : ¬ a.Handed f p)
      (handed : ∀ g q, a'.Handed g q ↔ a.Handed g q ∨ (g = f ∧ q = p))
      (globals : Pmm.SameGlobals a.pmm a'.pmm) (mono : a.slabs ⊆ a'.slabs)
      (cacheOf : ∀ g ∈ a.slabs, a'.cacheOf g = a.cacheOf g)
      (fresh : ∀ g ∈ a'.slabs, g ∉ a.slabs → (⟨0, g⟩ : Block) ∉ held) :
      MallocResult size a held p a' (held ∪ a'.slabBlocks)

lemma findCache_some {size i : Nat} (h : findCache size = some i) :
    i < numCaches ∧ size ≤ objectSize i := by
  have hmem := List.mem_of_find?_eq_some h
  have hsize := List.find?_some h
  exact ⟨List.mem_range.mp hmem, by simpa using hsize⟩

lemma HeapInv.setPmm (h : HeapInv S a fl held) {fl' : Nat → List Nat} {held' : Set Block}
    (hpmm : PmmInv S pmm fl' held') (hk : Pmm.Keeps a.pmm pmm)
    (hslab : ∀ f ∈ a.slabs, (⟨0, f⟩ : Block) ∈ held') :
    HeapInv S { a with pmm := pmm } fl' held' := by
  have hhdm : AHeap.hhdm { a with pmm := pmm } = a.hhdm := hk.hhdm
  refine ⟨⟨⟨fun f hf => ?_, h.nodup, h.apart, h.cache, h.objNodup, fun f hf => ?_⟩, hpmm, h.zero,
    ?_, hslab, fun f hf => ?_, fun f hlt hf => ?_⟩, h.count⟩
  · rw [hhdm]
    exact h.page f hf
  · rw [hhdm]
    exact h.objMem f hf
  · rw [hhdm, hk.total]
    exact h.space
  · rw [hhdm, hk.privateData]
    exact h.marked f hf
  · rw [hk.privateData]
    exact h.unmarked f (hk.total ▸ hlt) hf

lemma HeapRep.setPmm (h : HeapRep s a) (hk : Pmm.Keeps a.pmm pmm) :
    HeapRep { s with pmm := pmm } { a with pmm := pmm } := by
  obtain ⟨L, hlists⟩ := h.lists
  have hs : Kmem.hhdm { s with pmm := pmm } = s.hhdm := hk.hhdm.trans h.hhdm_eq.symm
  have ha : AHeap.hhdm { a with pmm := pmm } = a.hhdm := hk.hhdm
  refine ⟨rfl, ⟨L, ⟨⟨fun f hf => ?_, fun f hf => ?_, fun f hf => ?_, hlists.nextMem,
    hlists.prevMem⟩, hlists.dlist, hlists.mem, hlists.apart, fun i l => ?_⟩⟩, fun f hf => ?_⟩
  · rw [hs]
    exact hlists.ok f hf
  · rw [hs]
    exact hlists.next f hf
  · rw [hs]
    exact hlists.prev f hf
  · rw [hs]
    exact hlists.heads i l
  · rw [ha]
    exact h.slab f hf

lemma kmalloc_spec (h : HeapRep s a) (hinv : HeapInv S a fl held) (size : Nat) :
    ∃ p s' a' fl' held', kmalloc size s = some (p, s') ∧ a.kmalloc size = some (p, a') ∧
    HeapRep s' a' ∧ HeapInv S a' fl' held' ∧ MallocResult size a held p a' held' ∧
    ∀ w, a.Keeps a' w → s'.mem w = s.mem w := by
  unfold kmalloc AHeap.kmalloc
  by_cases h0 : size = 0
  · simp only [if_pos h0]
    exact ⟨0, s, a, fl, held, rfl, rfl, h, hinv, .null, fun _ _ => rfl⟩
  · simp only [if_neg h0]
    cases hc : findCache size with
    | none =>
      have hpages : add64 size (pageSize - 1) / pageSize ≤ 2 ^ 63 := by
        have hlt := add64_lt size (pageSize - 1)
        simp only [pageSize] at *
        omega
      simp only [h.pmm, h.hhdm_eq]
      cases pmmAllocPages_spec hinv.pmmInv hpages with
      | inl hnull =>
        have hsame : ({ s with pmm := a.pmm } : Kmem) = s := by rw [← h.pmm]
        simp only [hnull, Option.map_some, if_true, hsame]
        exact ⟨0, s, a, fl, held, rfl, rfl, h, hinv, .null, fun _ _ => rfl⟩
      | inr hgot =>
        obtain ⟨order, _, pfn, fl', horder, _, halloc, hpmm, hk, hfresh, _⟩ := hgot
        have hok : PageOk a.hhdm pfn :=
          hinv.pageOk (hpmm.mem_pages (b := ⟨order, pfn⟩) (Or.inl rfl))
        have hphys : pfnToPhys pfn ≠ 0 := hok.phys_ne_zero
        have hcount : add64 size (pageSize - 1) / pageSize ≠ 0 := by
          intro hzero
          rw [hzero, pmmAllocPages, if_pos rfl] at halloc
          exact hphys (Prod.mk.inj (Option.some.inj halloc)).1.symm
        simp only [halloc, Option.map_some, if_neg hphys, hok.add64_phys]
        refine ⟨_, _, _, fl', _, rfl, rfl, h.setPmm hk, hinv.setPmm hpmm hk fun f hf => ?_,
          .large hc hcount horder hfresh hk, fun _ _ => rfl⟩
        exact Or.inr (hinv.slabHeld f hf)
    | some i =>
      obtain ⟨hi, _⟩ := findCache_some hc
      cases getSlab_spec h hinv hi with
      | inl hnull =>
        simp only [hnull.1, hnull.2, Option.map_some, if_true]
        exact ⟨0, s, a, fl, held, rfl, rfl, h, hinv, .null, fun _ _ => rfl⟩
      | inr hgot =>
        obtain ⟨f, s1, a1, fl', hget, hget', hrep, hslab, hmem⟩ := hgot
        have hhdm : a1.hhdm = a.hhdm := hslab.globals.hhdm
        have hfs : f ∈ a1.slabs := ⟨i, .partly, hslab.mem⟩
        obtain ⟨o, rest, hobjs⟩ := List.exists_cons_of_ne_nil hslab.free
        obtain ⟨s2, htake, hrep2, _, hmem2⟩ :=
          takeObject_refines hrep hslab.base.toSlabsOk hslab.mem hslab.free
        obtain ⟨hinv2, hslabs2, hhanded2, hcache2, hpmm2⟩ :=
          hslab.base.take hslab.mem hobjs hslab.count
        have hne : pagePtr a.hhdm f ≠ 0 := hhdm ▸ (hslab.base.page f hfs).ptr_ne_zero
        have ho : (a1.take i f).1 = o := by rw [AHeap.take_eq hobjs]
        rw [hhdm, ho] at htake
        have hout : a1.take i f = (o, (a1.take i f).2) := by rw [← ho]
        simp only [hget, hget', Option.map_some, if_neg hne, htake]
        generalize (a1.take i f).2 = a2 at *
        have hblocks : a2.slabBlocks = a1.slabBlocks := by rw [AHeap.slabBlocks, hslabs2]; rfl
        refine ⟨o, s2, a2, fl', held ∪ a2.slabBlocks, rfl, by rw [hout], hrep2, hblocks ▸ hinv2,
          .small (f := f) hc ?_ ?_ ?_ ?_ ?_ ?_ ?_, fun w hw => ?_⟩
        · rw [hcache2]
          exact (hslab.base.cache i .partly f hslab.mem).2
        · intro hold
          exact ((hslab.handed f o).mpr hold).taken (by simp [hobjs])
        · intro g q
          rw [hhanded2, hslab.handed]
        · rw [hpmm2]
          exact hslab.globals
        · rw [hslabs2]
          exact hslab.mono
        · intro g hg
          rw [hcache2]
          exact hslab.cacheOf g hg
        · rw [hslabs2]
          exact hslab.fresh
        · rw [AHeap.Keeps, hslabs2] at hw
          rw [hmem2 w fun hin => (hw hin).2, hmem w hw]

@[simp] lemma AHeap.take_pmm (a : AHeap) (i f : Nat) : (a.take i f).2.pmm = a.pmm := by
  unfold AHeap.take
  dsimp only
  split <;> rfl

/-- What the search for a slab does to the page allocator: nothing, or it
takes a page, if there is one, and marks it. -/
lemma AHeap.getSlab_pmm {o : Option Nat} (hcall : a.getSlab i = some (o, a')) :
    if (a.lists i .partly).head? = none ∧ (a.lists i .empty).head? = none then ∃ phys pmm,
      pmmAllocPage a.pmm = some (phys, pmm) ∧ (phys = 0 ↔ o = none) ∧
    a'.pmm = if phys = 0 then pmm else pmm.modFrame (physToPfn phys) fun g =>
      { g with privateData := pagePtr a.hhdm (physToPfn phys) } else o ≠ none ∧ a'.pmm = a.pmm := by
  unfold AHeap.getSlab at hcall
  cases hp : (a.lists i .partly).head? with
  | some f =>
    simp only [hp, Option.some.injEq, Prod.mk.injEq] at hcall
    obtain ⟨rfl, rfl⟩ := hcall
    simp
  | none =>
    cases he : (a.lists i .empty).head? with
    | some f =>
      simp only [hp, he, Option.some.injEq, Prod.mk.injEq] at hcall
      obtain ⟨rfl, rfl⟩ := hcall
      simp [AHeap.move]
    | none =>
      simp only [hp, he, AHeap.create] at hcall
      cases halloc : pmmAllocPage a.pmm with
      | none => simp [halloc] at hcall
      | some r =>
        obtain ⟨phys, pmm⟩ := r
        by_cases h0 : phys = 0
        · simp only [halloc, h0, if_true, Option.some.injEq, Prod.mk.injEq] at hcall
          obtain ⟨rfl, rfl⟩ := hcall
          simp [h0]
        · simp only [halloc, h0, if_false, Option.some.injEq, Prod.mk.injEq] at hcall
          obtain ⟨rfl, rfl⟩ := hcall
          simp [h0, AHeap.insert]

/-- The same for `kmalloc` of an object, which is null exactly if no slab
was found. -/
lemma HeapInv.kmalloc_pmm (hinv : HeapInv S a fl held) (h : HeapRep s a) {size p : Nat}
    (hi : findCache size = some i) (hsize : size ≠ 0) (hcall : a.kmalloc size = some (p, a')) :
    ∃ o a1, a.getSlab i = some (o, a1) ∧ a'.pmm = a1.pmm ∧ (p = 0 ↔ o = none) := by
  unfold AHeap.kmalloc at hcall
  simp only [if_neg hsize, hi] at hcall
  cases getSlab_spec h hinv (findCache_some hi).1 with
  | inl hnull =>
    simp only [hnull.2, Option.map_some, Option.some.injEq, Prod.mk.injEq] at hcall
    obtain ⟨rfl, rfl⟩ := hcall
    exact ⟨none, a, hnull.2, rfl, by simp⟩
  | inr hgot =>
    obtain ⟨f, _, a1, _, _, hget, _, hslab, _⟩ := hgot
    obtain ⟨o, rest, hobjs⟩ := List.exists_cons_of_ne_nil hslab.free
    have hf : f ∈ a1.slabs := ⟨i, .partly, hslab.mem⟩
    have hpmm := AHeap.take_pmm a1 i f
    have hptr : (a1.take i f).1 = o := by rw [AHeap.take_eq hobjs]
    simp only [hget, Option.map_some, Option.some.injEq] at hcall
    simp only [hcall] at hpmm hptr
    have hne : o ≠ 0 := by
      obtain ⟨k, _, _, hk, _⟩ :=
        hslab.base.object_word hf (hslab.base.objMem f hf o (by simp [hobjs]))
      have := (hslab.base.page f hf).ptr_ne_zero
      omega
    exact ⟨some f, a1, hget, hpmm, by simp [hptr, hne]⟩

/-! ## `kfree` -/

lemma HeapInv.object_ne_zero (h : HeapInv S a fl held) (hh : a.Handed f ptr) : ptr ≠ 0 := by
  obtain ⟨k, h5, _, hptr, _⟩ := h.toSlabsOk.object_word hh.slab hh.object
  omega

lemma AHeap.kfree_object (h : HeapInv S a fl held) (hh : a.Handed f ptr) :
    ptr ≠ 0 ∧ pmmGetFrame (sub64 ptr a.hhdm) a.pmm = some f ∧
    (a.pmm.kFrames f).privateData = pagePtr a.hhdm f := by
  have hok := h.page f hh.slab
  refine ⟨h.object_ne_zero hh, ?_, h.marked f hh.slab⟩
  obtain ⟨k, h5, h512, rfl, _⟩ := h.toSlabsOk.object_word hh.slab hh.object
  have hlt : f < a.pmm.kTotalPages := h.pmmInv.base_lt (h.slabHeld f hh.slab)
  have hpage : physToPfn (sub64 (pagePtr a.hhdm f + 8 * k) a.hhdm) = f := by
    rw [hok.sub64_ptr (by simp only [pageSize]; omega), physToPfn, pageShift,
      Nat.shiftRight_eq_div_pow]
    simp only [pageSize]
    omega
  rw [pmmGetFrame, hpage]
  simp only [ge_iff_le, if_neg (Nat.not_le.mpr hlt)]

lemma kfree_object_spec (h : HeapRep s a) (hinv : HeapInv S a fl held)
    (hh : a.Handed f ptr) : HeapRep (kfree ptr s) (a.kfree ptr) ∧ HeapInv S (a.kfree ptr) fl held ∧
      (a.kfree ptr).slabs = a.slabs ∧
      (∀ g q, (a.kfree ptr).Handed g q ↔ a.Handed g q ∧ ¬ (g = f ∧ q = ptr)) ∧
      (a.kfree ptr).cacheOf = a.cacheOf ∧ (a.kfree ptr).pmm = a.pmm ∧
      ∀ w, (w / 512 ∈ a.slabs → 5 ≤ w % 512 ∧ w ≠ sub64 ptr a.hhdm / 8) →
      (kfree ptr s).mem w = s.mem w := by
  obtain ⟨hne, hframe, hmark⟩ := AHeap.kfree_object hinv hh
  have hptr : pagePtr a.hhdm f ≠ 0 := (hinv.page f hh.slab).ptr_ne_zero
  have hk : kfree ptr s = freeObject (pagePtr a.hhdm f) ptr s := by
    simp [kfree, hne, h.hhdm_eq, h.pmm, hframe, hmark, hptr]
  have ha : a.kfree ptr = a.put f ptr := by
    simp [AHeap.kfree, hne, hframe, hmark, hptr]
  obtain ⟨i, l, hl⟩ := hh.slab
  have hobj := hh.object
  rw [(hinv.cache i l f hl).2] at hobj
  obtain ⟨hrep, _, hmem⟩ :=
    freeObject_refines h hinv.toSlabsOk hl (hinv.count i l f hl) hobj hh.taken
  obtain ⟨hinv', hslabs, hhanded, hcache, hpmm⟩ := hinv.put hh
  rw [hk, ha]
  exact ⟨hrep, hinv', hslabs, hhanded, hcache, hpmm, hmem⟩

lemma kfree_pages_spec (h : HeapRep s a) (hinv : HeapInv S a fl held) {b : Block} (hb : b ∈ held)
    (hslab : b.base ∉ a.slabs) :
    ∃ pmm fl', kfree (pagePtr a.hhdm b.base) s = { s with pmm := pmm } ∧
    a.kfree (pagePtr a.hhdm b.base) = { a with pmm := pmm } ∧ Pmm.Keeps a.pmm pmm ∧ pmm.kFreePages =
      a.pmm.kFreePages + 2 ^ b.order ∧ HeapRep { s with pmm := pmm } { a with pmm := pmm } ∧
    HeapInv S { a with pmm := pmm } fl' (held \ {b}) := by
  have hbS : b.base ∈ S := hinv.pmmInv.mem_pages hb
  have hok := hinv.pageOk hbS
  have hlt : b.base < a.pmm.kTotalPages := hinv.pmmInv.base_lt hb
  have hmark := hinv.unmarked b.base hlt hslab
  have hphys : sub64 (pagePtr a.hhdm b.base) a.hhdm = pfnToPhys b.base := by
    have hsub := hok.sub64_ptr (o := 0) (by decide)
    rw [Nat.add_zero] at hsub
    rw [hsub, Nat.add_zero, pfnToPhys, pageShift, Nat.shiftLeft_eq]
    rfl
  have hframe : pmmGetFrame (pfnToPhys b.base) a.pmm = some b.base := by
    rw [pmmGetFrame, physToPfn_pfnToPhys]
    simp only [ge_iff_le, if_neg (Nat.not_le.mpr hlt)]
  obtain ⟨fl', hpmm, hk, hcount, _⟩ := pmmFreePages_spec hinv.pmmInv hinv.zero hb
    (2 ^ (a.pmm.kFrames b.base).order)
  generalize hpmm' : pmmFreePages (pfnToPhys b.base) (2 ^ (a.pmm.kFrames b.base).order) a.pmm = pmm
    at hpmm hk hcount
  refine ⟨pmm, fl', ?_, ?_, hk, hcount, h.setPmm hk, hinv.setPmm hpmm hk
    fun f hf => ⟨hinv.slabHeld f hf, ?_⟩⟩
  · simp [kfree, hok.ptr_ne_zero, h.hhdm_eq, h.pmm, hphys, hframe, hmark, hpmm']
  · simp [AHeap.kfree, hok.ptr_ne_zero, hphys, hframe, hmark, hpmm']
  · intro heq
    have hbase : b.base = f := by rw [← show (⟨0, f⟩ : Block) = b from heq]
    exact hslab (hbase ▸ hf)

end

/-! ## The words of the heap -/

section

variable {s : Kmem} {a : AHeap} {f : Nat}

/-- No word of the heap's representation is word `w`. -/
def Unused (a : AHeap) (w : Nat) : Prop :=
  ∀ f ∈ a.slabs, (∀ k, k < 5 → w ≠ f * 512 + k) ∧ ∀ o ∈ a.free f, w ≠ sub64 o a.hhdm / 8

lemma HeapRep.setMem (h : HeapRep s a) {mem : WordMem}
    (hmem : ∀ w, ¬ Unused a w → mem w = s.mem w) : HeapRep { s with mem := mem } a := by
  obtain ⟨L, hlists⟩ := h.lists
  have hhdr : ∀ f ∈ a.slabs, ∀ j, j < 5 → mem (f * 512 + j) = s.mem (f * 512 + j) :=
    fun f hf j hj => hmem _ fun hun => (hun f hf).1 j hj rfl
  refine ⟨h.pmm, ⟨L, hlists.congr rfl rfl (fun f hf => hhdr f hf 2 (by decide))
    fun f hf => hhdr f hf 3 (by decide)⟩, fun f hf => ?_⟩
  refine (h.slab f hf).congr (by simpa using hhdr f hf 0 (by decide)) (hhdr f hf 1 (by decide))
    (hhdr f hf 4 (by decide)) fun o ho => ?_
  exact hmem _ fun hun => (hun f hf).2 o ho rfl

lemma SlabsOk.unused_of_ne (h : SlabsOk a) (hf : f ∈ a.slabs) {w : Nat} (hw : w / 512 ≠ f) :
    (∀ k, k < 5 → w ≠ f * 512 + k) ∧ ∀ o ∈ a.free f, w ≠ sub64 o a.hhdm / 8 := by
  refine ⟨fun k hk heq => ?_, fun o ho heq => ?_⟩
  · omega
  · obtain ⟨k, _, h512, _, hw'⟩ := h.object_word hf (h.objMem f hf o ho)
    omega

lemma SlabsOk.unused_of_notMem (h : SlabsOk a) {w : Nat} (hw : w / 512 ∉ a.slabs) : Unused a w :=
  fun _ hf => h.unused_of_ne hf fun heq => hw (heq ▸ hf)

lemma SlabsOk.unused_of_object (h : SlabsOk a) {ptr va : Nat} (hh : a.Handed f ptr) (hlo : ptr ≤ va)
    (hhi : va < ptr + objectSize (a.cacheOf f)) : Unused a (sub64 va a.hhdm / 8) := by
  obtain ⟨i, l, hl⟩ := hh.slab
  obtain ⟨hi, hc⟩ := h.cache i l f hl
  have hobj := hh.object
  have hsize := objectSize_eq i hi
  obtain ⟨k, h5, hptr, hend⟩ := mem_objects hi (hc ▸ hobj)
  rw [hc] at hhi
  have hok := h.page f hh.slab
  have hoff : va = pagePtr a.hhdm f + (va - pagePtr a.hhdm f) := by omega
  have hsub := hok.sub64_ptr (o := va - pagePtr a.hhdm f) (by omega)
  rw [← hoff] at hsub
  simp only [pageSize] at hsub hend
  intro g hg
  refine ⟨fun j hj heq => ?_, fun o ho heq => ?_⟩
  · omega
  · obtain ⟨j, _, h512, hoj, hw⟩ := h.object_word hg (h.objMem g hg o ho)
    by_cases hgf : g = f
    · subst hgf
      -- a free object of the same slab is another object
      have hne : o ≠ ptr := fun heq' => hh.taken (heq' ▸ ho)
      have hap := objects_apart (h.objMem g hg o ho) hobj hne
      rw [hc] at hap
      omega
    · omega

end

end VortexOS.Mm
