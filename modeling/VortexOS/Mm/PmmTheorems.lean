/-
VortexOS.Mm.PmmTheorems — the buddy invariant and the calls that keep it.

The free blocks, read off the free lists, together with the blocks somebody
holds, partition a fixed set `S` of pages (`Buddy`). Four moves keep it:

  `Buddy.take`   list_remove: a free block becomes a held one
  `Buddy.give`   list_add: a held block becomes a free one
  `Buddy.split`  a held block becomes its two halves
  `Buddy.merge`  two held halves become one block

`splitLoop_spec` and `mergeLoop_spec` are inductions over the two loops of
`mm.cpp` with these moves as their steps.
-/
import VortexOS.Lib.Dyadic
import VortexOS.Mm.PmmLists

namespace VortexOS.Mm

open Function Lib

variable {fl : Nat → List Nat} {b c : Block} {k p order target count pfn pfn' : Nat} {S : Set Nat}
  {s s' : Pmm} {held live : Set Block}

/-! ## Free blocks and their number of pages -/

def freeBlocks (fl : Nat → List Nat) : Set Block := {b | b.base ∈ fl b.order}

def freeSum (fl : Nat → List Nat) : Nat :=
  ∑ k ∈ Finset.range (maxOrder + 1), 2 ^ k * (fl k).length

lemma mem_freeBlocks : b ∈ freeBlocks fl ↔ b.base ∈ fl b.order := Iff.rfl

section

variable (fl : Nat → List Nat) (hk : k ≤ maxOrder)
include hk

lemma freeSum_update (l : List Nat) :
    freeSum (update fl k l) + 2 ^ k * (fl k).length = freeSum fl + 2 ^ k * l.length := by
  have hmem : k ∈ Finset.range (maxOrder + 1) := Finset.mem_range.mpr (by omega)
  have hrest : ∑ j ∈ (Finset.range (maxOrder + 1)).erase k,
        2 ^ j * (update fl k l j).length =
      ∑ j ∈ (Finset.range (maxOrder + 1)).erase k, 2 ^ j * (fl j).length := by
    refine Finset.sum_congr rfl fun j hj => ?_
    rw [update_of_ne (Finset.ne_of_mem_erase hj)]
  unfold freeSum
  rw [← Finset.add_sum_erase _ _ hmem, ← Finset.add_sum_erase _ (fun j => 2 ^ j * (fl j).length)
    hmem, hrest, update_self]
  omega

lemma freeSum_add (p : Nat) : freeSum (update fl k (p :: fl k)) = freeSum fl + 2 ^ k := by
  have h := freeSum_update fl hk (p :: fl k)
  rw [List.length_cons, Nat.mul_add] at h
  omega

lemma freeSum_remove (hp : p ∈ fl k) :
    freeSum (update fl k ((fl k).erase p)) + 2 ^ k = freeSum fl := by
  have h := freeSum_update fl hk ((fl k).erase p)
  have hlen : (fl k).length = ((fl k).erase p).length + 1 := by
    rw [List.length_erase_of_mem hp]
    have := List.length_pos_of_mem hp
    omega
  rw [hlen, Nat.mul_add] at h
  omega

end

lemma mem_freeBlocks_add :
    b ∈ freeBlocks (update fl k (p :: fl k)) ↔ b = ⟨k, p⟩ ∨ b ∈ freeBlocks fl := by
  obtain ⟨j, q⟩ := b
  simp only [mem_freeBlocks, Block.mk.injEq]
  by_cases hj : j = k
  · subst hj; simp
  · simp [hj]

lemma mem_freeBlocks_remove (hnd : (fl k).Nodup) :
    b ∈ freeBlocks (update fl k ((fl k).erase p)) ↔ b ≠ ⟨k, p⟩ ∧ b ∈ freeBlocks fl := by
  obtain ⟨j, q⟩ := b
  simp only [mem_freeBlocks, ne_eq, Block.mk.injEq, not_and]
  by_cases hj : j = k
  · subst hj
    rw [update_self, hnd.mem_erase_iff]
    simp
  · simp [hj]

/-! ## The invariant -/

/-- The free blocks and the held blocks partition the pages `S`. -/
structure Buddy (S : Set Nat) (s : Pmm) (fl : Nat → List Nat) (held : Set Block) : Prop where
  repr : s.Repr fl
  tiles : Tiles (freeBlocks fl ∪ held) S
  apart : ∀ b ∈ held, b ∉ freeBlocks fl
  heldOrder : ∀ b ∈ held, b.order ≤ maxOrder
  bound : ∀ x ∈ S, x < s.kTotalPages

namespace Buddy

variable {held' : Set Block}

section

variable (h : Buddy S s fl held)
include h

lemma congr (hh : ∀ b, b ∈ held' ↔ b ∈ held) : Buddy S s fl held' := by
  rwa [show held' = held from Set.ext hh]

section

variable (hb : b ∈ held)
include hb

lemma mem_pages : b.base ∈ S :=
  h.tiles.cells_subset (Or.inr hb) b.base_mem_cells

lemma base_lt : b.base < s.kTotalPages :=
  h.bound _ (h.mem_pages hb)

lemma not_listed (j : Nat) : b.base ∉ fl j := by
  intro hj
  have hfree : (⟨j, b.base⟩ : Block) ∈ freeBlocks fl := hj
  have he := h.tiles.eq_of_base_eq (Or.inr hb) (Or.inl hfree) rfl
  rw [← he] at hfree
  exact h.apart b hb hfree

lemma held_eq (hc : c ∈ held) (he : b.base = c.base) : b = c :=
  h.tiles.eq_of_base_eq (Or.inr hb) (Or.inr hc) he

/-- Stores to the first frame of a held block that keep `PAGE_FREE`. -/
lemma modFrame {f : PageFrame → PageFrame}
    (hf : (f (s.kFrames b.base)).isFree = (s.kFrames b.base).isFree) :
    Buddy S (s.modFrame b.base f) fl held :=
  ⟨h.repr.modFrame (fun k => h.not_listed hb k) hf, h.tiles, h.apart, h.heldOrder, h.bound⟩

end

lemma setFreePages (n : Nat) : Buddy S { s with kFreePages := n } fl held :=
  ⟨h.repr.setFreePages n, h.tiles, h.apart, h.heldOrder, h.bound⟩

lemma take (hp : p ∈ fl k) :
    Buddy S (listRemove k p s) (update fl k ((fl k).erase p)) (insert ⟨k, p⟩ held) := by
  have hnd := h.repr.nodup k
  refine ⟨h.repr.listRemove hp, h.tiles.congr fun b => ?_, fun b hb hbf => ?_, fun b hb => ?_, ?_⟩
  · rw [Set.mem_union, Set.mem_union, mem_freeBlocks_remove hnd, Set.mem_insert_iff]
    by_cases hb : b = ⟨k, p⟩
    · subst hb; simp [mem_freeBlocks, hp]
    · simp [hb]
  · rw [mem_freeBlocks_remove hnd] at hbf
    rcases hb with rfl | hb
    · exact hbf.1 rfl
    · exact h.apart b hb hbf.2
  · rcases hb with rfl | hb
    · exact h.repr.order_le hp
    · exact h.heldOrder b hb
  · rw [(listRemove_sameGlobals k p s).total]
    exact h.bound

lemma give (hb : ⟨k, p⟩ ∈ held) :
    Buddy S (listAdd k p s) (update fl k (p :: fl k)) (held \ {⟨k, p⟩}) := by
  refine ⟨h.repr.listAdd (h.heldOrder _ hb) (h.base_lt hb) (h.not_listed hb),
    h.tiles.congr fun b => ?_, fun b hb' hbf => ?_, fun b hb' => h.heldOrder b hb'.1, ?_⟩
  · rw [Set.mem_union, Set.mem_union, mem_freeBlocks_add, Set.mem_sdiff, Set.mem_singleton_iff]
    by_cases hbk : b = ⟨k, p⟩
    · subst hbk; simp [hb]
    · simp [hbk]
  · rcases mem_freeBlocks_add.mp hbf with hbk | hbf
    · exact hb'.2 hbk
    · exact h.apart b hb'.1 hbf
  · rw [(listAdd_sameGlobals k p s).total]
    exact h.bound

lemma split (hb : ⟨k + 1, p⟩ ∈ held)
    (hh : ∀ b, b ∈ held' ↔ b = ⟨k, p⟩ ∨ b = ⟨k, p + 2 ^ k⟩ ∨ (b ∈ held ∧ b ≠ ⟨k + 1, p⟩)) :
    Buddy S s fl held' := by
  have hfree : ∀ b ∈ freeBlocks fl, b ≠ ⟨k + 1, p⟩ := by
    rintro b hbf rfl
    exact h.apart _ hb hbf
  refine ⟨h.repr, h.tiles.split (Or.inr hb) fun b => ?_, fun b hb' hbf => ?_,
    fun b hb' => ?_, h.bound⟩
  · simp only [Set.mem_union, hh]
    constructor
    · rintro (hbf | h1 | h1 | h1)
      · exact Or.inr (Or.inr ⟨Or.inl hbf, hfree b hbf⟩)
      · exact Or.inl h1
      · exact Or.inr (Or.inl h1)
      · exact Or.inr (Or.inr ⟨Or.inr h1.1, h1.2⟩)
    · rintro (h1 | h1 | ⟨h1 | h1, h2⟩)
      · exact Or.inr (Or.inl h1)
      · exact Or.inr (Or.inr (Or.inl h1))
      · exact Or.inl h1
      · exact Or.inr (Or.inr (Or.inr ⟨h1, h2⟩))
  · -- a half that were free would share its cells with the held whole
    have hcell : ∀ c : Block, c = ⟨k, p⟩ ∨ c = ⟨k, p + 2 ^ k⟩ →
        c.base ∈ Block.cells ⟨k + 1, p⟩ := by
      rintro c (rfl | rfl)
      · exact Block.mem_cells_succ.mpr (Or.inl (Block.base_mem_cells _))
      · exact Block.mem_cells_succ.mpr (Or.inr (Block.base_mem_cells _))
    have hnot : ∀ c : Block, c ∈ freeBlocks fl → c.base ∉ Block.cells ⟨k + 1, p⟩ := by
      intro c hc hcb
      exact hfree c hc (h.tiles.unique _ (Or.inl hc) _ (Or.inr hb) _ c.base_mem_cells hcb)
    rcases (hh b).mp hb' with h1 | h1 | ⟨h1, _⟩
    · exact hnot b hbf (hcell b (Or.inl h1))
    · exact hnot b hbf (hcell b (Or.inr h1))
    · exact h.apart b h1 hbf
  · have hk := h.heldOrder _ hb
    simp only at hk
    rcases (hh b).mp hb' with rfl | rfl | ⟨h1, _⟩
    · show k ≤ maxOrder
      omega
    · show k ≤ maxOrder
      omega
    · exact h.heldOrder b h1

lemma merge (hal : 2 ^ (k + 1) ∣ p) (hk : k < maxOrder) (hlo : ⟨k, p⟩ ∈ held)
    (hhi : ⟨k, p + 2 ^ k⟩ ∈ held)
    (hh : ∀ b, b ∈ held' ↔ b = ⟨k + 1, p⟩ ∨ (b ∈ held ∧ b ≠ ⟨k, p⟩ ∧ b ≠ ⟨k, p + 2 ^ k⟩)) :
    Buddy S s fl held' := by
  have hfree : ∀ b ∈ freeBlocks fl, b ≠ ⟨k, p⟩ ∧ b ≠ ⟨k, p + 2 ^ k⟩ := by
    intro b hbf
    constructor
    · rintro rfl; exact h.apart _ hlo hbf
    · rintro rfl; exact h.apart _ hhi hbf
  refine ⟨h.repr, h.tiles.merge hal (Or.inr hlo) (Or.inr hhi) fun b => ?_, fun b hb' hbf => ?_,
    fun b hb' => ?_, h.bound⟩
  · simp only [Set.mem_union, hh]
    constructor
    · rintro (hbf | h1 | h1)
      · exact Or.inr ⟨Or.inl hbf, hfree b hbf⟩
      · exact Or.inl h1
      · exact Or.inr ⟨Or.inr h1.1, h1.2⟩
    · rintro (h1 | ⟨h1 | h1, h2⟩)
      · exact Or.inr (Or.inl h1)
      · exact Or.inl h1
      · exact Or.inr (Or.inr ⟨h1, h2⟩)
  · rcases (hh b).mp hb' with rfl | ⟨h1, _⟩
    · -- the whole would be a tile over the lower half
      have he := h.tiles.eq_of_base_eq (Or.inl hbf) (Or.inr hlo) rfl
      simp at he
    · exact h.apart b h1 hbf
  · rcases (hh b).mp hb' with rfl | ⟨h1, _⟩
    · exact hk
    · exact h.heldOrder b h1

end

end Buddy

/-! ## Allocation: the split loop -/

/-- What a loop over held blocks leaves alone: the fields of `Keeps`, the
free-page counter, and the order of every frame in `base`. -/
structure LoopKeeps (s s' : Pmm) (base : Set Nat) : Prop extends Pmm.Keeps s s' where
  freePages : s'.kFreePages = s.kFreePages
  order : ∀ q ∈ base, (s'.kFrames q).order = (s.kFrames q).order

def bases (B : Set Block) : Set Nat := {q | ∃ b ∈ B, b.base = q}

lemma Buddy.rehold (h : Buddy S s fl held) (hb : b ∈ held) :
    Buddy S s fl (insert b (held \ {b})) := by
  refine h.congr fun c => ?_
  by_cases hc : c = b
  · subst hc; simp [hb]
  · simp [hc]

lemma Buddy.base_ne_high (h : Buddy S s fl held) (hb : ⟨order + 1, p⟩ ∈ held) (hbh : b ∈ held) :
    b.base ≠ p + 2 ^ order := by
  intro e
  have he := h.tiles.unique b (Or.inr hbh) _ (Or.inr hb) _ b.base_mem_cells
    (e ▸ Block.mem_cells_succ.mpr (Or.inr (Block.base_mem_cells ⟨order, p + 2 ^ order⟩)))
  subst he
  have := Nat.two_pow_pos order
  simp only at e
  omega

/-- One split: the upper half goes to the free list of its order, and the
lower half stays in hand. -/
lemma Buddy.halve (h : Buddy S s fl held) (hb : ⟨order + 1, p⟩ ∈ held) :
    Buddy S (listAdd order (p + 2 ^ order) s) (update fl order ((p + 2 ^ order) :: fl order))
      (insert ⟨order, p⟩ (held \ {⟨order + 1, p⟩})) := by
  have h1 : Buddy S s fl {b | b = ⟨order, p⟩ ∨ b = ⟨order, p + 2 ^ order⟩ ∨
      (b ∈ held ∧ b ≠ ⟨order + 1, p⟩)} := h.split hb fun b => Iff.rfl
  refine (h1.give (k := order) (p := p + 2 ^ order) (Or.inr (Or.inl rfl))).congr fun b => ?_
  have hlow : b = ⟨order, p⟩ → b ≠ ⟨order, p + 2 ^ order⟩ := by
    rintro rfl
    have := Nat.two_pow_pos order
    simp
  have hheld : b ∈ held → b ≠ ⟨order, p + 2 ^ order⟩ := by
    rintro hbh rfl
    exact h.base_ne_high hb hbh rfl
  simp only [Set.mem_insert_iff, Set.mem_sdiff, Set.mem_ofPred_eq, Set.mem_singleton_iff]
  tauto

/-- The free lists after a block at `p` has been split from `order` down to
`target`: an upper half for each order in between. -/
def splitLists (fl : Nat → List Nat) (p target order : Nat) : Nat → List Nat := fun i =>
  if target ≤ i ∧ i < order then (p + 2 ^ i) :: fl i else fl i

lemma splitLists_of_le (fl : Nat → List Nat) (h : order ≤ target) :
    splitLists fl p target order = fl := by
  funext i
  exact if_neg (by omega)

lemma splitLists_succ (fl : Nat → List Nat) (h : target ≤ order) :
    splitLists fl p target (order + 1) =
      splitLists (update fl order ((p + 2 ^ order) :: fl order)) p target order := by
  funext i
  unfold splitLists
  by_cases hi : i = order
  · subst hi
    simp [h]
  · rw [update_of_ne hi]
    exact if_congr (by omega) rfl rfl

/-- The halves given back and the block in hand have the size of the block
that was split. -/
lemma freeSum_splitLists (p : Nat) : ∀ {order : Nat} {fl : Nat → List Nat}, target ≤ order → order ≤
      maxOrder → freeSum (splitLists fl p target order) + 2 ^ target = freeSum fl + 2 ^ order := by
  intro order
  induction order with
  | zero =>
    intro fl hle _
    obtain rfl : target = 0 := by omega
    rw [splitLists_of_le fl hle]
  | succ order ih =>
    intro fl hle hmax
    by_cases htgt : target ≤ order
    · rw [splitLists_succ fl htgt, ih htgt (by omega), freeSum_add fl (by omega), pow_succ]
      omega
    · obtain rfl : target = order + 1 := by omega
      rw [splitLists_of_le fl hle]

lemma mem_freeBlocks_splitLists (hb : b ∈ freeBlocks (splitLists fl p target order)) :
    b ∈ freeBlocks fl ∨ ∃ j, target ≤ j ∧ j < order ∧ b = ⟨j, p + 2 ^ j⟩ := by
  rw [mem_freeBlocks, splitLists] at hb
  split at hb
  next hj =>
    rcases List.mem_cons.mp hb with he | hb
    · exact Or.inr ⟨b.order, hj.1, hj.2, congrArg (Block.mk b.order) he⟩
    · exact Or.inl hb
  next => exact Or.inl hb

lemma splitLoop_spec (p target : Nat) :
    ∀ (order : Nat) {s : Pmm} {fl : Nat → List Nat} {held : Set Block}, target ≤ order →
      Buddy S s fl held → ⟨order, p⟩ ∈ held →
      Buddy S (splitLoop p target order s) (splitLists fl p target order)
          (insert ⟨target, p⟩ (held \ {⟨order, p⟩})) ∧ LoopKeeps s (splitLoop p target order s)
          (bases held)
  | 0, s, fl, held, hle, h, hb => by
    obtain rfl : target = 0 := by omega
    rw [splitLists_of_le fl hle]
    exact ⟨h.rehold hb, .refl s, rfl, fun _ _ => rfl⟩
  | order + 1, s, fl, held, hle, h, hb => by
    by_cases htgt : order + 1 > target
    · rw [splitLoop, if_pos htgt, splitLists_succ fl (by omega)]
      have hal : 2 ^ (order + 1) ∣ p := h.tiles.aligned _ (Or.inr hb)
      have hbuddy : buddyOf p order = p + 2 ^ order := Block.xor_of_low hal
      have hlo : (⟨order, p⟩ : Block) ∉ held \ {⟨order + 1, p⟩} := by
        rintro ⟨hlo, -⟩
        have he := h.held_eq hlo hb rfl
        simp at he
      obtain ⟨h3, hkeep⟩ := splitLoop_spec p target order (by omega) (h.halve hb)
        (Set.mem_insert _ _)
      rw [hbuddy]
      refine ⟨?_, ?_, ?_, ?_⟩
      · rwa [Set.insert_sdiff_self_of_notMem hlo] at h3
      · exact (Pmm.Keeps.listAdd _ _ s).trans hkeep.toKeeps
      · rw [hkeep.freePages, listAdd_kFreePages]
      · rintro q ⟨b, hbh, rfl⟩
        have hq : b.base ∈ bases (insert ⟨order, p⟩ (held \ {⟨order + 1, p⟩})) := by
          by_cases hbw : b = ⟨order + 1, p⟩
          · subst hbw
            exact ⟨⟨order, p⟩, Set.mem_insert _ _, rfl⟩
          · exact ⟨b, Set.mem_insert_of_mem _ ⟨hbh, hbw⟩, rfl⟩
        rw [hkeep.order _ hq, listAdd_order, if_neg (h.base_ne_high hb hbh)]
    · obtain rfl : target = order + 1 := by omega
      rw [splitLoop, if_neg htgt, splitLists_of_le fl hle]
      exact ⟨h.rehold hb, .refl s, rfl, fun _ _ => rfl⟩

/-! ## Allocation: the call -/

lemma targetOrder_isSome (h : count ≤ 2 ^ 63) : ∃ t, targetOrder count = some t := by
  rw [← Option.isSome_iff_exists]
  unfold targetOrder
  rw [List.find?_isSome]
  exact ⟨63, by simp, by simpa using h⟩

lemma targetOrder_spec {t : Nat} (h : targetOrder count = some t) :
    count ≤ 2 ^ t ∧ ∀ j < t, 2 ^ j < count := by
  unfold targetOrder at h
  rw [List.find?_range_eq_some] at h
  obtain ⟨h1, _, h2⟩ := h
  refine ⟨by simpa using h1, fun j hj => by simpa using h2 j hj⟩

lemma findBlock_some (h : findBlock target s = some (order, pfn)) :
    target ≤ order ∧ order ≤ maxOrder ∧ s.kFreeLists order = some pfn ∧ ∀ j, target ≤ j →
    j < order → s.kFreeLists j = none := by
  unfold findBlock at h
  rw [List.findSome?_eq_some_iff] at h
  obtain ⟨l1, a, l2, hl, ha, hnone⟩ := h
  rw [Option.map_eq_some_iff] at ha
  obtain ⟨q, hq, hqe⟩ := ha
  cases hqe
  have hmem : order ∈ List.range' target (maxOrder + 1 - target) := by simp [hl]
  rw [List.mem_range'_1] at hmem
  refine ⟨hmem.1, by omega, hq, fun j hj1 hj2 => ?_⟩
  -- a smaller order stands earlier in the search
  have hj : j ∈ List.range' target (maxOrder + 1 - target) := by
    rw [List.mem_range'_1]; omega
  rw [hl, List.mem_append, List.mem_cons] at hj
  have hsorted : (l1 ++ order :: l2).Pairwise (· < ·) := hl ▸ List.pairwise_lt_range'
  rcases hj with hj | hj | hj
  · simpa using hnone j hj
  · omega
  · have := (List.pairwise_cons.mp (List.pairwise_append.mp hsorted).2.1).1 j hj
    omega

lemma findBlock_none (h : findBlock target s = none) :
    ∀ j, target ≤ j → j ≤ maxOrder → s.kFreeLists j = none := by
  intro j hj1 hj2
  unfold findBlock at h
  rw [List.findSome?_eq_none_iff] at h
  have hj : j ∈ List.range' target (maxOrder + 1 - target) := by
    rw [List.mem_range'_1]; omega
  simpa using h j hj

/-- The state of a manager whose callers hold the blocks `live`. -/
structure PmmInv (S : Set Nat) (s : Pmm) (fl : Nat → List Nat) (live : Set Block) : Prop
    extends Buddy S s fl live where
  freePages : s.kFreePages = freeSum fl
  liveOrder : ∀ b ∈ live, (s.kFrames b.base).order = b.order

/-- The free lists after the block at `pfn` was taken from `order` for an
allocation of order `target`. -/
def takenLists (fl : Nat → List Nat) (target order pfn : Nat) : Nat → List Nat :=
  splitLists (update fl order ((fl order).erase pfn)) pfn target order

lemma freeSum_takenLists (hle : target ≤ order) (hmax : order ≤ maxOrder) (hp : pfn ∈ fl order) :
    freeSum (takenLists fl target order pfn) + 2 ^ target = freeSum fl := by
  rw [takenLists, freeSum_splitLists pfn hle hmax, freeSum_remove fl hmax hp]

/-- Taking the block `findBlock` found: the caller gets a block of the
target order, whatever larger block it was cut from. -/
lemma takeBlock_spec (h : PmmInv S s fl live) (hle : target ≤ order)
    (hmax : order ≤ maxOrder) (hhead : s.kFreeLists order = some pfn) :
    PmmInv S (takeBlock target order pfn s) (takenLists fl target order pfn)
      (insert ⟨target, pfn⟩ live) ∧
      Pmm.Keeps s (takeBlock target order pfn s) ∧ (⟨target, pfn⟩ : Block) ∉ live ∧
      ∀ b ∈ freeBlocks (takenLists fl target order pfn), b ∈ freeBlocks fl ∨
        ∃ j, target ≤ j ∧ j < order ∧ b = ⟨j, pfn + 2 ^ j⟩ := by
  have hp : pfn ∈ fl order := by
    rw [h.repr.head hmax] at hhead
    exact List.mem_of_mem_head? hhead
  have hnl : ∀ b ∈ live, b.base ≠ pfn := by
    rintro b hb rfl
    exact h.not_listed hb order hp
  have h1 := h.toBuddy.take hp
  obtain ⟨h2, hkeep⟩ := splitLoop_spec pfn target order hle h1 (Set.mem_insert _ _)
  have htgt : target ≤ maxOrder := by omega
  have hheld : ∀ b, b ∈ (insert ⟨target, pfn⟩ live : Set Block) ↔
      b ∈ insert ⟨target, pfn⟩ (insert ⟨order, pfn⟩ live \ {⟨order, pfn⟩}) := by
    intro b
    simp only [Set.mem_insert_iff, Set.mem_sdiff, Set.mem_singleton_iff]
    constructor
    · rintro (hb | hb)
      · exact Or.inl hb
      · exact Or.inr ⟨Or.inr hb, fun e => hnl b hb (by rw [e])⟩
    · rintro (hb | ⟨hb | hb, hb'⟩)
      · exact Or.inl hb
      · exact absurd hb hb'
      · exact Or.inr hb
  have h3 := h2.congr hheld
  have hin : (⟨target, pfn⟩ : Block) ∈ (insert ⟨target, pfn⟩ live : Set Block) :=
    Set.mem_insert _ _
  have h4 := h3.modFrame hin
    (f := fun f => { f with flags := f.flags ||| pageUsed }) (isFree_setUsed _)
  have h5 := h4.modFrame hin (f := fun f => { f with order := target }) rfl
  have hk1 : Pmm.Keeps s (listRemove order pfn s) := .listRemove order pfn s
  refine ⟨⟨h5.setFreePages _, ?_, ?_⟩, ?_, ?_, fun b hb => ?_⟩
  · -- the counter: what was taken off the list less what was put back
    show (splitLoop pfn target order (listRemove order pfn s)).kFreePages - 2 ^ target = _
    have hsum := freeSum_takenLists hle hmax hp
    rw [hkeep.freePages, listRemove_kFreePages, h.freePages]
    omega
  · rintro b (rfl | hb)
    · simp [takeBlock]
    · have hne := hnl b hb
      have hq : b.base ∈ bases (insert ⟨order, pfn⟩ live) := ⟨b, Set.mem_insert_of_mem _ hb, rfl⟩
      simp only [takeBlock, Pmm.modFrame_kFrames, if_neg hne, hkeep.order _ hq, listRemove_order]
      exact h.liveOrder b hb
  · refine Pmm.Keeps.setFreePages (Pmm.Keeps.trans (hk1.trans hkeep.toKeeps) ?_) _
    refine (Pmm.Keeps.modFrame pfn _ ?_ fun fr => ?_).trans (Pmm.Keeps.modFrame pfn _ ?_ ?_)
    · exact fun _ => rfl
    · simp only [PageFrame.isReserved, isReserved_setUsed]
    · exact fun _ => rfl
    · exact fun _ => rfl
  · exact fun hin => hnl _ hin rfl
  · rcases mem_freeBlocks_splitLists hb with hbf | hbj
    · exact Or.inl ((mem_freeBlocks_remove (h.repr.nodup order)).mp hbf).2
    · exact Or.inr hbj

/-- `pmm_alloc_pages`: it returns, and either it reports failure and
changes nothing or it hands out a block of the least sufficient order that
nobody held. -/
lemma pmmAllocPages_spec (h : PmmInv S s fl live) (hcount : count ≤ 2 ^ 63) :
    pmmAllocPages count s = some (0, s) ∨ ∃ target order pfn fl', targetOrder count = some target ∧
    findBlock target s = some (order, pfn) ∧
    pmmAllocPages count s = some (pfnToPhys pfn, takeBlock target order pfn s) ∧
    PmmInv S (takeBlock target order pfn s) fl' (insert ⟨target, pfn⟩ live) ∧
    Pmm.Keeps s (takeBlock target order pfn s) ∧ (⟨target, pfn⟩ : Block) ∉ live ∧
    ∀ b ∈ freeBlocks fl', b ∈ freeBlocks fl ∨
    ∃ j, target ≤ j ∧ j < order ∧ b = ⟨j, pfn + 2 ^ j⟩ := by
  unfold pmmAllocPages
  by_cases h0 : count = 0
  · exact Or.inl (by rw [if_pos h0])
  · obtain ⟨target, ht⟩ := targetOrder_isSome hcount
    simp only [if_neg h0, ht]
    by_cases hbig : target > maxOrder
    · exact Or.inl (by rw [if_pos hbig])
    · rw [if_neg hbig]
      cases hf : findBlock target s with
      | none => exact Or.inl rfl
      | some r =>
        obtain ⟨order, pfn⟩ := r
        obtain ⟨h1, h2, h3, _⟩ := findBlock_some hf
        exact Or.inr ⟨target, order, pfn, _, rfl, hf, rfl, takeBlock_spec h h1 h2 h3⟩

/-! ## Deallocation: the merge loop -/

/-- The buddy that the merge of the block at `pfn` looks at when it has
grown to order `i`: the other half of the order `i + 1` block around it. -/
def mergeBuddy (pfn i : Nat) : Nat := buddyOf (pfn / 2 ^ i * 2 ^ i) i

/-- The merge of a freed block reaches a buddy that is free and of the
right order and is kept apart only by a `PAGE_RESERVED` bit. -/
def StopsAtReserved (s : Pmm) (pfn order : Nat) : Prop :=
  ∃ j, order ≤ j ∧ j < maxOrder ∧
    (∀ i, order ≤ i → i ≤ j → mergeBuddy pfn i < s.kTotalPages ∧
      (s.kFrames (mergeBuddy pfn i)).isFree = true ∧
      (s.kFrames (mergeBuddy pfn i)).order = i) ∧
    (s.kFrames (mergeBuddy pfn j)).isReserved = true

lemma mergeBuddy_self (h : 2 ^ order ∣ pfn) : mergeBuddy pfn order = buddyOf pfn order := by
  rw [mergeBuddy, Nat.div_mul_cancel h]

lemma min_buddy (h : 2 ^ order ∣ pfn) :
    2 ^ (order + 1) ∣ (if buddyOf pfn order < pfn then buddyOf pfn order else pfn) ∧
      (if buddyOf pfn order < pfn then buddyOf pfn order else pfn) ≤ pfn ∧
      pfn < (if buddyOf pfn order < pfn then buddyOf pfn order else pfn) + 2 ^ (order + 1) ∧
      ((if buddyOf pfn order < pfn then buddyOf pfn order else pfn) = pfn ∧
          buddyOf pfn order = pfn + 2 ^ order ∨
        (if buddyOf pfn order < pfn then buddyOf pfn order else pfn) = buddyOf pfn order ∧
          pfn = buddyOf pfn order + 2 ^ order) := by
  have hpos := Nat.two_pow_pos order
  rw [pow_succ]
  by_cases hlow : 2 ^ (order + 1) ∣ pfn
  · have hb : buddyOf pfn order = pfn + 2 ^ order := Block.xor_of_low hlow
    have hlt : ¬ buddyOf pfn order < pfn := by omega
    rw [if_neg hlt, ← pow_succ]
    exact ⟨hlow, Nat.le_refl _, by omega, Or.inl ⟨rfl, hb⟩⟩
  · obtain ⟨hb, hdvd⟩ := Block.xor_of_high h hlow
    have hb' : buddyOf pfn order + 2 ^ order = pfn := hb
    have hlt : buddyOf pfn order < pfn := by omega
    rw [if_pos hlt, ← pow_succ]
    exact ⟨hdvd, by omega, by omega, Or.inr ⟨rfl, hb'.symm⟩⟩

/-- From the next order on, the merged block looks at the same buddies. -/
lemma mergeBuddy_congr {i : Nat} (hd : 2 ^ (order + 1) ∣ pfn') (hle : pfn' ≤ pfn)
    (hlt : pfn < pfn' + 2 ^ (order + 1)) (hi : order + 1 ≤ i) :
    mergeBuddy pfn' i = mergeBuddy pfn i := by
  have hdiv : pfn / 2 ^ (order + 1) = pfn' / 2 ^ (order + 1) :=
    (Block.mem_cells_iff_div (b := ⟨order + 1, pfn'⟩) hd).mp ⟨hle, hlt⟩
  obtain ⟨d, rfl⟩ := Nat.exists_eq_add_of_le hi
  simp only [mergeBuddy, pow_add 2 (order + 1) d, ← Nat.div_div_eq_div_mul, hdiv]

lemma StopsAtReserved.of_step (hal : 2 ^ order ∣ pfn) (hd : 2 ^ (order + 1) ∣ pfn')
    (hle : pfn' ≤ pfn) (hlt : pfn < pfn' + 2 ^ (order + 1))
    (hlim : buddyOf pfn order < s.kTotalPages)
    (hfree : (s.kFrames (buddyOf pfn order)).isFree = true)
    (hord : (s.kFrames (buddyOf pfn order)).order = order)
    (h : StopsAtReserved (listRemove order (buddyOf pfn order) s) pfn' (order + 1)) :
    StopsAtReserved s pfn order := by
  obtain ⟨j, hj1, hj2, hall, hres⟩ := h
  have hkeep := Pmm.Keeps.listRemove order (buddyOf pfn order) s
  refine ⟨j, by omega, hj2, fun i hi1 hi2 => ?_, ?_⟩
  · by_cases hio : i = order
    · subst hio
      rw [mergeBuddy_self hal]
      exact ⟨hlim, hfree, hord⟩
    · obtain ⟨h1, h2, h3⟩ := hall i (by omega) hi2
      rw [mergeBuddy_congr hd hle hlt (by omega)] at h1 h2 h3
      rw [hkeep.total] at h1
      rw [listRemove_isFree] at h2
      rw [listRemove_order] at h3
      refine ⟨h1, ?_, h3⟩
      split at h2
      · cases h2
      · exact h2
  · rw [hkeep.reserved, mergeBuddy_congr hd hle hlt hj1] at hres
    exact hres

/-- One merge: the free buddy is taken off its list and the two halves
become one held block. -/
lemma Buddy.absorb {q : Nat} (h : Buddy S s fl held) (hb : ⟨order, pfn⟩ ∈ held)
    (hin : buddyOf pfn order ∈ fl order) (hmax : order < maxOrder) (hd : 2 ^ (order + 1) ∣ q)
    (hcase : q = pfn ∧ buddyOf pfn order = pfn + 2 ^ order ∨
      q = buddyOf pfn order ∧ pfn = buddyOf pfn order + 2 ^ order) :
    Buddy S (listRemove order (buddyOf pfn order) s)
      (update fl order ((fl order).erase (buddyOf pfn order)))
      (insert ⟨order + 1, q⟩ (held \ {⟨order, pfn⟩})) := by
  have hfl := h.take hin
  have hpin : (⟨order, pfn⟩ : Block) ∈ (insert ⟨order, buddyOf pfn order⟩ held : Set Block) :=
    Set.mem_insert_of_mem _ hb
  have hbin : (⟨order, buddyOf pfn order⟩ : Block) ∈
      (insert ⟨order, buddyOf pfn order⟩ held : Set Block) := Set.mem_insert _ _
  have hbh : (⟨order, buddyOf pfn order⟩ : Block) ∉ held := fun hh => h.apart _ hh hin
  have hset : ∀ b, b ∈ (insert ⟨order + 1, q⟩ (held \ {⟨order, pfn⟩}) : Set Block) ↔
      b = ⟨order + 1, q⟩ ∨ (b ∈ (insert ⟨order, buddyOf pfn order⟩ held : Set Block) ∧
        b ≠ ⟨order, pfn⟩ ∧ b ≠ ⟨order, buddyOf pfn order⟩) := by
    intro b
    simp only [Set.mem_insert_iff, Set.mem_sdiff, Set.mem_singleton_iff]
    constructor
    · rintro (h1 | ⟨h1, h2⟩)
      · exact Or.inl h1
      · exact Or.inr ⟨Or.inr h1, h2, fun e => hbh (e ▸ h1)⟩
    · rintro (h1 | ⟨h1 | h1, h2, h3⟩)
      · exact Or.inl h1
      · exact absurd h1 h3
      · exact Or.inr ⟨h1, h2⟩
  rcases hcase with ⟨hqp, hbq⟩ | ⟨hqb, hpq⟩
  · refine hfl.merge hd hmax (hqp ▸ hpin) (by rw [hqp, ← hbq]; exact hbin) fun b => ?_
    rw [hset b, hqp, ← hbq]
  · refine hfl.merge hd hmax (hqb ▸ hbin) (by rw [hqb, ← hpq]; exact hpin) fun b => ?_
    rw [hset b, hqb, ← hpq]
    simp only [and_comm]

/-- The merge loop, by induction on the trips left. The held block grows;
when the loop stops below `MAX_ORDER` with the buddy on the list after
all, a `PAGE_RESERVED` bit stopped it. -/
lemma mergeLoop_spec :
    ∀ (n : Nat) {pfn order : Nat} {s : Pmm} {fl : Nat → List Nat} {held : Set Block},
    order + n = maxOrder → Buddy S s fl held → ⟨order, pfn⟩ ∈ held →
    ∃ pfn' order' s' fl', mergeLoop n pfn order s = (pfn', order', s') ∧
      Buddy S s' fl' (insert ⟨order', pfn'⟩ (held \ {⟨order, pfn⟩})) ∧ LoopKeeps s s' Set.univ ∧
      freeSum fl' + 2 ^ order' = freeSum fl + 2 ^ order ∧ freeBlocks fl' ⊆ freeBlocks fl ∧
      (order' < maxOrder → buddyOf pfn' order' ∈ fl' order' → StopsAtReserved s pfn order)
  | 0, pfn, order, s, fl, held, hn, h, hb =>
    ⟨pfn, order, s, fl, rfl, h.rehold hb, ⟨.refl s, rfl, fun _ _ => rfl⟩, rfl,
      fun _ hb => hb, fun hlt => absurd hlt (by omega)⟩
  | n + 1, pfn, order, s, fl, held, hn, h, hb => by
    have hal : 2 ^ order ∣ pfn := h.tiles.aligned _ (Or.inr hb)
    have hmax : order < maxOrder := by omega
    -- the three ways to stop leave the block and the state as they are
    have hstop : (buddyOf pfn order ∈ fl order → StopsAtReserved s pfn order) →
        ∃ pfn' order' s' fl', (pfn, order, s) = (pfn', order', s') ∧
          Buddy S s' fl' (insert ⟨order', pfn'⟩ (held \ {⟨order, pfn⟩})) ∧
          LoopKeeps s s' Set.univ ∧ freeSum fl' + 2 ^ order' = freeSum fl + 2 ^ order ∧
          freeBlocks fl' ⊆ freeBlocks fl ∧
          (order' < maxOrder → buddyOf pfn' order' ∈ fl' order' → StopsAtReserved s pfn order) :=
      fun hr => ⟨pfn, order, s, fl, rfl, h.rehold hb, ⟨.refl s, rfl, fun _ _ => rfl⟩, rfl,
        fun _ hb => hb, fun _ => hr⟩
    rw [mergeLoop]
    by_cases hlim : buddyOf pfn order ≥ s.kTotalPages
    · rw [if_pos hlim]
      exact hstop fun hin => absurd (h.repr.bound _ _ hin) (by omega)
    have hlt : buddyOf pfn order < s.kTotalPages := by omega
    rw [if_neg hlim]
    cases hfree : (s.kFrames (buddyOf pfn order)).isFree with
    | false =>
      rw [if_pos (by simp [hfree])]
      refine hstop fun hin => ?_
      have hset := (h.repr.flag _ hlt).mpr ⟨order, hin⟩
      simp [hfree] at hset
    | true =>
    by_cases hord : (s.kFrames (buddyOf pfn order)).order = order
    · cases hres : (s.kFrames (buddyOf pfn order)).isReserved with
      | true =>
        rw [if_pos (by simp [hres])]
        refine hstop fun _ => ⟨order, Nat.le_refl _, hmax, fun i hi1 hi2 => ?_, ?_⟩
        · obtain rfl : i = order := by omega
          rw [mergeBuddy_self hal]
          exact ⟨hlt, hfree, hord⟩
        · rw [mergeBuddy_self hal]
          exact hres
      | false =>
        rw [if_neg (by simp [hfree, hord, hres])]
        have hin : buddyOf pfn order ∈ fl order := by
          obtain ⟨k, hk⟩ := (h.repr.flag _ hlt).mp hfree
          have hko : k = order := (h.repr.order k _ hk).symm.trans hord
          exact hko ▸ hk
        obtain ⟨hd, hle, hup, hcase⟩ := min_buddy hal
        generalize hq : (if buddyOf pfn order < pfn then buddyOf pfn order else pfn) = q at *
        obtain ⟨pfn', order', s', fl', he, hB, hK, hsum, hsub, hst⟩ :=
          mergeLoop_spec n (by omega) (h.absorb hb hin hmax hd hcase) (Set.mem_insert _ _)
        have hnq : (⟨order + 1, q⟩ : Block) ∉ held \ {⟨order, pfn⟩} := by
          rintro ⟨hh, hne⟩
          have hcell : pfn ∈ Block.cells ⟨order + 1, q⟩ := ⟨hle, hup⟩
          exact hne (h.tiles.unique _ (Or.inr hh) _ (Or.inr hb) pfn hcell
            (Block.base_mem_cells ⟨order, pfn⟩))
        refine ⟨pfn', order', s', fl', he, ?_, ⟨?_, ?_, fun x hx => ?_⟩, ?_,
          fun b hb' => ?_, fun h1 h2 => ?_⟩
        · rwa [Set.insert_sdiff_self_of_notMem hnq] at hB
        · exact (Pmm.Keeps.listRemove _ _ s).trans hK.toKeeps
        · rw [hK.freePages, listRemove_kFreePages]
        · rw [hK.order x hx, listRemove_order]
        · have hrem := freeSum_remove fl hmax.le hin
          rw [hsum, pow_succ]
          omega
        · exact ((mem_freeBlocks_remove (h.repr.nodup order)).mp (hsub hb')).2
        · exact (hst h1 h2).of_step hal hd hle hup hlt hfree hord
    · rw [if_pos (by simp [hord])]
      exact hstop fun hin => absurd (h.repr.order _ _ hin) hord

/-! ## Deallocation: the call -/

lemma physToPfn_pfnToPhys (pfn : Nat) : physToPfn (pfnToPhys pfn) = pfn := by
  simp [physToPfn, pfnToPhys, pageShift, Nat.shiftLeft_eq, Nat.shiftRight_eq_div_pow]

lemma pfnToPhys_eq_zero : pfnToPhys pfn = 0 ↔ pfn = 0 := by
  simp [pfnToPhys, pageShift, Nat.shiftLeft_eq]

section

variable {s1 : Pmm}

/-- The state in which the merge loop starts: USED is cleared in the first
frame of the block, and nothing else that the loop reads has changed. -/
lemma PmmInv.clearUsed (h : PmmInv S s fl live) (hb : (⟨order, pfn⟩ : Block) ∈ live)
    (hs1 : Pmm.modFrame { s with kFreePages := s.kFreePages + 2 ^ order } pfn
      (fun f => { f with flags := f.flags &&& ~~~pageUsed }) = s1) :
    Buddy S s1 fl live ∧ Pmm.Keeps s s1 ∧ (∀ q, (s1.kFrames q).order = (s.kFrames q).order) ∧
    (StopsAtReserved s1 pfn order → StopsAtReserved s pfn order) := by
  have hres : ∀ f : PageFrame,
      ({ f with flags := f.flags &&& ~~~pageUsed } : PageFrame).isReserved = f.isReserved := by
    intro f
    simp only [PageFrame.isReserved, isReserved_clearUsed]
  have hB : Buddy S s1 fl live := by
    rw [← hs1]
    exact (h.toBuddy.setFreePages _).modFrame hb (isFree_clearUsed _)
  have hK : Pmm.Keeps s s1 := by
    rw [← hs1]
    exact ((Pmm.Keeps.refl s).setFreePages _).trans
      (Pmm.Keeps.modFrame pfn _ (by exact fun _ => rfl) (by exact hres))
  have hord : ∀ q, (s1.kFrames q).order = (s.kFrames q).order := by
    intro q
    rw [← hs1]
    exact Pmm.modFrame_proj _ PageFrame.order pfn _ (by exact fun _ => rfl) q
  have hfree : ∀ q, (s1.kFrames q).isFree = (s.kFrames q).isFree := by
    intro q
    rw [← hs1]
    exact Pmm.modFrame_proj _ PageFrame.isFree pfn _ (by exact isFree_clearUsed) q
  refine ⟨hB, hK, hord, ?_⟩
  rintro ⟨j, hj1, hj2, hall, hreserved⟩
  refine ⟨j, hj1, hj2, fun i hi1 hi2 => ?_, ?_⟩
  · have hi := hall i hi1 hi2
    rwa [hK.total, hfree, hord] at hi
  · rwa [hK.reserved] at hreserved

/-- The block that the merge loop ends with is none of the other blocks in
use: its pages are those of the freed block and of free ones. -/
lemma PmmInv.merged_not_held (h : PmmInv S s fl live) (hb : (⟨order, pfn⟩ : Block) ∈ live)
    {fl' : Nat → List Nat} (hB : Buddy S s' fl' (insert c (live \ {⟨order, pfn⟩})))
    (hsub : freeBlocks fl' ⊆ freeBlocks fl) : c ∉ live \ {⟨order, pfn⟩} := by
  rintro ⟨hl, hl'⟩
  have hcell : pfn ∈ Block.cells ⟨order, pfn⟩ := Block.base_mem_cells _
  obtain ⟨d, hd, hpd⟩ := (hB.tiles.cover pfn).mp (h.mem_pages hb)
  rcases hd with hd | hd | hd
  · exact h.apart _ hb (h.tiles.unique _ (Or.inl (hsub hd)) _ (Or.inr hb) pfn hpd hcell ▸ hsub hd)
  · subst hd
    exact hl' (h.tiles.unique _ (Or.inr hl) _ (Or.inr hb) pfn hpd hcell)
  · exact hd.2 (h.tiles.unique _ (Or.inr hd.1) _ (Or.inr hb) pfn hpd hcell)

end

/-- `pmm_free_pages` on a held block: the block goes back to the free
lists, merged with its free buddies as far as the loop gets. -/
lemma pmmFreePages_spec (h : PmmInv S s fl live) (h0 : 0 ∉ S) (hb : b ∈ live) (count : Nat) :
    ∃ fl', PmmInv S (pmmFreePages (pfnToPhys b.base) count s) fl' (live \ {b}) ∧
    Pmm.Keeps s (pmmFreePages (pfnToPhys b.base) count s) ∧
    (pmmFreePages (pfnToPhys b.base) count s).kFreePages = s.kFreePages + 2 ^ b.order ∧
    (¬ StopsAtReserved s b.base b.order → Coalesced maxOrder (freeBlocks fl) →
      Coalesced maxOrder (freeBlocks fl')) := by
  obtain ⟨order, pfn⟩ := b
  have hne : pfnToPhys pfn ≠ 0 := by
    rw [ne_eq, pfnToPhys_eq_zero]
    rintro rfl
    exact h0 (h.mem_pages hb)
  have hord : (s.kFrames pfn).order = order := h.liveOrder _ hb
  have hmax : order ≤ maxOrder := h.heldOrder _ hb
  generalize hs1 : Pmm.modFrame { s with kFreePages := s.kFreePages + 2 ^ order } pfn
    (fun f => { f with flags := f.flags &&& ~~~pageUsed }) = s1
  obtain ⟨hB1, hK1, hord1, hstops⟩ := h.clearUsed hb hs1
  obtain ⟨pfn', order', s', fl', he, hB, hK, hsum, hsub, hst⟩ :=
    mergeLoop_spec (maxOrder - order) (by omega) hB1 hb
  have hcall : pmmFreePages (pfnToPhys pfn) count s = listAdd order' pfn' s' := by
    unfold pmmFreePages
    rw [if_neg hne]
    simp only [physToPfn_pfnToPhys, hord, hs1, he]
  have hnl := h.merged_not_held hb hB hsub
  have hgive := hB.give (k := order') (p := pfn') (Set.mem_insert _ _)
  rw [Set.insert_sdiff_self_of_notMem hnl] at hgive
  have hmax' : order' ≤ maxOrder := hB.heldOrder _ (Set.mem_insert _ _)
  rw [hcall]
  refine ⟨_, ⟨hgive, ?_, fun b hbl => ?_⟩, ?_, ?_, fun hns hco => ?_⟩
  · rw [listAdd_kFreePages, hK.freePages, freeSum_add fl' hmax', hsum, ← hs1]
    show s.kFreePages + 2 ^ order = _
    rw [h.freePages]
  · have hbp : b.base ≠ pfn' := by
      intro e
      have := hB.held_eq (Set.mem_insert_of_mem _ hbl) (Set.mem_insert _ _) e
      exact hnl (this ▸ hbl)
    rw [listAdd_order, if_neg hbp, hK.order _ (Set.mem_univ _), hord1]
    exact h.liveOrder b hbl.1
  · exact (hK1.trans hK.toKeeps).trans (Pmm.Keeps.listAdd _ _ s')
  · rw [listAdd_kFreePages, hK.freePages, ← hs1]
    rfl
  · have hset : freeBlocks (update fl' order' (pfn' :: fl' order')) =
        insert ⟨order', pfn'⟩ (freeBlocks fl') :=
      Set.ext fun b => mem_freeBlocks_add
    rw [hset]
    refine Coalesced.insert (fun k p hk hp h1 h2 => hco k p hk hp (hsub h1) (hsub h2))
      fun hlt hin => ?_
    exact hns (hstops (hst hlt hin))

/-! ## What other subsystems use -/

lemma PmmInv.setPrivateData (h : PmmInv S s fl live) (hb : b ∈ live) (v : Nat) :
    PmmInv S (s.modFrame b.base fun f => { f with privateData := v }) fl live := by
  refine ⟨h.toBuddy.modFrame hb rfl, h.freePages, fun c hc => ?_⟩
  rw [← h.liveOrder c hc]
  exact s.modFrame_proj PageFrame.order b.base _ (by exact fun _ => rfl) c.base

lemma pmmAllocPage_spec (h : PmmInv S s fl live) :
    pmmAllocPage s = some (0, s) ∨ ∃ f s' fl', pmmAllocPage s = some (pfnToPhys f, s') ∧
    PmmInv S s' fl' (insert ⟨0, f⟩ live) ∧ Pmm.Keeps s s' ∧ (⟨0, f⟩ : Block) ∉ live := by
  have hone : targetOrder 1 = some 0 := by decide
  cases pmmAllocPages_spec h (show 1 ≤ 2 ^ 63 by decide) with
  | inl hnull => exact Or.inl hnull
  | inr hgot =>
    obtain ⟨target, order, f, fl', ht, _, halloc, hinv, hk, hfresh, _⟩ := hgot
    obtain rfl : 0 = target := Option.mem_unique hone ht
    exact Or.inr ⟨f, _, fl', halloc, hinv, hk, hfresh⟩

/-! ## The number of free pages -/

lemma splitLoop_kFreePages (pfn target : Nat) :
    ∀ (order : Nat) (s : Pmm), (splitLoop pfn target order s).kFreePages = s.kFreePages := by
  intro order
  induction order with
  | zero => intro s; rfl
  | succ order ih =>
    intro s
    unfold splitLoop
    split
    · rw [ih, listAdd_kFreePages]
    · rfl

lemma PmmInv.kFreePages_eq_zero (h : PmmInv S s fl live) (hnone : findBlock 0 s = none) :
    s.kFreePages = 0 := by
  rw [h.freePages, freeSum]
  refine Finset.sum_eq_zero fun k hk => ?_
  have hk' : k ≤ maxOrder := Nat.lt_succ_iff.mp (Finset.mem_range.mp hk)
  have hhead := findBlock_none hnone k (Nat.zero_le k) hk'
  rw [h.repr.head hk', List.head?_eq_none_iff] at hhead
  simp [hhead]

lemma PmmInv.pow_le_kFreePages (h : PmmInv S s fl live) (hp : p ∈ fl k) : 2 ^ k ≤ s.kFreePages := by
  have hrem := freeSum_remove fl (h.repr.order_le hp) hp
  rw [h.freePages]
  omega

/-- `pmm_alloc_page` returns null, and changes nothing, exactly if no page
is counted as free, and otherwise counts one less. -/
lemma pmmAllocPage_count (h : PmmInv S s fl live) (h0 : 0 ∉ S)
    (hcall : pmmAllocPage s = some (p, s')) : (p = 0 ↔ s.kFreePages = 0) ∧ (p = 0 → s' = s) ∧
    s.kFreePages = s'.kFreePages + if p = 0 then 0 else 1 := by
  have hone : targetOrder 1 = some 0 := by decide
  unfold pmmAllocPage pmmAllocPages at hcall
  simp only [Nat.one_ne_zero, if_false, hone, gt_iff_lt, Nat.not_lt_zero] at hcall
  cases hfind : findBlock 0 s with
  | none =>
    have hzero := h.kFreePages_eq_zero hfind
    simp only [hfind, Option.some.injEq, Prod.mk.injEq] at hcall
    obtain ⟨rfl, rfl⟩ := hcall
    simp [hzero]
  | some r =>
    obtain ⟨order, pfn⟩ := r
    obtain ⟨hle, hmax, hhead, _⟩ := findBlock_some hfind
    have hp : pfn ∈ fl order := by
      rw [h.repr.head hmax] at hhead
      exact List.mem_of_mem_head? hhead
    have hS : pfn ∈ S :=
      h.tiles.cells_subset (Or.inl (show (⟨order, pfn⟩ : Block) ∈ freeBlocks fl from hp))
        (Block.base_mem_cells _)
    have hne : pfnToPhys pfn ≠ 0 := by
      rw [ne_eq, pfnToPhys_eq_zero]
      exact fun heq => h0 (heq ▸ hS)
    have hcount : (takeBlock 0 order pfn s).kFreePages = s.kFreePages - 1 := by
      show (splitLoop pfn 0 order (listRemove order pfn s)).kFreePages - 2 ^ 0 = _
      rw [splitLoop_kFreePages, listRemove_kFreePages, Nat.pow_zero]
    have hpos : 1 ≤ s.kFreePages := Nat.le_trans Nat.one_le_two_pow (h.pow_le_kFreePages hp)
    simp only [hfind, Option.some.injEq, Prod.mk.injEq] at hcall
    obtain ⟨rfl, rfl⟩ := hcall
    rw [hcount, if_neg hne]
    exact ⟨⟨fun heq => absurd heq hne, fun heq => by omega⟩, fun heq => absurd heq hne, by omega⟩

end VortexOS.Mm
