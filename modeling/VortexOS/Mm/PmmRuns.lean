/-
VortexOS.Mm.PmmRuns — the page allocator over whole runs.

A run is legal when callers free only what they hold (`PmmLegal`). The
invariant is `SysInv`: the free blocks and the held blocks tile the pages
`pmm_init` put on the lists. The free blocks are read off the state by
following the `next` pointers (`Pmm.freeList`), so statements about them
need no ghost lists.
-/
import VortexOS.Lib.Run
import VortexOS.Mm.PmmInitTheorems

namespace VortexOS.Mm

open Lib

variable {s s0 : Pmm} {fl : Nat → List Nat} {b : Block} {S : Set Nat} {live : Set Block}

/-! ## The free blocks of a state -/

/-- The frames met by following `next`, at most `n` of them. -/
def Pmm.walk (s : Pmm) : Nat → Option Nat → List Nat
  | 0, _ => []
  | _ + 1, none => []
  | n + 1, some p => p :: s.walk n (s.kFrames p).next

def Pmm.freeList (s : Pmm) (k : Nat) : List Nat := s.walk s.kTotalPages (s.kFreeLists k)

def Pmm.freeBlockList (s : Pmm) : List Block :=
  (List.range (maxOrder + 1)).flatMap fun k => (s.freeList k).map (Block.mk k)

lemma Pmm.walk_eq : ∀ {l : List Nat} {prev head : Option Nat} {n : Nat}, s.links.Seg prev head l →
    l.length ≤ n → s.walk n head = l
  | [], _, _, 0, _, _ => rfl
  | [], _, _, _ + 1, h, _ => by
    rw [show _ = none from h]
    rfl
  | p :: l, _, _, 0, _, hn => by simp at hn
  | p :: l, _, _, n + 1, h, hn => by
    obtain ⟨rfl, _, hrest⟩ := h
    rw [walk]
    exact congrArg (p :: ·) (walk_eq hrest (by simpa using hn))

lemma length_le_of_bounded {l : List Nat} {n : Nat} (hnd : l.Nodup) (hlt : ∀ p ∈ l, p < n) :
    l.length ≤ n := by
  have hsub : l ⊆ List.range n := fun p hp => List.mem_range.mpr (hlt p hp)
  simpa using (hnd.subperm hsub).length_le

namespace Pmm.Repr

lemma freeList_eq (h : s.Repr fl) {k : Nat} (hk : k ≤ maxOrder) : s.freeList k = fl k :=
  Pmm.walk_eq (h.dlist k hk).seg (length_le_of_bounded (h.nodup k) (h.bound k))

lemma mem_freeBlockList (h : s.Repr fl) : b ∈ s.freeBlockList ↔ b ∈ freeBlocks fl := by
  simp only [freeBlockList, List.mem_flatMap, List.mem_range, List.mem_map, freeBlocks]
  constructor
  · rintro ⟨k, hk, p, hp, rfl⟩
    rwa [h.freeList_eq (by omega)] at hp
  · intro hb
    have hle := h.order_le hb
    exact ⟨b.order, by omega, b.base, by rwa [h.freeList_eq hle], rfl⟩

lemma nodup_freeBlockList (h : s.Repr fl) : s.freeBlockList.Nodup := by
  rw [freeBlockList, List.nodup_flatMap]
  refine ⟨fun k hk => ?_, ?_⟩
  · rw [List.mem_range] at hk
    rw [h.freeList_eq (by omega)]
    exact (h.nodup k).map fun _ _ heq => (Block.mk.inj heq).2
  · refine List.nodup_range.imp fun {j k} hne => ?_
    rw [Function.onFun, List.disjoint_left]
    intro b hb hb'
    obtain ⟨p, _, rfl⟩ := List.mem_map.mp hb
    obtain ⟨q, _, heq⟩ := List.mem_map.mp hb'
    exact hne (Block.mk.inj heq).1.symm

lemma sum_freeBlockList (h : s.Repr fl) : (s.freeBlockList.map Block.size).sum = freeSum fl := by
  have hsum : ∀ n, n ≤ maxOrder + 1 →
      (((List.range n).flatMap fun k => (s.freeList k).map (Block.mk k)).map Block.size).sum =
        ∑ k ∈ Finset.range n, 2 ^ k * (fl k).length := by
    intro n
    induction n with
    | zero => simp
    | succ n ih =>
      intro hn
      rw [List.range_succ, List.flatMap_append, List.map_append, List.sum_append,
        ih (by omega), Finset.sum_range_succ, List.flatMap_singleton,
          h.freeList_eq (k := n) (by omega)]
      simp [Function.comp_def, Block.size, Nat.mul_comm]
  exact hsum (maxOrder + 1) (Nat.le_refl _)

end Pmm.Repr

def Pmm.freePages (s : Pmm) : Set Nat := {f | ∃ b ∈ s.freeBlockList, f ∈ b.cells}

/-- The pages that no caller holds. -/
lemma PmmInv.mem_freePages (h : PmmInv S s fl live) {f : Nat} :
    f ∈ s.freePages ↔ f ∈ S ∧ ∀ b ∈ live, f ∉ b.cells := by
  constructor
  · intro hf
    obtain ⟨b, hb, hin⟩ := hf
    rw [h.repr.mem_freeBlockList] at hb
    refine ⟨h.tiles.cells_subset (Or.inl hb) hin, fun c hc hin' => ?_⟩
    have hne : b ≠ c := fun heq => h.apart c hc (heq ▸ hb)
    exact Set.disjoint_left.mp (h.tiles.disjoint (Or.inl hb) (Or.inr hc) hne) hin hin'
  · intro hf
    obtain ⟨b, hb, hin⟩ := (h.tiles.cover f).mp hf.1
    cases hb with
    | inl hfree => exact ⟨b, h.repr.mem_freeBlockList.mpr hfree, hin⟩
    | inr hlive => exact absurd hin (hf.2 b hlive)

lemma PmmInv.card_le_kFreePages (h : PmmInv S s fl live) {F : Finset Nat}
    (hF : ∀ f ∈ F, f ∈ s.freePages) : F.card ≤ s.kFreePages := by
  have hsub : F ⊆ (s.freeBlockList.flatMap fun b => List.range' b.base b.size).toFinset := by
    intro f hf
    obtain ⟨b, hb, hin⟩ := hF f hf
    rw [List.mem_toFinset, List.mem_flatMap]
    exact ⟨b, hb, List.mem_range'_1.mpr hin⟩
  calc F.card ≤ (s.freeBlockList.flatMap fun b => List.range' b.base b.size).length :=
        (Finset.card_le_card hsub).trans (List.toFinset_card_le _)
    _ = (s.freeBlockList.map Block.size).sum := by simp [List.length_flatMap]
    _ = s.kFreePages := by rw [h.repr.sum_freeBlockList, h.freePages]

/-! ## Runs -/

structure PmmSys where
  pmm : Pmm
  live : List Block

inductive PmmCall where
  | alloc (count : Nat)
  | free (phys count : Nat)

/-- One call. A successful allocation of `count` pages hands out a block
of the smallest order that holds them. -/
def pmmStep (s : PmmSys) : PmmCall → Option PmmSys
  | .alloc count => (pmmAllocPages count s.pmm).map fun r =>
    { pmm := r.2
      live := if r.1 = 0 then s.live
        else ⟨(targetOrder count).getD 0, physToPfn r.1⟩ :: s.live }
  | .free phys count => some
      { pmm := pmmFreePages phys count s.pmm
        live := s.live.filter fun b => pfnToPhys b.base ≠ phys }

/-- What callers may do: ask for 1 to `2 ^ 52` pages, and free null or the
address of a block they hold. -/
def PmmLegal (s : PmmSys) : PmmCall → Prop
  | .alloc count => 1 ≤ count ∧ count ≤ 2 ^ 52
  | .free phys _ => phys = 0 ∨ ∃ b ∈ s.live, phys = pfnToPhys b.base

structure SysInv (S : Set Nat) (s0 : Pmm) (s : PmmSys) (fl : Nat → List Nat) : Prop where
  inv : PmmInv S s.pmm fl {b | b ∈ s.live}
  nodup : s.live.Nodup
  globals : Pmm.SameGlobals s0 s.pmm

/-- The call frees a block whose merge would be stopped by a
`PAGE_RESERVED` bit alone. -/
def FreeStops (s : PmmSys) : PmmCall → Prop
  | .alloc _ => False
  | .free phys _ => ∃ b ∈ s.live, phys = pfnToPhys b.base ∧ StopsAtReserved s.pmm b.base b.order

/-- Splitting leaves no two buddies free: the lower one of each pair it
makes holds the block that is handed out. -/
lemma Coalesced.of_split {fl' : Nat → List Nat} {target order pfn : Nat}
    (hco : Coalesced maxOrder (freeBlocks fl)) (hinv' : PmmInv S s fl' (insert ⟨target, pfn⟩ live))
    (hal : 2 ^ order ∣ pfn) (hnew : ∀ b ∈ freeBlocks fl', b ∈ freeBlocks fl ∨ ∃ j, target ≤ j ∧
      j < order ∧ b = ⟨j, pfn + 2 ^ j⟩) : Coalesced maxOrder (freeBlocks fl') := by
  intro k p hk hd hlo hhi
  cases hnew _ hhi with
  | inr hnewhi =>
    -- the lower half would start where the block handed out starts
    obtain ⟨j, _, _, heq⟩ := hnewhi
    obtain ⟨rfl, hbase⟩ := Block.mk.inj heq
    obtain rfl : p = pfn := by omega
    have hheld : (⟨target, p⟩ : Block) ∈ insert ⟨target, p⟩ live := Set.mem_insert _ _
    have hsame := hinv'.tiles.eq_of_base_eq (Or.inl hlo) (Or.inr hheld) rfl
    exact hinv'.apart _ hheld (hsame ▸ hlo)
  | inl holdhi =>
    cases hnew _ hlo with
    | inl holdlo => exact hco k p hk hd holdlo holdhi
    | inr hnewlo =>
      -- a new block is an upper half, so it is no lower half
      obtain ⟨j, _, hj, heq⟩ := hnewlo
      obtain ⟨rfl, rfl⟩ := Block.mk.inj heq
      have hpfn : 2 ^ (k + 1) ∣ pfn := dvd_trans (Nat.pow_dvd_pow 2 hj) hal
      exact Block.not_dvd_high hpfn hd

section

variable {s : PmmSys}

section

variable (h : SysInv S s0 s fl) (h0 : 0 ∉ S)
include h h0

lemma SysInv.alloc {count : Nat} (hcount : count ≤ 2 ^ 52) :
    ∃ s' fl', pmmStep s (.alloc count) = some s' ∧ SysInv S s0 s' fl' ∧
    (Coalesced maxOrder (freeBlocks fl) → Coalesced maxOrder (freeBlocks fl')) := by
  have hc63 : count ≤ 2 ^ 63 := Nat.le_trans hcount (by decide)
  cases pmmAllocPages_spec h.inv hc63 with
  | inl hnull => exact ⟨s, fl, by simp [pmmStep, hnull], h, fun hco => hco⟩
  | inr hgot =>
    obtain ⟨target, order, pfn, fl', ht, hf, halloc, hinv', hk, hfresh, hnew⟩ := hgot
    have hheld : (⟨target, pfn⟩ : Block) ∈ insert ⟨target, pfn⟩ {b | b ∈ s.live} :=
      Set.mem_insert _ _
    have hne : pfnToPhys pfn ≠ 0 := by
      rw [ne_eq, pfnToPhys_eq_zero]
      intro hzero
      exact h0 (hzero ▸ hinv'.mem_pages hheld)
    refine ⟨⟨takeBlock target order pfn s.pmm, ⟨target, pfn⟩ :: s.live⟩, fl', ?_, ?_, ?_⟩
    · simp [pmmStep, halloc, hne, ht, physToPfn_pfnToPhys]
    · refine ⟨?_, List.nodup_cons.mpr ⟨hfresh, h.nodup⟩, h.globals.trans hk.toSameGlobals⟩
      have hset : {b | b ∈ (⟨target, pfn⟩ : Block) :: s.live} =
          insert ⟨target, pfn⟩ {b | b ∈ s.live} := by
        ext b
        simp
      rw [hset]
      exact hinv'
    · intro hco
      obtain ⟨_, hmax, hhead, _⟩ := findBlock_some hf
      have hmem : pfn ∈ fl order := by
        have hl := (h.inv.repr.dlist order hmax).head
        rw [hhead] at hl
        exact List.mem_of_mem_head? hl.symm
      exact Coalesced.of_split hco hinv' (h.inv.tiles.aligned ⟨order, pfn⟩ (Or.inl hmem)) hnew

lemma SysInv.free (hb : b ∈ s.live) (count : Nat) :
    ∃ s' fl', pmmStep s (.free (pfnToPhys b.base) count) = some s' ∧ SysInv S s0 s' fl' ∧
    (¬ StopsAtReserved s.pmm b.base b.order → Coalesced maxOrder (freeBlocks fl) →
      Coalesced maxOrder (freeBlocks fl')) := by
  obtain ⟨fl', hinv', hk, _, hco⟩ := pmmFreePages_spec h.inv h0 hb count
  rw [pmmStep]
  generalize pmmFreePages (pfnToPhys b.base) count s.pmm = pmm' at hinv' hk
  refine ⟨_, fl', rfl, ⟨?_, h.nodup.filter _, h.globals.trans hk.toSameGlobals⟩, hco⟩
  -- filtering by the address removes exactly this block
  have hset : {c | c ∈ s.live.filter fun c => pfnToPhys c.base ≠ pfnToPhys b.base} =
      {c | c ∈ s.live} \ {b} := by
    ext c
    simp only [Set.mem_ofPred_eq, List.mem_filter, decide_eq_true_eq, Set.mem_sdiff,
      Set.mem_singleton_iff]
    refine and_congr_right fun hc => not_congr ⟨fun heq => ?_, fun heq => by rw [heq]⟩
    have hbase : c.base = b.base := by
      rw [← physToPfn_pfnToPhys c.base, heq, physToPfn_pfnToPhys]
    exact h.inv.tiles.eq_of_base_eq (Or.inr hc) (Or.inr hb) hbase
  rw [hset]
  exact hinv'

lemma SysInv.freeNull (count : Nat) : pmmStep s (.free 0 count) = some s := by
  have hkeep : s.live.filter (fun b => pfnToPhys b.base ≠ 0) = s.live := by
    rw [List.filter_eq_self]
    intro b hb
    simp only [decide_eq_true_eq, ne_eq, pfnToPhys_eq_zero]
    intro hzero
    exact h0 (hzero ▸ h.inv.mem_pages hb)
  simp only [pmmStep, hkeep, pmmFreePages, if_true]

/-- Every legal call returns and keeps the invariant; it keeps the free
blocks coalesced unless a reserved buddy stops a merge. -/
lemma SysInv.step {c : PmmCall} (hl : PmmLegal s c) :
    ∃ s' fl', pmmStep s c = some s' ∧ SysInv S s0 s' fl' ∧ (¬ FreeStops s c →
      Coalesced maxOrder (freeBlocks fl) → Coalesced maxOrder (freeBlocks fl')) := by
  cases c with
  | alloc count =>
    obtain ⟨s', fl', hstep, hinv, hco⟩ := h.alloc h0 hl.2
    exact ⟨s', fl', hstep, hinv, fun _ => hco⟩
  | free phys count =>
    cases hl with
    | inl hnull =>
      subst hnull
      exact ⟨s, fl, h.freeNull h0 count, h, fun _ hco => hco⟩
    | inr hheld =>
      obtain ⟨b, hb, rfl⟩ := hheld
      obtain ⟨s', fl', hstep, hinv, hco⟩ := h.free h0 hb count
      exact ⟨s', fl', hstep, hinv, fun hns => hco fun hst => hns ⟨b, hb, rfl, hst⟩⟩

end

end

/-! ## Safety of every legal run -/

def PmmSys.blocks (s : PmmSys) : List Block := s.pmm.freeBlockList ++ s.live

/-- The safety of a state `s` that a run from `s0` reached. -/
structure PmmSafe (entries : List MemmapEntry) (s0 : Pmm) (s : PmmSys) : Prop where
  disjoint : s.blocks.Pairwise fun b c => Disjoint b.cells c.cells
  aligned : ∀ b ∈ s.blocks, b.Aligned
  usable : ∀ b ∈ s.blocks, b.cells ⊆ usablePages entries \ metadataPages s0
  cover : ∀ x, (∃ b ∈ s.blocks, x ∈ b.cells) ↔ ∃ b ∈ s0.freeBlockList, x ∈ b.cells
  lists : ∀ k, k ≤ maxOrder → s.pmm.links.DList (s.pmm.kFreeLists k) (s.pmm.freeList k)
  flag : ∀ p, p < s.pmm.kTotalPages →
    ((s.pmm.kFrames p).isFree = true ↔ ∃ k, k ≤ maxOrder ∧ p ∈ s.pmm.freeList k)
  order : ∀ k, k ≤ maxOrder → ∀ p ∈ s.pmm.freeList k, (s.pmm.kFrames p).order = k
  freePages : s.pmm.kFreePages = (s.pmm.freeBlockList.map Block.size).sum

section

variable {entries : List MemmapEntry} {hhdm : Nat} {ram : Nat → PageFrame}
  {fl0 : Nat → List Nat} {ms me : Nat} {s : PmmSys}

lemma PmmStart.sysInv (h : PmmStart entries hhdm ram s0 fl0 ms me) :
    SysInv (listedPages ms me entries) s0 ⟨s0, []⟩ fl0 := by
  refine ⟨?_, List.nodup_nil, .refl s0⟩
  have hnone : {b : Block | b ∈ ([] : List Block)} = ∅ := by simp
  rw [hnone]
  exact h.inv

lemma SysInv.mem_blocks (h : SysInv S s0 s fl) :
    b ∈ s.blocks ↔ b ∈ freeBlocks fl ∪ {b | b ∈ s.live} := by
  rw [PmmSys.blocks, List.mem_append, h.inv.repr.mem_freeBlockList]
  rfl

lemma SysInv.nodup_blocks (h : SysInv S s0 s fl) : s.blocks.Nodup := by
  refine List.nodup_append'.mpr ⟨h.inv.repr.nodup_freeBlockList, h.nodup, ?_⟩
  intro b hfree hlive
  exact h.inv.apart b hlive (h.inv.repr.mem_freeBlockList.mp hfree)

lemma PmmStart.cover (h : PmmStart entries hhdm ram s0 fl0 ms me) (x : Nat) :
    x ∈ listedPages ms me entries ↔ ∃ b ∈ s0.freeBlockList, x ∈ b.cells := by
  rw [h.inv.tiles.cover x]
  simp only [Set.union_empty, h.inv.repr.mem_freeBlockList]

lemma SysInv.safe (h : SysInv (listedPages ms me entries) s0 s fl)
    (hstart : PmmStart entries hhdm ram s0 fl0 ms me) (hok : MemmapOk entries) :
    PmmSafe entries s0 s := by
  have hrepr := h.inv.repr
  have htiles := h.inv.tiles
  refine ⟨?_, fun b hb => htiles.aligned b (h.mem_blocks.mp hb), fun b hb x hx => ?_,
    fun x => ?_, fun k hk => ?_, fun p hp => ?_, fun k hk p hp => ?_, ?_⟩
  · refine h.nodup_blocks.imp_of_mem fun hb hc hne => ?_
    exact htiles.disjoint (h.mem_blocks.mp hb) (h.mem_blocks.mp hc) hne
  · exact hstart.listed_subset hok (htiles.cells_subset (h.mem_blocks.mp hb) hx)
  · rw [← hstart.cover x, htiles.cover x]
    simp only [h.mem_blocks]
  · rw [hrepr.freeList_eq hk]
    exact hrepr.dlist k hk
  · rw [hrepr.flag p hp]
    constructor
    · intro hin
      obtain ⟨k, hk⟩ := hin
      have hle := hrepr.order_le hk
      exact ⟨k, hle, by rwa [hrepr.freeList_eq hle]⟩
    · intro hin
      obtain ⟨k, hle, hk⟩ := hin
      exact ⟨k, by rwa [← hrepr.freeList_eq hle]⟩
  · rw [hrepr.freeList_eq hk] at hp
    exact hrepr.order k p hp
  · rw [h.inv.freePages, hrepr.sum_freeBlockList]

/-- Every legal sequence of calls after `pmm_init` returns and keeps the
invariant. -/
lemma PmmStart.run (h : PmmStart entries hhdm ram s0 fl0 ms me) (hok : MemmapOk entries)
    {calls : List PmmCall} (hlegal : Along pmmStep PmmLegal ⟨s0, []⟩ calls) : ∃ s fl,
      Lib.run pmmStep ⟨s0, []⟩ calls = some s ∧ SysInv (listedPages ms me entries) s0 s fl := by
  obtain ⟨s, hrun, fl, hinv⟩ := run_invariant
    (fun s => ∃ fl, SysInv (listedPages ms me entries) s0 s fl)
    (fun s c hs hl => by
      obtain ⟨fl, hs⟩ := hs
      obtain ⟨s', fl', hstep, hinv, _⟩ := hs.step hok.zero_notMem hl
      exact ⟨s', hstep, fl', hinv⟩)
    ⟨fl0, h.sysInv⟩ hlegal
  exact ⟨s, fl, hrun, hinv⟩

end

/-- **Buddy allocator safety.** On every memory map as the boot protocol
gives it `pmm_init` returns, and every legal sequence of calls after it
returns and ends in a safe state. -/
theorem pmm_run_safe (entries : List MemmapEntry) (hhdm : Nat) (ram : Nat → PageFrame)
    (hok : MemmapOk entries) (hh : hhdm < 2 ^ 64) : ∃ s0, pmmInit entries hhdm ram = some s0 ∧
      ∀ calls, Along pmmStep PmmLegal ⟨s0, []⟩ calls →
        ∃ s, run pmmStep ⟨s0, []⟩ calls = some s ∧ PmmSafe entries s0 s := by
  obtain ⟨s0, fl0, ms, me, hinit, hstart⟩ := pmmInit_spec hok hh ram
  refine ⟨s0, hinit, fun calls hlegal => ?_⟩
  obtain ⟨s, fl, hrun, hinv⟩ := hstart.run hok hlegal
  exact ⟨s, hrun, hinv.safe hstart hok⟩

instance (s : PmmSys) : ∀ c, Decidable (PmmLegal s c)
  | .alloc count => inferInstanceAs (Decidable (1 ≤ count ∧ count ≤ 2 ^ 52))
  | .free phys _ => inferInstanceAs (Decidable (phys = 0 ∨ ∃ b ∈ s.live, phys = pfnToPhys b.base))

theorem pmm_run_safe_smallMap : ∃ s, run pmmStep ⟨smallStart, []⟩
    [.alloc 1, .free (pfnToPhys 4) 1] = some s ∧ PmmSafe smallMap smallStart s := by
  obtain ⟨s0, hinit, hsafe⟩ := pmm_run_safe smallMap 0 (fun _ => blankFrame) smallMap_ok (by decide)
  rw [pmmInit_smallMap] at hinit
  obtain rfl := Option.some.inj hinit
  exact hsafe _ (by decide)

/-! ## Coalescing -/

/-- The free blocks stay coalesced in every legal run in which no merge is
stopped by a `PAGE_RESERVED` bit alone. A set of pages has one coalesced
tiling, so once every block has been freed the free blocks are those
`pmm_init` made. -/
theorem pmm_run_coalesces (entries : List MemmapEntry) (hhdm : Nat) (ram : Nat → PageFrame)
    (s0 : Pmm) (calls : List PmmCall) (hok : MemmapOk entries) (hadj : NoAdjacentUsable entries)
    (hh : hhdm < 2 ^ 64) (hinit : pmmInit entries hhdm ram = some s0)
    (hlegal : Along pmmStep (fun s c => PmmLegal s c ∧ ¬ FreeStops s c) ⟨s0, []⟩ calls) :
    ∃ s, run pmmStep ⟨s0, []⟩ calls = some s ∧
    (s.live = [] → s.pmm.freeBlockList.Perm s0.freeBlockList) := by
  obtain ⟨s1, fl0, ms, me, hinit', hstart⟩ := pmmInit_spec hok hh ram
  obtain rfl : s1 = s0 := Option.mem_unique hinit' hinit
  obtain ⟨s, hrun, fl, hinv, hco⟩ := run_invariant
    (fun s => ∃ fl, SysInv (listedPages ms me entries) s1 s fl ∧
      Coalesced maxOrder (freeBlocks fl))
    (fun s c hs hl => by
      obtain ⟨fl, hs, hco⟩ := hs
      obtain ⟨s', fl', hstep, hinv, hkeep⟩ := hs.step hok.zero_notMem hl.1
      exact ⟨s', hstep, fl', hinv, hkeep hl.2 hco⟩)
    ⟨fl0, hstart.sysInv, hstart.coalesced hok hadj⟩ hlegal
  refine ⟨s, hrun, fun hlive => ?_⟩
  -- two coalesced tilings of the same pages
  have htiles : Tiles (freeBlocks fl) (listedPages ms me entries) :=
    hinv.inv.tiles.congr fun b => by simp [hlive]
  have htiles0 : Tiles (freeBlocks fl0) (listedPages ms me entries) :=
    hstart.inv.tiles.congr fun b => by simp
  have heq : freeBlocks fl = freeBlocks fl0 :=
    htiles.coalesced_unique htiles0 hco (hstart.coalesced hok hadj)
      (fun b hb => hinv.inv.repr.order_le hb) fun b hb => hstart.inv.repr.order_le hb
  refine (List.perm_ext_iff_of_nodup hinv.inv.repr.nodup_freeBlockList
    hstart.inv.repr.nodup_freeBlockList).mpr fun b => ?_
  rw [hinv.inv.repr.mem_freeBlockList, hstart.inv.repr.mem_freeBlockList, heq]

instance (s : Pmm) (pfn order : Nat) : Decidable (StopsAtReserved s pfn order) :=
  decidable_of_iff (∃ j, j < maxOrder ∧ order ≤ j ∧
    (∀ i, i < j + 1 → order ≤ i → mergeBuddy pfn i < s.kTotalPages ∧
      (s.kFrames (mergeBuddy pfn i)).isFree = true ∧
      (s.kFrames (mergeBuddy pfn i)).order = i) ∧
    (s.kFrames (mergeBuddy pfn j)).isReserved = true) (by
      simp only [StopsAtReserved, Nat.lt_succ_iff]
      grind)

instance (s : PmmSys) : ∀ c, Decidable (FreeStops s c)
  | .alloc _ => isFalse not_false
  | .free phys _ => inferInstanceAs (Decidable (∃ b ∈ s.live,
      phys = pfnToPhys b.base ∧ StopsAtReserved s.pmm b.base b.order))

/-- Both halves of the block are taken and then freed from the bottom
upwards, which merges them again. -/
theorem pmm_run_coalesces_smallMap : ∃ s, run pmmStep ⟨smallStart, []⟩
    [.alloc 1, .alloc 1, .free (pfnToPhys 4) 1, .free (pfnToPhys 5) 1] = some s ∧
      (s.live = [] → s.pmm.freeBlockList.Perm smallStart.freeBlockList) :=
  pmm_run_coalesces smallMap 0 (fun _ => blankFrame) smallStart _ smallMap_ok smallMap_noAdjacent
    (by decide) pmmInit_smallMap (by decide)

/-- One page is taken and freed. The other half of its block, page 5, was
no head at initialization and kept `PAGE_RESERVED`, so the halves are not
put together again and two pages cannot be allocated any more. -/
theorem pmm_run_not_coalesced : MemmapOk smallMap ∧ NoAdjacentUsable smallMap ∧
    pmmInit smallMap 0 (fun _ => blankFrame) = some smallStart ∧
    Along pmmStep PmmLegal ⟨smallStart, []⟩ [.alloc 1, .free (pfnToPhys 4) 1] ∧
    smallStart.freeBlockList = [⟨1, 4⟩] ∧
    (run pmmStep ⟨smallStart, []⟩ [.alloc 1, .free (pfnToPhys 4) 1]).map
      (fun s => (s.live, s.pmm.freeBlockList, (pmmAllocPages 2 s.pmm).map Prod.fst)) =
    some ([], [⟨0, 4⟩, ⟨0, 5⟩], some 0) :=
  ⟨smallMap_ok, smallMap_noAdjacent, pmmInit_smallMap, by decide, by decide,
    by decide⟩

end VortexOS.Mm
