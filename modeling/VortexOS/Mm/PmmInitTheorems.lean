/-
VortexOS.Mm.PmmInitTheorems — `pmm_init` establishes the buddy invariant.

The loop over one usable region puts one block on a free list per
iteration, so the invariant of `initRegion_spec` is that the free blocks
tile the pages passed so far, less the metadata pages. `initEntries_spec`
folds that over the memory map. Every block also satisfies `InitBlock`: it
lies in its region, clear of the metadata, and could not have been larger.
-/
import VortexOS.Mm.PmmTheorems

namespace VortexOS.Mm

open Lib

variable {s : Pmm} {pfn ms me x hhdm : Nat} {e f : MemmapEntry} {entries : List MemmapEntry}

/-! ## One iteration -/

structure InitInv (S : Set Nat) (s : Pmm) (fl : Nat → List Nat) : Prop
    extends Buddy S s fl ∅ where
  freePages : s.kFreePages = freeSum fl

/-- One iteration of the region loop: the frame's flags are cleared and
the block goes on its list. -/
def initBlock (order pfn : Nat) (s : Pmm) : Pmm :=
  let s := s.modFrame pfn fun f => { f with flags := 0 }
  let s := listAdd order pfn s
  { s with kFreePages := s.kFreePages + 2 ^ order }

lemma initRegion_succ (ms me e n pfn : Nat) (s : Pmm) : initRegion ms me e (n + 1) pfn s =
    if pfn < e then if ms ≤ pfn ∧ pfn < me then initRegion ms me e n me s
      else initRegion ms me e n (pfn + 2 ^ initOrder pfn e ms maxOrder 0)
        (initBlock (initOrder pfn e ms maxOrder 0) pfn s) else s := rfl

/-- The variables and fields that initialization of the lists keeps. -/
structure InitKeeps (s s' : Pmm) : Prop extends Pmm.SameGlobals s s' where
  privateData : ∀ q, (s'.kFrames q).privateData = (s.kFrames q).privateData

lemma InitKeeps.refl (s : Pmm) : InitKeeps s s := ⟨.refl s, fun _ => rfl⟩

lemma InitKeeps.trans {s' s'' : Pmm} (h : InitKeeps s s') (h' : InitKeeps s' s'') :
    InitKeeps s s'' :=
  ⟨h.toSameGlobals.trans h'.toSameGlobals,
    fun q => (h'.privateData q).trans (h.privateData q)⟩

lemma initBlock_keeps (order pfn : Nat) (s : Pmm) : InitKeeps s (initBlock order pfn s) := by
  have hadd := Pmm.Keeps.listAdd order pfn (s.modFrame pfn fun f => { f with flags := 0 })
  refine ⟨⟨hadd.addr, hadd.total, hadd.hhdm⟩, fun q => ?_⟩
  refine (hadd.privateData q).trans ?_
  exact s.modFrame_proj PageFrame.privateData pfn _ (by exact fun _ => rfl) q

lemma InitInv.initBlock {S : Set Nat} {fl : Nat → List Nat}
    (h : InitInv S s fl) (order pfn : Nat) (hmax : order ≤ maxOrder) (hal : 2 ^ order ∣ pfn)
    (hnew : ∀ x, pfn ≤ x → x < pfn + 2 ^ order → x ∉ S) (hlim : pfn + 2 ^ order ≤ s.kTotalPages) :
    InitInv (S ∪ Block.cells ⟨order, pfn⟩) (Mm.initBlock order pfn s)
      (Function.update fl order (pfn :: fl order)) := by
  have hpos := Nat.two_pow_pos order
  have hpfn : pfn ∉ S := hnew pfn (Nat.le_refl _) (by omega)
  have hlist : ∀ j, pfn ∉ fl j := fun j hj =>
    hpfn (h.tiles.cells_subset (b := ⟨j, pfn⟩) (Or.inl hj) (Block.base_mem_cells ⟨j, pfn⟩))
  have hnf : (s.kFrames pfn).isFree = false := by
    rw [← Bool.not_eq_true, h.repr.flag pfn (by omega)]
    rintro ⟨j, hj⟩
    exact hlist j hj
  have hrepr := (h.repr.modFrame (f := fun f => { f with flags := 0 }) hlist
    (by rw [hnf]; simp [PageFrame.isFree])).listAdd (k := order) (p := pfn) hmax
      (by show pfn < s.kTotalPages; omega) hlist
  refine ⟨⟨hrepr.setFreePages _, ?_, by simp, by simp, fun x hx => ?_⟩, ?_⟩
  · refine h.tiles.grow hal (fun x hx => hnew x hx.1 hx.2) fun c => ?_
    simp only [Set.union_empty]
    exact mem_freeBlocks_add
  · rw [(initBlock_keeps order pfn s).total]
    rcases hx with hx | hx
    · exact h.bound x hx
    · exact Nat.lt_of_lt_of_le hx.2 hlim
  · show (listAdd order pfn _).kFreePages + 2 ^ order = _
    rw [listAdd_kFreePages, freeSum_add fl hmax, ← h.freePages]
    rfl

/-! ## The order of a block -/

/-- A block the region loop makes: in its region, clear of the metadata,
and of the largest order possible there. -/
structure InitBlock (ms me startPfn endPfn : Nat) (b : Block) : Prop where
  order_le : b.order ≤ maxOrder
  aligned : 2 ^ b.order ∣ b.base
  start_le : startPfn ≤ b.base
  fits : b.base + 2 ^ b.order ≤ endPfn
  notMeta : ¬ (ms ≤ b.base ∧ b.base < me)
  low : b.base < ms → b.base + 2 ^ b.order ≤ ms
  maximal : b.order < maxOrder → 2 ^ (b.order + 1) ∣ b.base →
    b.base + 2 ^ (b.order + 1) ≤ endPfn → b.base < ms ∧ ms < b.base + 2 ^ (b.order + 1)

lemma initOrder_spec (pfn e ms : Nat) : ∀ (n order : Nat), order + n = maxOrder →
    2 ^ order ∣ pfn → pfn + 2 ^ order ≤ e → (pfn < ms → pfn + 2 ^ order ≤ ms) →
    initOrder pfn e ms n order ≤ maxOrder ∧ 2 ^ initOrder pfn e ms n order ∣ pfn ∧
      pfn + 2 ^ initOrder pfn e ms n order ≤ e ∧
      (pfn < ms → pfn + 2 ^ initOrder pfn e ms n order ≤ ms) ∧
      (initOrder pfn e ms n order < maxOrder → 2 ^ (initOrder pfn e ms n order + 1) ∣ pfn →
        pfn + 2 ^ (initOrder pfn e ms n order + 1) ≤ e →
        pfn < ms ∧ ms < pfn + 2 ^ (initOrder pfn e ms n order + 1))
  | 0, order, hn, hd, hf, hm => by
    simp only [initOrder]
    exact ⟨by omega, hd, hf, hm, fun hlt => by omega⟩
  | n + 1, order, hn, hd, hf, hm => by
    rw [initOrder]
    by_cases hfit : pfn % 2 ^ (order + 1) = 0 ∧ pfn + 2 ^ (order + 1) ≤ e
    · rw [if_pos hfit]
      by_cases hover : pfn < ms ∧ pfn + 2 ^ (order + 1) > ms
      · rw [if_pos hover]
        exact ⟨by omega, hd, hf, hm, fun _ _ _ => hover⟩
      · rw [if_neg hover]
        exact initOrder_spec pfn e ms n (order + 1) (by omega)
          (Nat.dvd_of_mod_eq_zero hfit.1) hfit.2
          fun hlt => by
            by_contra hc
            exact hover ⟨hlt, by omega⟩
    · rw [if_neg hfit]
      refine ⟨by omega, hd, hf, hm, fun _ h1 h2 => ?_⟩
      exact absurd ⟨Nat.mod_eq_zero_of_dvd h1, h2⟩ hfit

lemma initOrder_initBlock {e startPfn : Nat} (hs : startPfn ≤ pfn) (he : pfn < e)
    (hm : ¬ (ms ≤ pfn ∧ pfn < me)) :
    InitBlock ms me startPfn e ⟨initOrder pfn e ms maxOrder 0, pfn⟩ := by
  obtain ⟨h1, h2, h3, h4, h5⟩ := initOrder_spec pfn e ms maxOrder 0
    (by omega) (by simp) (by simpa using Nat.succ_le_of_lt he)
      (fun h => by simpa using Nat.succ_le_of_lt h)
  exact ⟨h1, h2, hs, h3, hm, h4, h5⟩

/-! ## One region -/

def regionPages (ms me pfn endPfn : Nat) : Set Nat :=
  {x | (pfn ≤ x ∧ x < endPfn) ∧ ¬ (ms ≤ x ∧ x < me)}

lemma regionPages_of_le {endPfn : Nat} (h : endPfn ≤ pfn) : regionPages ms me pfn endPfn = ∅ :=
  Set.eq_empty_of_forall_notMem fun x hx => by
    have := hx.1
    omega

lemma regionPages_skip {endPfn : Nat} (h : ms ≤ pfn ∧ pfn < me) :
    regionPages ms me pfn endPfn = regionPages ms me me endPfn := by
  ext x
  simp only [regionPages, Set.mem_ofPred_eq]
  omega

lemma InitBlock.regionPages_eq {startPfn endPfn k : Nat}
    (hb : InitBlock ms me startPfn endPfn ⟨k, pfn⟩) : regionPages ms me pfn endPfn =
      Block.cells ⟨k, pfn⟩ ∪ regionPages ms me (pfn + 2 ^ k) endPfn := by
  have hpos := Nat.two_pow_pos k
  have hfits := hb.fits
  have hlow := hb.low
  have hmeta := hb.notMeta
  ext x
  simp only [regionPages, Set.mem_ofPred_eq, Set.mem_union, Block.mem_cells] at *
  omega

lemma initRegion_spec {endPfn : Nat} (startPfn : Nat) :
    ∀ (n pfn : Nat) {S : Set Nat} {s : Pmm} {fl : Nat → List Nat}, endPfn - pfn ≤ n → startPfn ≤
      pfn → endPfn ≤ s.kTotalPages → InitInv S s fl → (∀ x ∈ regionPages ms me pfn endPfn, x ∉ S) →
    ∃ fl', InitInv (S ∪ regionPages ms me pfn endPfn) (initRegion ms me endPfn n pfn s) fl' ∧
      InitKeeps s (initRegion ms me endPfn n pfn s) ∧ ∀ b ∈ freeBlocks fl', b ∈ freeBlocks fl ∨
      InitBlock ms me startPfn endPfn b
  | 0, pfn, S, s, fl, hn, _, _, hinv, _ => by
    rw [regionPages_of_le (by omega), Set.union_empty]
    exact ⟨fl, hinv, .refl s, fun b hb => Or.inl hb⟩
  | n + 1, pfn, S, s, fl, hn, hs, hlim, hinv, hnew => by
    rw [initRegion_succ]
    by_cases hlt : pfn < endPfn
    · rw [if_pos hlt]
      by_cases hm : ms ≤ pfn ∧ pfn < me
      · rw [if_pos hm, regionPages_skip hm]
        rw [regionPages_skip hm] at hnew
        exact initRegion_spec startPfn n me (by omega) (by omega) hlim hinv hnew
      · rw [if_neg hm]
        -- the block made here, then the rest of the region
        have hb : InitBlock ms me startPfn endPfn _ := initOrder_initBlock hs hlt hm
        generalize initOrder pfn endPfn ms maxOrder 0 = k at hb
        have hfits : pfn + 2 ^ k ≤ endPfn := hb.fits
        have hpos := Nat.two_pow_pos k
        rw [hb.regionPages_eq] at hnew ⊢
        have hstep := hinv.initBlock k pfn hb.order_le hb.aligned
          (fun x h1 h2 => hnew x (Or.inl ⟨h1, h2⟩)) (by omega)
        have hkeeps := initBlock_keeps k pfn s
        have hrest : ∀ x ∈ regionPages ms me (pfn + 2 ^ k) endPfn,
            x ∉ S ∪ Block.cells ⟨k, pfn⟩ := by
          rintro x hx (hS | hcell)
          · exact hnew x (Or.inr hx) hS
          · exact absurd hcell.2 (Nat.not_lt.mpr hx.1.1)
        obtain ⟨fl', hinv', hkeeps', hblocks⟩ :=
          initRegion_spec startPfn n (pfn + 2 ^ k) (by omega) (by omega)
            (by rw [hkeeps.total]; exact hlim) hstep hrest
        refine ⟨fl', by rwa [← Set.union_assoc], hkeeps.trans hkeeps', fun b hbl => ?_⟩
        cases hblocks b hbl with
        | inr hnewb => exact Or.inr hnewb
        | inl hold =>
          cases mem_freeBlocks_add.mp hold with
          | inl heq => exact Or.inr (heq ▸ hb)
          | inr hmem => exact Or.inl hmem
    · rw [if_neg hlt, regionPages_of_le (by omega), Set.union_empty]
      exact ⟨fl, hinv, .refl s, fun b hb => Or.inl hb⟩

/-! ## The memory map -/

def MemmapEntry.addrs (e : MemmapEntry) : Set Nat := {a | e.base ≤ a ∧ a < e.base + e.length}

def MemmapEntry.pages (e : MemmapEntry) : Set Nat :=
  {x | e.base ≤ x * pageSize ∧ (x + 1) * pageSize ≤ e.base + e.length}

def usablePages (entries : List MemmapEntry) : Set Nat :=
  {x | ∃ e ∈ entries, e.type = .usable ∧ x ∈ e.pages}

/-- The memory maps the boot protocol hands over. -/
structure MemmapOk (entries : List MemmapEntry) : Prop where
  aligned : ∀ e ∈ entries, pageSize ∣ e.base ∧ pageSize ∣ e.length
  range : ∀ e ∈ entries, e.base < 2 ^ 64 ∧ e.base + e.length ≤ 2 ^ 64
  disjoint : entries.Pairwise fun e f => Disjoint e.addrs f.addrs
  zero : ∀ e ∈ entries, e.type = .usable → 0 ∉ e.addrs
  room : ∃ e ∈ entries, e.type = .usable ∧
    physToPfn (highestAddr entries) * sizeofPageFrame ≤ e.length

lemma MemmapOk.single {e : MemmapEntry}
    (h : (pageSize ∣ e.base ∧ pageSize ∣ e.length) ∧ 0 < e.base ∧ e.base + e.length ≤ 2 ^ 52 ∧
      e.type = .usable ∧ physToPfn (highestAddr [e]) * sizeofPageFrame ≤ e.length) :
    MemmapOk [e] where
  aligned := by simpa using h.1
  range := by simpa using by omega
  disjoint := List.pairwise_singleton _ _
  zero := by simpa [MemmapEntry.addrs] using fun _ hzero => absurd hzero (by omega)
  room := ⟨e, by simp, h.2.2.2⟩

def MemmapEntry.startPfn (e : MemmapEntry) : Nat := physToPfn (pageAlignUp e.base)

def MemmapEntry.endPfn (e : MemmapEntry) : Nat := physToPfn (pageAlignDown e.endAddr)

lemma physToPfn_eq (x : Nat) : physToPfn x = x / pageSize := by
  rw [physToPfn, pageShift, Nat.shiftRight_eq_div_pow]
  rfl

lemma physToPfn_alignDown (x : Nat) : physToPfn (pageAlignDown x) = x / pageSize := by
  rw [physToPfn_eq]
  simp only [pageAlignDown, pageSize]
  omega

/-- An aligned base is its own round-up, also on the last page of the
address space. -/
lemma MemmapEntry.startPfn_mul (hal : pageSize ∣ e.base) (hr : e.base < 2 ^ 64) :
    e.startPfn * pageSize = e.base := by
  obtain ⟨m, hm⟩ := hal
  rw [startPfn, pageAlignUp, physToPfn_alignDown, add64_of_lt]
  · simp only [pageSize] at *
    omega
  · simp only [pageSize] at *
    omega

/-- An entry that ends at the top of the address space has end address 0
and contributes no pages; every other entry ends where it ends. -/
lemma MemmapEntry.endPfn_mul (hal : pageSize ∣ e.base ∧ pageSize ∣ e.length)
    (hr : e.base + e.length ≤ 2 ^ 64) :
    e.endPfn * pageSize = if e.base + e.length = 2 ^ 64 then 0 else e.base + e.length := by
  obtain ⟨⟨m, hm⟩, ⟨n, hn⟩⟩ := hal
  rw [endPfn, physToPfn_alignDown, endAddr]
  split
  next h => rw [add64, h, Nat.mod_self, Nat.zero_div, Nat.zero_mul]
  next h =>
      rw [add64_of_lt (by omega), hm, hn, ← Nat.mul_add, Nat.mul_div_cancel_left _ (by decide),
        Nat.mul_comm]

lemma MemmapOk.region_subset (h : MemmapOk entries) (he : e ∈ entries) (h1 : e.startPfn ≤ x)
    (h2 : x < e.endPfn) : x ∈ e.pages := by
  have hs := e.startPfn_mul (h.aligned e he).1 (h.range e he).1
  have hend := e.endPfn_mul (h.aligned e he) (h.range e he).2
  simp only [MemmapEntry.pages, pageSize, Set.mem_ofPred_eq] at *
  split at hend <;> omega

lemma MemmapEntry.pages_subset_addrs (hx : x ∈ e.pages) : x * pageSize ∈ e.addrs := by
  simp only [pages, addrs, pageSize, Set.mem_ofPred_eq] at *
  omega

lemma MemmapOk.region_disjoint (h : MemmapOk entries) : entries.Pairwise fun e f => ∀ x,
      e.startPfn ≤ x → x < e.endPfn → ¬ (f.startPfn ≤ x ∧ x < f.endPfn) := by
  refine h.disjoint.imp_of_mem fun {e f} he hf hd x h1 h2 h3 => ?_
  exact Set.disjoint_left.mp hd (e.pages_subset_addrs (h.region_subset he h1 h2))
    (f.pages_subset_addrs (h.region_subset hf h3.1 h3.2))

lemma le_foldl_highest :
    ∀ {entries : List MemmapEntry} {a : Nat}, (e ∈ entries ∨ e.endAddr ≤ a) → e.endAddr ≤
      entries.foldl (fun highest f => if f.endAddr > highest then f.endAddr else highest) a
  | [], a, h => by simpa using h
  | f :: entries, a, h => by
    rw [List.foldl_cons]
    refine le_foldl_highest ?_
    rw [List.mem_cons] at h
    rcases h with (rfl | h) | h
    · exact Or.inr (by split <;> omega)
    · exact Or.inl h
    · exact Or.inr (by split <;> omega)

lemma MemmapEntry.endPfn_le (he : e ∈ entries) : e.endPfn ≤ physToPfn (highestAddr entries) := by
  rw [endPfn, physToPfn_alignDown, physToPfn_eq]
  exact Nat.div_le_div_right (le_foldl_highest (Or.inl he))

/-! ## All regions -/

/-- The pages step 4 puts on the free lists. -/
def listedPages (ms me : Nat) (entries : List MemmapEntry) : Set Nat :=
  {x | ∃ e ∈ entries, e.type = .usable ∧ x ∈ regionPages ms me e.startPfn e.endPfn}

lemma listedPages_cons_usable (h : e.type = .usable) : listedPages ms me (e :: entries) =
    regionPages ms me e.startPfn e.endPfn ∪ listedPages ms me entries := by
  ext x
  simp [listedPages, h]

lemma listedPages_cons_other (h : e.type ≠ .usable) :
    listedPages ms me (e :: entries) = listedPages ms me entries := by
  ext x
  simp [listedPages, h]

lemma initEntry_usable (h : e.type = .usable) :
    initEntry ms me s e = initRegion ms me e.endPfn (e.endPfn - e.startPfn) e.startPfn s := by
  simp only [initEntry, h, ne_eq, not_true_eq_false, if_false]
  rfl

/-- Every free block was made in the region of some usable entry. -/
def FromEntries (ms me : Nat) (entries : List MemmapEntry) (b : Block) : Prop :=
  ∃ e ∈ entries, e.type = .usable ∧ InitBlock ms me e.startPfn e.endPfn b

lemma FromEntries.cons {b : Block} (h : FromEntries ms me entries b) (e : MemmapEntry) :
    FromEntries ms me (e :: entries) b := by
  obtain ⟨f, hf, hrest⟩ := h
  exact ⟨f, List.mem_cons_of_mem e hf, hrest⟩

lemma initEntries_spec : ∀ (entries : List MemmapEntry) {S : Set Nat} {s : Pmm}
    {fl : Nat → List Nat}, (∀ e ∈ entries, e.endPfn ≤ s.kTotalPages) → InitInv S s fl →
    (∀ x ∈ listedPages ms me entries, x ∉ S) →
    (entries.Pairwise fun e f => ∀ x, e.startPfn ≤ x → x < e.endPfn →
      ¬ (f.startPfn ≤ x ∧ x < f.endPfn)) →
    ∃ fl', InitInv (S ∪ listedPages ms me entries) (entries.foldl (initEntry ms me) s) fl' ∧
      InitKeeps s (entries.foldl (initEntry ms me) s) ∧
      ∀ b ∈ freeBlocks fl', b ∈ freeBlocks fl ∨ FromEntries ms me entries b
  | [], S, s, fl, _, hinv, _, _ => by
    have hnone : listedPages ms me [] = ∅ := by simp [listedPages]
    rw [hnone, Set.union_empty]
    exact ⟨fl, hinv, .refl s, fun b hb => Or.inl hb⟩
  | e :: entries, S, s, fl, hlim, hinv, hnew, hdisj => by
    obtain ⟨hd, hrest⟩ := List.pairwise_cons.mp hdisj
    rw [List.foldl_cons]
    by_cases hu : e.type = .usable
    · rw [listedPages_cons_usable hu] at hnew ⊢
      rw [initEntry_usable hu]
      obtain ⟨fl1, hinv1, hk1, hb1⟩ := initRegion_spec e.startPfn
        (e.endPfn - e.startPfn) e.startPfn (Nat.le_refl _) (Nat.le_refl _)
        (hlim e List.mem_cons_self) hinv fun x hx => hnew x (Or.inl hx)
      -- later entries are clear of what this one added
      have hnew1 : ∀ x ∈ listedPages ms me entries,
          x ∉ S ∪ regionPages ms me e.startPfn e.endPfn := by
        rintro x ⟨f, hf, hfu, hx⟩ (hS | hx')
        · exact hnew x (Or.inr ⟨f, hf, hfu, hx⟩) hS
        · exact hd f hf x hx'.1.1 hx'.1.2 hx.1
      obtain ⟨fl2, hinv2, hk2, hb2⟩ := initEntries_spec entries
        (fun f hf => by rw [hk1.total]; exact hlim f (List.mem_cons_of_mem e hf)) hinv1 hnew1 hrest
      refine ⟨fl2, by rwa [← Set.union_assoc], hk1.trans hk2, fun b hb => ?_⟩
      cases hb2 b hb with
      | inr hfrom => exact Or.inr (hfrom.cons e)
      | inl hb =>
        cases hb1 b hb with
        | inl hold => exact Or.inl hold
        | inr hmade => exact Or.inr ⟨e, List.mem_cons_self, hu, hmade⟩
    · rw [listedPages_cons_other hu] at hnew ⊢
      rw [initEntry, if_pos hu]
      obtain ⟨fl2, hinv2, hk2, hb2⟩ := initEntries_spec entries
        (fun f hf => hlim f (List.mem_cons_of_mem e hf)) hinv hnew hrest
      refine ⟨fl2, hinv2, hk2, fun b hb => (hb2 b hb).imp_right fun hf => hf.cons e⟩

/-! ## `pmm_init` -/

lemma initInv_start (hlists : ∀ k, s.kFreeLists k = none) (hzero : s.kFreePages = 0)
    (hflags : ∀ p, p < s.kTotalPages → (s.kFrames p).isFree = false) : InitInv ∅ s fun _ => [] := by
  have hnone : freeBlocks (fun _ => []) = ∅ := by
    ext b
    simp [freeBlocks]
  refine ⟨⟨⟨fun k _ => ⟨?_, List.nodup_nil⟩, fun _ _ => rfl, fun p hp => ?_, by simp, by simp⟩,
    ⟨by simp [hnone], by simp [hnone], by simp [hnone]⟩, by simp, by simp, by simp⟩, ?_⟩
  · simp [Links.Seg, hlists k]
  · simp [hflags p hp]
  · simp [hzero, freeSum]

/-- The pages that hold a byte of the metadata array. -/
def metadataPages (s : Pmm) : Set Nat :=
  {x | ∃ i, i < s.kTotalPages * sizeofPageFrame ∧
    (sub64 s.kFramesAddr s.kHhdmOffset + i) / pageSize = x}

def metadataSize (entries : List MemmapEntry) : Nat :=
  physToPfn (highestAddr entries) * sizeofPageFrame

/-- `pmm_init` puts a part of `kFrames` on the page. -/
def HoldsMetadata (entries : List MemmapEntry) (x : Nat) : Prop :=
  ∃ place, findMetadataEntry entries (metadataSize entries) = some place ∧
    ∃ i, i < metadataSize entries ∧ (place.base + i) / pageSize = x

/-- What `pmm_init` returns: `listedPages` tiled by free blocks. -/
structure PmmStart (entries : List MemmapEntry) (hhdm : Nat) (ram : Nat → PageFrame) (s : Pmm)
    (fl : Nat → List Nat) (ms me : Nat) : Prop where
  inv : PmmInv (listedPages ms me entries) s fl ∅
  total : s.kTotalPages = physToPfn (highestAddr entries)
  hhdm : s.kHhdmOffset = hhdm
  privateData : ∀ q, (s.kFrames q).privateData = (ram q).privateData
  made : ∀ b ∈ freeBlocks fl, FromEntries ms me entries b
  metadata : ∀ x, x ∈ metadataPages s ↔ ms ≤ x ∧ x < me

lemma resetFrame_isFree (f : PageFrame) : (resetFrame f).isFree = false := by
  simp [resetFrame, PageFrame.isFree, pageReserved, pageFree]

lemma mem_metadata_iff {base n : Nat} (hal : pageSize ∣ base) :
    (∃ i, i < n ∧ (base + i) / pageSize = x) ↔
      physToPfn base ≤ x ∧ x < physToPfn base + (n + pageSize - 1) / pageSize := by
  obtain ⟨m, rfl⟩ := hal
  rw [physToPfn_eq, Nat.mul_div_cancel_left _ (by decide)]
  constructor
  · rintro ⟨i, hi, rfl⟩
    simp only [pageSize]
    omega
  · rintro ⟨h1, h2⟩
    simp only [pageSize] at h2 ⊢
    exact ⟨(x - m) * 4096, by omega, by omega⟩

/-- The state after steps 1 to 3, with the metadata in `place`. -/
def metadataReady (place : MemmapEntry) (total hhdm : Nat) (ram : Nat → PageFrame) : Pmm where
  kFramesAddr := add64 place.base hhdm
  kFrames := fun i => if i < total then resetFrame (ram i) else ram i
  kTotalPages := total
  kFreePages := 0
  kHhdmOffset := hhdm
  kFreeLists := fun _ => none

lemma pmmInit_eq {place : MemmapEntry} {total : Nat} {ram : Nat → PageFrame}
    (ht : total = physToPfn (highestAddr entries))
    (hf : findMetadataEntry entries (total * sizeofPageFrame) = some place) :
    pmmInit entries hhdm ram =
      some (entries.foldl (initEntry (metaStart (add64 place.base hhdm) hhdm)
      (metaEnd (add64 place.base hhdm) hhdm total)) (metadataReady place total hhdm ram)) := by
  subst ht
  simp only [pmmInit, hf]
  rfl

lemma initInv_metadataReady (place : MemmapEntry) (total hhdm : Nat) (ram : Nat → PageFrame) :
    InitInv ∅ (metadataReady place total hhdm ram) fun _ => [] := by
  refine initInv_start (fun _ => rfl) rfl fun p hp => ?_
  rw [metadataReady] at hp ⊢
  simp only at hp ⊢
  rw [if_pos hp, resetFrame_isFree]

lemma findMetadataEntry_isSome (h : MemmapOk entries) : ∃ place ∈ entries,
    findMetadataEntry entries (physToPfn (highestAddr entries) * sizeofPageFrame) = some place := by
  obtain ⟨e, he, hu, hroom⟩ := h.room
  have hsome : (findMetadataEntry entries
    (physToPfn (highestAddr entries) * sizeofPageFrame)).isSome := by
    rw [findMetadataEntry, List.find?_isSome]
    exact ⟨e, he, by simp [hu, hroom]⟩
  obtain ⟨place, hplace⟩ := Option.isSome_iff_exists.mp hsome
  exact ⟨place, List.mem_of_find?_eq_some hplace, hplace⟩

lemma pmmInit_spec (h : MemmapOk entries) (hh : hhdm < 2 ^ 64) (ram : Nat → PageFrame) :
    ∃ s fl ms me, pmmInit entries hhdm ram = some s ∧ PmmStart entries hhdm ram s fl ms me := by
  obtain ⟨place, hplace, hf⟩ := findMetadataEntry_isSome h
  rw [pmmInit_eq rfl hf]
  generalize ht : physToPfn (highestAddr entries) = total
  obtain ⟨fl, hinv, hk, hmade⟩ := initEntries_spec entries
    (fun e he => ht ▸ e.endPfn_le he) (initInv_metadataReady place total hhdm ram)
    (by simp) h.region_disjoint
  rw [Set.empty_union] at hinv
  have hphys : sub64 (add64 place.base hhdm) hhdm = place.base :=
    sub64_add64 (h.range place hplace).1 hh
  refine ⟨_, fl, _, _, rfl, ⟨hinv.toBuddy, hinv.freePages, by simp⟩, hk.total.trans ht.symm,
    hk.hhdm, fun q => ?_, fun b hb => ?_, fun x => ?_⟩
  · rw [hk.privateData, metadataReady]
    simp only
    split <;> rfl
  · exact (hmade b hb).resolve_left (by simp [freeBlocks])
  · rw [metadataPages, hk.total, hk.addr, hk.hhdm]
    simp only [metadataReady, metaStart, metaEnd, hphys]
    exact mem_metadata_iff (h.aligned place hplace).1

/-! ## What the starting state offers -/

section

variable {entries : List MemmapEntry} {hhdm : Nat} {ram : Nat → PageFrame} {s : Pmm}
  {fl : Nat → List Nat} {ms me : Nat}

lemma mem_metadataPages_iff (hok : MemmapOk entries) (hh : hhdm < 2 ^ 64)
    (hinit : pmmInit entries hhdm ram = some s) (x : Nat) :
    x ∈ metadataPages s ↔ HoldsMetadata entries x := by
  obtain ⟨place, hplace, hf⟩ := findMetadataEntry_isSome hok
  rw [pmmInit_eq rfl hf, Option.some.injEq] at hinit
  obtain ⟨-, -, hk, -⟩ := initEntries_spec entries (fun e he => e.endPfn_le he)
    (initInv_metadataReady place (physToPfn (highestAddr entries)) hhdm ram) (by simp)
    hok.region_disjoint
  rw [← hinit, metadataPages, hk.total, hk.addr, hk.hhdm]
  simp only [metadataReady, sub64_add64 (hok.range place hplace).1 hh, Set.mem_ofPred_eq,
    HoldsMetadata, metadataSize, hf, Option.some.injEq, exists_eq_left']

lemma PmmStart.listed_subset (h : PmmStart entries hhdm ram s fl ms me) (hok : MemmapOk entries) :
    listedPages ms me entries ⊆ usablePages entries \ metadataPages s := by
  rintro x ⟨e, he, hu, hin, hmeta⟩
  refine ⟨⟨e, he, hu, hok.region_subset he hin.1 hin.2⟩, ?_⟩
  rwa [h.metadata x]

lemma MemmapOk.zero_notMem (hok : MemmapOk entries) : 0 ∉ listedPages ms me entries := by
  rintro ⟨e, he, hu, hin, _⟩
  have h0 := e.pages_subset_addrs (hok.region_subset he hin.1 hin.2)
  rw [Nat.zero_mul] at h0
  exact hok.zero e he hu h0

/-- No usable entry ends where another one starts. -/
def NoAdjacentUsable (entries : List MemmapEntry) : Prop :=
  ∀ e ∈ entries, ∀ f ∈ entries, e.type = .usable → f.type = .usable →
    0 < e.length → 0 < f.length → e.base + e.length ≠ f.base

lemma MemmapOk.eq_of_mem_pages (hok : MemmapOk entries) (he : e ∈ entries) (hf : f ∈ entries)
    (hxe : x ∈ e.pages) (hxf : x ∈ f.pages) : e = f := by
  by_contra hne
  have hsymm : Std.Symm fun e f : MemmapEntry => Disjoint e.addrs f.addrs := ⟨fun _ _ h => h.symm⟩
  exact Set.disjoint_left.mp (hok.disjoint.forall he hf hne) (e.pages_subset_addrs hxe)
    (f.pages_subset_addrs hxf)

lemma MemmapOk.eq_of_neighbours (hok : MemmapOk entries) (hadj : NoAdjacentUsable entries)
    (he : e ∈ entries) (hf : f ∈ entries) (heu : e.type = .usable) (hfu : f.type = .usable)
    (hxe : e.startPfn ≤ x ∧ x < e.endPfn) (hxf : f.startPfn ≤ x + 1 ∧ x + 1 < f.endPfn) :
    e = f := by
  have hpe := hok.region_subset he hxe.1 hxe.2
  have hpf := hok.region_subset hf hxf.1 hxf.2
  by_cases h1 : x + 1 < e.endPfn
  · exact hok.eq_of_mem_pages he hf (hok.region_subset he (by omega) h1) hpf
  · by_cases h2 : f.startPfn ≤ x
    · exact hok.eq_of_mem_pages he hf hpe (hok.region_subset hf h2 (by omega))
    · -- the first region ends exactly where the second starts
      exfalso
      have hee := e.endPfn_mul (hok.aligned e he) (hok.range e he).2
      have hfs := f.startPfn_mul (hok.aligned f hf).1 (hok.range f hf).1
      have heq : e.endPfn = f.startPfn := by omega
      rw [heq, hfs] at hee
      simp only [MemmapEntry.pages, Set.mem_ofPred_eq, pageSize] at hpe hpf hfs
      refine hadj e he f hf heu hfu (by omega) (by omega) ?_
      split at hee <;> omega

/-- The lower one was not doubled because the metadata starts in its
buddy. -/
lemma InitBlock.not_buddies {startPfn endPfn k p : Nat}
    (hlo : InitBlock ms me startPfn endPfn ⟨k, p⟩)
    (hhi : InitBlock ms me startPfn endPfn ⟨k, p + 2 ^ k⟩) (hmeta : ms < me) (hk : k < maxOrder)
    (hal : 2 ^ (k + 1) ∣ p) : False := by
  have hpow : 2 ^ (k + 1) = 2 ^ k + 2 ^ k := by rw [pow_succ]; omega
  have hend : p + 2 ^ k + 2 ^ k ≤ endPfn := hhi.fits
  have hover : p < ms ∧ ms < p + 2 ^ (k + 1) := hlo.maximal hk hal (by simp only; omega)
  have hlow : p < ms → p + 2 ^ k ≤ ms := hlo.low
  have hlow' : p + 2 ^ k < ms → p + 2 ^ k + 2 ^ k ≤ ms := hhi.low
  have hnot : ¬ (ms ≤ p + 2 ^ k ∧ p + 2 ^ k < me) := hhi.notMeta
  omega

lemma PmmStart.meta_lt {b : Block} (h : PmmStart entries hhdm ram s fl ms me)
    (hb : b ∈ freeBlocks fl) : ms < me := by
  have hlt : b.base < s.kTotalPages := h.inv.repr.bound b.order b.base hb
  have hin := (h.metadata (sub64 s.kFramesAddr s.kHhdmOffset / pageSize)).mp
    ⟨0, by simp only [sizeofPageFrame]; omega, rfl⟩
  omega

/-- Right after initialization no two buddies are both free. -/
lemma PmmStart.coalesced (h : PmmStart entries hhdm ram s fl ms me) (hok : MemmapOk entries)
    (hadj : NoAdjacentUsable entries) : Coalesced maxOrder (freeBlocks fl) := by
  intro k p hk hal hlo hhi
  obtain ⟨e, he, heu, hbe⟩ := h.made _ hlo
  obtain ⟨f, hf, hfu, hbf⟩ := h.made _ hhi
  have hpos := Nat.two_pow_pos k
  have hes : e.startPfn ≤ p := hbe.start_le
  have hee : p + 2 ^ k ≤ e.endPfn := hbe.fits
  have hfs : f.startPfn ≤ p + 2 ^ k := hbf.start_le
  have hfe : p + 2 ^ k + 2 ^ k ≤ f.endPfn := hbf.fits
  have hef : e = f := hok.eq_of_neighbours hadj he hf heu hfu (x := p + 2 ^ k - 1)
    ⟨by omega, by omega⟩ ⟨by omega, by omega⟩
  subst hef
  exact hbe.not_buddies hbf (h.meta_lt hlo) hk hal

end

/-! ## A small machine -/

/-- Six pages of memory: the metadata is on page 3 and pages 4 and 5 make
one block of order 1. -/
def smallMap : List MemmapEntry := [⟨3 * pageSize, 3 * pageSize, .usable⟩]

def blankFrame : PageFrame := ⟨0, 0, 0, 0, 0, none, none⟩

lemma smallMap_ok : MemmapOk smallMap := .single (by decide)

def smallStart : Pmm := (pmmInit smallMap 0 fun _ => blankFrame).get (by decide)

lemma pmmInit_smallMap : pmmInit smallMap 0 (fun _ => blankFrame) = some smallStart :=
  (Option.some_get _).symm

lemma smallMap_noAdjacent : NoAdjacentUsable smallMap := by
  simp [NoAdjacentUsable, smallMap, pageSize]

end VortexOS.Mm
