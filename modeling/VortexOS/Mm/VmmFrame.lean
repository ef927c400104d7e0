/-
VortexOS.Mm.VmmFrame — what the calls of the allocators leave alone.

`Frame W D` says which pages and heap objects a call may touch. An address
space whose tables and object lie outside of a call's frame is the same
afterwards (`SpaceInv.frame`), so two address spaces can be changed in turn.
A block from `kmalloc` is an object of a slab or a block of whole pages
(`AHeap.Owns`).
-/
import VortexOS.Mm.PageCount
import VortexOS.Mm.VmmUser

namespace VortexOS.Mm

open Lib

section

variable {W D : Set Nat} {s s' : Kmem} {a a' : AHeap} {held held' : Set Block} {as root : Nat}

lemma SameTables.leafAt_eq {m m' : WordMem} (h : SameTables m m' root) {q : List Nat} {i : Nat}
    (hp : q ++ [i] ∈ pagePaths) : leafAt m' root q i = leafAt m root q i := by
  obtain ⟨hq, _, hi⟩ := pagePaths_split hp
  unfold leafAt
  rw [h.walk_eq hq.1 (Nat.le_succ_of_le hq.2)]
  cases ht : tableAt m root q with
  | none => rfl
  | some t => simp [h t ⟨q, hq, ht⟩ i hi]

lemma SpaceInv.frame (h : SpaceInv s a held as root) (hf : Frame W D s a held s' a' held')
    (hD : as ∉ D) (hW : ∀ t ∈ userTables s.mem root, t ∉ W) :
    SpaceInv s' a' held' as root ∧ SameTables s.mem s'.mem root := by
  have hsame : SameTables s.mem s'.mem root := by
    intro t ht i hi
    obtain ⟨hheld, hslab⟩ := h.owned t ht
    have hpage : (t * 512 + i) / 512 = t := by omega
    exact hf.mem _ (by rw [hpage]; exact hheld) (by rw [hpage]; exact hslab)
      (by rw [hpage]; exact hW t ht)
  obtain ⟨f, hobj⟩ := h.object
  obtain ⟨hobj', hpml4⟩ := hf.handed f as hobj hD
  refine ⟨⟨⟨f, hobj'⟩, ?_, fun t ht => ?_, ?_⟩, hsame⟩
  · rw [hpml4, h.pml4, hf.hhdm]
  · rw [hsame.userTables_eq] at ht
    obtain ⟨hheld, hslab⟩ := h.owned t ht
    exact ⟨hf.kept _ hheld (hW t ht), fun hin => hW t ht (hf.slabs t hin hslab hheld)⟩
  · exact h.tree.congr fun p hp => hsame.walk_eq hp.1 (Nat.le_succ_of_le hp.2)

lemma SameTables.translate_eq {S : Set Nat} {fl fl' : Nat → List Nat}
    (h : VmInv S s a fl held as root) (h' : VmInv S s' a' fl' held' as root)
    (hsame : SameTables s.mem s'.mem root) {virt : Nat} (hv : virt < 2 ^ 47) :
    s'.translate as virt = s.translate as virt := by
  have hroot : s.root as = root := h.root_eq
  have hroot' : s'.root as = root := h'.root_eq
  rw [Kmem.translate, Kmem.translate, hroot, hroot',
    hsame.walk_eq (userPath_pathOf hv) (Nat.le_refl 4)]

end

/-! ## The heap's calls -/

/-- `p` is a block of the heap in a client's hands. -/
def AHeap.Owns (a : AHeap) (held : Set Block) (p : Nat) : Prop :=
  (∃ f, a.Handed f p) ∨ ∃ b ∈ held, b.base ∉ a.slabs ∧ p = pagePtr a.hhdm b.base

section

variable {S : Set Nat} {s s' : Kmem} {a a' : AHeap} {fl fl' : Nat → List Nat}
    {held held' : Set Block}
  {size p : Nat}

section

variable (h : KernelInv S s a fl held)
include h

lemma KernelInv.frame_pmm {pmm : Pmm} (hkeeps : Pmm.Keeps a.pmm pmm) (hheld : held ⊆ held') :
    Frame ∅ ∅ s a held { s with pmm := pmm } { a with pmm := pmm } held' :=
  h.frame hkeeps rfl hheld (fun _ _ _ => rfl) (by simp)

lemma MallocResult.frame (hrep : HeapRep s' a') (hres : MallocResult size a held p a' held')
    (hmem : ∀ w, a.Keeps a' w → s'.mem w = s.mem w) : Frame ∅ ∅ s a held s' a' held' := by
  have hpml4 : ∀ f q, a.Handed f q → a.slabs ⊆ a'.slabs → a'.hhdm = a.hhdm →
      s'.pml4 q = s.pml4 q := by
    intro f q hq hmono hhdm
    refine h.pml4_congr hq ?_ fun w hw h5 => hmem w fun _ => ⟨hw, h5⟩
    rw [hrep.hhdm_eq, hhdm, h.hhdm]
  cases hres with
  | null =>
    exact ⟨rfl, fun _ hb _ => hb, fun _ hg hn _ => absurd hg hn,
      fun f q hq _ => ⟨hq, hpml4 f q hq (fun _ hg => hg) rfl⟩,
      fun w _ hs _ => hmem w fun hin => absurd hin hs⟩
  | large hcache hpages horder hfresh hk =>
    exact ⟨hk.hhdm, fun _ hb _ => Or.inr hb, fun _ hg hn _ => absurd hg hn,
      fun f q hq _ => ⟨hq.setPmm hk, hpml4 f q hq (fun _ hg => hg) hk.hhdm⟩,
      fun w _ hs _ => hmem w fun hin => absurd hin hs⟩
  | small hcache hc hnew handed globals mono cacheOf fresh =>
    exact ⟨globals.hhdm, fun _ hb _ => Or.inl hb, fun g hg hn hheld => absurd hheld (fresh g hg hn),
      fun f q hq _ => ⟨(handed f q).mpr (Or.inl hq), hpml4 f q hq mono globals.hhdm⟩,
      fun w hw hs _ => hmem w fun hin => absurd hw (fresh _ hin hs)⟩

lemma KernelInv.kmalloc (size : Nat) : ∃ p s' a' fl' held', Mm.kmalloc size s = some (p, s') ∧
    a.kmalloc size = some (p, a') ∧ KernelInv S s' a' fl' held' ∧ Frame ∅ ∅ s a held s' a' held' ∧
    (p ≠ 0 → a'.Owns held' p ∧ (∀ f, ¬ a.Handed f p) ∧ (∀ b ∈ held, p ≠ pagePtr a.hhdm b.base) ∧
      (findCache size ≠ none → ∃ f, a'.Handed f p)) := by
  obtain ⟨p, s', a', fl', held', hcall, hacall, hrep, hinv, hres, hmem⟩ :=
    kmalloc_spec h.rep h.inv size
  have hk' : KernelInv S s' a' fl' held' := ⟨hrep, hinv, h.small⟩
  refine ⟨p, s', a', fl', held', hcall, hacall, hk', hres.frame h hrep hmem, fun hp => ?_⟩
  cases hres with
  | null => exact absurd rfl hp
  | @large order pfn pmm hcache hpages horder hfresh hk =>
    refine ⟨Or.inr ⟨⟨order, pfn⟩, Or.inl rfl, ?_, ?_⟩, fun f hf => ?_, fun b hb heq => ?_,
      fun hsome => absurd hcache hsome⟩
    · exact h.inv.fresh_not_slab hinv.pmmInv hfresh
    · exact congrArg (pagePtr · pfn) hk.hhdm.symm
    · exact h.inv.object_ne_page hf rfl
    · have hb' := hinv.pmmInv.held_eq (Or.inl rfl : (⟨order, pfn⟩ : Block) ∈ _) (Or.inr hb)
        (pagePtr_inj.mp heq)
      exact hfresh (hb' ▸ hb)
  | @small i f _ _ hcache hc hnew handed globals mono cacheOf fresh =>
    have hobj : a'.Handed f p := (handed f p).mpr (Or.inr ⟨rfl, rfl⟩)
    refine ⟨Or.inl ⟨f, hobj⟩, fun g hg => ?_, fun b _ heq => ?_, fun _ => ⟨f, hobj⟩⟩
    · have hgf := hinv.object_page ((handed g p).mpr (Or.inl hg)) hobj.slab hobj.object
      exact hnew (hgf ▸ hg)
    · rw [← show a'.hhdm = a.hhdm from globals.hhdm] at heq
      exact hinv.object_ne_page hobj heq

lemma KernelInv.kfree (hp : a.Owns held p) :
    ∃ a' fl' held', KernelInv S (Mm.kfree p s) a' fl' held' ∧
    Frame {t | p = pagePtr a.hhdm t} {p} s a held (Mm.kfree p s) a' held' ∧
    ((∃ f, a.Handed f p) → (Mm.kfree p s).pmm = s.pmm) := by
  cases hp with
  | inl hobj =>
    obtain ⟨f, hf⟩ := hobj
    obtain ⟨hrep, hinv, hslabs, handed, _, hpmm, hmem⟩ := kfree_object_spec h.rep h.inv hf
    have hhdm : (a.kfree p).hhdm = a.hhdm := congrArg Pmm.kHhdmOffset hpmm
    refine ⟨_, fl, held, ⟨hrep, hinv, h.small⟩, ⟨hhdm, fun _ hb _ => hb, fun g hg hn _ => ?_,
      fun g q hq hne => ?_, fun w _ hs _ => hmem w fun hin => absurd hin hs⟩, fun _ => ?_⟩
    · exact absurd (hslabs ▸ hg) hn
    · refine ⟨(handed g q).mpr ⟨hq, fun heq => hne heq.2⟩, ?_⟩
      obtain ⟨k, h5, h512, hqk, hword⟩ := h.inv.object_word hq.slab hq.object
      obtain ⟨j, _, hj512, hpj, hpword⟩ := h.inv.object_word hf.slab hf.object
      have hs' : (Mm.kfree p s).hhdm = s.hhdm := by rw [hrep.hhdm_eq, hhdm, h.hhdm]
      simp only [Kmem.pml4, Kmem.load, Kmem.wordAt, hs', h.hhdm, hword]
      rw [hmem]
      intro _
      have hmod : (g * 512 + k) % 512 = k := by omega
      refine ⟨by omega, fun heq => hne ?_⟩
      -- one word, one object
      rw [hpword] at heq
      have hgf : g = f := by omega
      have hkj : k = j := by omega
      rw [Set.mem_singleton_iff, hqk, hpj, hgf, hkj]
    · rw [hrep.pmm, hpmm, h.rep.pmm]
  | inr hpages =>
    obtain ⟨b, hb, hslab, rfl⟩ := hpages
    obtain ⟨pmm, fl', hcall, -, hk, -, hrep, hinv⟩ := kfree_pages_spec h.rep h.inv hb hslab
    rw [hcall]
    refine ⟨_, fl', _, ⟨hrep, hinv, h.small⟩, ?_, fun hobj => ?_⟩
    · refine ⟨hk.hhdm, fun c hc hne => ⟨hc, fun heq => hne ?_⟩, fun _ hg hn _ => absurd hg hn,
        fun f q hq _ => ⟨hq.setPmm hk, ?_⟩, fun _ _ _ _ => rfl⟩
      · rw [Set.mem_singleton_iff.mp heq]
        rfl
      · exact h.pml4_congr hq (hk.hhdm.trans h.hhdm.symm) fun _ _ _ => rfl
    · obtain ⟨f, hf⟩ := hobj
      exact absurd rfl (h.inv.object_ne_page hf)

end

lemma Frame.owns {W D : Set Nat} (hf : Frame W D s a held s' a' held')
    (h' : KernelInv S s' a' fl' held') (hp : a.Owns held p) (hD : p ∉ D)
    (hW : ∀ t ∈ W, p ≠ pagePtr a.hhdm t) : a'.Owns held' p := by
  cases hp with
  | inl hobj =>
    obtain ⟨f, hobj⟩ := hobj
    exact Or.inl ⟨f, (hf.handed f p hobj hD).1⟩
  | inr hpages =>
    obtain ⟨b, hb, hslab, rfl⟩ := hpages
    have hbW : b.base ∉ W := fun hin => hW _ hin rfl
    have hb' := hf.kept b hb hbW
    refine Or.inr ⟨b, hb', fun hin => ?_, by rw [hf.hhdm]⟩
    have heq : b = ⟨0, b.base⟩ := h'.inv.pmmInv.held_eq hb' (h'.inv.slabHeld _ hin) rfl
    exact hbW (hf.slabs _ hin hslab (heq ▸ hb))

/-! ## `vmm_create_address_space` -/

lemma NewSpace.frame {as root : Nat} (hnew : NewSpace S s a held as root s' a' fl' held') :
    Frame ∅ ∅ s a held s' a' held' := by
  refine ⟨hnew.hhdm, fun b hb _ => ?_, fun g hg hn hheld => ?_, fun f q hq _ => hnew.others f q hq,
    fun w hw hs _ => hnew.mem w (fun hin => ?_) fun heq => hnew.fresh (heq ▸ hw)⟩
  · rw [hnew.heldEq]
    exact Or.inl (Or.inr hb)
  · exact absurd (Or.inr hheld) (hnew.newSlab g hg hn)
  · exact hnew.newSlab _ hin hs (Or.inr hw)

lemma KernelInv.create (h : KernelInv S s a fl held) (cr3 : Nat) :
    ∃ as s' a' fl' held', vmmCreateAddressSpace cr3 s = some (as, s') ∧ a.newSpace = some (as, a') ∧
    KernelInv S s' a' fl' held' ∧ Frame ∅ ∅ s a held s' a' held' ∧
    (as = 0 ∨ (∀ f, ¬ a.Handed f as) ∧ ∃ root, NewSpace S s a held as root s' a' fl' held') := by
  obtain ⟨as, s', a', hcreate, hspace, hres⟩ := createAddressSpace_spec h cr3
  have hcall := hcreate
  have hacall := hspace
  unfold AHeap.newSpace at hacall
  cases h.newPml4 cr3 with
  | inl hnull =>
    rw [hnull.2] at hcall
    simp only [hnull.1, if_true] at hacall
    obtain ⟨rfl, rfl⟩ := Prod.mk.inj (Option.some.inj hcall)
    obtain ⟨-, rfl⟩ := Prod.mk.inj (Option.some.inj hacall)
    exact ⟨0, s, a, fl, held, hcreate, hspace, h, Frame.refl _ _ _ _ _, Or.inl rfl⟩
  | inr hgot =>
    obtain ⟨root, pmm, fl1, s1, hpmm, hphys, hk1, hkeeps, hfresh, hst, -, hgot⟩ := hgot
    have hf1 : Frame ∅ ∅ s a held s1 { a with pmm := pmm } (insert ⟨0, root⟩ held) := by
      refine h.frame hkeeps hst.pmm (Set.subset_insert _ _) (fun w hw _ => ?_) (by simp)
      exact hst.mem w fun heq => hfresh ((show w / 512 = root from heq) ▸ hw)
    obtain ⟨p, s2, a2, fl2, held2, hmalloc, hamalloc, hk2, hf2, hown⟩ :=
      hk1.kmalloc sizeofAddressSpace
    simp only [hgot, hmalloc, Option.map_some, Option.some.injEq] at hcall
    simp only [hpmm, if_neg hphys, hamalloc, Option.some.injEq, Prod.mk.injEq] at hacall
    obtain ⟨rfl, rfl⟩ := hacall
    by_cases hp : p = 0
    · obtain ⟨-, rfl⟩ := Prod.mk.inj ((if_pos hp).symm.trans hcall)
      exact ⟨p, s2, a2, fl2, held2, hcreate, hspace, hk2, (hf1.trans hf2).mono (by simp) (by simp),
        Or.inl hp⟩
    · obtain ⟨root', fl', held', hnew⟩ := hres.resolve_left hp
      refine ⟨p, s', a2, fl', held', hcreate, hspace, hnew.inv.toKernelInv, hnew.frame,
        Or.inr ⟨fun f hobj => ?_, root', hnew⟩⟩
      exact (hown hp).2.1 f (hobj.setPmm hkeeps)

/-! ## Pages for an address space -/

variable {as root g : Nat}

lemma VmInv.takePage (h : VmInv S s a fl held as root) :
    (s.allocPage = some (0, s) ∧ s.pmm.kFreePages = 0) ∨
    s.pmm.kFreePages ≠ 0 ∧ ∃ g s1 a1 fl1, s.allocPage = some (pfnToPhys g, s1) ∧ pfnToPhys g ≠ 0 ∧
    VmInv S s1 a1 fl1 (insert ⟨0, g⟩ held) as root ∧
    Growth root 1 s a held s1 a1 (insert ⟨0, g⟩ held) ∧ (⟨0, g⟩ : Block) ∉ held ∧ g ∉ a1.slabs ∧
    g ∈ S ∧ s1.mem = s.mem := by
  cases h.toKernelInv.allocPage with
  | inl hnull => exact Or.inl ⟨hnull, (h.toKernelInv.allocPage_count hnull).1.mp rfl⟩
  | inr hgot =>
    obtain ⟨g, pmm, fl1, halloc, hphys, hk, hkeeps, hfresh⟩ := hgot
    have hf : Frame ∅ ∅ s a held { s with pmm := pmm } { a with pmm := pmm } (insert ⟨0, g⟩ held) :=
      h.toKernelInv.frame_pmm hkeeps (Set.subset_insert _ _)
    obtain ⟨hs, -⟩ := h.toSpaceInv.frame hf (by simp) (by simp)
    have hcount := h.toKernelInv.allocPage_takes halloc hphys
    refine Or.inr ⟨by omega, g, _, _, fl1, halloc, hphys, ⟨hk, hs⟩,
      ⟨?_, fun _ _ ht => ht, ?_, fun hw => hw, Set.subset_insert _ _,
        h.toKernelInv.freePages_subset hk (Set.subset_insert _ _), Set.subset_union_left,
        fun _ _ _ => rfl, fun _ _ _ => rfl⟩, hfresh,
      h.toKernelInv.fresh_not_slab hfresh, hk.mem_pages (Or.inl rfl), rfl⟩
    · exact hf.mono (by simp) (by simp)
    · exact hcount.le

lemma VmInv.storePages {W : Set Nat} (h : VmInv S s a fl held as root)
    (hst : StoresTo {w | w / 512 ∈ W} s s') (hslab : ∀ t ∈ W, t ∉ a.slabs)
    (ht : ∀ t ∈ W, t ∉ userTables s.mem root) :
    VmInv S s' a fl held as root ∧ Frame W ∅ s a held s' a held ∧ SameTables s.mem s'.mem root := by
  have hk : KernelInv S s' a fl held := h.toKernelInv.stores hst fun w hw => hslab _ hw
  have hf : Frame W ∅ s a held s' { a with pmm := a.pmm } held :=
    h.toKernelInv.frame (.refl _) (hst.pmm.trans h.rep.pmm) (Set.Subset.refl _)
      (fun w _ hn => hst.mem w hn) hslab
  obtain ⟨hs, hsame⟩ := h.toSpaceInv.frame hf (by simp) fun t hin hW => ht t hW hin
  exact ⟨⟨hk, hs⟩, hf, hsame⟩

lemma Growth.store {n : Nat} {s0 : Kmem} {a0 : AHeap} {held0 : Set Block}
    (hg : Growth root n s0 a0 held0 s a held) (h : VmInv S s a fl held as root)
    (hst : StoresTo {w | w / 512 = g} s s') (hslab : g ∉ a.slabs) (ht : g ∉ userTables s.mem root)
    (hin : (⟨0, g⟩ : Block) ∈ held) (hfresh : (⟨0, g⟩ : Block) ∉ held0)
    (hfree : g ∈ s0.pmm.freePages) :
    VmInv S s' a fl held as root ∧ Growth root n s0 a0 held0 s' a held := by
  obtain ⟨h', hf, hsame⟩ := h.storePages (W := {g}) hst (fun t heq => heq ▸ hslab)
    fun t heq => heq ▸ ht
  refine ⟨h', (hg.frame.trans hf).mono (fun b hb hW => ?_) (by simp), fun b hb hbt => ?_, ?_,
    fun hw => ?_, hg.keeps, hst.pmm ▸ hg.spread.free, hsame.userTables_eq ▸ hg.spread.tables,
    fun w ht' hfree' => ?_, fun i h256 hi => ?_⟩
  · cases hW with
    | inl hold => exact hold
    | inr heq =>
      -- the page was not in use
      exact absurd (h.inv.pmmInv.held_eq (hg.keeps hb) hin heq ▸ hb) hfresh
  · exact hg.tables b hb (hsame.userTables_eq ▸ hbt)
  · rw [hst.pmm]
    exact hg.pages
  · intro q i t hq hqt hp
    obtain ⟨hq', hi⟩ := tablePaths_within hq q i [] rfl
    rw [hsame.walk_eq hq'.1 (Nat.le_succ_of_le hq'.2)] at hqt
    rw [hsame t ⟨q, hq', hqt⟩ i hi] at hp ⊢
    exact hg.writable hw q i t hq hqt hp
  · rw [hst.mem w fun heq : w / 512 = g => hfree' (heq ▸ hfree)]
    exact hg.spread.mem w ht' hfree'
  · rw [hsame root ⟨[], tablePaths_nil, rfl⟩ i hi]
    exact hg.spread.kernel i h256 hi

/-! ## `vmm_clone_address_space` -/

section

variable {as' root' count : Nat} {b : Bool} {s1 : Kmem} {a1 : AHeap} {fl1 : Nat → List Nat}
  {held1 : Set Block} {lbl : Labels} (h : VmInv S s a fl held as root)
  (hnew : NewSpace S s a held as' root' s1 a1 fl1 held1)
  (hres : CopyResult S a.hhdm (held1 \ {⟨0, root'⟩}) (lastTables s.mem root) [] root'
    (List.range 512) s1 (rootLabel root') count b s' lbl)
include h hnew hres

lemma NewSpace.copy_frame :
    ∃ fl' held', KernelInv S s' { a1 with pmm := s'.pmm } fl' held' ∧ held1 ⊆ held' ∧
    Frame (lastTables s.mem root ∪ {root'}) ∅ s1 a1 held1 s' { a1 with pmm := s'.pmm } held' := by
  have hk1 := hnew.inv.toKernelInv
  have hroot : (⟨0, root'⟩ : Block) ∈ held1 ∧ root' ∉ a1.slabs :=
    hnew.inv.owned root' ⟨[], tablePaths_nil, rfl⟩
  have hlast : ∀ t ∈ lastTables s.mem root ∪ {root'}, t ∉ a1.slabs := by
    intro t ht hslab
    cases ht with
    | inl hL =>
      obtain ⟨hheld, hts⟩ := h.owned t (mem_userTables (Or.inr hL))
      exact hnew.newSlab t hslab hts (Or.inr hheld)
    | inr heq => exact hroot.2 (Set.mem_singleton_iff.mp heq ▸ hslab)
  -- the copy stores to its own pages and to the last tables of the source
  have hmem : ∀ w, (⟨0, w / 512⟩ : Block) ∈ held1 → w / 512 ∉ lastTables s.mem root ∪ {root'} →
      s'.mem w = s1.mem w := by
    intro w hw hn
    rw [Set.mem_union, not_or] at hn
    have hlbl : lbl (w / 512) = none := by
      by_contra hl
      refine hres.copying.fresh _ hl ⟨hw, fun heq => hn.2 ?_⟩
      exact (Block.mk.inj heq).2
    exact (hres.step.mem w (Or.inr hlbl) hn.2).eq_of_notMem hn.1
  have hkeeps : Pmm.Keeps a1.pmm s'.pmm := hk1.rep.pmm ▸ hres.step.keeps
  have hheld : held1 ⊆ heldWith (held1 \ {⟨0, root'⟩}) lbl := by
    intro b hb
    by_cases heq : b = ⟨0, root'⟩
    · rw [heq]
      exact Or.inr ⟨rfl, by simp [hres.step.ext root' [] (rootLabel_self root')]⟩
    · exact Or.inl ⟨hb, heq⟩
  obtain ⟨fl', hpmm⟩ := hres.copying.pmm
  have hk : KernelInv S { s1 with pmm := s'.pmm } { a1 with pmm := s'.pmm } fl'
      (heldWith (held1 \ {⟨0, root'⟩}) lbl) :=
    ⟨hk1.rep.setPmm hkeeps, hk1.inv.setPmm hpmm hkeeps fun f hf => hheld (hk1.inv.slabHeld f hf),
      hk1.small⟩
  have hst : StoresTo {w | w / 512 ∉ a1.slabs} { s1 with pmm := s'.pmm } s' := by
    refine ⟨rfl, hres.step.kCaches, fun w hw => ?_⟩
    have hslab : w / 512 ∈ a1.slabs := not_not.mp hw
    exact hmem w (hk1.inv.slabHeld _ hslab) fun hin => hlast _ hin hslab
  exact ⟨fl', _, hk.stores hst fun w hw => hw, hheld, hk1.frame hkeeps rfl hheld hmem hlast⟩

/-- A new address space and the copy into it. The child's root was not in
use before. -/
lemma NewSpace.clone_frame : ∃ fl' held', KernelInv S s' { a1 with pmm := s'.pmm } fl' held' ∧
    held1 ⊆ held' ∧ Frame (lastTables s.mem root) ∅ s a held s' { a1 with pmm := s'.pmm } held' ∧
    ∀ f p, a1.Handed f p → s'.pml4 p = s1.pml4 p := by
  obtain ⟨fl', held', hk', hheld, hf2⟩ := hnew.copy_frame h hres
  refine ⟨fl', held', hk', hheld, (hnew.frame.trans hf2).mono (fun b hb hin => ?_) (by simp),
    fun f p hp => (hf2.handed f p hp (by simp)).2⟩
  rw [Set.empty_union] at hin
  cases hin with
  | inl hL => exact hL
  | inr heq =>
    have hroot := (hnew.inv.owned root' ⟨[], tablePaths_nil, rfl⟩).1
    have hb1 : b ∈ held1 := hnew.frame.kept b hb (by simp)
    have heq' := hnew.inv.inv.pmmInv.held_eq hroot hb1 (Set.mem_singleton_iff.mp heq).symm
    exact absurd (heq' ▸ hb) hnew.fresh

end

lemma VmInv.clone_frame {as' cr3 : Nat} (h : VmInv S s a fl held as root)
    (hcall : vmmCloneAddressSpace as cr3 s = some (as', s')) : ∃ a' fl' held',
      KernelInv S s' a' fl' held' ∧ Frame (lastTables s.mem root) ∅ s a held s' a' held' := by
  obtain ⟨dst, s1, a1, fl1, held1, hcreate, -, hk1, hf1, hres⟩ := h.toKernelInv.create cr3
  unfold vmmCloneAddressSpace at hcall
  simp only [hcreate] at hcall
  by_cases h0 : dst = 0
  · rw [if_pos h0] at hcall
    obtain ⟨-, rfl⟩ := Prod.mk.inj (Option.some.inj hcall)
    exact ⟨a1, fl1, held1, hk1, hf1.mono (by simp) (by simp)⟩
  · obtain ⟨-, root', hnew⟩ := hres.resolve_left h0
    obtain ⟨b, s2, lbl, hcopy, hresult, -⟩ := hnew.copy h
    simp only [if_neg h0, hcopy, Option.map_some, Option.some.injEq, Prod.mk.injEq] at hcall
    obtain ⟨-, rfl⟩ := hcall
    obtain ⟨fl', held', hk', -, hf, -⟩ := hnew.clone_frame h hresult
    exact ⟨_, fl', held', hk', hf⟩

lemma lastTables_of_empty {m : WordMem} (hempty : ∀ i < 256, entryAt m root i = 0) :
    lastTables m root = ∅ := by
  ext t
  simp only [Set.mem_empty_iff_false, iff_false]
  rintro ⟨p, hp, hlen, ht⟩
  rw [eq_nil_of_empty hempty hp.1 ht] at hlen
  simp at hlen

/-- A call that makes an empty address space, or finds no room for it. -/
def MakesSpace (S : Set Nat) (s : Kmem) (a : AHeap) (held : Set Block)
    (call : Option (Nat × Kmem)) : Prop :=
  ∃ as s' a' fl' held', call = some (as, s') ∧ a.newSpace = some (as, a') ∧
    KernelInv S s' a' fl' held' ∧ Frame ∅ ∅ s a held s' a' held' ∧
    (as = 0 ∨ (∀ f, ¬ a.Handed f as) ∧
      ∃ root, SpaceInv s' a' held' as root ∧ ∀ i < 256, entryAt s'.mem root i = 0)

lemma KernelInv.makesSpace (h : KernelInv S s a fl held) (cr3 : Nat) :
    MakesSpace S s a held (vmmCreateAddressSpace cr3 s) := by
  obtain ⟨as, s', a', fl', held', hcall, hspace, hk, hf, hres⟩ := h.create cr3
  refine ⟨as, s', a', fl', held', hcall, hspace, hk, hf, hres.imp_right ?_⟩
  rintro ⟨hfresh, root, hnew⟩
  exact ⟨hfresh, root, hnew.inv.toSpaceInv, hnew.empty⟩

lemma KernelInv.newSpace_count {as : Nat} (h : KernelInv S s a fl held)
    (hspace : a.newSpace = some (as, a')) : (as = 0 ↔ s.pmm.kFreePages ≤ s.slabsNeeded 1) ∧
    s.pmm.kFreePages ≤ a'.pmm.kFreePages + 1 + s.slabsNeeded 1 := by
  obtain ⟨as', s', a1, fl1, held1, hcall, hspace', hk, -⟩ := h.create 0
  obtain ⟨rfl, rfl⟩ := Prod.mk.inj (Option.mem_unique hspace hspace')
  obtain ⟨hnull, -, hcount, -⟩ := h.create_count hcall
  refine ⟨hnull, ?_⟩
  rw [← hk.rep.pmm]
  split at hcount <;> omega

lemma tableCount_of_empty {m : WordMem} (hempty : ∀ i < 256, entryAt m root i = 0) :
    tableCount m 3 root = 0 := by
  rw [tableCount, List.sum_eq_zero_iff]
  intro c hc
  obtain ⟨i, -, rfl⟩ := List.mem_map.mp hc
  unfold slotCount
  by_cases hi : i < 256
  · simp [hempty i hi, present]
  · simp [hi]

lemma VmInv.makesSpace (h : VmInv S s a fl held as root)
    (hempty : ∀ i < 256, entryAt s.mem root i = 0) (cr3 : Nat) :
    MakesSpace S s a held (vmmCloneAddressSpace as cr3 s) := by
  obtain ⟨dst, s1, a1, fl1, held1, hcreate, hspace, hk1, hf1, hres⟩ := h.toKernelInv.create cr3
  unfold vmmCloneAddressSpace
  simp only [hcreate]
  by_cases h0 : dst = 0
  · rw [if_pos h0]
    exact ⟨0, s1, a1, fl1, held1, rfl, h0 ▸ hspace, hk1, hf1, Or.inl rfl⟩
  · obtain ⟨hfresh, root', hnew⟩ := hres.resolve_left h0
    obtain ⟨b, s2, lbl, hcopy, hresult, hcop⟩ := hnew.copy h
    have halloc := hresult.alloc
    rw [tableCount_of_empty hempty, allocTimes, Option.some.injEq, Prod.mk.injEq] at halloc
    obtain ⟨rfl, hpmm⟩ := halloc
    obtain ⟨fl', held', hk', hheld, hf, hpml4⟩ := hnew.clone_frame h hresult
    have ha : { a1 with pmm := s2.pmm } = a1 := by rw [← hpmm, hnew.inv.rep.pmm]
    rw [ha] at hk' hf
    rw [lastTables_of_empty hempty] at hf
    rw [if_neg h0, hcopy]
    refine ⟨dst, s2, a1, fl', held', rfl, hspace, hk', hf, Or.inr ⟨hfresh, root', ?_⟩⟩
    have hempty' : ∀ i < 256, entryAt s2.mem root' i = 0 := by
      intro i hi
      have hslot := hnew.rootCopied h hresult (hcop rfl) hi
      rw [RootCopied, hempty i hi] at hslot
      exact hslot
    obtain ⟨f, hobj⟩ := hnew.inv.object
    have hroot := hnew.inv.owned root' ⟨[], tablePaths_nil, rfl⟩
    refine ⟨spaceInv_of_empty ⟨f, hobj⟩ ?_ ⟨hheld hroot.1, hroot.2⟩ hempty', hempty'⟩
    rw [hpml4 f dst hobj, hnew.inv.pml4]

end

end VortexOS.Mm
