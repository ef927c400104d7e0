/-
VortexOS.Mm.AllTables — mapping in either half of an address space.

Nothing in `vmm_map_page` asks which half an address is in. `AllTables` is
the invariant of the tables of both halves together: a tree of pages in
use. `Maps` is what the calls do to the tables and to free memory, and
`SameLeaves` and `SetLeaf` what they do to the entries for pages.
-/
import VortexOS.Mm.VmmFrame

namespace VortexOS.Mm

open Function Lib

variable {p q : List Nat} {root n virt : Nat} {m m' m'' : WordMem} {s s' s'' : Kmem}
  {a a' a'' : AHeap} {e : BitVec 64} {pmm : Pmm}

/-! ## Paths -/

def allPaths : Set (List Nat) := {p | (∀ i ∈ p, i < 512) ∧ p.length ≤ 3}

def LastSlot (q : List Nat) (i : Nat) : Prop := q ∈ allPaths ∧ q.length = 3 ∧ i < 512

lemma allPaths_upperIdx (virt : Nat) : upperIdx virt ∈ allPaths := ⟨upperIdx_lt virt, Nat.le_refl 3⟩

lemma lastSlot_of_virt (virt : Nat) : LastSlot (upperIdx virt) (getPtIdx virt) :=
  ⟨allPaths_upperIdx virt, rfl, and_511_lt _⟩

lemma allPaths_append (h : p ++ q ∈ allPaths) : p ∈ allPaths := by
  refine ⟨fun i hi => h.1 i (by simp [hi]), ?_⟩
  have hlen := h.2
  rw [List.length_append] at hlen
  omega

lemma allPaths_within (hp : p ∈ allPaths) : Within allPaths 512 p := by
  rintro q i r rfl
  exact ⟨allPaths_append hp, hp.1 i (by simp)⟩

/-! ## The invariant -/

/-- `as` is an address space whose tables, in both halves, are a tree of
pages that are in use. -/
structure AllTables (S : Set Nat) (s : Kmem) (a : AHeap) (fl : Nat → List Nat) (held : Set Block)
    (as root : Nat) : Prop extends KernelInv S s a fl held where
  object : ∃ f, a.Handed f as
  pml4 : s.pml4 as = pagePtr a.hhdm root
  tree : IsTree nextFrame allPaths (entryAt s.mem) root
  page : ∀ p ∈ allPaths, ∀ t, tableAt s.mem root p = some t →
    PageOk a.hhdm t ∧ t ∉ s.pmm.freePages ∧ t ∉ a.slabs

/-- What mapping does to tables and free memory, in either half: it takes
`n` pages at most, tables stay, and new ones were free. -/
structure Maps (root n : Nat) (s : Kmem) (a : AHeap) (s' : Kmem) (a' : AHeap) : Prop where
  hhdm : a'.hhdm = a.hhdm
  slabs : a'.slabs = a.slabs
  pages : s.pmm.kFreePages ≤ s'.pmm.kFreePages + n
  free : s'.pmm.freePages ⊆ s.pmm.freePages
  stay : ∀ p ∈ allPaths, ∀ t, tableAt s.mem root p = some t → tableAt s'.mem root p = some t
  tables : ∀ p ∈ allPaths, ∀ t, tableAt s'.mem root p = some t →
    tableAt s.mem root p = some t ∨ t ∈ s.pmm.freePages

namespace Maps

variable {m : Nat}

lemma refl (root n : Nat) (s : Kmem) (a : AHeap) : Maps root n s a s a :=
  ⟨rfl, rfl, Nat.le_add_right _ _, Set.Subset.refl _, fun _ _ _ ht => ht, fun _ _ _ ht => Or.inl ht⟩

lemma trans (h : Maps root m s a s' a') (h' : Maps root n s' a' s'' a'') :
    Maps root (m + n) s a s'' a'' := by
  refine ⟨h'.hhdm.trans h.hhdm, h'.slabs.trans h.slabs, ?_, h'.free.trans h.free,
    fun p hp t ht => h'.stay p hp t (h.stay p hp t ht), fun p hp t ht => ?_⟩
  · have hm := h.pages
    have hn := h'.pages
    omega
  · cases h'.tables p hp t ht with
    | inl hold => exact h.tables p hp t hold
    | inr hnew => exact Or.inr (h.free hnew)

end Maps

/-- Page `f` is not free, no slab and no table. -/
structure Plain (s : Kmem) (a : AHeap) (root f : Nat) : Prop where
  notFree : f ∉ s.pmm.freePages
  notSlab : f ∉ a.slabs
  notTable : ∀ p ∈ allPaths, tableAt s.mem root p ≠ some f

lemma Plain.maps {f : Nat} (h : Plain s a root f) (hm : Maps root n s a s' a') :
    Plain s' a' root f := by
  refine ⟨fun hin => h.notFree (hm.free hin), by rw [hm.slabs]; exact h.notSlab, fun p hp ht => ?_⟩
  cases hm.tables p hp f ht with
  | inl hold => exact h.notTable p hp hold
  | inr hnew => exact h.notFree hnew

/-- Nothing has changed but tables, with the new ones among them. -/
def TablesOnly (root : Nat) (s s' : Kmem) : Prop :=
  ∀ w, (∀ p ∈ allPaths, tableAt s'.mem root p ≠ some (w / 512)) → s'.mem w = s.mem w

lemma TablesOnly.refl (root : Nat) (s : Kmem) : TablesOnly root s s := fun _ _ => rfl

lemma TablesOnly.trans (h : TablesOnly root s s') (h' : TablesOnly root s' s'')
    (hm : Maps root n s' a' s'' a'') : TablesOnly root s s'' :=
  fun w hw => (h' w hw).trans (h w fun p hp ht => hw p hp (hm.stay p hp _ ht))

def SameLeaves (root : Nat) (m m' : WordMem) : Prop :=
  ∀ q i, LastSlot q i → leafAt m' root q i = leafAt m root q i

lemma SameLeaves.refl (root : Nat) (m : WordMem) : SameLeaves root m m := fun _ _ _ => rfl

lemma SameLeaves.trans (h : SameLeaves root m m') (h' : SameLeaves root m' m'') :
    SameLeaves root m m'' := fun q i hq =>
  (h' q i hq).trans (h q i hq)

/-- The entry for the page at `virt` has become `e`. -/
def SetLeaf (root : Nat) (m m' : WordMem) (virt : Nat) (e : BitVec 64) : Prop :=
  ∀ q i, LastSlot q i →
    leafAt m' root q i = if q = upperIdx virt ∧ i = getPtIdx virt then some e else leafAt m root q i

lemma SetLeaf.after (h : SameLeaves root m m') (h' : SetLeaf root m' m'' virt e) :
    SetLeaf root m m'' virt e := fun q i hq => by
  rw [h' q i hq, h q i hq]

lemma SetLeaf.before (h : SetLeaf root m m' virt e) (h' : SameLeaves root m' m'') :
    SetLeaf root m m'' virt e := fun q i hq =>
  (h' q i hq).trans (h q i hq)

lemma SetLeaf.self (h : SetLeaf root m m' virt e) :
    leafAt m' root (upperIdx virt) (getPtIdx virt) = some e := by
  rw [h _ _ (lastSlot_of_virt virt), if_pos ⟨rfl, rfl⟩]

/-- User mode has a page at each of the addresses. -/
def UserPages (m : WordMem) (root : Nat) (V : Set Nat) : Prop :=
  ∀ v ∈ V, ∃ e, leafAt m root (upperIdx v) (getPtIdx v) = some e ∧ isUser e = true

def KeepsUser (root : Nat) (m m' : WordMem) : Prop := ∀ V, UserPages m root V → UserPages m' root V

lemma KeepsUser.trans (h : KeepsUser root m m') (h' : KeepsUser root m' m'') :
    KeepsUser root m m'' := fun V hV => h' V (h V hV)

namespace AllTables

variable {S : Set Nat} {fl fl' : Nat → List Nat} {held held' : Set Block}
  {as t i g : Nat}

section

variable (h : AllTables S s a fl held as root)
include h

lemma rebuild (hk : KernelInv S s' { a with pmm := pmm } fl' held') (hkeeps : Pmm.Keeps a.pmm pmm)
    (hmem : ∀ w, w / 512 ∈ a.slabs → s'.mem w = s.mem w)
    (htree : IsTree nextFrame allPaths (entryAt s'.mem) root) (hpage : ∀ p ∈ allPaths, ∀ t,
      tableAt s'.mem root p = some t → PageOk a.hhdm t ∧ t ∉ s'.pmm.freePages ∧ t ∉ a.slabs) :
    AllTables S s' { a with pmm := pmm } fl' held' as root := by
  have hhdm : AHeap.hhdm { a with pmm := pmm } = a.hhdm := hkeeps.hhdm
  obtain ⟨f, hf⟩ := h.object
  refine ⟨hk, ⟨f, hf.setPmm hkeeps⟩, ?_, htree, fun p hp t ht => hhdm.symm ▸ hpage p hp t ht⟩
  rw [hhdm, ← h.pml4]
  exact h.toKernelInv.pml4_congr hf (hk.hhdm.trans (hhdm.trans h.hhdm.symm)) fun w hw _ => hmem w hw

lemma root_ok : PageOk a.hhdm root :=
  (h.page [] ⟨by simp, by simp⟩ root rfl).1

/-! ## Pages -/

lemma takePage : (s.allocPage = some (0, s) ∧ s.pmm.kFreePages = 0) ∨ ∃ g s1 a1 fl1 held1,
      s.allocPage = some (pfnToPhys g, s1) ∧ pfnToPhys g ≠ 0 ∧ AllTables S s1 a1 fl1 held1 as root ∧
    Maps root 1 s a s1 a1 ∧ g ∈ S ∧ g ∈ s.pmm.freePages ∧ Plain s1 a1 root g ∧ s1.mem = s.mem := by
  cases h.toKernelInv.allocPage with
  | inl hnull => exact Or.inl ⟨hnull, (h.toKernelInv.allocPage_count hnull).1.mp rfl⟩
  | inr hgot =>
    obtain ⟨g, pmm, fl1, halloc, hphys, hk, hkeeps, hfresh⟩ := hgot
    have hcount := h.toKernelInv.allocPage_takes halloc hphys
    have hsub := h.toKernelInv.freePages_subset hk (Set.subset_insert _ _)
    have hgfree := h.toKernelInv.fresh_free hk (Set.subset_insert _ _) (Or.inl rfl) hfresh
    have h1 := h.rebuild hk hkeeps (fun _ _ => rfl) h.tree fun p hp t ht => by
      obtain ⟨hok, hout, hslab⟩ := h.page p hp t ht
      exact ⟨hok, fun hin => hout (hsub hin), hslab⟩
    exact Or.inr ⟨g, _, _, fl1, _, halloc, hphys, h1,
      ⟨hkeeps.hhdm, rfl, hcount.le, hsub, fun _ _ _ ht => ht, fun _ _ _ ht => Or.inl ht⟩,
      hk.mem_pages (Or.inl rfl), hgfree,
        ⟨hk.not_free (Or.inl rfl), h.toKernelInv.fresh_not_slab hfresh,
          fun p hp ht => (h.page p hp g ht).2.1 hgfree⟩, rfl⟩

lemma storePages {W : Set Nat} (hst : StoresTo {w | w / 512 ∈ W} s s')
    (hslab : ∀ f ∈ W, f ∉ a.slabs)
    (htable : ∀ p ∈ allPaths, ∀ u, tableAt s.mem root p = some u → u ∉ W) :
    AllTables S s' a fl held as root ∧ Maps root 0 s a s' a ∧ SameLeaves root s.mem s'.mem := by
  have hentry : ∀ p ∈ allPaths, ∀ u, tableAt s.mem root p = some u → ∀ j < 512,
      entryAt s'.mem u j = entryAt s.mem u j := by
    refine fun p hp u hu j hj => hst.mem _ fun hin => htable p hp u hu ?_
    have hpage : (u * 512 + j) / 512 = u := by omega
    exact hpage ▸ hin
  have htables : ∀ p ∈ allPaths, tableAt s'.mem root p = tableAt s.mem root p := fun p hp =>
    walk_congr fun q j r u hsplit hu => by
      obtain ⟨hq, hj⟩ := allPaths_within hp q j r hsplit
      rw [hentry q hq u hu j hj]
  have hk : KernelInv S s' { a with pmm := a.pmm } fl held :=
    h.toKernelInv.stores hst fun w hw => hslab _ hw
  refine ⟨h.rebuild hk (.refl _)
      (fun w hw => hst.mem w fun hin => hslab _ hin hw) (h.tree.congr htables)
      fun p hp u hu => ?_, ⟨rfl, rfl, ?_, ?_, fun p hp u hu => ?_, fun p hp u hu => ?_⟩,
      fun q j hq => ?_⟩
  · rw [hst.pmm]
    exact h.page p hp u ((htables p hp).symm.trans hu)
  · rw [hst.pmm]
    exact Nat.le_refl _
  · rw [hst.pmm]
  · exact (htables p hp).trans hu
  · exact Or.inl ((htables p hp).symm.trans hu)
  · unfold leafAt
    rw [htables q hq.1]
    cases hu : tableAt s.mem root q with
    | none => rfl
    | some u => rw [Option.bind_some, Option.bind_some, hentry q hq.1 u hu j hq.2.2]

lemma storePage (hst : StoresTo {w | w / 512 = g} s s') (hg : Plain s a root g) :
    AllTables S s' a fl held as root ∧ Maps root 0 s a s' a ∧ SameLeaves root s.mem s'.mem := by
  refine h.storePages (W := {g}) hst (fun f hf => ?_) fun p hp u hu hin => ?_
  · rw [Set.mem_singleton_iff.mp hf]
    exact hg.notSlab
  · exact hg.notTable p hp (hu.trans (congrArg some (Set.mem_singleton_iff.mp hin)))

lemma storeFree (hst : StoresTo {w | w / 512 ∈ s.pmm.freePages} s s') :
    AllTables S s' a fl held as root ∧ Maps root 0 s a s' a ∧ SameLeaves root s.mem s'.mem :=
  h.storePages hst (fun f hf hslab => h.toKernelInv.not_free (h.inv.slabHeld f hslab) hf)
    fun p hp u hu => (h.page p hp u hu).2.1

/-! ## Tables -/

lemma emptySlot (hqi : q ++ [i] ∈ allPaths) (ht : tableAt s.mem root q = some t)
    (hnone : nextFrame (entryAt s.mem t i) = none) (hg : g ∈ S) (hfree : g ∈ s.pmm.freePages) :
    EmptySlot allPaths s.mem root q t i g where
  tree := h.tree
  within _ hp := allPaths_within hp
  path := hqi
  table := ht
  empty := hnone
  fresh p hp u hu heq := (h.page p hp u hu).2.1 (heq ▸ hfree)
  small := h.small g hg

lemma link (hslot : EmptySlot allPaths s.mem root q t i g)
    (hk : KernelInv S { s with pmm := pmm, mem := linkTable s.mem t i g }
      { a with pmm := pmm } fl' (insert ⟨0, g⟩ held))
    (hkeeps : Pmm.Keeps a.pmm pmm) (hfresh : (⟨0, g⟩ : Block) ∉ held)
    (hcount : s.pmm.kFreePages = pmm.kFreePages + 1) :
    AllTables S { s with pmm := pmm, mem := linkTable s.mem t i g } { a with pmm := pmm } fl'
        (insert ⟨0, g⟩ held) as root ∧
      Maps root 1 s a { s with pmm := pmm, mem := linkTable s.mem t i g } { a with pmm := pmm } ∧
      TablesOnly root s { s with pmm := pmm, mem := linkTable s.mem t i g } ∧
      SameLeaves root s.mem (linkTable s.mem t i g) := by
  obtain ⟨-, -, htslab⟩ := h.page q hslot.mem t hslot.table
  have hgfree := h.toKernelInv.fresh_free hk (Set.subset_insert _ _) (Or.inl rfl) hfresh
  have hsub := h.toKernelInv.freePages_subset hk (Set.subset_insert _ _)
  have hslab := h.toKernelInv.fresh_not_slab hfresh
  refine ⟨h.rebuild hk hkeeps (fun w hw => ?_) hslot.isTree fun p hp u hu => ?_,
    ⟨hkeeps.hhdm, rfl, hcount.le, hsub, fun p hp u hu => hslot.table_stays hp hu,
      fun p hp u hu => ?_⟩, fun w hw => ?_, fun q' j hq' => ?_⟩
  · exact linkTable_of_ne hslot.index (fun heq => hslab (heq ▸ hw)) fun heq => htslab (heq ▸ hw)
  · cases hslot.table_cases hp hu with
    | inl hnew =>
      rw [hnew.2]
      exact ⟨h.pageOk (hk.mem_pages (Or.inl rfl)), hk.not_free (Or.inl rfl), hslab⟩
    | inr hold =>
      obtain ⟨hok, hout, hslab'⟩ := h.page p hp u hold
      exact ⟨hok, fun hin => hout (hsub hin), hslab'⟩
  · cases hslot.table_cases hp hu with
    | inl hnew => exact Or.inr (hnew.2 ▸ hgfree)
    | inr hold => exact Or.inl hold
  · have hnew : w / 512 ≠ g := fun heq =>
      hw _ hslot.path (hslot.tableAt_new.trans (congrArg some heq.symm))
    have hold : w / 512 ≠ t := fun heq =>
      hw q hslot.mem ((hslot.table_stays hslot.mem hslot.table).trans (congrArg some heq.symm))
    exact linkTable_of_ne hslot.index hnew hold
  · refine hslot.leafAt_link hq'.1 ?_ hq'.2.2
    -- the slot is not in a last table
    rintro rfl
    have hlen := hslot.path.2
    rw [List.length_append, hq'.2.1] at hlen
    simp at hlen

lemma nextLevel (hqi : q ++ [i] ∈ allPaths) (ht : tableAt s.mem root q = some t) :
    ∃ r s' a' fl' held', getOrCreateNextLevel (pagePtr a.hhdm t) i s = some (r, s') ∧
    AllTables S s' a' fl' held' as root ∧ Maps root 1 s a s' a' ∧ TablesOnly root s s' ∧
    SameLeaves root s.mem s'.mem ∧
    ((r = 0 ∧ tableAt s.mem root (q ++ [i]) = none ∧ s.pmm.kFreePages = 0) ∨
      ∃ u, r = pagePtr a.hhdm u ∧ tableAt s'.mem root (q ++ [i]) = some u) := by
  obtain ⟨hq, hi⟩ := allPaths_within hqi q i [] rfl
  obtain ⟨hok, hout, hslab⟩ := h.page q hq t ht
  have hnext : tableAt s.mem root (q ++ [i]) = nextFrame (entryAt s.mem t i) := by
    rw [tableAt_concat, ht, Option.bind_some]
  rcases getOrCreateNextLevel_spec h.toKernelInv hok hout hslab hi
      fun u hu => (h.page _ hqi u (hnext.trans hu)).1 with
    ⟨u, hu, hcall⟩ | ⟨hnone, halloc, hcall⟩ |
      ⟨g, pmm, fl', hnone, halloc, hcall, hk, hkeeps, hfresh⟩
  · exact ⟨_, s, a, fl, held, hcall, h, .refl root 1 s a, .refl root s, .refl root _,
      Or.inr ⟨u, rfl, hnext.trans hu⟩⟩
  · exact ⟨0, s, a, fl, held, hcall, h, .refl root 1 s a, .refl root s, .refl root _,
      Or.inl ⟨rfl, hnext.trans hnone, (h.toKernelInv.allocPage_count halloc).1.mp rfl⟩⟩
  · have hg : g ∈ S := hk.mem_pages (Or.inl rfl)
    have hcount := h.toKernelInv.allocPage_takes halloc (h.pageOk hg).phys_ne_zero
    have hfree := h.toKernelInv.fresh_free hk (Set.subset_insert _ _) (Or.inl rfl) hfresh
    have hslot := h.emptySlot hqi ht hnone hg hfree
    obtain ⟨h', hmaps, honly, hsame⟩ := h.link hslot hk hkeeps hfresh hcount
    exact ⟨_, _, _, fl', _, hcall, h', hmaps, honly, hsame, Or.inr ⟨g, rfl, hslot.tableAt_new⟩⟩

end

lemma descend (is : List Nat) (h : AllTables S s a fl held as root) (hq : q ++ is ∈ allPaths)
    (ht : tableAt s.mem root q = some t) : ∃ r s' a' fl' held',
      Mm.descend is (pagePtr a.hhdm t) s = some (r, s') ∧ AllTables S s' a' fl' held' as root ∧
    Maps root is.length s a s' a' ∧ TablesOnly root s s' ∧ SameLeaves root s.mem s'.mem ∧
    ((r = 0 ∧ tableAt s.mem root (q ++ is) = none ∧ s.pmm.kFreePages < is.length) ∨
      ∃ u, r = pagePtr a.hhdm u ∧ tableAt s'.mem root (q ++ is) = some u) := by
  induction is generalizing s a fl held q t with
  | nil =>
    exact ⟨_, s, a, fl, held, rfl, h, .refl root 0 s a, .refl root s, .refl root _,
      Or.inr ⟨t, rfl, by rw [List.append_nil]; exact ht⟩⟩
  | cons i is ih =>
    have hsplit : q ++ i :: is = q ++ [i] ++ is := by simp
    rw [hsplit] at hq ⊢
    rw [List.length_cons, Nat.add_comm is.length 1]
    obtain ⟨r, s1, a1, fl1, held1, hcall, h1, hm1, hk1, hl1, hres⟩ :=
      h.nextLevel (allPaths_append hq) ht
    rw [Mm.descend, hcall]
    rcases hres with ⟨rfl, hnone, hzero⟩ | ⟨v, rfl, hv⟩
    · refine ⟨0, s1, a1, fl1, held1, by simp, h1, hm1.trans (.refl root _ s1 a1), hk1, hl1,
        Or.inl ⟨rfl, ?_, by omega⟩⟩
      rw [show tableAt s.mem root (q ++ [i] ++ is) = _ from walk_append root _ is,
        show walk _ _ root (q ++ [i]) = none from hnone]
      rfl
    · obtain ⟨r', s', a', fl', held', hdesc, h', hm', hk', hl', hres'⟩ := ih h1 hq hv
      have hne := (h1.page _ (allPaths_append hq) v hv).1.ptr_ne_zero
      rw [hm1.hhdm] at hdesc hne hres'
      refine ⟨r', s', a', fl', held', ?_, h', hm1.trans hm', hk1.trans hk' hm', hl1.trans hl', ?_⟩
      · simp only [if_neg hne]
        exact hdesc
      · refine hres'.imp_left fun h0 => ⟨h0.1, ?_, ?_⟩
        · -- a table that is missing now was missing before
          cases hold : tableAt s.mem root (q ++ [i] ++ is) with
          | none => rfl
          | some u =>
            exact absurd ((hm1.stay _ hq u hold).symm.trans h0.2.1) (Option.some_ne_none u)
        · have hpages := hm1.pages
          omega

lemma setLeaf (h : AllTables S s a fl held as root)
    (ht : tableAt s.mem root (upperIdx virt) = some t) (he : present e = true) :
    AllTables S { s with mem := update s.mem (t * 512 + getPtIdx virt) e } a fl held as root ∧
    Maps root 0 s a { s with mem := update s.mem (t * 512 + getPtIdx virt) e } a ∧
    TablesOnly root s { s with mem := update s.mem (t * 512 + getPtIdx virt) e } ∧
    SetLeaf root s.mem (update s.mem (t * 512 + getPtIdx virt) e) virt e := by
  obtain ⟨hq, hlen, hi⟩ := lastSlot_of_virt virt
  obtain ⟨-, -, htslab⟩ := h.page _ hq t ht
  have hslot : LeafSlot allPaths s.mem root (upperIdx virt) t (getPtIdx virt) :=
    ⟨h.tree, fun _ hp => allPaths_within hp, fun _ hp => hlen ▸ hp.2, hq, ht, hi⟩
  have htables : ∀ p ∈ allPaths,
      tableAt (update s.mem (t * 512 + getPtIdx virt) e) root p = tableAt s.mem root p :=
    fun p hp => hslot.tableAt_set e hp
  have hst := storesTo_slot s t hi e
  have hk : KernelInv S { s with mem := update s.mem (t * 512 + getPtIdx virt) e }
      { a with pmm := a.pmm } fl held :=
    h.toKernelInv.stores hst fun w hw => (show w / 512 = t from hw) ▸ htslab
  refine ⟨h.rebuild hk (.refl _) (fun w hw => hst.mem w fun hin => htslab ?_) (h.tree.congr htables)
    fun p hp u hu => ?_, ⟨rfl, rfl, Nat.le_refl _, Set.Subset.refl _, fun p hp u hu => ?_,
    fun p hp u hu => ?_⟩, fun w hw => ?_, fun q j hlast => ?_⟩
  · exact (show w / 512 = t from hin) ▸ hw
  · exact h.page p hp u ((htables p hp).symm.trans hu)
  · exact (htables p hp).trans hu
  · exact Or.inl ((htables p hp).symm.trans hu)
  · exact hst.mem w fun hin =>
      hw _ hq ((htables _ hq).trans (ht.trans (congrArg some (Eq.symm hin))))
  · rw [hslot.leafAt_set e hlast.1 hlast.2.2, if_pos he]

/-! ## Mapping and walking -/

lemma mapPage (h : AllTables S s a fl held as root) (virt phys : Nat) (flags : BitVec 32) :
    ∃ ok s' a' fl' held', Mm.mapPage (pagePtr a.hhdm root) virt phys flags s = some (ok, s') ∧
      AllTables S s' a' fl' held' as root ∧ Maps root 3 s a s' a' ∧ TablesOnly root s s' ∧
      ((ok = false ∧ tableAt s.mem root (upperIdx virt) = none ∧ s.pmm.kFreePages < 3 ∧
          SameLeaves root s.mem s'.mem) ∨
        ok = true ∧ SetLeaf root s.mem s'.mem virt (leafEntry phys flags)) := by
  obtain ⟨r, s1, a1, fl1, held1, hdesc, h1, hm1, hk1, hl1, hres⟩ :=
    descend (upperIdx virt) h (q := []) (allPaths_upperIdx virt) rfl
  rw [Mm.mapPage, hdesc]
  rcases hres with ⟨rfl, hnone, hlt⟩ | ⟨u, rfl, hu⟩
  · exact ⟨false, s1, a1, fl1, held1, by simp, h1, hm1, hk1, Or.inl ⟨rfl, hnone, hlt, hl1⟩⟩
  · have hok := (h1.page _ (allPaths_upperIdx virt) u hu).1
    obtain ⟨h2, hm2, hk2, hset⟩ := h1.setLeaf hu (present_leafEntry phys flags)
    refine ⟨true, _, a1, fl1, held1, ?_, h2, hm1.trans hm2, hk1.trans hk2 hm2,
      Or.inr ⟨rfl, hset.after hl1⟩⟩
    rw [hm1.hhdm] at hok
    simp only [Option.map_some, if_neg hok.ptr_ne_zero]
    rw [Kmem.setEntry_page (h1.hhdm.trans hm1.hhdm) hok (lastSlot_of_virt virt).2.2]
    rfl

lemma walkPageTable (h : AllTables S s a fl held as root) (virt : Nat) :
    ∃ r s' a' fl' held', Mm.walkPageTable (pagePtr a.hhdm root) virt s = some (r, s') ∧
    AllTables S s' a' fl' held' as root ∧ Maps root 3 s a s' a' ∧ SameLeaves root s.mem s'.mem ∧
    ∀ e, leafAt s.mem root (upperIdx virt) (getPtIdx virt) = some e →
    r = pfnToPhys (frameOf e) := by
  obtain ⟨r, s1, a1, fl1, held1, hdesc, h1, hm1, -, hl1, hres⟩ :=
    descend (upperIdx virt) h (q := []) (allPaths_upperIdx virt) rfl
  rw [Mm.walkPageTable, hdesc]
  rcases hres with ⟨rfl, hnone, -⟩ | ⟨u, rfl, hu⟩
  · refine ⟨0, s1, a1, fl1, held1, by simp, h1, hm1, hl1, fun e he => ?_⟩
    rw [leafAt, show tableAt s.mem root (upperIdx virt) = none from hnone] at he
    cases he
  · have hok := (h1.page _ (allPaths_upperIdx virt) u hu).1
    rw [hm1.hhdm] at hok
    refine ⟨(s1.entry (pagePtr a.hhdm u) (getPtIdx virt) &&& addrMask).toNat, s1, a1, fl1, held1,
      ?_, h1, hm1, hl1, fun e he => ?_⟩
    · simp only [Option.map_some, if_neg hok.ptr_ne_zero]
    · rw [← hl1 _ _ (lastSlot_of_virt virt), leafAt,
        show tableAt s1.mem root (upperIdx virt) = some u from hu, Option.bind_some] at he
      split at he
      · rw [Kmem.entry_page (h1.hhdm.trans hm1.hhdm) hok (lastSlot_of_virt virt).2.2,
          Option.some.inj he, and_addrMask_eq]
      · cases he

end AllTables

end VortexOS.Mm
