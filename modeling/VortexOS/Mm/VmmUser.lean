/-
VortexOS.Mm.VmmUser — user-mode accesses and copy on write.

Two processes run on one memory, each on its own tables. A user-mode write
that is not allowed faults and `page_fault_handler` runs on the writer's
tables. A write that is retried after the handler is a second write here,
so that the other process may run in between.

`Isolated` is what keeps them apart: a page that one process can write is
not mapped by the other, pages are not tables, and the last table on the
way to a page belongs to one process and has one path.
-/
import VortexOS.Mm.VmmTheorems

namespace VortexOS.Mm

open Function Lib

variable {m m' : WordMem} {root f virt g t : Nat} {p : List Nat} {S : Set Nat} {s pmm : Pmm}
  {s' : Kmem} {fl : Nat → List Nat} {held : Set Block}

/-! ## The MMU -/

/-- The byte a process reads, if the address is mapped. -/
def Kmem.readUser (s : Kmem) (root virt : Nat) : Option (BitVec 8) :=
  (tableAt s.mem root (pathOf virt)).map fun f => readByte s.mem (f * pageSize + virt % pageSize)

def faultCode (s : Kmem) (root virt : Nat) : Nat :=
  if (tableAt s.mem root (pathOf virt)).isSome then 7 else 6

/-- A user-mode write on the tables at `root`: the byte is stored, or the
page-fault handler runs. -/
def userWrite (root virt : Nat) (v : BitVec 8) (s : Kmem) : Option Kmem :=
  match walk nextWritable (entryAt s.mem) root (pathOf virt) with
  | some f => some { s with mem := writeByte s.mem (f * pageSize + virt % pageSize) v }
  | none => pageFaultHandler (faultCode s root virt) virt (pfnToPhys root) s

def PageLeft (s : Kmem) : Prop := ∃ phys pmm, pmmAllocPage s.pmm = some (phys, pmm) ∧ phys ≠ 0

/-! ## Memories with the same tables -/

/-- `m'` has the entries of `m` in the tables at `root`. -/
def SameTables (m m' : WordMem) (root : Nat) : Prop :=
  ∀ t ∈ userTables m root, ∀ i < 512, entryAt m' t i = entryAt m t i

/-- A walk that goes where the MMU goes, or stops. -/
lemma SameTables.walk_eq_of_le {next : BitVec 64 → Option Nat}
    (hle : ∀ e f, next e = some f → nextFrame e = some f) (h : SameTables m m' root)
    (hp : UserPath p) (hlen : p.length ≤ 4) :
    walk next (entryAt m') root p = walk next (entryAt m) root p := by
  apply walk_congr
  intro q i r u hsplit hu
  obtain ⟨hq, hi⟩ := hp.within hlen q i r hsplit
  rw [h u ⟨q, hq, walk_mono hle hu⟩ i hi]

lemma SameTables.walk_eq (h : SameTables m m' root) (hp : UserPath p) (hlen : p.length ≤ 4) :
    tableAt m' root p = tableAt m root p :=
  h.walk_eq_of_le (fun _ _ he => he) hp hlen

lemma SameTables.walkWritable_eq (h : SameTables m m' root) (hp : UserPath p)
    (hlen : p.length ≤ 4) :
    walk nextWritable (entryAt m') root p = walk nextWritable (entryAt m) root p :=
  h.walk_eq_of_le (fun _ _ he => (nextFrame_of_nextWritable he).1) hp hlen

lemma SameTables.userTables_eq (h : SameTables m m' root) :
    userTables m' root = userTables m root :=
  tables_congr fun _ hp => h.walk_eq hp.1 (Nat.le_succ_of_le hp.2)

lemma SameTables.trans {m'' : WordMem} (h : SameTables m m' root) (h' : SameTables m' m'' root) :
    SameTables m m'' root := by
  intro t ht i hi
  rw [h' t (h.userTables_eq ▸ ht) i hi, h t ht i hi]

lemma sameTables_of_pages {W : Set Nat} (hm : ∀ w, w / 512 ∉ W → m' w = m w)
    (hW : ∀ t ∈ userTables m root, t ∉ W) : SameTables m m' root := by
  intro t ht i hi
  have hpage : (t * 512 + i) / 512 = t := by omega
  exact hm _ (by rw [hpage]; exact hW t ht)

lemma readByte_page (h : ∀ w, w / 512 = f → m' w = m w) (virt : Nat) :
    readByte m' (f * pageSize + virt % pageSize) = readByte m (f * pageSize + virt % pageSize) := by
  have hlt : virt % pageSize < pageSize := Nat.mod_lt _ (by decide)
  unfold readByte
  rw [h]
  simp only [pageSize] at *
  omega

/-! ## The page-fault handler -/

lemma pageAlignDown_shiftRight {k : Nat} (hk : 12 ≤ k) : pageAlignDown virt >>> k = virt >>> k := by
  obtain ⟨j, rfl⟩ := Nat.exists_eq_add_of_le hk
  have hpage : pageAlignDown virt >>> 12 = virt >>> 12 := by
    simp only [pageAlignDown, pageSize, Nat.shiftRight_eq_div_pow]
    omega
  rw [Nat.shiftRight_add, Nat.shiftRight_add, hpage]

@[simp] lemma upperIdx_pageAlignDown (virt : Nat) :
    upperIdx (pageAlignDown virt) = upperIdx virt := by
  simp [upperIdx, getPml4Idx, getPdptIdx, getPdIdx, pageAlignDown_shiftRight]

@[simp] lemma getPtIdx_pageAlignDown (virt : Nat) :
    getPtIdx (pageAlignDown virt) = getPtIdx virt := by
  simp [getPtIdx, pageAlignDown_shiftRight]

lemma PmmInv.allocPage_eq {s' : Pmm} (h : PmmInv S s fl held)
    (halloc : pmmAllocPage s = some (pfnToPhys g, s')) (hg : g ≠ 0) :
    ∃ fl', PmmInv S s' fl' (insert ⟨0, g⟩ held) ∧ Pmm.Keeps s s' ∧ (⟨0, g⟩ : Block) ∉ held := by
  cases pmmAllocPage_spec h with
  | inl hnull =>
    have hphys := (Prod.mk.inj (Option.mem_unique halloc hnull)).1
    exact absurd (pfnToPhys_eq_zero.mp hphys) hg
  | inr hgot =>
    obtain ⟨x, s1, fl', halloc', hgot⟩ := hgot
    obtain ⟨hphys, rfl⟩ := Prod.mk.inj (Option.mem_unique halloc halloc')
    obtain rfl : g = x := by
      simp only [pfnToPhys, pageShift, Nat.shiftLeft_eq] at hphys
      omega
    exact ⟨fl', hgot⟩

lemma PmmInv.freePages_insert {s' : Pmm} {fl' : Nat → List Nat} (h : PmmInv S s fl held)
    (h' : PmmInv S s' fl' (insert ⟨0, g⟩ held)) (hfresh : (⟨0, g⟩ : Block) ∉ held) :
    g ∈ s.freePages ∧ ∀ f ∈ s'.freePages, f ∈ s.freePages ∧ f ≠ g := by
  constructor
  · rw [h.mem_freePages]
    refine ⟨h'.mem_pages (b := ⟨0, g⟩) (Or.inl rfl), fun b hb hin => ?_⟩
    have hne : (⟨0, g⟩ : Block) ≠ b := fun heq => hfresh (heq ▸ hb)
    exact Set.disjoint_left.mp (h'.tiles.disjoint (Or.inr (Or.inl rfl)) (Or.inr (Or.inr hb)) hne)
      (Block.base_mem_cells ⟨0, g⟩) hin
  · intro f hf
    rw [h'.mem_freePages] at hf
    rw [h.mem_freePages]
    refine ⟨⟨hf.1, fun b hb => hf.2 b (Or.inr hb)⟩, fun heq => ?_⟩
    exact hf.2 _ (Or.inl rfl) (heq ▸ Block.base_mem_cells ⟨0, g⟩)

def cowEntry (g : Nat) : BitVec 64 := leafEntry (pfnToPhys g) ((pageWrite ||| pageUser).setWidth 32)

lemma nextFrame_cowEntry (hg : g < 2 ^ 40) : nextFrame (cowEntry g) = some g := by
  have hframe : frameOf (cowEntry g) = g := by
    rw [cowEntry, leafEntry, frameOf_or _ (by decide), frameOf_or _ (by decide),
      frameOf_and_addrMask, frameOf_phys hg]
  exact nextFrame_eq_some.mpr ⟨present_leafEntry _ _, hframe⟩

section

variable {s : Kmem}

/-- The last two steps of the handler: page `f` is copied to page `g`, which
is not on the way, and `g` is mapped in its place. -/
lemma mapPage_copy (hg : g < 2 ^ 52)
    (hok : ∀ p, p <+: upperIdx virt → ∀ u, tableAt s.mem root p = some u → PageOk s.hhdm u ∧ u ≠ g)
    (ht : tableAt s.mem root (upperIdx virt) = some t)
    (hf : nextFrame (entryAt s.mem t (getPtIdx virt)) = some f) : ∃ m, mapPage (pagePtr s.hhdm root)
      (pageAlignDown virt) (pfnToPhys g) ((pageWrite ||| pageUser).setWidth 32)
      (s.copyEntries (List.range 512) (add64 (pfnToPhys f) s.hhdm) (add64 (pfnToPhys g) s.hhdm)) =
      some (true, { s with mem := update m (t * 512 + getPtIdx virt) (cowEntry g) }) ∧
    (∀ w, w / 512 ≠ g → m w = s.mem w) ∧ ∀ i < 512, f ≠ g → entryAt m g i = entryAt s.mem f i := by
  have hlt : ∀ i ∈ upperIdx virt, i < 512 := upperIdx_lt virt
  have hlastOk := (hok _ List.prefix_rfl t ht).1
  have hl : getPtIdx virt < 512 := and_511_lt _
  have hh : s.hhdm ≤ 2 ^ 64 := hlastOk.lt.2
  have hfLt : f < 2 ^ 52 := by
    have hlt := frameOf_lt (entryAt s.mem t (getPtIdx virt))
    rw [(nextFrame_eq_some.mp hf).2] at hlt
    omega
  have hst := copyPage_stores hh hg (add64 (pfnToPhys f) s.hhdm)
  have hcopy : ∀ i < 512, f ≠ g →
    entryAt (s.copyEntries (List.range 512) (add64 (pfnToPhys f) s.hhdm)
      (add64 (pfnToPhys g) s.hhdm)).mem g i = entryAt s.mem f i := fun i hi hfg =>
    copyEntries_page rfl (pointsTo_phys hh hfLt) (pointsTo_phys hh hg) hfg hi
  generalize Kmem.copyEntries (List.range 512) (add64 (pfnToPhys f) s.hhdm)
    (add64 (pfnToPhys g) s.hhdm) s = s2 at hst hcopy
  have hmem : ∀ w, w / 512 ≠ g → s2.mem w = s.mem w := fun w hw => hst.mem w hw
  have hsame : ∀ p, p <+: upperIdx virt → tableAt s2.mem root p = tableAt s.mem root p := by
    intro p hp
    apply walk_congr
    intro q i r u hsplit hu
    have hqp : q <+: upperIdx virt := List.IsPrefix.trans ⟨i :: r, hsplit.symm⟩ hp
    have hi : i < 512 := hlt i (hp.subset (by simp [hsplit]))
    have hug := (hok q hqp u hu).2
    exact congrArg nextFrame (hmem _ (by omega))
  have hdesc := descend_present hst.hhdm _ hlt
    (fun p hp u hu => (hok p hp u ((hsame p hp).symm.trans hu)).1)
    ((hsame _ List.prefix_rfl).trans ht)
  refine ⟨s2.mem, ?_, hmem, hcopy⟩
  unfold mapPage
  rw [upperIdx_pageAlignDown, hdesc]
  simp only [Option.map_some, if_neg hlastOk.ptr_ne_zero, getPtIdx_pageAlignDown]
  rw [Kmem.setEntry_page hst.hhdm hlastOk hl, hst.pmm, hst.kCaches]
  rfl

lemma walkPageTable_present
    (hok : ∀ p, p <+: upperIdx virt → ∀ u, tableAt s.mem root p = some u → PageOk s.hhdm u)
    (ht : tableAt s.mem root (upperIdx virt) = some t)
    (hf : nextFrame (entryAt s.mem t (getPtIdx virt)) = some f) :
    walkPageTable (pagePtr s.hhdm root) (pageAlignDown virt) s = some (pfnToPhys f, s) := by
  have hlastOk := hok _ List.prefix_rfl t ht
  have hl : getPtIdx virt < 512 := and_511_lt _
  have hdesc := descend_present rfl _ (upperIdx_lt virt) hok ht
  unfold walkPageTable
  rw [upperIdx_pageAlignDown, hdesc]
  simp only [Option.map_some, if_neg hlastOk.ptr_ne_zero, getPtIdx_pageAlignDown]
  rw [Kmem.entry_page rfl hlastOk hl, and_addrMask_eq, (nextFrame_eq_some.mp hf).2]

/-- Frame 0 is taken for a page that is not there. -/
lemma pageFaultHandler_zero {errorCode : Nat}
    (hcode : (errorCode.testBit 0 && errorCode.testBit 1 && errorCode.testBit 2) = true)
    (hok : ∀ p, p <+: upperIdx virt → ∀ u, tableAt s.mem root p = some u → PageOk s.hhdm u)
    (ht : tableAt s.mem root (upperIdx virt) = some t)
    (hf : nextFrame (entryAt s.mem t (getPtIdx virt)) = some 0) :
    pageFaultHandler errorCode virt (pfnToPhys root) s = none := by
  have hrootOk := hok [] List.nil_prefix root rfl
  have hzero : pfnToPhys 0 = 0 := rfl
  unfold pageFaultHandler
  simp only [hcode, if_true, hrootOk.add64_phys, walkPageTable_present hok ht hf, hzero]

/-- `g` has become a copy of `f`, and slot `i` of `t` leads to it. -/
structure CowStores (m m' : WordMem) (t i f g : Nat) : Prop where
  slot : entryAt m' t i = cowEntry g
  copy : ∀ j < 512, entryAt m' g j = entryAt m f j
  rest : ∀ u, u ≠ g → ∀ j < 512, ¬ (u = t ∧ j = i) → entryAt m' u j = entryAt m u j

section

variable (errorCode : Nat)
  (hcode : (errorCode.testBit 0 && errorCode.testBit 1 && errorCode.testBit 2) = true)
  (hok : ∀ p, p <+: upperIdx virt → ∀ u, tableAt s.mem root p = some u → PageOk s.hhdm u ∧ u ≠ g)
  (ht : tableAt s.mem root (upperIdx virt) = some t)
  (hf : nextFrame (entryAt s.mem t (getPtIdx virt)) = some f) (hf0 : f ≠ 0)
  (halloc : pmmAllocPage s.pmm = some (pfnToPhys g, pmm)) (hkeeps : Pmm.Keeps s.pmm pmm)
  (hg : g < 2 ^ 52)
include hcode hok ht hf hf0 halloc hkeeps hg

lemma pageFaultHandler_cow : ∃ m, pageFaultHandler errorCode virt (pfnToPhys root) s =
      some { s with pmm := pmm, mem := update m (t * 512 + getPtIdx virt) (cowEntry g) } ∧
    (∀ w, w / 512 ≠ g → m w = s.mem w) ∧ ∀ i < 512, f ≠ g → entryAt m g i = entryAt s.mem f i := by
  have hrootOk := (hok [] List.nil_prefix root rfl).1
  have hwalk := walkPageTable_present (fun p hp u hu => (hok p hp u hu).1) ht hf
  have hne : pfnToPhys f ≠ 0 := fun hzero => hf0 (pfnToPhys_eq_zero.mp hzero)
  have hh : Kmem.hhdm { s with pmm := pmm } = s.hhdm := hkeeps.hhdm
  obtain ⟨m, hmap, hmem, hcopy⟩ := mapPage_copy (s := { s with pmm := pmm }) hg
    (fun p hp u hu => hh.symm ▸ hok p hp u hu) ht hf
  refine ⟨m, ?_, hmem, hcopy⟩
  rw [hh] at hmap
  unfold pageFaultHandler
  simp only [hcode, if_true, hrootOk.add64_phys, hwalk, if_neg hne, Kmem.allocPage, halloc,
    Option.map_some, hh, hmap]

lemma pageFaultHandler_stores (hne : f ≠ g) :
    ∃ s', pageFaultHandler errorCode virt (pfnToPhys root) s = some s' ∧
    CowStores s.mem s'.mem t (getPtIdx virt) f g := by
  have htg := (hok _ List.prefix_rfl t ht).2
  obtain ⟨m, hcall, hm, hcopy⟩ :=
    pageFaultHandler_cow errorCode hcode hok ht hf hf0 halloc hkeeps hg
  have hl : getPtIdx virt < 512 := and_511_lt _
  refine ⟨_, hcall, entryAt_update_self _ _ _ _, fun j hj => ?_, fun u hu j hj hslot => ?_⟩
  · show entryAt (update m _ _) g j = _
    rw [entryAt_update_of_ne _ hl hj fun heq => htg heq.1.symm]
    exact hcopy j hj hne
  · show entryAt (update m _ _) u j = _
    rw [entryAt_update_of_ne _ hl hj hslot]
    exact hm _ (by omega)

end

lemma pageFaultHandler_spec (hpmm : PmmInv S s.pmm fl held) (hok : ∀ f ∈ S, PageOk s.hhdm f)
    (htab : ∀ t ∈ userTables s.mem root, t ∈ S ∧ t ∉ s.pmm.freePages) (hv : virt < 2 ^ 47)
    (ht : tableAt s.mem root (upperIdx virt) = some t)
    (hf : nextFrame (entryAt s.mem t (getPtIdx virt)) = some f) (hfOk : PageOk s.hhdm f)
    (hleft : PageLeft s) : ∃ g pmm m fl', pageFaultHandler 7 virt (pfnToPhys root) s =
      some { s with pmm := pmm, mem := update m (t * 512 + getPtIdx virt) (cowEntry g) } ∧
    (∀ w, w / 512 ≠ g → m w = s.mem w) ∧ (∀ i < 512, f ≠ g → entryAt m g i = entryAt s.mem f i) ∧
    PmmInv S pmm fl' (insert ⟨0, g⟩ held) ∧ Pmm.Keeps s.pmm pmm ∧ (⟨0, g⟩ : Block) ∉ held := by
  cases pmmAllocPage_spec hpmm with
  | inl hnull =>
    obtain ⟨phys, pmm, halloc, hphys⟩ := hleft
    rw [hnull] at halloc
    exact absurd (Prod.mk.inj (Option.some.inj halloc)).1.symm hphys
  | inr hgot =>
    obtain ⟨g, pmm, fl', halloc, hpmm', hkeeps, hfresh⟩ := hgot
    have hgOk := hok g (hpmm'.mem_pages (b := ⟨0, g⟩) (Or.inl rfl))
    have hfree := (hpmm.freePages_insert hpmm' hfresh).1
    have hway : ∀ p, p <+: upperIdx virt → ∀ u, tableAt s.mem root p = some u →
        PageOk s.hhdm u ∧ u ≠ g := by
      intro p hp u hu
      obtain ⟨huS, hunot⟩ := htab u ⟨p, tablePaths_of_prefix hp (upperIdx_mem hv), hu⟩
      exact ⟨hok u huS, fun heq => hunot (heq ▸ hfree)⟩
    obtain ⟨m, hcall, hmem, hcopy⟩ := pageFaultHandler_cow 7 (by decide) hway ht hf
      hfOk.pos.ne' halloc hkeeps hgOk.lt.1
    exact ⟨g, pmm, m, fl', hcall, hmem, hcopy, hpmm', hkeeps, hfresh⟩

end

/-! ## Isolation -/

/-- The process on the tables at `root` is kept apart from the one on the
tables at `other`. -/
structure Apart (S : Set Nat) (s : Kmem) (root other : Nat) : Prop where
  /-- Tables are pages in use. -/
  tables : ∀ t ∈ userTables s.mem root, t ∈ S ∧ t ∉ s.pmm.freePages
  /-- Pages are in use and are no tables. -/
  pages : ∀ p ∈ pagePaths, ∀ f, tableAt s.mem root p = some f →
    PageOk s.hhdm f ∧ f ∉ s.pmm.freePages ∧ f ∉ userTables s.mem root ∧ f ∉ userTables s.mem other
  /-- The last table on the way to a page has one path, and none in the
  other process. -/
  last : ∀ q i t f, q ++ [i] ∈ pagePaths → tableAt s.mem root q = some t →
    nextFrame (entryAt s.mem t i) = some f →
    t ∉ userTables s.mem other ∧ ∀ q' ∈ tablePaths, tableAt s.mem root q' = some t → q' = q
  /-- What can be written is not mapped by the other process. -/
  writable : ∀ p ∈ pagePaths, ∀ f, walk nextWritable (entryAt s.mem) root p = some f →
    ∀ p' ∈ pagePaths, tableAt s.mem other p' ≠ some f

structure Isolated (S : Set Nat) (s : Kmem) (root other : Nat) : Prop where
  pmm : ∃ fl held, PmmInv S s.pmm fl held
  page : ∀ f ∈ S, PageOk s.hhdm f
  small : ∀ f ∈ S, f < 2 ^ 40
  self : Apart S s root other
  peer : Apart S s other root

lemma Isolated.symm {s : Kmem} {other : Nat} (h : Isolated S s root other) :
    Isolated S s other root :=
  ⟨h.pmm, h.page, h.small, h.peer, h.self⟩

section

variable {S : Set Nat} {s : Kmem} {root other virt : Nat}

lemma Apart.congr (h : Apart S s root other) (hr : SameTables s.mem m root)
    (ho : SameTables s.mem m other) : Apart S { s with mem := m } root other := by
  have hpage : ∀ p ∈ pagePaths, tableAt m root p = tableAt s.mem root p := fun p hp =>
    hr.walk_eq hp.1 (Nat.le_of_eq hp.2)
  constructor
  · intro t ht
    exact h.tables t (hr.userTables_eq ▸ ht)
  · intro p hp f hf
    rw [show userTables _ root = _ from hr.userTables_eq,
      show userTables _ other = _ from ho.userTables_eq]
    exact h.pages p hp f ((hpage p hp).symm.trans hf)
  · intro q i t f hqi ht hf
    obtain ⟨hq, _, hi⟩ := pagePaths_split hqi
    have ht' : tableAt s.mem root q = some t :=
      (hr.walk_eq hq.1 (Nat.le_succ_of_le hq.2)).symm.trans ht
    have hf' : nextFrame (entryAt s.mem t i) = some f := by
      rw [← hr t ⟨q, hq, ht'⟩ i hi]
      exact hf
    obtain ⟨hnot, honly⟩ := h.last q i t f hqi ht' hf'
    refine ⟨?_, fun q' hq' ht2 => honly q' hq' ?_⟩
    · rw [show userTables _ other = _ from ho.userTables_eq]
      exact hnot
    · exact (hr.walk_eq hq'.1 (Nat.le_succ_of_le hq'.2)).symm.trans ht2
  · intro p hp f hf p' hp' hf'
    refine h.writable p hp f ?_ p' hp' ((ho.walk_eq hp'.1 (Nat.le_of_eq hp'.2)).symm.trans hf')
    exact (hr.walkWritable_eq hp.1 (Nat.le_of_eq hp.2)).symm.trans hf

lemma Isolated.store (h : Isolated S s root other) (hp : p ∈ pagePaths)
    (hf : walk nextWritable (entryAt s.mem) root p = some f)
    (hm : ∀ w, w / 512 ≠ f → m w = s.mem w) : Isolated S { s with mem := m } root other ∧
    ∀ virt < 2 ^ 47, Kmem.readUser { s with mem := m } other virt = s.readUser other virt := by
  have hf' : tableAt s.mem root p = some f := tableAt_of_writable hf
  obtain ⟨_, _, hnr, hno⟩ := h.self.pages p hp f hf'
  have hr : SameTables s.mem m root :=
    sameTables_of_pages (W := {f}) hm fun t ht heq => hnr (heq ▸ ht)
  have ho : SameTables s.mem m other :=
    sameTables_of_pages (W := {f}) hm fun t ht heq => hno (heq ▸ ht)
  refine ⟨⟨h.pmm, h.page, h.small, h.self.congr hr ho, h.peer.congr ho hr⟩, fun virt hv => ?_⟩
  unfold Kmem.readUser
  rw [show tableAt m other (pathOf virt) = _ from ho.walk_eq (userPath_pathOf hv) (Nat.le_refl 4)]
  cases hread : tableAt s.mem other (pathOf virt) with
  | none => rfl
  | some f' =>
    have hne : f' ≠ f := fun heq =>
      h.self.writable p hp f hf (pathOf virt) (pathOf_mem hv) (heq ▸ hread)
    simp only [Option.map_some]
    rw [readByte_page fun w hw => hm w (hw ▸ hne)]

/-- The page at path `p` has been replaced by the free page `g`. -/
structure Remapped (S : Set Nat) (s s' : Kmem) (root other g : Nat) (p : List Nat) : Prop where
  offset : s'.hhdm = s.hhdm
  page : PageOk s.hhdm g
  free : g ∈ s.pmm.freePages
  shrink : ∀ f ∈ s'.pmm.freePages, f ∈ s.pmm.freePages ∧ f ≠ g
  peer : SameTables s.mem s'.mem other
  tables : ∀ r ∈ tablePaths, tableAt s'.mem root r = tableAt s.mem root r
  mapped : tableAt s'.mem root p = some g
  before : ∃ f, tableAt s.mem root p = some f
  others : ∀ r ∈ pagePaths, r ≠ p → tableAt s'.mem root r = tableAt s.mem root r
  writable : ∀ r ∈ pagePaths, r ≠ p →
    walk nextWritable (entryAt s'.mem) root r = walk nextWritable (entryAt s.mem) root r

lemma Remapped.userTables_eq (hr : Remapped S s s' root other g p) :
    userTables s'.mem root = userTables s.mem root :=
  tables_congr hr.tables

/-- The stores of the page-fault handler, seen from both processes. -/
lemma Isolated.remapped (h : Isolated S s root other) {q : List Nat} {i : Nat}
    (hp : q ++ [i] ∈ pagePaths) (ht : tableAt s.mem root q = some t)
    (hf : nextFrame (entryAt s.mem t i) = some f) (hgS : g ∈ S) (hfree : g ∈ s.pmm.freePages)
    (hkeeps : Pmm.Keeps s.pmm pmm) (hshrink : ∀ f ∈ pmm.freePages, f ∈ s.pmm.freePages ∧ f ≠ g)
    (hm : ∀ w, w / 512 ≠ g → m w = s.mem w) :
    Remapped S s { s with pmm := pmm, mem := update m (t * 512 + i) (cowEntry g) }
      root other g (q ++ [i]) := by
  obtain ⟨hq, hlen, hi⟩ := pagePaths_split hp
  obtain ⟨hto, honly⟩ := h.self.last q i t f hp ht hf
  have hstore : ∀ {u j : Nat}, u ≠ g → j < 512 → ¬ (u = t ∧ j = i) →
      entryAt (update m (t * 512 + i) (cowEntry g)) u j = entryAt s.mem u j := by
    intro u j hu hj hslot
    rw [entryAt_update_of_ne _ hi hj hslot]
    exact hm _ (by omega)
  have hself : ∀ u ∈ userTables s.mem root, u ≠ g := fun u hu heq =>
    (h.self.tables u hu).2 (heq ▸ hfree)
  have hpeer : ∀ u ∈ userTables s.mem other, u ≠ g := fun u hu heq =>
    (h.peer.tables u hu).2 (heq ▸ hfree)
  have hsame : ∀ u ∈ userTables s.mem root, ∀ j < 512, ¬ (u = t ∧ j = i) →
      nextFrame (entryAt (update m (t * 512 + i) (cowEntry g)) u j) =
        nextFrame (entryAt s.mem u j) := fun u hu j hj hslot => by
    rw [hstore (hself u hu) hj hslot]
  have htables : ∀ r ∈ tablePaths,
      tableAt (update m (t * 512 + i) (cowEntry g)) root r = tableAt s.mem root r := by
    intro r hr
    refine walk_unaffected honly hsame (tablePaths_within hr) fun hle => ?_
    -- the slot is below every table
    have hle' := hle.length_le
    have hr3 := hr.2
    simp only [List.length_append, List.length_singleton] at hle'
    omega
  have hbefore : tableAt s.mem root (q ++ [i]) = some f := by
    rw [tableAt_concat, ht]
    exact hf
  constructor
  · exact hkeeps.hhdm
  · exact h.page g hgS
  · exact hfree
  · exact hshrink
  · intro u hu j hj
    exact hstore (hpeer u hu) hj fun heq => hto (heq.1 ▸ hu)
  · exact htables
  · show tableAt (update m _ _) root (q ++ [i]) = some g
    rw [tableAt_concat, htables q hq, ht, Option.bind_some, entryAt_update_self]
    exact nextFrame_cowEntry (h.small g hgS)
  · exact ⟨f, hbefore⟩
  · intro r hr hne
    refine walk_unaffected honly hsame (hr.1.within (Nat.le_of_eq hr.2)) fun hle => hne ?_
    exact (hle.eq_of_length (by simp [hlen, hr.2])).symm
  · intro r hr hne
    apply walk_congr
    intro r1 j r2 u hsplit hu
    obtain ⟨hr1, hj⟩ := hr.1.within (Nat.le_of_eq hr.2) r1 j r2 hsplit
    have hu' : tableAt s.mem root r1 = some u := tableAt_of_writable hu
    show nextWritable (entryAt (update m _ _) u j) = _
    rw [hstore (hself u ⟨r1, hr1, hu'⟩) hj]
    intro heq
    obtain ⟨rfl, rfl⟩ := heq
    obtain rfl := honly r1 hr1 hu'
    have hlen' := hr.2
    rw [hsplit] at hlen'
    have hnil : r2 = [] := List.eq_nil_of_length_eq_zero (by simp at hlen'; omega)
    exact hne (by rw [hsplit, hnil])

lemma Apart.remap (h : Apart S s root other) (hpeer : Apart S s other root)
    (hr : Remapped S s s' root other g p) : Apart S s' root other := by
  have hself := hr.userTables_eq
  have hother := hr.peer.userTables_eq
  have hnew : g ∉ userTables s.mem root ∧ g ∉ userTables s.mem other :=
    ⟨fun hin => (h.tables g hin).2 hr.free, fun hin => (hpeer.tables g hin).2 hr.free⟩
  constructor
  · intro t ht
    obtain ⟨htS, hfree⟩ := h.tables t (hself ▸ ht)
    exact ⟨htS, fun hin => hfree (hr.shrink t hin).1⟩
  · intro r hrp f hf
    rw [hself, hother]
    by_cases heq : r = p
    · rw [heq, hr.mapped] at hf
      obtain rfl := Option.some.inj hf
      rw [hr.offset]
      exact ⟨hr.page, fun hin => (hr.shrink g hin).2 rfl, hnew⟩
    · rw [hr.others r hrp heq] at hf
      obtain ⟨hfOk, hfree, hnot⟩ := h.pages r hrp f hf
      rw [hr.offset]
      exact ⟨hfOk, fun hin => hfree (hr.shrink f hin).1, hnot⟩
  · intro q i t f hqi ht hf
    obtain ⟨hq, _, _⟩ := pagePaths_split hqi
    have ht' : tableAt s.mem root q = some t := (hr.tables q hq).symm.trans ht
    -- the page was mapped before, if not to the same frame
    have hbefore : ∃ f', tableAt s.mem root (q ++ [i]) = some f' := by
      by_cases heq : q ++ [i] = p
      · rw [heq]
        exact hr.before
      · refine ⟨f, (hr.others _ hqi heq).symm.trans ?_⟩
        rw [tableAt_concat, ht]
        exact hf
    obtain ⟨f', hf'⟩ := hbefore
    rw [tableAt_concat, ht', Option.bind_some] at hf'
    obtain ⟨hnot, honly⟩ := h.last q i t f' hqi ht' hf'
    rw [hother]
    exact ⟨hnot, fun q' hq' ht2 => honly q' hq' ((hr.tables q' hq').symm.trans ht2)⟩
  · intro r hrp f hf r' hr' hf'
    rw [hr.peer.walk_eq hr'.1 (Nat.le_of_eq hr'.2)] at hf'
    by_cases heq : r = p
    · have hg : tableAt s'.mem root r = some f := tableAt_of_writable hf
      rw [heq, hr.mapped] at hg
      obtain rfl := Option.some.inj hg
      exact (hpeer.pages r' hr' g hf').2.1 hr.free
    · rw [hr.writable r hrp heq] at hf
      exact h.writable r hrp f hf r' hr' hf'

lemma Apart.remap_peer (h : Apart S s other root) (hr : Remapped S s s' root other g p) :
    Apart S s' other root := by
  have hself := hr.userTables_eq
  have hother := hr.peer.userTables_eq
  constructor
  · intro t ht
    obtain ⟨htS, hfree⟩ := h.tables t (hother ▸ ht)
    exact ⟨htS, fun hin => hfree (hr.shrink t hin).1⟩
  · intro r hrp f hf
    rw [hr.peer.walk_eq hrp.1 (Nat.le_of_eq hrp.2)] at hf
    obtain ⟨hfOk, hfree, hnot⟩ := h.pages r hrp f hf
    rw [hself, hother, hr.offset]
    exact ⟨hfOk, fun hin => hfree (hr.shrink f hin).1, hnot⟩
  · intro q i t f hqi ht hf
    obtain ⟨hq, _, hi⟩ := pagePaths_split hqi
    rw [hr.peer.walk_eq hq.1 (Nat.le_succ_of_le hq.2)] at ht
    rw [hr.peer t ⟨q, hq, ht⟩ i hi] at hf
    obtain ⟨hnot, honly⟩ := h.last q i t f hqi ht hf
    rw [hself]
    refine ⟨hnot, fun q' hq' ht2 => honly q' hq' ?_⟩
    exact (hr.peer.walk_eq hq'.1 (Nat.le_succ_of_le hq'.2)).symm.trans ht2
  · intro r hrp f hf r' hr' hf'
    rw [hr.peer.walkWritable_eq hrp.1 (Nat.le_of_eq hrp.2)] at hf
    by_cases heq : r' = p
    · rw [heq, hr.mapped] at hf'
      obtain rfl := Option.some.inj hf'
      have hg : tableAt s.mem other r = some g := tableAt_of_writable hf
      exact (h.pages r hrp g hg).2.1 hr.free
    · rw [hr.others r' hr' heq] at hf'
      exact h.writable r hrp f hf r' hr' hf'

/-- A write that faults on a page that is present: the handler changes
nothing that either process reads. -/
lemma Isolated.fault (h : Isolated S s root other) (hv : virt < 2 ^ 47) (hleft : PageLeft s)
    (hf : tableAt s.mem root (pathOf virt) = some f) :
    ∃ s', pageFaultHandler 7 virt (pfnToPhys root) s = some s' ∧ Isolated S s' root other ∧
    ∀ virt < 2 ^ 47, s'.readUser root virt = s.readUser root virt ∧
    s'.readUser other virt = s.readUser other virt := by
  have hpage : upperIdx virt ++ [getPtIdx virt] ∈ pagePaths := pathOf_mem hv
  obtain ⟨hfOk, hfNotFree, _⟩ := h.self.pages _ hpage f hf
  have hold := hf
  rw [pathOf, tableAt_concat] at hf
  obtain ⟨t, ht, hf⟩ := Option.bind_eq_some_iff.mp hf
  obtain ⟨fl, held, hpmm⟩ := h.pmm
  obtain ⟨g, pmm, m, fl', hcall, hm, hcopy, hpmm', hkeeps, hfresh⟩ :=
    pageFaultHandler_spec hpmm h.page h.self.tables hv ht hf hfOk hleft
  obtain ⟨hfree, hshrink⟩ := hpmm.freePages_insert hpmm' hfresh
  have hgS : g ∈ S := hpmm'.mem_pages (b := ⟨0, g⟩) (Or.inl rfl)
  have hr := h.remapped hpage ht hf hgS hfree hkeeps hshrink hm
  have hh : ∀ mem, Kmem.hhdm { s with pmm := pmm, mem := mem } = s.hhdm := fun _ => hkeeps.hhdm
  have hlast : t ∈ userTables s.mem root := ⟨_, upperIdx_mem hv, ht⟩
  have hl : getPtIdx virt < 512 := and_511_lt _
  -- only the new page and the table change
  have hbyte : ∀ f', f' ∉ s.pmm.freePages → f' ∉ userTables s.mem root → ∀ virt',
      readByte (update m (t * 512 + getPtIdx virt) (cowEntry g))
        (f' * pageSize + virt' % pageSize) = readByte s.mem (f' * pageSize + virt' % pageSize) := by
    intro f' hnotFree hnotTable virt'
    have hg : f' ≠ g := fun heq => hnotFree (heq ▸ hfree)
    have htable : f' ≠ t := fun heq => hnotTable (heq ▸ hlast)
    refine readByte_page (fun w hw => ?_) virt'
    rw [update_of_ne (by omega), hm w (hw ▸ hg)]
  refine ⟨_, hcall, ⟨⟨fl', _, hpmm'⟩, fun f hf => by rw [hh]; exact h.page f hf, h.small,
    h.self.remap h.peer hr, h.peer.remap_peer hr⟩, fun virt' hv' => ⟨?_, ?_⟩⟩
  · unfold Kmem.readUser
    by_cases heq : pathOf virt' = pathOf virt
    · -- the new page holds a copy of the old one
      have hgf : f ≠ g := fun heq => hfNotFree (heq ▸ hfree)
      have hgt : g ≠ t := fun heq => (h.self.tables t hlast).2 (heq ▸ hfree)
      rw [heq, hold, show tableAt _ root (pathOf virt) = some g from hr.mapped]
      simp only [Option.map_some, readByte]
      have hlt : virt' % pageSize < pageSize := Nat.mod_lt _ (by decide)
      simp only [pageSize] at hlt ⊢
      have hsplit : ∀ x, (x * 4096 + virt' % 4096) / 8 = x * 512 + virt' % 4096 / 8 := by omega
      have hi : virt' % 4096 / 8 < 512 := by omega
      have hmod : (g * 4096 + virt' % 4096) % 8 = (f * 4096 + virt' % 4096) % 8 := by omega
      rw [hsplit g, hsplit f, hmod, update_of_ne (by omega)]
      exact congrArg _ (congrArg _ (hcopy _ hi hgf))
    · rw [hr.others _ (pathOf_mem hv') heq]
      cases hread : tableAt s.mem root (pathOf virt') with
      | none => rfl
      | some f' =>
        obtain ⟨_, hnotFree, hnotTable, _⟩ := h.self.pages _ (pathOf_mem hv') f' hread
        simp only [Option.map_some]
        rw [hbyte f' hnotFree hnotTable]
  · unfold Kmem.readUser
    rw [hr.peer.walk_eq (userPath_pathOf hv') (Nat.le_refl 4)]
    cases hread : tableAt s.mem other (pathOf virt') with
    | none => rfl
    | some f' =>
      obtain ⟨_, hnotFree, _, hnotTable⟩ := h.peer.pages _ (pathOf_mem hv') f' hread
      simp only [Option.map_some]
      rw [hbyte f' hnotFree hnotTable]

lemma pageFaultHandler_absent (cr2 cr3 : Nat) (s : Kmem) : pageFaultHandler 6 cr2 cr3 s = none := by
  unfold pageFaultHandler
  simp

/-- What a write does: on a mapped address it returns, isolation is kept
and the other process reads what it read before; on any other address the
kernel panics. -/
lemma Isolated.userWrite_spec (h : Isolated S s root other) (hv : virt < 2 ^ 47)
    (hleft : PageLeft s) (v : BitVec 8) :
    (tableAt s.mem root (pathOf virt) = none ∧ userWrite root virt v s = none) ∨
    ∃ s', userWrite root virt v s = some s' ∧ Isolated S s' root other ∧
    ∀ virt < 2 ^ 47, s'.readUser other virt = s.readUser other virt := by
  unfold userWrite
  cases hw : walk nextWritable (entryAt s.mem) root (pathOf virt) with
  | some f =>
    refine Or.inr ⟨_, rfl, h.store (pathOf_mem hv) hw fun w hne => writeByte_other v ?_⟩
    have hlt : virt % pageSize < pageSize := Nat.mod_lt _ (by decide)
    simp only [pageSize] at *
    omega
  | none =>
    cases hf : tableAt s.mem root (pathOf virt) with
    | none =>
      refine Or.inl ⟨rfl, ?_⟩
      simp only [faultCode, hf]
      exact pageFaultHandler_absent _ _ s
    | some f =>
      refine Or.inr ?_
      simp only [faultCode, hf]
      obtain ⟨s', hcall, h', hread⟩ := h.fault hv hleft hf
      exact ⟨s', hcall, h', fun virt hv => (hread virt hv).2⟩

end

end VortexOS.Mm
