/-
VortexOS.Mm.VmmIsolation — memory isolation after a fork.

Right after a clone the tables of parent and child are either copies of
each other, on pages that were free before, or shared, below a slot from
the upper half of some table. If every page of the parent is reached
through tables that are copied, and none is left writable (`Shareable`),
the two processes are isolated, and user-mode writes keep them so.

`copy_page_table_level` takes slots from 256 on for kernel slots at every
level, so a page in such a slot of the last table keeps its write bit.
-/
import VortexOS.Mm.VmmFork
import VortexOS.Mm.VmmUser

namespace VortexOS.Mm

open Lib

variable {q p : List Nat} {u f as root i t parent child g1 g2 g3 g : Nat} {e : BitVec 64}
  {pmm : Pmm} {s s' s1 : Kmem} {a : AHeap} {fl : Nat → List Nat} {held : Set Block} {S : Set Nat}

/-! ## Parents -/

/-- A frame that may be mapped: taken from the allocator, or outside the
memory that the memory map lists as usable. -/
def FrameOk (entries : List MemmapEntry) (pmm : Pmm) (s : Kmem) (f : Nat) : Prop :=
  (f ∈ pmm.freePages ∧ f ∉ s.pmm.freePages) ∨
    (PageOk s.hhdm f ∧ ∀ e ∈ entries, e.type = .usable → f ∉ e.pages)

/-- An address space that can be cloned without losing isolation. `pmm` is
the page allocator as `pmm_init` left it. -/
structure Shareable (entries : List MemmapEntry) (pmm : Pmm) (s : Kmem) (as : Nat) : Prop where
  holes : HolesClean s as
  /-- Pages are reached through slots of the lower half of each table, the
  last one apart. -/
  lower : ∀ q i f, q ++ [i] ∈ pagePaths → tableAt s.mem (s.root as) (q ++ [i]) = some f →
    ∀ j ∈ q, j < 256
  /-- In the upper half of the last table there is no page that a user may
  write. -/
  upper : ∀ q i t, q ++ [i] ∈ pagePaths → 256 ≤ i → tableAt s.mem (s.root as) q = some t →
    nextWritable (entryAt s.mem t i) = none
  /-- No page is a table of the address space. -/
  pages : ∀ p ∈ pagePaths, ∀ f, tableAt s.mem (s.root as) p = some f →
    FrameOk entries pmm s f ∧ f ∉ userTables s.mem (s.root as)

/-! ## The tables of the child -/

section

variable {S : Set Nat} {s : Kmem} {a : AHeap} {fl : Nat → List Nat} {held : Set Block}
  {as root as' root' : Nat} {s' : Kmem} {lbl : Labels}

lemma HolesClean.copyClean (h : VmInv S s a fl held as root) (hclean : HolesClean s as)
    (hc : Cloned S s held root as' s' root' lbl) : CopyClean s root lbl := by
  intro p t hne hlen hlow ht i hi habs g hg
  exact hclean p t ⟨hne, hlen, hlow, by rw [h.root_eq]; exact ht⟩ i hi habs g (hc.free g hg).2.2

/-- A table of the child is the copy of one of the parent's tables, or it
is one of them, below a slot of the upper half. -/
inductive ChildTable (s : Kmem) (root : Nat) (lbl : Labels) (s' : Kmem) (q : List Nat) (u : Nat) :
    Prop
  | copy {t : Nat} (low : ∀ i ∈ q, i < 256) (label : lbl u = some q)
      (parent : tableAt s.mem root q = some t)
      (slots : q ≠ [] → ∀ j < 512, Copied s.mem s'.mem lbl (3 - q.length) q t u j)
  | shared (high : ∃ i ∈ q, 256 ≤ i) (parent : tableAt s.mem root q = some u)

lemma Cloned.childTable (hc : Cloned S s held root as' s' root' lbl) (hsmall : ∀ f ∈ S, f < 2 ^ 40)
    (hclean : CopyClean s root lbl) (hq : q ∈ tablePaths) (hu : tableAt s'.mem root' q = some u) :
    ChildTable s root lbl s' q u := by
  induction q using List.reverseRecOn generalizing u with
  | nil =>
    obtain rfl : root' = u := Option.some.inj hu
    exact .copy (by simp) ((hc.top root').mpr rfl) rfl fun hne => absurd rfl hne
  | append_singleton q i ih =>
    have hlen : q.length + 1 ≤ 3 := by simpa using hq.2
    have hq' : q ∈ tablePaths := ⟨hq.1.of_append, by omega⟩
    have hi : i < 512 := hq.1.1 i (by simp)
    rw [tableAt_concat] at hu
    obtain ⟨d, hd, hdu⟩ := Option.bind_eq_some_iff.mp hu
    cases ih hq' hd with
    | shared high parent =>
      -- below a shared table every table is shared
      refine .shared ?_ ?_
      · obtain ⟨j, hj, h256⟩ := high
        exact ⟨j, List.mem_append_left _ hj, h256⟩
      · rw [tableAt_concat, parent, Option.bind_some]
        exact (hc.source d ⟨q, hq', parent⟩ i hi).nextFrame_eq.symm.trans hdu
    | @copy t low label parent slots =>
      have hconcat : ∀ {v : Nat}, nextFrame (entryAt s.mem t i) = some v →
          tableAt s.mem root (q ++ [i]) = some v := by
        intro v hv
        rw [tableAt_concat, parent]
        exact hv
      have hlow : i < 256 → ∀ j ∈ q ++ [i], j < 256 := by
        intro h256 j hj
        cases List.mem_append.mp hj with
        | inl hin => exact low j hin
        | inr hone => exact List.mem_singleton.mp hone ▸ h256
      cases q with
      | nil =>
        obtain rfl : root = t := Option.some.inj parent
        obtain rfl : d = root' := (hc.top d).mp label
        have h256 : i < 256 := hq.1.2 i rfl
        have hslot := hc.slots i h256
        unfold RootCopied at hslot
        split at hslot
        · rename_i hp
          obtain ⟨g, hg, hentry, hsub⟩ := hslot
          have hgS : g < 2 ^ 40 := hsmall g (hc.free g (by simp [hg])).1
          rw [hentry, nextFrame_copiedEntry hgS hp] at hdu
          obtain rfl := Option.some.inj hdu
          exact .copy (hlow h256) hg (hconcat (nextFrame_eq_some.mpr ⟨hp, rfl⟩)) fun _ => hsub
        · rw [hslot] at hdu
          cases hdu
      | cons k q =>
        obtain ⟨n, hn⟩ : ∃ n, 3 - (k :: q).length = n + 1 :=
          ⟨3 - (k :: q).length - 1, by omega⟩
        have hslot := slots (by simp) i hi
        rw [hn, copied_succ, SlotCopied] at hslot
        split at hslot
        · rename_i hp
          have hframe := nextFrame_eq_some.mpr ⟨hp, rfl⟩
          split at hslot
          · rename_i h256
            rw [hslot, hframe] at hdu
            obtain rfl := Option.some.inj hdu
            exact .shared ⟨i, by simp, h256⟩ (hconcat hframe)
          · rename_i h256
            obtain ⟨g, hg, hentry, hsub⟩ := hslot
            have hgS : g < 2 ^ 40 := hsmall g (hc.free g (by simp [hg])).1
            rw [hentry, nextFrame_copiedEntry hgS hp] at hdu
            obtain rfl := Option.some.inj hdu
            refine .copy (hlow (by omega)) hg (hconcat hframe) fun _ => ?_
            rw [List.length_append, List.length_singleton,
              show 3 - ((k :: q).length + 1) = n by omega]
            exact hsub
        · -- an empty slot stays empty
          rename_i hp
          have habs := Bool.eq_false_of_not_eq_true hp
          have hkeep := hclean (k :: q) t (by simp) (by omega) low parent i hi habs d
            (by simp [label])
          rw [hslot, nextFrame_eq_none.mpr hkeep] at hdu
          cases hdu

lemma Cloned.freePages (h : VmInv S s a fl held as root)
    (hc : Cloned S s held root as' s' root' lbl) (hf : f ∈ s'.pmm.freePages) :
    f ∈ s.pmm.freePages ∧ lbl f = none := by
  obtain ⟨fl', held', hpmm, hsub, hlabel⟩ := hc.pmm
  rw [hpmm.mem_freePages] at hf
  constructor
  · rw [h.rep.pmm, h.inv.pmmInv.mem_freePages]
    exact ⟨hf.1, fun b hb => hf.2 b (hsub hb)⟩
  · by_contra hne
    exact hf.2 _ (hlabel f hne) (Block.base_mem_cells ⟨0, f⟩)

lemma pagePaths_concat (hp : p ∈ pagePaths) :
    ∃ q i, p = q ++ [i] ∧ q ∈ tablePaths ∧ q.length = 3 ∧ i < 512 := by
  cases List.eq_nil_or_concat' p with
  | inl hnil => exact absurd hp.2 (by simp [hnil])
  | inr hcat =>
    obtain ⟨q, i, rfl⟩ := hcat
    exact ⟨q, i, rfl, pagePaths_split hp⟩

lemma writable_split {m : WordMem} (hp : p ∈ pagePaths)
    (hf : walk nextWritable (entryAt m) root p = some f) :
    ∃ q i t, p = q ++ [i] ∧ tableAt m root q = some t ∧ nextWritable (entryAt m t i) = some f := by
  obtain ⟨q, i, rfl, -⟩ := pagePaths_concat hp
  rw [walk_concat] at hf
  obtain ⟨t, ht, htf⟩ := Option.bind_eq_some_iff.mp hf
  exact ⟨q, i, t, rfl, tableAt_of_writable ht, htf⟩

lemma nextWritable_of_protected : nextWritable (e &&& ~~~pageWrite) = none := by
  simp [nextWritable]

end

/-! ## Right after the clone -/

section

variable {entries : List MemmapEntry}
  {as' root' : Nat} {lbl : Labels}

lemma Shareable.frame (h : VmInv pmm.freePages s a fl held as root)
    (hs : Shareable entries pmm s as)
    (husable : ∀ f ∈ pmm.freePages, ∃ e ∈ entries, e.type = .usable ∧ f ∈ e.pages)
    (hp : p ∈ pagePaths) (hf : tableAt s.mem root p = some f) :
    PageOk s.hhdm f ∧ f ∉ s.pmm.freePages ∧ f ∉ userTables s.mem root := by
  have hroot := h.root_eq
  obtain ⟨hok, hnot⟩ := hs.pages p hp f (by rw [hroot]; exact hf)
  rw [hroot] at hnot
  cases hok with
  | inl htaken =>
    refine ⟨?_, htaken.2, hnot⟩
    rw [h.hhdm]
    exact h.pageOk htaken.1
  | inr hout =>
    refine ⟨hout.1, fun hfree => ?_, hnot⟩
    rw [h.rep.pmm, h.inv.pmmInv.mem_freePages] at hfree
    obtain ⟨e, he, hus, hin⟩ := husable f hfree.1
    exact hout.2 e he hus hin

variable (h : VmInv pmm.freePages s a fl held as root)
  (hc : Cloned pmm.freePages s held root as' s' root' lbl)

include hc in
lemma Cloned.parentTables : userTables s'.mem root = userTables s.mem root :=
  tables_congr fun _ hp => hc.walk_parent hp.1 (Nat.le_succ_of_le hp.2)

include h hc

lemma Cloned.label_not_table (hu : lbl u ≠ none) : u ∉ userTables s.mem root :=
  fun hin => (h.free_not_used (hc.free u hu).2.2).1 hin

lemma Cloned.childTables (hclean : CopyClean s root lbl) (hu : u ∈ userTables s'.mem root') :
    lbl u ≠ none ∨ u ∈ userTables s.mem root := by
  obtain ⟨q, hq, hqu⟩ := hu
  cases hc.childTable h.small hclean hq hqu with
  | copy low label parent slots => exact Or.inl (by simp [label])
  | shared high parent => exact Or.inr ⟨q, hq, parent⟩

variable (hs : Shareable entries pmm s as)
  (husable : ∀ f ∈ pmm.freePages, ∃ e ∈ entries, e.type = .usable ∧ f ∈ e.pages)

include hs

/-- The parent's entry for a page, and the child's, do not let a user
write. -/
lemma Cloned.not_writable (hp : q ++ [i] ∈ pagePaths) (ht : tableAt s.mem root q = some t)
    (hpres : present (entryAt s.mem t i) = true) (hcop : Copied s.mem s'.mem lbl 0 q t u i) :
    nextWritable (entryAt s'.mem t i) = none ∧ nextWritable (entryAt s'.mem u i) = none := by
  obtain ⟨hq, hlen, hi⟩ := pagePaths_split hp
  have hsource := hc.source t ⟨q, hq, ht⟩ i hi
  rw [Copied, SlotCopied, if_pos hpres] at hcop
  by_cases h256 : 256 ≤ i
  · have hold := hs.upper q i t hp h256 (by rw [h.root_eq]; exact ht)
    rw [if_pos h256] at hcop
    have hkeep : entryAt s'.mem t i = entryAt s.mem t i := hsource.eq_of_upper (by omega)
    rw [hcop, hkeep]
    exact ⟨hold, hold⟩
  · rw [if_neg h256] at hcop
    rw [hcop.1, hcop.2]
    exact ⟨nextWritable_of_protected, nextWritable_of_protected⟩

include husable

/-- The pages of the parent are no tables of either process. -/
lemma Cloned.page (hp : p ∈ pagePaths) (hf : tableAt s.mem root p = some f) : PageOk s'.hhdm f ∧
    f ∉ s'.pmm.freePages ∧ f ∉ userTables s'.mem root ∧ f ∉ userTables s'.mem root' := by
  obtain ⟨hok, hfree, hnot⟩ := hs.frame h husable hp hf
  have hclean := hs.holes.copyClean h hc
  rw [hc.offset, hc.parentTables]
  refine ⟨hok, fun hin => hfree (hc.freePages h hin).1, hnot, fun hin => ?_⟩
  cases hc.childTables h hclean hin with
  | inl hlabel => exact hfree (hc.free f hlabel).2.2
  | inr hparent => exact hnot hparent

omit husable in
lemma Cloned.last_parent (hp : q ++ [i] ∈ pagePaths) (ht : tableAt s'.mem root q = some t)
    (hf : nextFrame (entryAt s'.mem t i) = some f) :
    tableAt s.mem root q = some t ∧ nextFrame (entryAt s.mem t i) = some f ∧ ∀ j ∈ q, j < 256 := by
  obtain ⟨hq, hlen, hi⟩ := pagePaths_split hp
  have ht' : tableAt s.mem root q = some t :=
    (hc.walk_parent hq.1 (Nat.le_succ_of_le hq.2)).symm.trans ht
  have hf' : nextFrame (entryAt s.mem t i) = some f :=
    (hc.source t ⟨q, hq, ht'⟩ i hi).nextFrame_eq.symm.trans hf
  refine ⟨ht', hf', hs.lower q i f hp ?_⟩
  rw [h.root_eq, tableAt_concat, ht']
  exact hf'

omit husable in
lemma Cloned.last_child (hp : q ++ [i] ∈ pagePaths) (hu : tableAt s'.mem root' q = some u)
    (hf : nextFrame (entryAt s'.mem u i) = some f) : lbl u = some q ∧ ∃ t, tableAt s.mem root q =
      some t ∧ present (entryAt s.mem t i) = true ∧ Copied s.mem s'.mem lbl 0 q t u i := by
  have hclean := hs.holes.copyClean h hc
  obtain ⟨hq, hlen, hi⟩ := pagePaths_split hp
  have hchild : tableAt s'.mem root' (q ++ [i]) = some f := by
    rw [tableAt_concat, hu]
    exact hf
  have hparent : tableAt s.mem root (q ++ [i]) = some f :=
    (hc.walk_child h.small hclean hp).symm.trans hchild
  have hlow := hs.lower q i f hp (by rw [h.root_eq]; exact hparent)
  cases hc.childTable h.small hclean hq hu with
  | shared high parent =>
    obtain ⟨j, hj, h256⟩ := high
    exact absurd (hlow j hj) (by omega)
  | @copy t low label parent slots =>
    rw [tableAt_concat, parent, Option.bind_some] at hparent
    have hslot := slots (by intro hnil; simp [hnil] at hlen) i hi
    rw [hlen] at hslot
    exact ⟨label, t, parent, (nextFrame_eq_some.mp hparent).1, hslot⟩

lemma Cloned.apart_parent : Apart pmm.freePages s' root root' := by
  have hclean := hs.holes.copyClean h hc
  constructor
  · intro t ht
    rw [hc.parentTables] at ht
    refine ⟨h.mem_of_table ht, fun hin => ?_⟩
    exact (h.free_not_used (hc.freePages h hin).1).1 ht
  · intro p hp f hf
    exact hc.page h hs husable hp ((hc.walk_parent hp.1 (Nat.le_of_eq hp.2)).symm.trans hf)
  · intro q i t f hp ht hf
    obtain ⟨ht', hf', hlow⟩ := hc.last_parent h hs hp ht hf
    have hq := (pagePaths_split hp).1
    constructor
    · intro hin
      obtain ⟨q', hq', ht2⟩ := hin
      cases hc.childTable h.small hclean hq' ht2 with
      | copy low label parent slots =>
        exact hc.label_not_table h (by simp [label]) ⟨q, hq, ht'⟩
      | shared high parent =>
        obtain ⟨j, hj, h256⟩ := high
        rw [h.tree q' hq' q hq t parent ht'] at hj
        exact absurd (hlow j hj) (by omega)
    · intro q' hq' ht2
      have hwalk := hc.walk_parent hq'.1 (Nat.le_succ_of_le hq'.2)
      exact h.tree q' hq' q hq t (hwalk.symm.trans ht2) ht'
  · intro p hp f hf
    -- no page of the parent can be written
    obtain ⟨q, i, t, rfl, ht, htf⟩ := writable_split hp hf
    obtain ⟨hq, hlen, hi⟩ := pagePaths_split hp
    obtain ⟨hts, hfs, hlow⟩ := hc.last_parent h hs hp ht (nextFrame_of_nextWritable htf).1
    obtain ⟨u, _, _, hcop⟩ := hc.copy_of_path h.small (by
      intro hnil
      simp [hnil] at hlen) (Nat.le_of_eq hlen) hlow hts
    have hslot := hcop i hi
    rw [hlen] at hslot
    rw [(hc.not_writable h hs hp hts (nextFrame_eq_some.mp hfs).1 hslot).1] at htf
    cases htf

lemma Cloned.apart_child : Apart pmm.freePages s' root' root := by
  have hclean := hs.holes.copyClean h hc
  constructor
  · intro u hu
    cases hc.childTables h hclean hu with
    | inl hlabel =>
      refine ⟨(hc.free u hlabel).1, fun hin => hlabel (hc.freePages h hin).2⟩
    | inr hparent =>
      exact ⟨h.mem_of_table hparent,
        fun hin => (h.free_not_used (hc.freePages h hin).1).1 hparent⟩
  · intro p hp f hf
    obtain ⟨hok, hfree, hself, hother⟩ :=
      hc.page h hs husable hp ((hc.walk_child h.small hclean hp).symm.trans hf)
    exact ⟨hok, hfree, hother, hself⟩
  · intro q i u f hp hu hf
    obtain ⟨hlabel, t, _⟩ := hc.last_child h hs hp hu hf
    have hnot : u ∉ userTables s.mem root := hc.label_not_table h (by simp [hlabel])
    rw [hc.parentTables]
    refine ⟨hnot, fun q' hq' hu' => ?_⟩
    cases hc.childTable h.small hclean hq' hu' with
    | copy low label parent slots => exact Option.mem_unique label hlabel
    | shared high parent => exact absurd ⟨q', hq', parent⟩ hnot
  · intro p hp f hf
    obtain ⟨q, i, u, rfl, hu, huf⟩ := writable_split hp hf
    obtain ⟨_, t, ht, hpres, hcop⟩ := hc.last_child h hs hp hu (nextFrame_of_nextWritable huf).1
    rw [(hc.not_writable h hs hp ht hpres hcop).2] at huf
    cases huf

lemma Cloned.isolated : Isolated pmm.freePages s' root root' := by
  obtain ⟨fl', held', hpmm, _⟩ := hc.pmm
  refine ⟨⟨fl', held', hpmm⟩, fun f hf => ?_, h.small, hc.apart_parent h hs husable,
    hc.apart_child h hs husable⟩
  rw [hc.offset, h.hhdm]
  exact h.pageOk hf

end

/-! ## Runs -/

inductive Process where
  | parent
  | child
  deriving DecidableEq, Repr

def Process.other : Process → Process
  | .parent => .child
  | .child => .parent

/-- A user-mode write of one byte, or the attempt at it. -/
structure UserWrite where
  process : Process
  virt : Nat
  value : BitVec 8

/-- One write, with the two processes' PML4 pages in `roots`. -/
def userStep (roots : Process → Nat) (s : Kmem) (w : UserWrite) : Option Kmem :=
  userWrite (roots w.process) w.virt w.value s

/-- The address is in the user half, and the page allocator has not run
out. -/
def UserLegal (s : Kmem) (w : UserWrite) : Prop := w.virt < 2 ^ 47 ∧ PageLeft s

def forkRoots (parent child : Nat) : Process → Nat
  | .parent => parent
  | .child => child

lemma Isolated.roots (h : Isolated S s parent child) (p : Process) :
    Isolated S s (forkRoots parent child p) (forkRoots parent child p.other) := by
  cases p with
  | parent => exact h
  | child => exact h.symm

lemma Isolated.step (h : Isolated S s parent child) {w : UserWrite} (hl : UserLegal s w)
    (hstep : userStep (forkRoots parent child) s w = some s') : Isolated S s' parent child := by
  cases (h.roots w.process).userWrite_spec hl.1 hl.2 w.value with
  | inl hpanic =>
    rw [userStep, hpanic.2] at hstep
    cases hstep
  | inr hgot =>
    obtain ⟨s1, hcall, h1, _⟩ := hgot
    rw [userStep, hcall] at hstep
    obtain rfl := Option.some.inj hstep
    cases hp : w.process with
    | parent =>
      rw [hp] at h1
      exact h1
    | child =>
      rw [hp] at h1
      exact h1.symm

/-- **Fork isolation.** After a clone of a shareable address space, in
every state that user-mode writes of parent and child lead to, a write to
a mapped address returns, and no write changes a byte that the other
process reads. -/
theorem fork_isolated {entries : List MemmapEntry} {hhdm : Nat} {ram : Nat → PageFrame} {pmm : Pmm}
    {mem : WordMem} {as cr3 as' : Nat} {s s' t : Kmem} (hm : MachineOk entries hhdm ram)
    (hinit : pmmInit entries hhdm ram = some pmm) (hb : Built pmm mem as s)
    (hclone : vmmCloneAddressSpace as cr3 s = some (as', s')) (hne : as' ≠ 0)
    (hshare : Shareable entries pmm s as) {ws : List UserWrite}
    (hl : Along (userStep (forkRoots (s.root as) (s'.root as'))) UserLegal s' ws)
    (hrun : run (userStep (forkRoots (s.root as) (s'.root as'))) s' ws = some t) {w : UserWrite}
    (hw : UserLegal t w) :
    ((t.readUser (forkRoots (s.root as) (s'.root as') w.process) w.virt).isSome →
      ∃ t', userStep (forkRoots (s.root as) (s'.root as')) t w = some t') ∧
    ∀ t', userStep (forkRoots (s.root as) (s'.root as')) t w = some t' → ∀ virt < 2 ^ 47,
      t'.readUser (forkRoots (s.root as) (s'.root as') w.process.other) virt =
        t.readUser (forkRoots (s.root as) (s'.root as') w.process.other) virt := by
  obtain ⟨a, fl, held, root, h, _⟩ := hb.inv hm hinit
  obtain ⟨as1, s1, hcall, _, hcloned⟩ := clone_spec h cr3
  obtain ⟨rfl, rfl⟩ := Prod.mk.inj (Option.mem_unique hclone hcall)
  obtain ⟨root', lbl, _, hc, _⟩ := hcloned hne
  have husable := fun f hf => ((hm.start hinit mem).2 f hf).2
  have hstart : Isolated pmm.freePages s' (s.root as) (s'.root as') := by
    rw [h.root_eq, hc.rootEq]
    exact hc.isolated h hshare husable
  have ht : Isolated pmm.freePages t (s.root as) (s'.root as') :=
    run_preserves (fun u => Isolated pmm.freePages u (s.root as) (s'.root as'))
      (fun u w u' hu hl hstep => hu.step hl hstep) hstart hl hrun
  cases (ht.roots w.process).userWrite_spec hw.1 hw.2 w.value with
  | inl hpanic =>
    refine ⟨fun hread => ?_, fun t' hstep => ?_⟩
    · rw [Kmem.readUser, hpanic.1] at hread
      cases hread
    · rw [userStep, hpanic.2] at hstep
      cases hstep
  | inr hgot =>
    obtain ⟨t1, hcall1, _, hother⟩ := hgot
    refine ⟨fun _ => ⟨t1, hcall1⟩, fun t' hstep => ?_⟩
    rw [userStep, hcall1] at hstep
    obtain rfl := Option.some.inj hstep
    exact hother

lemma forkMap_outside {e : MemmapEntry} (he : e ∈ forkMap) : 1 ∉ e.pages := by
  rw [List.mem_singleton.mp he]
  simp [MemmapEntry.pages, pageSize]

/-- Page 1 is no table: the allocator does not manage it. -/
lemma VmInv.forkMap_page (h : VmInv forkStart.freePages s a fl held as root) :
    1 ∉ userTables s.mem root := by
  intro hin
  obtain ⟨e, he, _, hpage⟩ :=
    ((forkMap_ok.start pmmInit_forkMap fun _ => 0).2 1 (h.mem_of_table hin)).2
  exact forkMap_outside he hpage

lemma FirstPage.shareable (h : FirstPage forkStart (fun _ => 0) forkSpace.1 0 0x1000 6 forkHeap
      forkStart.freePages s1 s fl held root g1 g2 g3) :
    Shareable forkMap forkStart s forkSpace.1 := by
  have hroot := h.inv.root_eq
  have hmapped : ∀ {p f}, p ∈ pagePaths → tableAt s.mem root p = some f →
      p = [0, 0, 0] ++ [0] ∧ f = 1 := by
    intro p f hp hf
    rw [h.walk hp] at hf
    split at hf
    · rename_i heq
      exact ⟨heq, by
        rw [show nextFrame (leafEntry 0x1000 6) = some 1 by decide] at hf
        exact (Option.some.inj hf).symm⟩
    · cases hf
  constructor
  · exact h.holesClean
  · intro q i f hp hf
    rw [hroot] at hf
    obtain ⟨rfl, _⟩ := List.append_inj' (hmapped hp hf).1 rfl
    decide
  · intro q i t hp h256 ht
    rw [hroot] at ht
    cases hw : nextWritable (entryAt s.mem t i) with
    | none => rfl
    | some f =>
      have hf : tableAt s.mem root (q ++ [i]) = some f := by
        rw [tableAt_concat, ht]
        exact (nextFrame_of_nextWritable hw).1
      obtain ⟨_, hone⟩ := List.append_inj' (hmapped hp hf).1 rfl
      obtain rfl := (List.cons.inj hone).1
      exact absurd h256 (by decide)
  · intro p hp f hf
    rw [hroot] at hf ⊢
    obtain ⟨_, rfl⟩ := hmapped hp hf
    refine ⟨Or.inr ⟨?_, fun e he _ => forkMap_outside he⟩, h.inv.forkMap_page⟩
    rw [h.inv.hhdm, show forkHeap.hhdm = 0 by decide]
    exact ⟨by decide, by decide⟩

def forkNext : Nat × Pmm := (pmmAllocPage forkCloned).get (by decide)

lemma pmmAllocPage_forkCloned : pmmAllocPage forkCloned = some forkNext :=
  (Option.some_get _).symm

lemma pageLeft_forkCloned (h : s.pmm = forkCloned) : PageLeft s := by
  refine ⟨forkNext.1, forkNext.2, ?_, by decide⟩
  rw [h]
  exact pmmAllocPage_forkCloned

theorem fork_isolated_forkMap : ∃ s as' s' t, Built forkStart (fun _ => 0) forkSpace.1 s ∧
    vmmCloneAddressSpace forkSpace.1 0 s = some (as', s') ∧ as' ≠ 0 ∧
    Shareable forkMap forkStart s forkSpace.1 ∧
    userStep (forkRoots (s.root forkSpace.1) (s'.root as')) s' ⟨.child, 0, 7⟩ = some t ∧
    ∀ virt < 2 ^ 47, t.readUser (s.root forkSpace.1) virt =
      s'.readUser (s.root forkSpace.1) virt := by
  obtain ⟨s1, s, fl, held, root, g1, g2, g3, h⟩ :=
    firstPage_forkMap (fun _ => 0) 0 0x1000 6 (by decide)
  obtain ⟨as', s', root', lbl, hcall, hne, hc, hpmm, _⟩ :=
    h.clone (by decide) (by decide) (by decide)
  have hb := h.built forkSpace_ne_zero (by decide)
  have hleft := pageLeft_forkCloned hpmm
  have hclean := h.holesClean.copyClean h.inv hc
  have hread : (s'.readUser (s'.root as') 0).isSome := by
    rw [Kmem.readUser, hc.rootEq, hc.walk_child h.inv.small hclean (pathOf_mem (by decide)),
      h.walk (pathOf_mem (by decide)), if_pos rfl,
        show nextFrame (leafEntry 0x1000 6) = some 1 by decide]
    rfl
  obtain ⟨hgo, hkeep⟩ := fork_isolated (w := ⟨.child, 0, 7⟩) forkMap_ok pmmInit_forkMap hb hcall
    hne h.shareable (show Along _ UserLegal s' [] from trivial) rfl ⟨by decide, hleft⟩
  obtain ⟨t, ht⟩ := hgo hread
  exact ⟨s, as', s', t, hb, hcall, hne, h.shareable, ht, hkeep t ht⟩

/-- Copies keep the flags that a user-mode write needs. -/
lemma nextWritable_copiedEntry (hg : g < 2 ^ 40) (h : nextWritable e = some f) :
    nextWritable (copiedEntry g e) = some g := by
  obtain ⟨hframe, hw, hu⟩ := nextFrame_of_nextWritable h
  have hp := (nextFrame_eq_some.mp hframe).1
  rw [present_eq] at hp
  rw [isWrite_eq] at hw
  rw [isUser_eq] at hu
  rw [nextWritable, present_eq, isWrite_eq, isUser_eq, getLsbD_copiedEntry g e (by decide),
    getLsbD_copiedEntry g e (by decide), getLsbD_copiedEntry g e (by decide), hp, hw, hu,
    frameOf_copiedEntry hg]
  rfl

lemma nextWritable_newTableEntry (hg : g < 2 ^ 40) : nextWritable (newTableEntry g) = some g := by
  have hframe := (nextFrame_eq_some.mp (nextFrame_newTable hg)).2
  rw [nextWritable, present_eq, isWrite_eq, isUser_eq, newTableEntry, hframe]
  simp

lemma FirstPage.last_writable {mem : WordMem} {virt phys : Nat} {flags : BitVec 32}
    (h : FirstPage pmm mem as virt phys flags a S s1 s fl held root g1 g2 g3) (hv : virt < 2 ^ 47) :
    Lib.walk nextWritable (entryAt s.mem) root (upperIdx virt) = some g3 := by
  have hi : getPml4Idx virt < 256 := (userPath_pathOf hv).2 _ rfl
  have hj : getPdptIdx virt < 512 := and_511_lt _
  have hk : getPdIdx virt < 512 := and_511_lt _
  obtain ⟨h1, h2, h3⟩ := h.small
  simp only [upperIdx, walk_cons, h.page.pml4 _ hi, h.page.pdpt _ hj, h.page.pd _ hk, if_true,
    nextWritable_newTableEntry h1, nextWritable_newTableEntry h2, nextWritable_newTableEntry h3,
    Option.bind_some, walk_nil]

/-- A parent with one page, in slot 256 of its last table. The child
writes to it, and the parent reads what the child wrote. -/
theorem fork_not_isolated : ∃ s1 s as' s' v t,
    vmmCreateAddressSpace 0 ⟨forkStart, fun _ => 0, fun _ _ => 0⟩ = some (forkSpace.1, s1) ∧
    vmmMapPage forkSpace.1 0x100000 0x1000 6 s1 = some (true, s) ∧
    vmmCloneAddressSpace forkSpace.1 0 s = some (as', s') ∧ as' ≠ 0 ∧ PageLeft s' ∧
    userStep (forkRoots (s.root forkSpace.1) (s'.root as')) s' ⟨.child, 0x100000, v⟩ = some t ∧
    t.readUser (s.root forkSpace.1) 0x100000 = some v ∧
    s'.readUser (s.root forkSpace.1) 0x100000 ≠ some v := by
  obtain ⟨s1, s, fl, held, root, g1, g2, g3, h⟩ :=
    firstPage_forkMap (fun _ => 0) 0x100000 0x1000 6 (by decide)
  obtain ⟨as', s', root', lbl, hcall, hne, hc, hpmm, _⟩ :=
    h.clone (by decide) (by decide) (by decide)
  have hpath : pathOf 0x100000 = upperIdx 0x100000 ++ [256] := by decide
  have hleaf : entryAt s.mem g3 256 = leafEntry 0x1000 6 := by
    rw [h.page.pt 256 (by decide), if_pos (by decide)]
  -- the child's entry for the page is the parent's
  obtain ⟨g, hg, _, hcop⟩ := hc.copy_of_walk h.inv.small
    (fun e f he => (nextFrame_of_nextWritable he).1)
    (fun e f g hg he => nextWritable_copiedEntry hg he)
    (p := upperIdx 0x100000) (by decide) (by decide) (by decide) (h.last_writable (by decide))
  have hslot : entryAt s'.mem g 256 = leafEntry 0x1000 6 := by
    have hcopied := hcop 256 (by decide)
    rw [show 3 - (upperIdx 0x100000).length = 0 by decide, Copied, SlotCopied, hleaf,
      if_pos (by decide), if_pos (by decide)] at hcopied
    exact hcopied
  have hchild : walk nextWritable (entryAt s'.mem) root' (pathOf 0x100000) = some 1 := by
    rw [hpath, walk_concat, hg, Option.bind_some, hslot]
    decide
  have hparent : tableAt s'.mem root (pathOf 0x100000) = some 1 := by
    rw [hc.walk_parent (userPath_pathOf (by decide)) (Nat.le_refl 4),
      h.walk (pathOf_mem (by decide)), if_pos rfl]
    decide
  refine ⟨s1, s, as', s', readByte s'.mem 0x1000 + 1,
    { s' with mem := writeByte s'.mem 0x1000 (readByte s'.mem 0x1000 + 1) }, h.create, h.map, hcall,
    hne, pageLeft_forkCloned hpmm, ?_, ?_, ?_⟩
  · simp only [userStep, forkRoots, userWrite, hc.rootEq, hchild]
    rfl
  · have hsame : SameTables s'.mem (writeByte s'.mem 0x1000 (readByte s'.mem 0x1000 + 1)) root := by
      refine sameTables_of_pages (W := {1}) (fun w hw => writeByte_other _ fun heq => hw ?_) ?_
      · simp [heq]
      · intro t ht heq
        rw [hc.parentTables] at ht
        exact h.inv.forkMap_page (heq ▸ ht)
    rw [h.inv.root_eq]
    show Option.map _ (tableAt (writeByte s'.mem 0x1000 _) root (pathOf 0x100000)) = _
    rw [hsame.walk_eq (userPath_pathOf (by decide)) (Nat.le_refl 4), hparent]
    exact congrArg some (readByte_writeByte _ _ _)
  · rw [h.inv.root_eq, Kmem.readUser, hparent]
    intro heq
    have hbyte : readByte s'.mem 0x1000 = readByte s'.mem 0x1000 + 1 := Option.some.inj heq
    generalize readByte s'.mem 0x1000 = b at hbyte
    revert b
    decide

end VortexOS.Mm
