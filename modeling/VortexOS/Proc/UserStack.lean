/-
VortexOS.Proc.UserStack — the stack of a new program.

`execve` maps four pages below `0x7FFFFFF00000` and writes the arguments
there, through the tables that CR3 points to. Whatever `setup_user_stack`
does, it changes no table (`setupUserStack_pageStores`). The four pages are
in one table, so that only the first of them can find no room for its
tables, and then the next call finds no page (`stackPages_mapped`).
-/
import VortexOS.Mm.VmmRefine
import VortexOS.Proc.ElfTheorems
import VortexOS.Proc.Exec

namespace VortexOS.Proc

open Function Lib Mm Sched Arch

variable {f va v ptrs i top argv envp virt : Nat} {b : BitVec 8} {st st' : Nat × Kernel}

/-! ## Stores through CR3 -/

/-- From `k` to `k'` pages that are mapped at CR3 have changed, but not the
tables there. -/
structure PageStores (k k' : Kernel) : Prop where
  eq : k' = k.setKmem { k.kmem with mem := k'.kmem.mem }
  tables : SameTables k.kmem.mem k'.kmem.mem k.cr3Root
  mem : ∀ w, (∀ va < 2 ^ 47, tableAt k.kmem.mem k.cr3Root (pathOf va) ≠ some (w / 512)) →
    k'.kmem.mem w = k.kmem.mem w

/-- No page that is mapped at CR3 is one of the tables there. -/
def PagesApart (k : Kernel) : Prop :=
  ∀ va < 2 ^ 47, ∀ f, tableAt k.kmem.mem k.cr3Root (pathOf va) = some f →
    f ∉ userTables k.kmem.mem k.cr3Root

section

variable {upper : Upper} {k k1 k2 : Kernel}

lemma PageStores.refl (k : Kernel) : PageStores k k :=
  ⟨rfl, fun _ _ _ _ => rfl, fun _ _ => rfl⟩

lemma nextFrame_of_nextStored {e : BitVec 64} (h : nextStored e = some f) :
    nextFrame e = some f := by
  unfold nextStored at h
  split at h
  · rename_i hp
    rw [Bool.and_eq_true] at hp
    rw [nextFrame, if_pos hp.1, h]
  · cases h

lemma PageStores.poke (hP : PagesApart k) (h : PageStores k k1) (hcall : k1.poke va b = some k2) :
    PageStores k k2 := by
  unfold Kernel.poke at hcall
  split at hcall
  · rename_i hva
    rw [Option.map_eq_some_iff] at hcall
    obtain ⟨f, hwalk, rfl⟩ := hcall
    have hroot : k1.cr3Root = k.cr3Root := by rw [h.eq]; rfl
    have hf : tableAt k.kmem.mem k.cr3Root (pathOf va) = some f := by
      rw [← h.tables.walk_eq (userPath_pathOf hva) (Nat.le_refl 4), ← hroot]
      exact walk_mono (fun _ _ => nextFrame_of_nextStored) hwalk
    have hst := storesTo_writeByte (s := k1.kmem) (f := f)
      (Nat.mod_lt va (by decide : 0 < pageSize)) b
    refine ⟨?_, SameTables.trans h.tables (sameTables_of_pages (W := {f}) (fun w hw => ?_) ?_),
      fun w hw => ?_⟩
    · rw [h.eq]
      rfl
    · exact hst.mem w hw
    · intro t ht heq
      rw [h.tables.userTables_eq] at ht
      exact hP va hva f hf (Set.mem_singleton_iff.mp heq ▸ ht)
    · exact (hst.mem w fun heq => hw va hva (heq ▸ hf)).trans (h.mem w hw)
  · cases hcall

variable (hP : PagesApart k)

include hP

lemma PageStores.pokeWord (h : PageStores k k1) (hcall : k1.pokeWord va v = some k2) :
    PageStores k k2 :=
  run_keeps (PageStores k) (fun _ _ _ h hone => h.poke hP hone) h hcall

lemma PageStores.copyString {str sp len : Nat} (h : PageStores k k1)
    (hcall : copyString upper str sp len k1 = some k2) : PageStores k k2 := by
  refine run_keeps (PageStores k) (fun _ _ _ h hone => ?_) h hcall
  obtain ⟨c, -, hpoke⟩ := Option.bind_eq_some_iff.mp hone
  exact h.poke hP hpoke

lemma PageStores.pushString {array : Nat} (h : PageStores k st.2)
    (hcall : pushString upper array ptrs st i = some st') : PageStores k st'.2 := by
  unfold Proc.pushString at hcall
  simp only [Option.bind_eq_bind, Option.bind_eq_some_iff] at hcall
  obtain ⟨str, -, len, -, k1, hcopy, k2, hpoke, heq⟩ := hcall
  cases heq
  exact (h.copyString hP hcopy).pokeWord hP hpoke

lemma PageStores.pushWord (h : PageStores k st.2) (hcall : pushWord v st = some st') :
    PageStores k st'.2 := by
  unfold Proc.pushWord at hcall
  rw [Option.map_eq_some_iff] at hcall
  obtain ⟨k', hpoke, rfl⟩ := hcall
  exact h.pokeWord hP hpoke

lemma PageStores.pushArray {count : Nat} (h : PageStores k st.2)
    (hcall : pushArray upper ptrs count st = some st') : PageStores k st'.2 := by
  obtain ⟨st1, hnull, hrun⟩ := Option.bind_eq_some_iff.mp hcall
  refine run_keeps (fun st : Nat × Kernel => PageStores k st.2) (fun _ _ _ h hone => ?_)
    (h.pushWord hP hnull) hrun
  obtain ⟨p, -, hpush⟩ := Option.bind_eq_some_iff.mp hone
  exact h.pushWord hP hpush

/-- The stack is set up on the pages that are mapped. -/
lemma setupUserStack_pageStores (hcall : setupUserStack upper top argv envp k = some st) :
    PageStores k st.2 := by
  unfold setupUserStack at hcall
  simp only [Option.bind_eq_bind, Option.bind_eq_some_iff] at hcall
  obtain ⟨argc, -, envc, -, st1, hargs, st2, henv, st3, harr, st4, harr', st5, hptr, hargc⟩ := hcall
  have h1 : PageStores k st1.2 := run_keeps (fun st : Nat × Kernel => PageStores k st.2)
    (fun _ _ _ h hone => h.pushString hP hone) (PageStores.refl k) hargs
  have h2 : PageStores k st2.2 := run_keeps (fun st : Nat × Kernel => PageStores k st.2)
    (fun _ _ _ h hone => h.pushString hP hone) h1 henv
  exact (((h2.pushArray hP harr).pushArray hP harr').pushWord hP hptr).pushWord hP hargc

omit hP in
def Kernel.Writable (k : Kernel) (va : Nat) : Prop :=
  va < 2 ^ 47 ∧ walk nextStored (entryAt k.kmem.mem) k.cr3Root (pathOf va) ≠ none

lemma PageStores.poke_returns (h : PageStores k k1) (hw : k.Writable va) :
    ∃ k2, k1.poke va b = some k2 ∧ PageStores k k2 := by
  obtain ⟨hva, hwalk⟩ := hw
  have hroot : k1.cr3Root = k.cr3Root := by rw [h.eq]; rfl
  rw [← SameTables.walk_eq_of_le (fun _ _ => nextFrame_of_nextStored) h.tables
    (userPath_pathOf hva) (Nat.le_refl 4), ← hroot] at hwalk
  obtain ⟨f, hf⟩ := Option.ne_none_iff_exists'.mp hwalk
  have hpoke : k1.poke va b = some (k1.setKmem { k1.kmem with
      mem := writeByte k1.kmem.mem (f * pageSize + va % pageSize) b }) := by
    rw [Kernel.poke, if_pos hva, hf, Option.map_some]
  exact ⟨_, hpoke, h.poke hP hpoke⟩

lemma PageStores.pokeWord_returns (va v : Nat) (h : PageStores k k1)
    (hw : ∀ i < 8, k.Writable (add64 va i)) : ∃ k2, k1.pokeWord va v = some k2 ∧ PageStores k k2 :=
  run_invariant (P := fun _ i => i < 8) (PageStores k)
    (fun _ i h hi => h.poke_returns hP (hw i hi)) h
    (Along.of_forall fun _ hi => List.mem_range.mp hi)

lemma PageStores.pushWord_returns (v sp : Nat) (h : PageStores k k1) (hsp : 8 ≤ sp)
    (hsp' : sp < 2 ^ 64) (hw : ∀ i < 8, k.Writable (sp - 8 + i)) :
    ∃ k2, Proc.pushWord v (sp, k1) = some (sp - 8, k2) ∧ PageStores k k2 := by
  have hsub : sub64 sp 8 = sp - 8 := sub64_of_le hsp' hsp
  obtain ⟨k2, hpoke, h2⟩ := h.pokeWord_returns hP (sp - 8) v fun i hi => by
    rw [add64_of_lt (by omega)]
    exact hw i hi
  exact ⟨k2, by simp only [Proc.pushWord, hsub, hpoke, Option.map_some], h2⟩

omit hP in
lemma countStrings_zero (upper : Upper) (k : Kernel) : countStrings upper k 0 = some 0 := by
  rw [countStrings, if_pos rfl]

omit hP in
lemma pushArray_zero (upper : Upper) (ptrs : Nat) (st : Nat × Kernel) :
    pushArray upper ptrs 0 st = pushWord 0 st := by
  unfold pushArray
  simp only [List.range_zero, List.reverse_nil, run, Option.bind_fun_some]

omit hP in
lemma pushStrings_zero (upper : Upper) (array sp : Nat) (k : Kernel) :
    pushStrings upper array 0 sp k = some (sp, k) := rfl

omit hP in
lemma setupUserStack_eq (upper : Upper) (top argv envp : Nat) (k : Kernel) :
    setupUserStack upper top argv envp k =
      (countStrings upper k argv).bind fun argc => (countStrings upper k envp).bind fun envc =>
        (pushStrings upper argv argc top k).bind fun st =>
        (pushStrings upper envp envc st.1 st.2).bind fun st' =>
        (pushArray upper st.1 envc st').bind fun st => (pushArray upper top argc st).bind fun st =>
        (pushWord st.1 st).bind (pushWord argc) := rfl

omit hP in
lemma setupUserStack_noStrings (hargc : countStrings upper k argv = some 0)
    (henvc : countStrings upper k envp = some 0) (top : Nat) :
    setupUserStack upper top argv envp k =
      (pushWord 0 (top, k)).bind fun st => (pushWord 0 st).bind fun st =>
        (pushWord st.1 st).bind (pushWord 0) := by
  rw [setupUserStack_eq, hargc, henvc, Option.bind_some, Option.bind_some, pushStrings_zero,
    Option.bind_some, pushStrings_zero, Option.bind_some, pushArray_zero]
  refine congrArg (Option.bind _) (funext fun st => ?_)
  rw [pushArray_zero]

lemma setupUserStack_returns (hargc : countStrings upper k argv = some 0)
    (henvc : countStrings upper k envp = some 0) (htop : 32 ≤ top) (htop' : top < 2 ^ 64)
    (hw : ∀ i < 32, k.Writable (top - 32 + i)) :
    ∃ st, setupUserStack upper top argv envp k = some st := by
  have hword : ∀ sp, top - 24 ≤ sp → sp ≤ top → ∀ i < 8, k.Writable (sp - 8 + i) := by
    intro sp hlow hhigh i hi
    have heq : sp - 8 + i = top - 32 + (sp + 24 - top + i) := by omega
    rw [heq]
    exact hw _ (by omega)
  obtain ⟨k1, hpush1, h1⟩ := (PageStores.refl k).pushWord_returns hP 0 top (by omega) htop'
    (hword _ (by omega) (by omega))
  obtain ⟨k2, hpush2, h2⟩ := h1.pushWord_returns hP 0 (top - 8) (by omega) (by omega)
    (hword _ (by omega) (by omega))
  obtain ⟨k3, hpush3, h3⟩ := h2.pushWord_returns hP (top - 8 - 8) (top - 8 - 8) (by omega)
    (by omega)
    (hword _ (by omega) (by omega))
  obtain ⟨k4, hpush4, -⟩ := h3.pushWord_returns hP 0 (top - 8 - 8 - 8) (by omega) (by omega)
    (hword _ (by omega) (by omega))
  refine ⟨(top - 8 - 8 - 8 - 8, k4), ?_⟩
  rw [setupUserStack_noStrings hargc henvc, hpush1, Option.bind_some, hpush2, Option.bind_some,
    hpush3, Option.bind_some, hpush4]

end

/-! ## The stack pages -/

lemma stackPage_path (hi : i < 4) : stackPage i < 2 ^ 47 ∧
    upperIdx (stackPage i) = upperIdx (stackPage 0) ∧ getPtIdx (stackPage i) = 255 - i := by
  have hall : ∀ i < 4, stackPage i < 2 ^ 47 ∧ upperIdx (stackPage i) = upperIdx (stackPage 0) ∧
      getPtIdx (stackPage i) = 255 - i := by decide
  exact hall i hi

/-- The entries for pages when stack page `m` is the frame `g m` for
`m < j`, and there is no other page. -/
def stackLeaf (g : Nat → Nat) (j : Nat) (q : List Nat) (i : Nat) : Option (BitVec 64) :=
  if q = upperIdx (stackPage 0) ∧ 255 < i + j ∧ i ≤ 255 then
    some (leafEntry (pfnToPhys (g (255 - i))) stackFlags)
  else none

/-- An address space whose pages are the first `j` stack pages. They are
none of its tables and were not in use at first. -/
structure StackInv (S : Set Nat) (held0 : Set Block) (as root : Nat) (g : Nat → Nat) (j : Nat)
    (s : Kmem) (a : AHeap) (fl : Nat → List Nat) (held : Set Block) : Prop
    extends VmInv S s a fl held as root where
  leaves : ∀ q i, q ++ [i] ∈ pagePaths → leafAt s.mem root q i = stackLeaf g j q i
  pages : ∀ m < j, (⟨0, g m⟩ : Block) ∈ held ∧ (⟨0, g m⟩ : Block) ∉ held0 ∧ g m ∈ S ∧
    g m ∉ userTables s.mem root ∧ g m ∉ a.slabs
  sub : held0 ⊆ held

section

variable {S : Set Nat} {s s' : Kmem} {a : AHeap} {fl : Nat → List Nat} {held held0 : Set Block}
  {as root j : Nat} {g : Nat → Nat}

/-- One stack page. When there are no pages for its tables, the page is
taken and not mapped. -/
lemma mapStackPage_spec (h : VmInv S s a fl held as root) (hi : i < 4) :
    (s.pmm.kFreePages = 0 ∧ mapStackPage as i s = some (false, s)) ∨
    s.pmm.kFreePages ≠ 0 ∧ ∃ f mapped s' a' fl' held', mapStackPage as i s = some (true, s') ∧
    VmInv S s' a' fl' held' as root ∧ Growth root 4 s a held s' a' held' ∧
    ((⟨0, f⟩ : Block) ∈ held' ∧ (⟨0, f⟩ : Block) ∉ held ∧ f ∈ S ∧ f ∉ userTables s'.mem root ∧
      f ∉ a'.slabs) ∧ (mapped = false → s'.pmm.kFreePages = 0 ∧
      tableAt s'.mem root (upperIdx (stackPage 0)) = none) ∧ ∀ q l, q ++ [l] ∈ pagePaths →
    leafAt s'.mem root q l = if mapped = true ∧ q = upperIdx (stackPage 0) ∧ l = 255 - i then
      some (leafEntry (pfnToPhys f) stackFlags) else leafAt s.mem root q l := by
  obtain ⟨hv, hupper, hidx⟩ := stackPage_path hi
  cases h.takePage with
  | inl hnull =>
    refine Or.inl ⟨hnull.2, ?_⟩
    simp only [mapStackPage, hnull.1, if_true]
  | inr hgot =>
    obtain ⟨hfree, f, s1, a1, fl1, halloc, hphys, h1, hg1, hfresh, hslab, hS, hmem⟩ := hgot
    obtain ⟨mapped, s', a', fl', held', hmap, h', hg', hfail, hleaves⟩ :=
      h1.mapPage_spec hv (pfnToPhys f) stackFlags
    have hin : (⟨0, f⟩ : Block) ∈ insert ⟨0, f⟩ held := Or.inl rfl
    have ht1 : f ∉ userTables s1.mem root := by
      rw [hmem]
      exact fun ht => hfresh (h.owned f ht).1
    refine Or.inr ⟨hfree, f, mapped, s', a', fl', held', ?_, h', hg1.trans hg',
      ⟨hg'.keeps hin, hfresh, hS, fun ht => ht1 (hg'.tables _ hin ht),
        fun hs => ht1 (hg'.frame.slabs f hs hslab hin)⟩, ?_, fun q l hql => ?_⟩
    · simp only [mapStackPage, halloc, if_neg hphys, hmap, Option.map_some]
    · rw [← hupper]
      exact hfail
    · rw [hleaves.pages q l hql, hupper, hidx, hmem]

/-- The first page: it is there, or nothing is left. -/
lemma StackInv.first (h : VmInv S s a fl held as root)
    (hempty : ∀ q i, q ++ [i] ∈ pagePaths → leafAt s.mem root q i = none)
    (hcall : mapStackPage as 0 s = some (true, s')) :
    ∃ f a' fl' held', VmInv S s' a' fl' held' as root ∧
    (s'.pmm.kFreePages = 0 ∨ StackInv S held as root (fun _ => f) 1 s' a' fl' held') := by
  cases mapStackPage_spec h (show 0 < 4 by decide) with
  | inl hnull => simp [hnull.2] at hcall
  | inr hgot =>
    obtain ⟨-, f, mapped, s1, a', fl', held', hcall', h', hg, hpage, hfail, hleaves⟩ := hgot
    obtain ⟨-, rfl⟩ := Prod.mk.inj (Option.mem_unique hcall hcall')
    refine ⟨f, a', fl', held', h', ?_⟩
    cases mapped with
    | false => exact Or.inl (hfail rfl).1
    | true =>
      refine Or.inr ⟨h', fun q i hqi => ?_, fun m hm => hpage, hg.keeps⟩
      rw [hleaves q i hqi, hempty q i hqi, stackLeaf]
      refine if_congr ⟨fun hslot => ⟨hslot.2.1, ?_, ?_⟩, fun hslot => ⟨rfl, hslot.1, ?_⟩⟩ rfl rfl
      all_goals omega

lemma StackInv.next (h : StackInv S held0 as root g j s a fl held) (hpos : 0 < j) (hj : j < 4)
    (hcall : mapStackPage as j s = some (true, s')) :
    ∃ f a' fl' held', StackInv S held0 as root (update g j f) (j + 1) s' a' fl' held' := by
  cases mapStackPage_spec h.toVmInv hj with
  | inl hnull => simp [hnull.2] at hcall
  | inr hgot =>
    obtain ⟨-, f, mapped, s1, a', fl', held', hcall', h', hg, hpage, hfail, hleaves⟩ := hgot
    obtain ⟨-, rfl⟩ := Prod.mk.inj (Option.mem_unique hcall hcall')
    have hpath : upperIdx (stackPage 0) ++ [255] ∈ pagePaths := by
      have := pathOf_mem (stackPage_path (show 0 < 4 by decide)).1
      exact this
    have hmapped : mapped = true := by
      by_contra hnot
      have hfalse := Bool.eq_false_of_not_eq_true hnot
      have hleaf := hleaves _ 255 hpath
      have hlt : 255 < 255 + j := by omega
      rw [if_neg fun heq => hnot heq.1, h.leaves _ 255 hpath, stackLeaf,
        if_pos ⟨rfl, hlt, Nat.le_refl _⟩, leafAt, (hfail hfalse).2] at hleaf
      simp at hleaf
    refine ⟨f, a', fl', held', h', fun q i hqi => ?_, fun m hm => ?_,
      fun b hb => hg.keeps (h.sub hb)⟩
    · rw [hleaves q i hqi, h.leaves q i hqi, hmapped, stackLeaf, stackLeaf]
      by_cases hslot : q = upperIdx (stackPage 0) ∧ i = 255 - j
      · obtain ⟨rfl, rfl⟩ := hslot
        have hback : 255 - (255 - j) = j := by omega
        rw [if_pos ⟨rfl, rfl, rfl⟩, if_pos ⟨rfl, by omega, by omega⟩, hback, update_self]
      · rw [if_neg fun heq => hslot heq.2]
        by_cases hold : q = upperIdx (stackPage 0) ∧ 255 < i + j ∧ i ≤ 255
        · have hne : 255 - i ≠ j := by omega
          rw [if_pos hold, if_pos ⟨hold.1, by omega, hold.2.2⟩, update_of_ne hne]
        · rw [if_neg hold, if_neg]
          intro hnew
          by_cases hi : i = 255 - j
          · exact hslot ⟨hnew.1, hi⟩
          · exact hold ⟨hnew.1, by omega, hnew.2.2⟩
    · by_cases hmj : m = j
      · rw [hmj, update_self]
        exact ⟨hpage.1, fun hin => hpage.2.1 (h.sub hin), hpage.2.2⟩
      · rw [update_of_ne hmj]
        obtain ⟨hin, hfresh, hS, ht, hslab⟩ := h.pages m (by omega)
        exact ⟨hg.keeps hin, hfresh, hS, fun ht' => ht (hg.tables _ hin ht'),
          fun hs => ht (hg.frame.slabs _ hs hslab hin)⟩

lemma StackInv.rest {n : Nat} (h : StackInv S held0 as root g j s a fl held) (hpos : 0 < j)
    (hn : j + n ≤ 4) (hcall : forSlots (mapStackPage as) (List.range' j n) s = some (true, s')) :
    ∃ g' a' fl' held', StackInv S held0 as root g' (j + n) s' a' fl' held' := by
  induction n generalizing j s a fl held g with
  | zero =>
    cases hcall
    exact ⟨g, a, fl, held, h⟩
  | succ n ih =>
    rw [List.range'_succ] at hcall
    obtain ⟨s1, hone, hrest⟩ := forSlots_cons hcall
    obtain ⟨f, a1, fl1, held1, h1⟩ := h.next hpos (by omega) hone
    obtain ⟨g', a', fl', held', h'⟩ := ih h1 (Nat.succ_pos j) (by omega) hrest
    exact ⟨g', a', fl', held', by rwa [Nat.add_right_comm] at h'⟩

lemma stackPages_mapped (h : VmInv S s a fl held as root)
    (hempty : ∀ q i, q ++ [i] ∈ pagePaths → leafAt s.mem root q i = none)
    (hcall : forSlots (mapStackPage as) (List.range 4) s = some (true, s')) :
    ∃ g a' fl' held', StackInv S held as root g 4 s' a' fl' held' := by
  rw [show List.range 4 = 0 :: List.range' 1 3 by decide] at hcall
  obtain ⟨s1, hone, hrest⟩ := forSlots_cons hcall
  obtain ⟨f, a1, fl1, held1, h1, hcases⟩ := StackInv.first h hempty hone
  cases hcases with
  | inl hfree =>
    -- then the second call finds none
    have hnull : mapStackPage as 1 s1 = some (false, s1) := by
      cases mapStackPage_spec h1 (show 1 < 4 by decide) with
      | inl hnull => exact hnull.2
      | inr hgot => exact absurd hfree hgot.1
    simp [List.range'_succ, forSlots, hnull] at hrest
  | inr hstack => exact hstack.rest Nat.one_pos (Nat.le_refl 4) hrest

lemma stackPages_return (h : VmInv S s a fl held as root) (hfree : 16 ≤ s.pmm.kFreePages) :
    ∃ s' a' fl' held', forSlots (mapStackPage as) (List.range 4) s = some (true, s') ∧
    VmInv S s' a' fl' held' as root ∧ Growth root 16 s a held s' a' held' := by
  refine forSlots_returns (n := fun _ => 4) (fun i hi s a fl held h hpages => ?_) h hfree
  cases mapStackPage_spec h (List.mem_range.mp hi) with
  | inl hnull => omega
  | inr hgot =>
    obtain ⟨-, f, mapped, s', a', fl', held', hcall, h', hg, -⟩ := hgot
    exact ⟨s', a', fl', held', hcall, h', hg⟩

def stackFrame (g : Nat → Nat) (virt : Nat) : Option Nat :=
  if upperIdx virt = upperIdx (stackPage 0) ∧ 251 < getPtIdx virt ∧ getPtIdx virt ≤ 255 then
    some (g (255 - getPtIdx virt))
  else none

lemma StackInv.walk (h : StackInv S held0 as root g 4 s a fl held) (hv : virt < 2 ^ 47) :
    tableAt s.mem root (pathOf virt) = stackFrame g virt := by
  have hslots : (255 < getPtIdx virt + 4 ∧ getPtIdx virt ≤ 255) ↔
      (251 < getPtIdx virt ∧ getPtIdx virt ≤ 255) := by omega
  rw [show pathOf virt = upperIdx virt ++ [getPtIdx virt] from rfl, tableAt_leaf,
    h.leaves _ _ (pathOf_mem hv), stackLeaf, stackFrame]
  simp only [hslots]
  split
  · rename_i hin
    have hm : 255 - getPtIdx virt < 4 := by omega
    have hsmall := h.small _ (h.pages _ hm).2.2.1
    rw [Option.map_some, (decode_leafEntry hsmall (by decide)).1]
  · rfl

/-- The tables on the way to a page whose entry allows writing allow it
too. -/
lemma walkStored_of_tablesWritable {m : WordMem} (hw : TablesWritable m root) {q : List Nat}
    (hq : q ∈ tablePaths) {t : Nat} (ht : tableAt m root q = some t) :
    walk nextStored (entryAt m) root q = some t := by
  induction q using List.reverseRecOn generalizing t with
  | nil => exact ht
  | append_singleton q i ih =>
    rw [tableAt_concat] at ht
    obtain ⟨u, hu, hnext⟩ := Option.bind_eq_some_iff.mp ht
    have hq' : q ∈ tablePaths := (tablePaths_within hq q i [] rfl).1
    rw [walk_concat, ih hq' hu, Option.bind_some]
    unfold nextFrame at hnext
    split at hnext
    · rename_i hp
      rw [nextStored, hp, hw q i u hq hu hp, Bool.and_self, if_pos rfl]
      exact hnext
    · cases hnext

lemma StackInv.writable {k : Kernel} (h : StackInv S held0 as root g 4 k.kmem a fl held)
    (hroot : k.cr3Root = root) (hw : TablesWritable k.kmem.mem root) (hv : virt < 2 ^ 47)
    (hstack : stackFrame g virt ≠ none) : k.Writable virt := by
  refine ⟨hv, ?_⟩
  have hpath := pathOf_mem hv
  have hleaf := h.leaves _ _ hpath
  unfold stackFrame at hstack
  split at hstack
  · rename_i hin
    have hlt : 255 < getPtIdx virt + 4 := by omega
    rw [stackLeaf, if_pos ⟨hin.1, hlt, hin.2.2⟩, leafAt] at hleaf
    obtain ⟨t, ht, hentry⟩ := Option.bind_eq_some_iff.mp hleaf
    split at hentry
    · rename_i hp
      have hwrite : isWrite (entryAt k.kmem.mem t (getPtIdx virt)) = true := by
        rw [Option.some.inj hentry]
        exact isWrite_leafEntry _ (by decide)
      rw [pathOf, walk_concat, hroot, walkStored_of_tablesWritable hw (upperIdx_mem hv) ht,
        Option.bind_some, nextStored, hp, hwrite]
      simp
    · cases hentry
  · exact absurd rfl hstack

lemma stackFrame_some (h : stackFrame g virt = some f) : ∃ m < 4, f = g m := by
  unfold stackFrame at h
  split at h
  · cases h
    exact ⟨255 - getPtIdx virt, by omega, rfl⟩
  · cases h

lemma stackFrame_page (hi : i < 4) : stackFrame g (stackPage i) = some (g i) := by
  obtain ⟨-, hupper, hidx⟩ := stackPage_path hi
  have hback : 255 - (255 - i) = i := by omega
  rw [stackFrame, hupper, hidx, if_pos ⟨rfl, by omega, by omega⟩, hback]

end

end VortexOS.Proc
