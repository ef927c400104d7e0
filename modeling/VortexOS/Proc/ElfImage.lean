/-
VortexOS.Proc.ElfImage — what user mode reads after a load.

A load is a list of loads of one page each (`Image.loads`). Each takes a
page that was free, maps it at its address, whether there was a page or
not, and copies to it what the file has for it. So the last load at an
address decides what user mode reads there (`lastLoad`), and where the file
has nothing for it, that is what the page held when it was free
(`LoadsAll.spec`).
-/
import VortexOS.Proc.ElfReadOnly

namespace VortexOS.Proc

open Lib Mm

variable {s s' : Kmem} {root x as v w : Nat} {e : BitVec 64} {S : Set Nat} {a : AHeap}
  {fl : Nat → List Nat} {held : Set Block} {elf : Image} {phdr : Phdr} {ok : Bool}
  {l : Phdr × Nat} {ls : List (Phdr × Nat)}

/-! ## The bytes of user mode -/

def userByte (s : Kmem) (root x : Nat) : Option (BitVec 8) :=
  (leafAt s.mem root (upperIdx x) (getPtIdx x)).bind fun e =>
    if isUser e then some (readByte s.mem (frameOf e * pageSize + x % pageSize)) else none

lemma userByte_of_leaf (h : leafAt s.mem root (upperIdx x) (getPtIdx x) = some e)
    (he : isUser e = true) :
    userByte s root x = some (readByte s.mem (frameOf e * pageSize + x % pageSize)) := by
  rw [userByte, h, Option.bind_some, if_pos he]

lemma userByte_congr (h : UserSpace S s a fl held as root) (hleaf : leafAt s'.mem root (upperIdx x)
      (getPtIdx x) = leafAt s.mem root (upperIdx x) (getPtIdx x))
    (hmem : ∀ w, Plain s a root (w / 512) → s'.mem w = s.mem w) :
    userByte s' root x = userByte s root x := by
  unfold userByte
  rw [hleaf]
  cases he : leafAt s.mem root (upperIdx x) (getPtIdx x) with
  | none => rfl
  | some e =>
    rw [Option.bind_some, Option.bind_some]
    by_cases huser : isUser e = true
    · have hplain := h.pages _ _ (lastSlot_of_virt x) e he huser
      rw [if_pos huser, if_pos huser, readByte_page fun w hw => hmem w (hw ▸ hplain)]
    · rw [if_neg huser, if_neg huser]

/-- Whatever free pages hold, user mode reads the same. -/
lemma userSpace_setFree (h : UserSpace S s a fl held as root) {m : WordMem}
    (hm : AgreesOffFree s m) : UserSpace S { s with mem := m } a fl held as root ∧
    ∀ x, userByte { s with mem := m } root x = userByte s root x := by
  have hst : StoresTo {w | w / 512 ∈ s.pmm.freePages} s { s with mem := m } := ⟨rfl, rfl, hm⟩
  obtain ⟨h', hmaps, hl⟩ := h.storeFree hst
  exact ⟨h.same h' hmaps hl, fun x => userByte_congr h (hl _ _ (lastSlot_of_virt x))
    fun w hw => hm w hw.notFree⟩

/-! ## One page -/

section

variable {g : Nat} {a' : AHeap}
  {fl' : Nat → List Nat} {held' : Set Block}

section

variable (h : FrameLoaded elf phdr v root g S s a s' a')
include h

lemma FrameLoaded.keepsPlain (hw : Plain s a root (w / 512)) : s'.mem w = s.mem w :=
  h.others w (fun heq => hw.notFree (heq ▸ h.free)) (hw.maps h.maps).notTable

lemma FrameLoaded.keepsFree (h' : AllTables S s' a' fl' held' as root)
    (hw : w / 512 ∈ s'.pmm.freePages) : s'.mem w = s.mem w :=
  h.others w (fun heq => h.plain.notFree (heq ▸ hw)) fun p hp ht => (h'.page p hp _ ht).2.1 hw

lemma FrameLoaded.userByte_self (h' : AllTables S s' a' fl' held' as root)
    (hset : SetLeaf root s.mem s'.mem v (leafEntry (pfnToPhys g) phdr.flags))
    (hx : pathOf v = pathOf x) : leafAt s'.mem root (upperIdx x) (getPtIdx x) =
      some (leafEntry (pfnToPhys g) phdr.flags) ∧ userByte s' root x =
      some (phdr.byteAt elf (v + x % pageSize) (readByte s.mem (g * pageSize + x % pageSize))) := by
  obtain ⟨hupper, hpt⟩ := pathOf_eq_iff.mp hx
  have hleaf := hset.self
  rw [hupper, hpt] at hleaf
  refine ⟨hleaf, ?_⟩
  rw [userByte_of_leaf hleaf (isUser_leafEntry _ (flags_user phdr)),
    frameOf_leafEntry (h'.small g h.page) (flags_address phdr),
      h.bytes _ (Nat.mod_lt _ (by decide))]

end

lemma LoadsPage.spec (h : AllTables S s a fl held as root) (hend : v + pageSize < 2 ^ 64)
    (hl : LoadsPage elf as phdr v s s') : ¬ phdr.Wild v ∧ ∃ g a' fl' held',
      AllTables S s' a' fl' held' as root ∧ FrameLoaded elf phdr v root g S s a s' a' ∧
    SetLeaf root s.mem s'.mem v (leafEntry (pfnToPhys g) phdr.flags) := by
  have hcall := hl.loadPage
  rcases loadPage_spec elf h phdr hend with
    ⟨-, heq⟩ | ⟨-, heq⟩ | ⟨g, s1, a1, fl1, held1, htame, heq, h1, hframe, hres⟩
  · cases heq.symm.trans hcall
  · cases heq.symm.trans hcall
  · cases heq.symm.trans hcall
    rcases hres with ⟨hnot, -⟩ | ⟨-, hset⟩
    · exact absurd hl hnot
    · exact ⟨htame, g, a1, fl1, held1, h1, hframe, hset⟩

lemma loadPage_others (h : UserSpace S s a fl held as root) (hend : v + pageSize < 2 ^ 64)
    (hcall : loadPage elf as phdr v s = some (ok, s')) :
    ∃ a' fl' held', UserSpace S s' a' fl' held' as root ∧ ∀ x, pathOf v ≠ pathOf x →
    userByte s' root x = userByte s root x := by
  rcases loadPage_spec elf h.toAllTables phdr hend with
    ⟨-, heq⟩ | ⟨-, heq⟩ | ⟨g, s1, a1, fl1, held1, -, heq, h1, hframe, hres⟩
  · cases heq.symm.trans hcall
    exact ⟨a, fl, held, h, fun _ _ => rfl⟩
  · cases heq.symm.trans hcall
  · cases heq.symm.trans hcall
    rcases hres with ⟨-, -, hsame⟩ | ⟨-, hset⟩
    · exact ⟨a1, fl1, held1, h.same h1 hframe.maps hsame, fun x _ =>
        userByte_congr h (hsame _ _ (lastSlot_of_virt x)) fun w hw => hframe.keepsPlain hw⟩
    · have hg := frameOf_leafEntry (h.small g hframe.page) (flags_address phdr)
      exact ⟨a1, fl1, held1, h.set h1 hframe.maps hset (hg.symm ▸ hframe.plain), fun x hx =>
        userByte_congr h (hset.leaf_of_ne hx) fun w hw => hframe.keepsPlain hw⟩

end

/-! ## The loads of a file -/

def Phdr.loads (phdr : Phdr) : List (Phdr × Nat) :=
  if phdr.pType = ptLoad then phdr.pages.map fun v => (phdr, v) else []

/-- The loads of the first `k` program headers. -/
def Image.loadsTo (elf : Image) (k : Nat) : List (Phdr × Nat) :=
  (List.range k).flatMap fun i => (elf.phdr i).loads

def Image.loads (elf : Image) : List (Phdr × Nat) := elf.loadsTo elf.ePhnum

def loadAll (elf : Image) (as : Nat) : List (Phdr × Nat) → Kmem → Option (Bool × Kmem)
  | [], s => some (true, s)
  | l :: ls, s =>
    match loadPage elf as l.1 l.2 s with
    | some (true, s) => loadAll elf as ls s
    | r => r

/-- Every page is found and mapped. -/
def LoadsAll (elf : Image) (as : Nat) : List (Phdr × Nat) → Kmem → Kmem → Prop
  | [], s, s' => s' = s
  | l :: ls, s, s' => ∃ s1, LoadsPage elf as l.1 l.2 s s1 ∧ LoadsAll elf as ls s1 s'

/-- The last of the loads that are on the page of `x`. -/
def lastLoad : List (Phdr × Nat) → Nat → Option (Phdr × Nat)
  | [], _ => none
  | l :: ls, x => (lastLoad ls x).or (if pathOf l.2 = pathOf x then some l else none)

lemma mem_loads (hl : l ∈ phdr.loads) : phdr.pType = ptLoad ∧ l.1 = phdr ∧ l.2 ∈ phdr.pages := by
  unfold Phdr.loads at hl
  split at hl
  · rename_i htype
    obtain ⟨v, hv, rfl⟩ := List.mem_map.mp hl
    exact ⟨htype, rfl, hv⟩
  · cases hl

lemma loads_end : ∀ l ∈ phdr.loads, l.2 + pageSize < 2 ^ 64 :=
  fun _ hl => pages_end (mem_loads hl).2.2

lemma loadsTo_end {k : Nat} : ∀ l ∈ elf.loadsTo k, l.2 + pageSize < 2 ^ 64 := by
  intro l hl
  obtain ⟨i, -, hi⟩ := List.mem_flatMap.mp hl
  exact loads_end l hi

lemma imageLoads_end : ∀ l ∈ elf.loads, l.2 + pageSize < 2 ^ 64 := loadsTo_end

lemma loadsTo_succ (elf : Image) (k : Nat) :
    elf.loadsTo (k + 1) = elf.loadsTo k ++ (elf.phdr k).loads := by
  rw [Image.loadsTo, List.range_succ, List.flatMap_append, List.flatMap_singleton]
  rfl

lemma length_loads (phdr : Phdr) : 4 * phdr.loads.length = phdr.room := by
  unfold Phdr.loads Phdr.room
  split <;> simp

lemma length_imageLoads (elf : Image) : 4 * elf.loads.length = elf.room := by
  have hlen : ∀ k, 4 * (elf.loadsTo k).length = ((List.range k).map
      fun i => (elf.phdr i).room).sum := by
    intro k
    induction k with
    | zero => rfl
    | succ k ih =>
      rw [loadsTo_succ, List.length_append, Nat.mul_add, ih, length_loads, List.range_succ,
        List.map_append, List.sum_append]
      simp
  exact hlen elf.ePhnum

section

variable {elf : Image} {as : Nat} {s s' : Kmem}

lemma loadAll_append (xs ys : List (Phdr × Nat)) (s : Kmem) : loadAll elf as (xs ++ ys) s =
    match loadAll elf as xs s with
      | some (true, s) => loadAll elf as ys s
      | r => r := by
  induction xs generalizing s with
  | nil => rfl
  | cons l xs ih =>
    rw [List.cons_append, loadAll, loadAll]
    rcases loadPage elf as l.1 l.2 s with _ | ⟨_ | _, s1⟩
    · rfl
    · rfl
    · exact ih s1

lemma forSlots_loadPage (phdr : Phdr) (vs : List Nat) (s : Kmem) :
    forSlots (loadPage elf as phdr) vs s = loadAll elf as (vs.map fun v => (phdr, v)) s := by
  induction vs generalizing s with
  | nil => rfl
  | cons v vs ih =>
    rw [forSlots, List.map_cons, loadAll]
    rcases loadPage elf as phdr v s with _ | ⟨_ | _, s1⟩
    · rfl
    · rfl
    · exact ih s1

lemma loadSegment_eq (phdr : Phdr) (s : Kmem) :
    loadSegment elf as phdr s = loadAll elf as phdr.loads s := by
  unfold loadSegment Phdr.loads
  by_cases htype : phdr.pType = ptLoad
  · rw [if_neg (not_not.mpr htype), if_pos htype, forSlots_loadPage]
  · rw [if_pos htype, if_neg htype]
    rfl

lemma forSlots_loadSegment (is : List Nat) (s : Kmem) :
    forSlots (fun i => loadSegment elf as (elf.phdr i)) is s =
      loadAll elf as (is.flatMap fun i => (elf.phdr i).loads) s := by
  induction is generalizing s with
  | nil => rfl
  | cons i is ih =>
    rw [forSlots, List.flatMap_cons, loadAll_append, loadSegment_eq]
    rcases loadAll elf as (elf.phdr i).loads s with _ | ⟨_ | _, s1⟩
    · rfl
    · rfl
    · exact ih s1

def Image.HeaderOk (elf : Image) : Prop :=
  [elf 0, elf 1, elf 2, elf 3] = elfMagic ∧ elf.eMachine = 0x3E

lemma elfLoad_eq (helf : elf.HeaderOk) (s : Kmem) : elfLoad elf as s =
      (loadAll elf as elf.loads s).map fun (ok, s) => (if ok then elf.eEntry else 0, s) := by
  rw [elfLoad, if_neg (not_not.mpr helf.1), if_neg (not_not.mpr helf.2), forSlots_loadSegment]
  rfl

lemma LoadsAll.loadAll (h : LoadsAll elf as ls s s') : loadAll elf as ls s = some (true, s') := by
  induction ls generalizing s with
  | nil =>
    obtain rfl : s' = s := h
    rfl
  | cons l ls ih =>
    obtain ⟨s1, hone, hrest⟩ := h
    rw [Proc.loadAll, hone.loadPage]
    exact ih hrest

lemma LoadsAll.of_append {xs ys : List (Phdr × Nat)} (h : LoadsAll elf as (xs ++ ys) s s') :
    ∃ s1, LoadsAll elf as xs s s1 ∧ LoadsAll elf as ys s1 s' := by
  induction xs generalizing s with
  | nil => exact ⟨s, rfl, h⟩
  | cons l xs ih =>
    obtain ⟨s1, hone, hrest⟩ := h
    obtain ⟨s2, hxs, hys⟩ := ih hrest
    exact ⟨s2, ⟨s1, hone, hxs⟩, hys⟩

end

/-! ## The last load at an address -/

lemma lastLoad_some (h : lastLoad ls x = some l) : l ∈ ls ∧ pathOf l.2 = pathOf x := by
  induction ls with
  | nil => cases h
  | cons l' ls ih =>
    rcases Option.or_eq_some_iff.mp h with hrest | ⟨-, hone⟩
    · obtain ⟨hin, hpath⟩ := ih hrest
      exact ⟨List.mem_cons_of_mem _ hin, hpath⟩
    · rw [Option.ite_none_right_eq_some] at hone
      obtain ⟨hpath, heq⟩ := hone
      cases heq
      exact ⟨List.mem_cons_self, hpath⟩

lemma lastLoad_eq_none : lastLoad ls x = none ↔ ∀ l ∈ ls, pathOf l.2 ≠ pathOf x := by
  induction ls with
  | nil => simp [lastLoad]
  | cons l ls ih => rw [lastLoad, Option.or_eq_none_iff, ih]; simp [and_comm]

/-! ## Runs -/

section

variable {elf : Image} {S : Set Nat} {s s' : Kmem} {a : AHeap} {fl : Nat → List Nat}
  {held : Set Block} {as root : Nat} {ls : List (Phdr × Nat)}

/-- What user mode has at `x` after the loads `ls`. -/
def LoadedAt (elf : Image) (ls : List (Phdr × Nat)) (root : Nat) (s s' : Kmem) (x : Nat) : Prop :=
  match lastLoad ls x with
  | none => leafAt s'.mem root (upperIdx x) (getPtIdx x) =
    leafAt s.mem root (upperIdx x) (getPtIdx x)
  | some (phdr, v) => ∃ g ∈ s.pmm.freePages,
      leafAt s'.mem root (upperIdx x) (getPtIdx x) = some (leafEntry (pfnToPhys g) phdr.flags) ∧
      userByte s' root x = some (phdr.byteAt elf (v + x % pageSize)
        (readByte s.mem (g * pageSize + x % pageSize)))

lemma LoadedAt.same (h : LoadedAt elf ls root s s' x) (hlast : lastLoad ls x = none) :
    leafAt s'.mem root (upperIdx x) (getPtIdx x) = leafAt s.mem root (upperIdx x) (getPtIdx x) := by
  rw [LoadedAt, hlast] at h
  exact h

lemma LoadedAt.byte (h : LoadedAt elf ls root s s' x) (hlast : lastLoad ls x = some (phdr, v)) :
    ∃ g ∈ s.pmm.freePages, leafAt s'.mem root (upperIdx x) (getPtIdx x) =
      some (leafEntry (pfnToPhys g) phdr.flags) ∧ userByte s' root x =
      some (phdr.byteAt elf (v + x % pageSize) (readByte s.mem (g * pageSize + x % pageSize))) := by
  rw [LoadedAt, hlast] at h
  exact h

lemma LoadsAll.spec (h : AllTables S s a fl held as root) (hend : ∀ l ∈ ls, l.2 + pageSize < 2 ^ 64)
    (hrun : LoadsAll elf as ls s s') : (∀ l ∈ ls, ¬ l.1.Wild l.2) ∧
    (∀ x, LoadedAt elf ls root s s' x) ∧ ∀ w, Plain s a root (w / 512) → s'.mem w = s.mem w := by
  induction ls generalizing s a fl held with
  | nil =>
    obtain rfl : s' = s := hrun
    exact ⟨by simp, fun _ => rfl, fun _ _ => rfl⟩
  | cons l ls ih =>
    obtain ⟨s1, hone, hrest⟩ := hrun
    obtain ⟨htame, g, a1, fl1, held1, h1, hframe, hset⟩ := hone.spec h (hend l (by simp))
    obtain ⟨htame', hloaded, hplain⟩ := ih h1 (fun l hl => hend l (by simp [hl])) hrest
    refine ⟨?_, fun x => ?_, fun w hw => ?_⟩
    · intro l' hl'
      rcases List.mem_cons.mp hl' with rfl | hin
      · exact htame
      · exact htame' l' hin
    · unfold LoadedAt
      rw [lastLoad]
      cases hlast : lastLoad ls x with
      | some l' =>
        -- a later load has mapped the page again
        simp only [Option.some_or]
        obtain ⟨g', hg', hleaf, hbyte⟩ := (hloaded x).byte hlast
        have hold : readByte s1.mem (g' * pageSize + x % pageSize) =
            readByte s.mem (g' * pageSize + x % pageSize) :=
          readByte_page (fun w hw => hframe.keepsFree h1 (hw ▸ hg')) x
        exact ⟨g', hframe.maps.free hg', hleaf, hold ▸ hbyte⟩
      | none =>
        have hx := (hloaded x).same hlast
        simp only [Option.none_or]
        by_cases hpath : pathOf l.2 = pathOf x
        · obtain ⟨hleaf, hbyte⟩ := hframe.userByte_self h1 hset hpath
          rw [if_pos hpath]
          refine ⟨g, hframe.free, hx.trans hleaf, ?_⟩
          -- and the page is not touched again
          have huser := isUser_leafEntry (pfnToPhys g) (flags_user l.1)
          have hg := frameOf_leafEntry (h1.small g hframe.page) (flags_address l.1)
          rw [← hbyte, userByte_of_leaf (hx.trans hleaf) huser, userByte_of_leaf hleaf huser, hg,
            readByte_page fun w hw => hplain w (hw ▸ hframe.plain)]
        · rw [if_neg hpath]
          exact hx.trans (hset.leaf_of_ne hpath)
    · rw [hplain w (hw.maps hframe.maps), hframe.keepsPlain hw]

lemma loadAll_others (h : UserSpace S s a fl held as root)
    (hend : ∀ l ∈ ls, l.2 + pageSize < 2 ^ 64) (hcall : loadAll elf as ls s = some (ok, s')) :
    ∃ a' fl' held', UserSpace S s' a' fl' held' as root ∧ ∀ x, (∀ l ∈ ls, pathOf l.2 ≠ pathOf x) →
    userByte s' root x = userByte s root x := by
  induction ls generalizing s a fl held with
  | nil =>
    cases hcall
    exact ⟨a, fl, held, h, fun _ _ => rfl⟩
  | cons l ls ih =>
    unfold loadAll at hcall
    split at hcall
    · rename_i s1 hone
      obtain ⟨a1, fl1, held1, h1, hsame⟩ := loadPage_others h (hend l (by simp)) hone
      obtain ⟨a', fl', held', h', hsame'⟩ := ih h1 (fun l hl => hend l (by simp [hl])) hcall
      refine ⟨a', fl', held', h', fun x hx => ?_⟩
      rw [hsame' x fun l hl => hx l (by simp [hl]), hsame x (hx l (by simp))]
    · obtain ⟨a', fl', held', h', hsame⟩ := loadPage_others h (hend l (by simp)) hcall
      exact ⟨a', fl', held', h', fun x hx => hsame x (hx l (by simp))⟩

/-- With enough pages a load does not return, or finds and maps every
page. -/
lemma loadAll_cases (elf : Image) (h : AllTables S s a fl held as root)
    (hend : ∀ l ∈ ls, l.2 + pageSize < 2 ^ 64) (hroom : 4 * ls.length ≤ s.pmm.kFreePages) :
    (∃ s', LoadsAll elf as ls s s') ∨ (∃ l ∈ ls, l.1.Wild l.2) ∧ loadAll elf as ls s = none := by
  induction ls generalizing s a fl held with
  | nil => exact Or.inl ⟨s, rfl⟩
  | cons l ls ih =>
    rw [List.length_cons] at hroom
    rcases loadPage_spec elf h l.1 (hend l (by simp)) with
      ⟨hzero, -⟩ | ⟨hwild, hcall⟩ | ⟨g, s1, a1, fl1, held1, -, hcall, h1, hframe, hres⟩
    · omega
    · exact Or.inr ⟨⟨l, by simp, hwild⟩, by rw [loadAll, hcall]⟩
    · rcases hres with ⟨-, hlt, -⟩ | ⟨hone, -⟩
      · omega
      · have hpages := hframe.maps.pages
        rcases ih h1 (fun l hl => hend l (by simp [hl])) (by omega) with
          ⟨s', hrest⟩ | ⟨⟨l', hl', hwild⟩, hcall'⟩
        · exact Or.inl ⟨s', s1, hone, hrest⟩
        · exact Or.inr ⟨⟨l', List.mem_cons_of_mem _ hl',
            hwild⟩, by rw [loadAll, hcall]; exact hcall'⟩

end

/-! ## The pages of a segment -/

lemma mem_pages (hx : phdr.pVaddr ≤ x) (hend : x < phdr.endAddr) :
    pageAlignDown x ∈ phdr.pages := by
  refine List.mem_map.mpr ⟨x / pageSize - phdr.pVaddr / pageSize, ?_, ?_⟩
  · rw [Phdr.endAddr, pageAlignUp] at hend
    rw [List.mem_range, Phdr.endAddr, pageAlignUp]
    generalize add64 (add64 phdr.pVaddr phdr.pMemsz) (pageSize - 1) = y at hend ⊢
    simp only [Phdr.start, pageAlignDown, pageSize] at hend ⊢
    omega
  · simp only [Phdr.start, pageAlignDown, pageSize]
    omega

lemma page_le_endAddr (hv : v ∈ phdr.pages) : v + pageSize ≤ phdr.endAddr := by
  obtain ⟨i, hi, rfl⟩ := List.mem_map.mp hv
  rw [List.mem_range] at hi
  rw [Phdr.endAddr, pageAlignUp] at hi ⊢
  generalize add64 (add64 phdr.pVaddr phdr.pMemsz) (pageSize - 1) = y at hi ⊢
  simp only [Phdr.start, pageAlignDown, pageSize] at hi ⊢
  omega

section

variable (hlow : phdr.pVaddr + phdr.pMemsz < 2 ^ 47)
include hlow

lemma pages_low (hv : v ∈ phdr.pages) : v % pageSize = 0 ∧ v < 2 ^ 47 := by
  obtain ⟨i, hi, rfl⟩ := List.mem_map.mp hv
  rw [List.mem_range, Phdr.endAddr, pageAlignUp] at hi
  simp only [Phdr.start, pageAlignDown, add64, pageSize] at hi ⊢
  omega

/-- In the lower half a page that has the path of `x` is the page of `x`. -/
lemma page_eq_alignDown (hv : v ∈ phdr.pages) (hx : x < 2 ^ 47) (hpath : pathOf v = pathOf x) :
    v = pageAlignDown x := by
  obtain ⟨halign, hv47⟩ := pages_low hlow hv
  have hv' : v = v / pageSize * pageSize := by
    simp only [pageSize] at *
    omega
  rw [pathOf_eq_iff, hv'] at hpath
  rw [hv', (leaf_page hx (page_lt hv47)).mp hpath, pageAlignDown_eq]

end

lemma exists_userSpace : ∃ s fl held root,
      UserSpace execBoot.freePages s elfSpace.2 fl held elfSpace.1 root ∧ 8 ≤ s.pmm.kFreePages := by
  obtain ⟨s, fl, held, root, h, hblank⟩ := exists_elfSpace
  refine ⟨s, fl, held, root, (userSpace_of_blank h hblank).1, ?_⟩
  rw [h.rep.pmm]
  decide

/-- Loading a segment from `s`, `vmm_map_page` writes entry `e`, in the round
for the page at `v`. -/
def Installs (elf : Image) (as root : Nat) (phdr : Phdr) (s : Kmem) (e : BitVec 64) : Prop :=
  phdr.pType = ptLoad ∧ ∃ pre v post s1 p s2 s3, phdr.pages = pre ++ v :: post ∧
    forSlots (loadPage elf as phdr) pre s = some (true, s1) ∧ s1.allocPage = some (p, s2) ∧ p ≠ 0 ∧
    vmmMapPage as v p phdr.flags s2 = some (true, s3) ∧
    leafAt s3.mem root (upperIdx v) (getPtIdx v) = some e

lemma noExec_leafEntry (phys : Nat) (flags : BitVec 32) :
    (leafEntry phys flags).getLsbD 63 = false := by
  rw [leafEntry, BitVec.getLsbD_or, BitVec.getLsbD_or, BitVec.getLsbD_and, BitVec.getLsbD_setWidth,
    getLsbD_pagePresent, show addrMask.getLsbD 63 = false by decide,
    BitVec.getLsbD_of_ge flags 63 (by decide)]
  simp

section

variable {s0 s1 s2 s3 : Kmem}
  {p : Nat}

lemma leafAt_of_mapped_page (h : AllTables S s1 a fl held as root)
    (halloc : s1.allocPage = some (p, s2)) (hp : p ≠ 0) {flags : BitVec 32}
    (hmap : vmmMapPage as v p flags s2 = some (true, s3)) :
    leafAt s3.mem root (upperIdx v) (getPtIdx v) = some (leafEntry p flags) := by
  rcases h.takePage with ⟨hnull, -⟩ | ⟨g, t, a2, fl2, held2, hgot, -, h2, -⟩
  · cases hnull.symm.trans halloc
    exact absurd rfl hp
  · cases hgot.symm.trans halloc
    obtain ⟨ok, t, a3, fl3, held3, hcall, -, -, -, hres⟩ := h2.mapPage v (pfnToPhys g) flags
    rw [vmmMapPage, h2.pml4, hcall] at hmap
    cases hmap
    rcases hres with ⟨hfalse, -⟩ | ⟨-, hset⟩
    · cases hfalse
    · exact hset.self

lemma Installs.noExec (h : UserSpace S s a fl held as root) (he : Installs elf as root phdr s e) :
    e.getLsbD 63 = false := by
  obtain ⟨-, pre, v, post, s1, p, s2, s3, hpages, hpre, halloc, hp, hmap, hleaf⟩ := he
  have hend : ∀ l ∈ pre.map fun v => (phdr, v), l.2 + pageSize < 2 ^ 64 := by
    intro l hl
    obtain ⟨w, hw, rfl⟩ := List.mem_map.mp hl
    have hin : w ∈ phdr.pages := by
      rw [hpages]
      exact List.mem_append_left _ hw
    exact pages_end hin
  rw [forSlots_loadPage] at hpre
  obtain ⟨a1, fl1, held1, h1, -⟩ := loadAll_others h hend hpre
  rw [leafAt_of_mapped_page h1.toAllTables halloc hp hmap] at hleaf
  rw [← Option.some.inj hleaf]
  exact noExec_leafEntry _ _

lemma exists_installs (elf : Image) (h : AllTables S s a fl held as root)
    (htype : phdr.pType = ptLoad) (hpages : phdr.pages ≠ []) (hroom : 4 ≤ s.pmm.kFreePages) :
    ∃ e, Installs elf as root phdr s e := by
  obtain ⟨v, post, hv⟩ := List.exists_cons_of_ne_nil hpages
  rcases h.takePage with ⟨-, hzero⟩ | ⟨g, s2, a2, fl2, held2, halloc, hphys, h2, hm2, -⟩
  · omega
  · obtain ⟨ok, s3, -, -, -, hcall, -, -, -, hres⟩ := h2.mapPage v (pfnToPhys g) phdr.flags
    have hleft := hm2.pages
    rcases hres with ⟨-, -, hlt, -⟩ | ⟨rfl, hset⟩
    · omega
    · refine ⟨_, htype, [], v, post, s, _, s2, s3, hv, rfl, halloc, hphys, ?_, hset.self⟩
      rw [vmmMapPage, h2.pml4]
      exact hcall

/-- Processing segment `i`, from the state that the segments before it
leave: the entries it installs have PAGE_NX if and only if PF_X is not set,
if PF_X is set or there is no page. If there is memory for one page, they do
so only then. -/
theorem noExec_iff (h : UserSpace S s0 a fl held as root) {i : Nat}
    (htype : (elf.phdr i).pType = ptLoad)
    (hrun : forSlots (fun i => loadSegment elf as (elf.phdr i)) (List.range i) s0 = some (true,
      s)) :
    ((elf.phdr i).pFlags &&& pfX ≠ 0 ∨ (elf.phdr i).pages = [] →
      ∀ e, Installs elf as root (elf.phdr i) s e →
      (e.getLsbD 63 = true ↔ (elf.phdr i).pFlags &&& pfX = 0)) ∧
    (4 ≤ s.pmm.kFreePages → ((∀ e, Installs elf as root (elf.phdr i) s e →
        (e.getLsbD 63 = true ↔ (elf.phdr i).pFlags &&& pfX = 0)) ↔
      ((elf.phdr i).pFlags &&& pfX ≠ 0 ∨ (elf.phdr i).pages = []))) := by
  rw [forSlots_loadSegment] at hrun
  obtain ⟨a1, fl1, held1, h1, -⟩ := loadAll_others h loadsTo_end hrun
  have hgood : (elf.phdr i).pFlags &&& pfX ≠ 0 ∨ (elf.phdr i).pages = [] → ∀ e,
      Installs elf as root (elf.phdr i) s e →
        (e.getLsbD 63 = true ↔ (elf.phdr i).pFlags &&& pfX = 0) := by
    intro hcond e he
    rcases hcond with hexec | hnone
    · rw [he.noExec h1]
      exact iff_of_false Bool.false_ne_true hexec
    · obtain ⟨-, pre, v, post, -, -, -, -, hpages, -⟩ := he
      rw [hnone] at hpages
      simp at hpages
  refine ⟨hgood, fun hroom => ⟨fun hall => ?_, hgood⟩⟩
  by_cases hpages : (elf.phdr i).pages = []
  · exact Or.inr hpages
  · obtain ⟨e, he⟩ := exists_installs elf h1.toAllTables htype hpages hroom
    refine Or.inl fun hzero => ?_
    have hset := (hall e he).mpr hzero
    rw [he.noExec h1] at hset
    cases hset

end

theorem noExec_program : ∃ s a fl held as root, UserSpace execBoot.freePages s a fl held as root ∧
    (∃ e, Installs programImage as root (programImage.phdr 0) s e) ∧
    ∀ e, Installs programImage as root (programImage.phdr 0) s e →
      (e.getLsbD 63 = true ↔ (programImage.phdr 0).pFlags &&& pfX = 0) := by
  obtain ⟨s, fl, held, root, h, hfree⟩ := exists_userSpace
  have hphdr := programImage_oneSegment.phdr
  have hpages : (filePhdr 0x400000).pages ≠ [] := by decide
  have htype : (programImage.phdr 0).pType = ptLoad := by rw [hphdr]; rfl
  refine ⟨s, _, fl, held, _, root, h, ?_, (noExec_iff h htype rfl).1 (Or.inl ?_)⟩
  · exact exists_installs _ h.toAllTables htype (by rw [hphdr]; exact hpages) (by omega)
  · rw [hphdr]
    decide

/-- The program with a segment that has PF_R and PF_W alone. -/
def dataImage : Image := fun i => if i = 68 then 6 else programImage i

lemma dataImage_header : dataImage.phdr 0 = ⟨ptLoad, 6, 0, 0x400000, 120, 120⟩ := by decide

/-- Its page can be executed. -/
theorem data_executable :
    ∃ s a fl held as root e, UserSpace execBoot.freePages s a fl held as root ∧
    dataImage.phdr 0 = ⟨ptLoad, 6, 0, 0x400000, 120, 120⟩ ∧ (dataImage.phdr 0).pFlags &&& pfX = 0 ∧
    Installs dataImage as root (dataImage.phdr 0) s e ∧ e.getLsbD 63 = false := by
  obtain ⟨s, fl, held, root, h, hfree⟩ := exists_userSpace
  have hpages : Phdr.pages ⟨ptLoad, 6, 0, 0x400000, 120, 120⟩ ≠ [] := by decide
  have he : ∃ e, Installs dataImage elfSpace.1 root (dataImage.phdr 0) s e := by
    rw [dataImage_header]
    exact exists_installs dataImage h.toAllTables rfl hpages (Nat.le_trans (by decide) hfree)
  obtain ⟨e, he⟩ := he
  exact ⟨s, _, fl, held, _, root, e, h,
    dataImage_header, by rw [dataImage_header]; decide, he, he.noExec h⟩

end VortexOS.Proc
