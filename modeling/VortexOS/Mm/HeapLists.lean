/-
VortexOS.Mm.HeapLists — the slab lists inside memory.

The links between slabs are words of the slab headers. `ListsRep` says
that memory and the list heads encode given doubly linked lists of slab
pages; `removeSlab` and `addSlab` then are the `unlink` and `push` of
`VortexOS.Lib.DList` on what is encoded (`ListsRep.remove`,
`ListsRep.add`). Both change nothing but link words (`LinksOnly`).
-/
import VortexOS.Mm.Heap
import VortexOS.Mm.PmmLists

namespace VortexOS.Mm

open Function Lib

variable {f w : Nat} {o : Option Nat} {s s' : Kmem} {P : Set Nat} {L : Links Nat}

/-! ## Addresses of slab pages -/

/-- The direct-map address of page `f`: a `Slab*`, or a pointer to a table. -/
def pagePtr (hhdm f : Nat) : Nat := f * pageSize + hhdm

def pagePtr? (hhdm : Nat) : Option Nat → Nat
  | none => 0
  | some f => pagePtr hhdm f

@[simp] lemma pagePtr?_none (hhdm : Nat) : pagePtr? hhdm none = 0 := rfl

@[simp] lemma pagePtr?_some (hhdm f : Nat) : pagePtr? hhdm (some f) = pagePtr hhdm f := rfl

/-- The direct map of page `f` is in the address space and not at 0. -/
structure PageOk (hhdm f : Nat) : Prop where
  pos : 0 < f
  space : f * pageSize + pageSize + hhdm ≤ 2 ^ 64

section

variable {hhdm : Nat}

section

variable (h : PageOk hhdm f)
include h

lemma PageOk.ptr_lt {o : Nat} (ho : o < pageSize) : pagePtr hhdm f + o < 2 ^ 64 := by
  have := h.space
  simp only [pagePtr, pageSize] at *
  omega

lemma PageOk.ptr_ne_zero : pagePtr hhdm f ≠ 0 := by
  have := h.pos
  simp only [pagePtr, pageSize]
  omega

lemma PageOk.phys_ne_zero : pfnToPhys f ≠ 0 := by
  have := h.pos
  rw [pfnToPhys, pageShift, Nat.shiftLeft_eq]
  omega

lemma PageOk.sub64_ptr {o : Nat} (ho : o < pageSize) :
    sub64 (pagePtr hhdm f + o) hhdm = f * pageSize + o := by
  have := h.space
  simp only [pagePtr, sub64, pageSize] at *
  omega

lemma PageOk.add64_phys : add64 (pfnToPhys f) hhdm = pagePtr hhdm f := by
  have := h.space
  rw [pfnToPhys, pageShift, Nat.shiftLeft_eq, add64_of_lt]
  · rfl
  · simp only [pageSize] at *
    omega

end

lemma Kmem.wordAt_ptr (hs : s.hhdm = hhdm) (h : PageOk hhdm f) {o : Nat} (ho : o < pageSize) :
    s.wordAt (pagePtr hhdm f + o) = f * 512 + o / 8 := by
  rw [wordAt, hs, h.sub64_ptr ho]
  simp only [pageSize]
  omega

lemma Kmem.wordAt_slab (hs : s.hhdm = hhdm) (h : PageOk hhdm f) :
    s.wordAt (pagePtr hhdm f) = f * 512 := by
  have hw := Kmem.wordAt_ptr hs h (o := 0) (by decide)
  simpa using hw

lemma toNat_ofNat_ptr (h : PageOk hhdm f) :
    (BitVec.ofNat 64 (pagePtr hhdm f)).toNat = pagePtr hhdm f := by
  have hlt := h.ptr_lt (o := 0) (by decide)
  rw [Nat.add_zero] at hlt
  rw [BitVec.toNat_ofNat, Nat.mod_eq_of_lt hlt]

lemma toNat_ofNat_ptr? (h : ∀ f, o = some f → PageOk hhdm f) :
    (BitVec.ofNat 64 (pagePtr? hhdm o)).toNat = pagePtr? hhdm o := by
  cases o with
  | none => rfl
  | some f => exact toNat_ofNat_ptr (h f rfl)

lemma pagePtr?_eq_zero (h : ∀ f, o = some f → PageOk hhdm f) : pagePtr? hhdm o = 0 ↔ o = none := by
  cases o with
  | none => simp [pagePtr?]
  | some f => simpa [pagePtr?] using (h f rfl).ptr_ne_zero

lemma pagePtr_inj {g : Nat} : pagePtr hhdm f = pagePtr hhdm g ↔ f = g := by
  simp only [pagePtr, pageSize]
  omega

end

/-! ## Stores to links -/

/-- Only link words of the pages in `P` and list heads differ. -/
structure LinksOnly (P : Set Nat) (s s' : Kmem) : Prop where
  pmm : s'.pmm = s.pmm
  mem : ∀ w, (∀ f ∈ P, w ≠ f * 512 + 2 ∧ w ≠ f * 512 + 3) → s'.mem w = s.mem w

lemma LinksOnly.refl (P : Set Nat) (s : Kmem) : LinksOnly P s s := ⟨rfl, fun _ _ => rfl⟩

lemma LinksOnly.trans {s'' : Kmem} (h : LinksOnly P s s') (h' : LinksOnly P s' s'') :
    LinksOnly P s s'' :=
  ⟨h'.pmm.trans h.pmm, fun w hw => (h'.mem w hw).trans (h.mem w hw)⟩

lemma LinksOnly.headers (h : LinksOnly P s s') (hw : w / 512 ∈ P → 5 ≤ w % 512) :
    s'.mem w = s.mem w := by
  refine h.mem w fun f hf => ?_
  have h5 : w / 512 = f → 5 ≤ w % 512 := fun heq => hw (heq ▸ hf)
  omega

/-- The link words of the pages in `P` hold the links `L`. -/
structure LinksRep (s : Kmem) (L : Links Nat) (P : Set Nat) : Prop where
  ok : ∀ f ∈ P, PageOk s.hhdm f
  next : ∀ f ∈ P, s.mem (f * 512 + 2) = BitVec.ofNat 64 (pagePtr? s.hhdm (L.next f))
  prev : ∀ f ∈ P, s.mem (f * 512 + 3) = BitVec.ofNat 64 (pagePtr? s.hhdm (L.prev f))
  nextMem : ∀ f ∈ P, ∀ g, L.next f = some g → g ∈ P
  prevMem : ∀ f ∈ P, ∀ g, L.prev f = some g → g ∈ P

namespace LinksRep

section

variable (h : LinksRep s L P)
include h

lemma slabNext_eq (hf : f ∈ P) : s.slabNext (pagePtr s.hhdm f) = pagePtr? s.hhdm (L.next f) := by
  rw [Kmem.slabNext, Kmem.load, Kmem.wordAt_ptr rfl (h.ok f hf) (by decide), h.next f hf]
  exact toNat_ofNat_ptr? fun g hg => h.ok g (h.nextMem f hf g hg)

lemma slabPrev_eq (hf : f ∈ P) : s.slabPrev (pagePtr s.hhdm f) = pagePtr? s.hhdm (L.prev f) := by
  rw [Kmem.slabPrev, Kmem.load, Kmem.wordAt_ptr rfl (h.ok f hf) (by decide), h.prev f hf]
  exact toNat_ofNat_ptr? fun g hg => h.ok g (h.prevMem f hf g hg)

lemma setNext (hf : f ∈ P) (ho : ∀ g, o = some g → g ∈ P) :
    LinksRep (s.setNext (pagePtr s.hhdm f) (pagePtr? s.hhdm o)) (L.setNext f o) P ∧
    LinksOnly P s (s.setNext (pagePtr s.hhdm f) (pagePtr? s.hhdm o)) := by
  have hw : s.wordAt (pagePtr s.hhdm f + 16) = f * 512 + 2 :=
    Kmem.wordAt_ptr rfl (h.ok f hf) (by decide)
  refine ⟨⟨h.ok, fun g hg => ?_, fun g hg => ?_, fun g hg k hk => ?_, h.prevMem⟩, rfl,
    fun w hne => ?_⟩
  · show update s.mem _ _ _ = _
    rw [hw, Links.setNext_next, update_apply]
    by_cases hgf : g = f
    · rw [if_pos (by omega), if_pos hgf]
      rfl
    · rw [if_neg (by omega), if_neg hgf]
      exact h.next g hg
  · show update s.mem _ _ _ = _
    rw [hw, update_of_ne (by omega)]
    exact h.prev g hg
  · rw [Links.setNext_next] at hk
    split at hk
    · exact ho k hk
    · exact h.nextMem g hg k hk
  · show update s.mem _ _ _ = _
    rw [hw, update_of_ne (hne f hf).1]

lemma setPrev (hf : f ∈ P) (ho : ∀ g, o = some g → g ∈ P) :
    LinksRep (s.setPrev (pagePtr s.hhdm f) (pagePtr? s.hhdm o)) (L.setPrev f o) P ∧
    LinksOnly P s (s.setPrev (pagePtr s.hhdm f) (pagePtr? s.hhdm o)) := by
  have hw : s.wordAt (pagePtr s.hhdm f + 24) = f * 512 + 3 :=
    Kmem.wordAt_ptr rfl (h.ok f hf) (by decide)
  refine ⟨⟨h.ok, fun g hg => ?_, fun g hg => ?_, h.nextMem, fun g hg k hk => ?_⟩, rfl,
    fun w hne => ?_⟩
  · show update s.mem _ _ _ = _
    rw [hw, update_of_ne (by omega)]
    exact h.next g hg
  · show update s.mem _ _ _ = _
    rw [hw, Links.setPrev_prev, update_apply]
    by_cases hgf : g = f
    · rw [if_pos (by omega), if_pos hgf]
      rfl
    · rw [if_neg (by omega), if_neg hgf]
      exact h.prev g hg
  · rw [Links.setPrev_prev] at hk
    split at hk
    · exact ho k hk
    · exact h.prevMem g hg k hk
  · show update s.mem _ _ _ = _
    rw [hw, update_of_ne (hne f hf).2]

lemma setPrev? {v : Option Nat} (ho : ∀ g, o = some g → g ∈ P) (hv : ∀ g, v = some g → g ∈ P)
    (hs' : s' = if pagePtr? s.hhdm o ≠ 0 then
      s.setPrev (pagePtr? s.hhdm o) (pagePtr? s.hhdm v) else s) :
    LinksRep s' (L.setPrev? o v) P ∧ LinksOnly P s s' ∧ s'.kCaches = s.kCaches := by
  cases o with
  | none =>
    rw [pagePtr?_none, if_neg (by simp)] at hs'
    subst hs'
    exact ⟨h, .refl P _, rfl⟩
  | some g =>
    rw [pagePtr?_some, if_pos (h.ok g (ho g rfl)).ptr_ne_zero] at hs'
    subst hs'
    obtain ⟨hrep, honly⟩ := h.setPrev (ho g rfl) hv
    exact ⟨hrep, honly, rfl⟩

end

end LinksRep

/-! ## Lists -/

def setList (ls : Nat → SlabList → List Nat) (i : Nat) (l : SlabList) (v : List Nat) :
    Nat → SlabList → List Nat :=
  update ls i (update (ls i) l v)

lemma setList_apply (ls : Nat → SlabList → List Nat) (i j : Nat) (l k : SlabList) (v : List Nat) :
    setList ls i l v j k = if j = i ∧ k = l then v else ls j k := by
  unfold setList
  by_cases hj : j = i
  · subst hj
    simp [update_apply]
  · simp [hj]

lemma Kmem.setHead_apply (s : Kmem) (i j : Nat) (l k : SlabList) (v : Nat) :
    (s.setHead i l v).kCaches j k = if j = i ∧ k = l then v else s.kCaches j k := by
  unfold Kmem.setHead
  by_cases hj : j = i
  · subst hj
    simp [update_apply]
  · simp [hj]

/-- Memory and the list heads encode the lists `ls` of slab pages. A page
of `P` need not be on a list: between a removal and an insertion it is on
none. -/
structure ListsRep (s : Kmem) (L : Links Nat) (P : Set Nat) (ls : Nat → SlabList → List Nat) : Prop
    extends LinksRep s L P where
  dlist : ∀ i l, L.DList (ls i l).head? (ls i l)
  mem : ∀ i l f, f ∈ ls i l → f ∈ P
  apart : ∀ f i j l k, f ∈ ls i l → f ∈ ls j k → i = j ∧ l = k
  heads : ∀ i l, s.kCaches i l = pagePtr? s.hhdm (ls i l).head?

namespace ListsRep

variable {ls : Nat → SlabList → List Nat} {i : Nat}
  {l : SlabList}

lemma disjoint (h : ListsRep s L P ls) {j : Nat} {k : SlabList} (hne : ¬ (j = i ∧ k = l)) :
    ∀ y ∈ ls i l, y ∉ ls j k := by
  intro y hy hy'
  obtain ⟨rfl, rfl⟩ := h.apart y j i k l hy' hy
  exact hne ⟨rfl, rfl⟩

lemma remove_next (h : ListsRep s L P ls) (hf : f ∈ P)
    (hs' : s' = if s.slabPrev (pagePtr s.hhdm f) ≠ 0 then s.setNext (s.slabPrev (pagePtr s.hhdm f))
      (s.slabNext (pagePtr s.hhdm f)) else s.setHead i l (s.slabNext (pagePtr s.hhdm f))) :
    LinksRep s' (L.setNext? (L.prev f) (L.next f)) P ∧ LinksOnly P s s' ∧ ∀ j k, s'.kCaches j k =
      if j = i ∧ k = l ∧ L.prev f = none then pagePtr? s.hhdm (L.next f) else s.kCaches j k := by
  rw [h.slabPrev_eq hf, h.slabNext_eq hf] at hs'
  cases hp : L.prev f with
  | none =>
    rw [hp] at hs'
    subst hs'
    refine ⟨⟨h.ok, h.next, h.prev, h.nextMem, h.prevMem⟩, ⟨rfl, fun _ _ => rfl⟩, fun j k => ?_⟩
    simp [pagePtr?, Kmem.setHead_apply]
  | some g =>
    have hg : g ∈ P := h.prevMem f hf g hp
    rw [hp, pagePtr?_some, if_pos (h.ok g hg).ptr_ne_zero] at hs'
    subst hs'
    obtain ⟨hrep, honly⟩ := h.toLinksRep.setNext hg (h.nextMem f hf)
    refine ⟨hrep, honly, fun j k => ?_⟩
    simp only [reduceCtorEq, and_false, if_false]
    rfl

lemma remove (h : ListsRep s L P ls) (hf : f ∈ ls i l) : ListsRep
      (removeSlab l i (pagePtr s.hhdm f) s) (L.unlink f) P (setList ls i l ((ls i l).erase f)) ∧
    LinksOnly P s (removeSlab l i (pagePtr s.hhdm f) s) := by
  have hfP : f ∈ P := h.mem i l f hf
  unfold removeSlab
  generalize hs1 : (if s.slabPrev (pagePtr s.hhdm f) ≠ 0 then _ else _ : Kmem) = s1
  obtain ⟨hrep1, honly1, hheads1⟩ := h.remove_next hfP hs1.symm
  have hh1 : s1.hhdm = s.hhdm := congrArg Pmm.kHhdmOffset honly1.pmm
  -- the second half reads the links of `f` again; they are unchanged
  have hn : (L.setNext? (L.prev f) (L.next f)).next f = L.next f := by
    simp [(h.dlist i l).prev_ne_self hf]
  have hp : (L.setNext? (L.prev f) (L.next f)).prev f = L.prev f := by simp
  have hnext := hrep1.slabNext_eq hfP
  have hprev := hrep1.slabPrev_eq hfP
  rw [hn, hh1] at hnext
  rw [hp, hh1] at hprev
  simp only [hnext, hprev]
  generalize hs2 : (if pagePtr? s.hhdm (L.next f) ≠ 0 then _ else _ : Kmem) = s2
  rw [← hh1] at hs2
  obtain ⟨hrep2, honly2, hheads2⟩ := hrep1.setPrev? (h.nextMem f hfP) (h.prevMem f hfP) hs2.symm
  have hh2 : s2.hhdm = s.hhdm := (congrArg Pmm.kHhdmOffset honly2.pmm).trans hh1
  have hd := (h.dlist i l).unlink hf
  refine ⟨⟨hrep2, fun j k => ?_, fun j k g hg => ?_, fun g j j' k k' hg hg' => ?_, fun j k => ?_⟩,
    honly1.trans honly2⟩
  · rw [setList_apply]
    split
    next heq => rwa [← hd.head]
    next hne => exact (h.dlist i l).unlink_frame hf (h.dlist j k) (h.disjoint hne)
  · rw [setList_apply] at hg
    split at hg
    · exact h.mem i l g (List.mem_of_mem_erase hg)
    · exact h.mem j k g hg
  · have hsub : ∀ j k, g ∈ setList ls i l ((ls i l).erase f) j k → g ∈ ls j k := by
      intro j k hg
      rw [setList_apply] at hg
      split at hg
      next heq => exact heq.1 ▸ heq.2 ▸ List.mem_of_mem_erase hg
      next => exact hg
    exact h.apart g j j' k k' (hsub j k hg) (hsub j' k' hg')
  · rw [hh2, hheads2, hheads1, setList_apply]
    by_cases heq : j = i ∧ k = l
    · rw [if_pos heq, ← hd.head, Links.unlinkHead]
      cases hpf : L.prev f with
      | none => simp [heq]
      | some g => simpa [heq] using h.heads i l
    · rw [if_neg heq, if_neg (fun hc => heq ⟨hc.1, hc.2.1⟩)]
      exact h.heads j k

/-- `addSlab` stores `prev` of the new node last; the order makes no
difference to what is encoded. -/
lemma push_eq (hne : o ≠ some f) :
    ((L.setNext f o).setPrev? o (some f)).setPrev f none = L.push o f := by
  refine Links.ext (by simp [Links.push]) (funext fun g => ?_)
  by_cases hg : g = f
  · subst hg
    simp [Links.push, hne]
  · simp [Links.push, hg]

lemma add (h : ListsRep s L P ls) (hf : f ∈ P) (hnew : ∀ j k, f ∉ ls j k) :
    ListsRep (addSlab l i (pagePtr s.hhdm f) s) (L.push (ls i l).head? f) P
      (setList ls i l (f :: ls i l)) ∧ LinksOnly P s (addSlab l i (pagePtr s.hhdm f) s) := by
  have hhead : ∀ g, (ls i l).head? = some g → g ∈ P := fun g hg =>
    h.mem i l g (List.mem_of_mem_head? hg)
  have hne : (ls i l).head? ≠ some f := fun hc => hnew i l (List.mem_of_mem_head? hc)
  unfold addSlab
  rw [h.heads i l]
  obtain ⟨hrep1, honly1⟩ := h.toLinksRep.setNext hf hhead
  generalize hs1 : s.setNext (pagePtr s.hhdm f) (pagePtr? s.hhdm (ls i l).head?) =
    s1 at hrep1 honly1
  have hh1 : s1.hhdm = s.hhdm := congrArg Pmm.kHhdmOffset honly1.pmm
  have hc1 : s1.kCaches = s.kCaches := by rw [← hs1]; rfl
  have hhead1 : s1.kCaches i l = pagePtr? s.hhdm (ls i l).head? := by rw [hc1, h.heads i l]
  simp only [hhead1]
  generalize hs2 : (if pagePtr? s.hhdm (ls i l).head? ≠ 0 then _ else _ : Kmem) = s2
  rw [← hh1] at hs2
  obtain ⟨hrep2, honly2, hc2⟩ := hrep1.setPrev? (v := some f) hhead
    (fun g hg => Option.some.inj hg ▸ hf) hs2.symm
  have hh2 : s2.hhdm = s.hhdm := (congrArg Pmm.kHhdmOffset honly2.pmm).trans hh1
  have hrep3 : LinksRep (s2.setHead i l (pagePtr s.hhdm f)) _ P :=
    ⟨hrep2.ok, hrep2.next, hrep2.prev, hrep2.nextMem, hrep2.prevMem⟩
  obtain ⟨hrep4, honly4⟩ := hrep3.setPrev (o := none) hf (by simp)
  rw [push_eq hne] at hrep4
  rw [show (s2.setHead i l (pagePtr s.hhdm f)).hhdm = s.hhdm from hh2,
    pagePtr?_none] at hrep4 honly4
  have hd := (h.dlist i l).push (hnew i l)
  refine ⟨⟨hrep4, fun j k => ?_, fun j k g hg => ?_, fun g j j' k k' hg hg' => ?_, fun j k => ?_⟩,
    honly1.trans (honly2.trans ⟨honly4.pmm, honly4.mem⟩)⟩
  · rw [setList_apply]
    split
    next heq => exact hd
    next hne' => exact (h.dlist i l).push_frame (h.dlist j k) (hnew j k) (h.disjoint hne')
  · rw [setList_apply] at hg
    split at hg
    next =>
      cases List.mem_cons.mp hg with
      | inl heq => exact heq ▸ hf
      | inr hold => exact h.mem i l g hold
    next => exact h.mem j k g hg
  · have hold : ∀ j k, g ∈ setList ls i l (f :: ls i l) j k →
        (g = f ∧ j = i ∧ k = l) ∨ g ∈ ls j k := by
      intro j k hg
      rw [setList_apply] at hg
      split at hg
      next heq =>
        obtain ⟨rfl, rfl⟩ := heq
        exact (List.mem_cons.mp hg).imp (fun e => ⟨e, rfl, rfl⟩) fun e => e
      next => exact Or.inr hg
    cases hold j k hg with
    | inl h1 =>
      cases hold j' k' hg' with
      | inl h2 => exact ⟨h1.2.1.trans h2.2.1.symm, h1.2.2.trans h2.2.2.symm⟩
      | inr h2 => exact absurd (h1.1 ▸ h2) (hnew j' k')
    | inr h1 =>
      cases hold j' k' hg' with
      | inl h2 => exact absurd (h2.1 ▸ h1) (hnew j k)
      | inr h2 => exact h.apart g j j' k k' h1 h2
  · show (s2.setHead i l (pagePtr s.hhdm f)).kCaches j k = pagePtr? s2.hhdm _
    rw [Kmem.setHead_apply, setList_apply, hh2, hc2, hc1]
    split
    · rfl
    · exact h.heads j k

lemma popEmpty_eq (h : ListsRep s L P ls) (hhead : (ls i .empty).head? = some f) :
    popEmpty i (pagePtr s.hhdm f) s = removeSlab .empty i (pagePtr s.hhdm f) s := by
  have hfP : f ∈ P := h.mem i .empty f (List.mem_of_mem_head? hhead)
  have hp : L.prev f = none := by
    have hseg := (h.dlist i .empty).seg
    cases hl : ls i .empty with
    | nil => simp [hl] at hhead
    | cons g gs =>
      rw [hl] at hseg hhead
      obtain ⟨_, hprev, _⟩ := hseg
      rw [← Option.some.inj hhead]
      exact hprev
  have hzero : s.slabPrev (pagePtr s.hhdm f) = 0 := by rw [h.slabPrev_eq hfP, hp]; rfl
  have hkeep : ∀ v, (s.setHead i .empty v).slabPrev (pagePtr s.hhdm f) = 0 := fun v => hzero
  have hnext : ∀ v, (s.setHead i .empty v).slabNext (pagePtr s.hhdm f) =
      s.slabNext (pagePtr s.hhdm f) := fun v => rfl
  simp only [popEmpty, removeSlab, hzero, ne_eq, not_true_eq_false, if_false, hkeep, hnext,
    Kmem.setHead_apply, and_self, if_true]

end ListsRep

end VortexOS.Mm
