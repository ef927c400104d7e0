/-
VortexOS.Mm.VmmClone — what `copy_page_table_level` does.

A copy reads the tables `T` and `L` of the source (`L` those of the last
level), takes pages from the allocator and fills them. The pages are
labelled with the path they are the copy of: the copy is a tree because
labels are a function.

`Copied m m' lbl n p a d i` is the result for slot `i` of table `d`, the
copy of table `a` at path `p`, `n` levels above the pages. In an empty slot
the new page keeps the word it had, whatever that is.

The number of pages a copy takes depends on the source alone
(`tableCount`).
-/
import VortexOS.Mm.VmmTheorems

namespace VortexOS.Mm

open Function Lib

variable {m m' m'' m0 : WordMem} {T L : Set Nat} {n t i d f a j g c c' : Nat} {p is : List Nat}
  {user : Prop} {b : Bool} {s1 : Kmem}

/-! ## Pages a copy takes -/

/-- `n` calls of `pmm_alloc_page`, up to the first that returns null. -/
def allocTimes : Nat → Pmm → Option (Bool × Pmm)
  | 0, s => some (true, s)
  | n + 1, s =>
    match pmmAllocPage s with
    | none => none
    | some (phys, s) => if phys = 0 then some (false, s) else allocTimes n s

lemma allocTimes_add (j k : Nat) (s : Pmm) : allocTimes (j + k) s = match allocTimes j s with
      | some (true, s') => allocTimes k s'
      | r => r := by
  induction j generalizing s with
  | zero => simp [allocTimes]
  | succ j ih =>
    rw [Nat.succ_add, allocTimes, allocTimes]
    cases pmmAllocPage s with
    | none => rfl
    | some r =>
      obtain ⟨phys, s'⟩ := r
      by_cases h0 : phys = 0
      · simp [h0]
      · simp only [if_neg h0]
        exact ih s'

def slotCount (m : WordMem) : Nat → Nat → Nat → Nat
  | 0, _, _ => 0
  | n + 1, t, i =>
    if present (entryAt m t i) ∧ i < 256 then
      1 + ((List.range 512).map (slotCount m n (frameOf (entryAt m t i)))).sum
    else 0

def tableCount (m : WordMem) (n t : Nat) : Nat := ((List.range 512).map (slotCount m n t)).sum

/-! ## The source -/

/-- The tables below `t` that a copy reads: those of the last level are in
`L`, the others in `T`. -/
def Below (m : WordMem) (T L : Set Nat) : Nat → Nat → Prop
  | 0, t => t ∈ L
  | n + 1, t => t ∈ T ∧ ∀ i < 256, ∀ u, nextFrame (entryAt m t i) = some u → Below m T L n u

lemma Below.mem (h : Below m T L n t) : t ∈ T ∪ L := by
  cases n with
  | zero => exact Or.inr h
  | succ n => exact Or.inl h.1

lemma Below.next (h : Below m T L (n + 1) t) (hi : i < 256) (hp : present (entryAt m t i) = true) :
    Below m T L n (frameOf (entryAt m t i)) :=
  h.2 i hi _ (nextFrame_eq_some.mpr ⟨hp, rfl⟩)

lemma Below.congr (hsame : ∀ t ∈ T, ∀ i < 512, entryAt m' t i = entryAt m t i) :
    ∀ {n t : Nat}, Below m T L n t → Below m' T L n t := by
  intro n
  induction n with
  | zero =>
    intro t h
    exact h
  | succ n ih =>
    intro t h
    refine ⟨h.1, fun i hi u hu => ih (h.2 i hi u ?_)⟩
    rwa [hsame t h.1 i (by omega)] at hu

lemma slotCount_congr (hsame : ∀ t ∈ T, ∀ i < 512, entryAt m' t i = entryAt m t i) :
    ∀ {n t i : Nat}, Below m T L n t → i < 512 → slotCount m' n t i = slotCount m n t i := by
  intro n
  induction n with
  | zero =>
    intro t i _ _
    rfl
  | succ n ih =>
    intro t i h hi
    unfold slotCount
    rw [hsame t h.1 i hi]
    by_cases hcond : present (entryAt m t i) = true ∧ i < 256
    · rw [if_pos hcond, if_pos hcond]
      have hlist : (List.range 512).map (slotCount m' n (frameOf (entryAt m t i))) =
          (List.range 512).map (slotCount m n (frameOf (entryAt m t i))) :=
        List.map_congr_left fun j hj => ih (h.next hcond.2 hcond.1) (List.mem_range.mp hj)
      rw [hlist]
    · rw [if_neg hcond, if_neg hcond]

/-! ## Write protection -/

/-- Word `w` is unchanged, except that an entry in the lower half of a
table of the last level may have been write-protected. -/
def Protected (L : Set Nat) (m m' : WordMem) (w : Nat) : Prop :=
  m' w = m w ∨ (w / 512 ∈ L ∧ w % 512 < 256 ∧ m' w = m w &&& ~~~pageWrite)

namespace Protected

variable {w : Nat}

lemma refl (L : Set Nat) (m : WordMem) (w : Nat) : Protected L m m w := Or.inl rfl

section

variable (h : Protected L m m' w)
include h

lemma trans (h' : Protected L m' m'' w) : Protected L m m'' w := by
  cases h with
  | inl heq =>
    cases h' with
    | inl heq' => exact Or.inl (heq'.trans heq)
    | inr hp' => exact Or.inr ⟨hp'.1, hp'.2.1, by rw [hp'.2.2, heq]⟩
  | inr hp =>
    refine Or.inr ⟨hp.1, hp.2.1, ?_⟩
    cases h' with
    | inl heq' => rw [heq', hp.2.2]
    | inr hp' => rw [hp'.2.2, hp.2.2, protect_protect]

lemma eq_of_notMem (hw : w / 512 ∉ L) : m' w = m w :=
  h.resolve_right fun hp => hw hp.1

lemma nextFrame_eq : nextFrame (m' w) = nextFrame (m w) := by
  cases h with
  | inl heq => rw [heq]
  | inr hp => rw [hp.2.2, nextFrame_protect]

lemma present_eq : present (m' w) = present (m w) := by
  cases h with
  | inl heq => rw [heq]
  | inr hp => rw [hp.2.2, present_protect]

lemma protect_eq : m' w &&& ~~~pageWrite = m w &&& ~~~pageWrite := by
  cases h with
  | inl heq => rw [heq]
  | inr hp => rw [hp.2.2, protect_protect]

lemma eq_of_upper (hw : 256 ≤ w % 512) : m' w = m w :=
  h.resolve_right fun hp => by omega

end

end Protected

/-! ## The copy of a slot -/

/-- The paths whose copies the pages are. -/
abbrev Labels := Nat → Option (List Nat)

lemma ne_of_longer {lbl : Labels} {r : List Nat} (hd : lbl d = some p) (hf : lbl f = some r)
    (hlen : p.length < r.length) : f ≠ d := by
  rintro rfl
  rw [hd] at hf
  rw [Option.some.inj hf] at hlen
  omega

/-- Slot `i` of `d`, the copy of `a`: an empty slot keeps its word, the
upper half is shared, and `user` holds of the lower half. -/
def SlotCopied (user : Prop) (m m' : WordMem) (a d i : Nat) : Prop :=
  if present (entryAt m a i) then
    if 256 ≤ i then entryAt m' d i = entryAt m a i else user
  else entryAt m' d i = entryAt m d i

def Copied (m m' : WordMem) (lbl : Labels) : Nat → List Nat → Nat → Nat → Nat → Prop
  | 0, _, a, d, i =>
    SlotCopied (entryAt m' d i = entryAt m a i &&& ~~~pageWrite ∧
      entryAt m' a i = entryAt m a i &&& ~~~pageWrite) m m' a d i
  | n + 1, p, a, d, i =>
    SlotCopied (∃ g, lbl g = some (p ++ [i]) ∧ entryAt m' d i = copiedEntry g (entryAt m a i) ∧
      ∀ j < 512, Copied m m' lbl n (p ++ [i]) (frameOf (entryAt m a i)) g j) m m' a d i

lemma copied_succ (m m' : WordMem) (lbl : Labels) (n : Nat) (p : List Nat) (a d i : Nat) :
    Copied m m' lbl (n + 1) p a d i =
      SlotCopied (∃ g, lbl g = some (p ++ [i]) ∧ entryAt m' d i = copiedEntry g (entryAt m a i) ∧
      ∀ j < 512, Copied m m' lbl n (p ++ [i]) (frameOf (entryAt m a i)) g j) m m' a d i := rfl

lemma SlotCopied.mono {user' : Prop} (h : SlotCopied user m m' a d i)
    (hu : present (entryAt m a i) = true → i < 256 → user → user') :
    SlotCopied user' m m' a d i := by
  unfold SlotCopied at *
  split
  · rename_i hp
    rw [if_pos hp] at h
    split
    · rename_i h256
      rwa [if_pos h256] at h
    · rename_i h256
      rw [if_neg h256] at h
      exact hu hp (Nat.not_le.mp h256) h
  · rename_i hp
    rwa [if_neg hp] at h

lemma SlotCopied.congr (h : SlotCopied user m m' a d i) (ha : entryAt m0 a i = entryAt m a i)
    (hd : entryAt m0 d i = entryAt m d i) (hd' : entryAt m'' d i = entryAt m' d i) :
    SlotCopied user m0 m'' a d i := by
  unfold SlotCopied at *
  rw [ha, hd, hd']
  exact h

section

variable {lbl lbl' : Labels}

/-- A copy made from memory `m` is a copy made from an earlier memory
`m0`, if meanwhile the source was at most write-protected and the pages of
the copy were left alone. -/
lemma Copied.left (hTL : Disjoint T L)
    (hsrc : ∀ t ∈ T ∪ L, ∀ j < 512, Protected L m0 m (t * 512 + j)) :
    ∀ {n : Nat} {p : List Nat} {a d i : Nat}, Copied m m' lbl n p a d i → Below m0 T L n a →
    i < 512 →
      entryAt m d i = entryAt m0 d i →
      (∀ g q, lbl g = some (p ++ i :: q) → ∀ j < 512, entryAt m g j = entryAt m0 g j) →
      Copied m0 m' lbl n p a d i := by
  intro n
  induction n with
  | zero =>
    intro p a d i h ha hi hd _
    have hprot : Protected L m0 m (a * 512 + i) := hsrc a ha.mem i hi
    simp only [Copied, SlotCopied] at *
    rw [show present (entryAt m a i) = present (entryAt m0 a i) from hprot.present_eq] at h
    split
    · rename_i hp
      rw [if_pos hp] at h
      split
      · rename_i h256
        rw [if_pos h256] at h
        exact h.trans (hprot.eq_of_upper (by omega))
      · rename_i h256
        rw [if_neg h256] at h
        exact ⟨h.1.trans hprot.protect_eq, h.2.trans hprot.protect_eq⟩
    · rename_i hp
      rw [if_neg hp] at h
      exact h.trans hd
  | succ n ih =>
    intro p a d i h ha hi hd hlbl
    have haL : a ∉ L := Set.disjoint_left.mp hTL ha.1
    have hpage : (a * 512 + i) / 512 = a := by omega
    have heq : entryAt m a i = entryAt m0 a i :=
      (hsrc a ha.mem i hi).eq_of_notMem (by rw [hpage]; exact haL)
    simp only [Copied] at *
    rw [heq] at h
    refine (h.congr heq.symm hd.symm rfl).mono fun hp h256 hu => ?_
    obtain ⟨g, hg, hentry, hsub⟩ := hu
    refine ⟨g, hg, hentry, fun j hj => ih (hsub j hj) (ha.next h256 hp) hj (hlbl g [] hg j hj) ?_⟩
    intro g' q hg' k hk
    exact hlbl g' (j :: q) (by simpa using hg') k hk

lemma Copied.right (hext : ∀ f p, lbl f = some p → lbl' f = some p)
    (hsrc : ∀ t ∈ L, ∀ j < 512, Protected L m' m'' (t * 512 + j)) :
    ∀ {n : Nat} {p : List Nat} {a d i : Nat}, Copied m m' lbl n p a d i → Below m T L n a →
    i < 512 →
      entryAt m'' d i = entryAt m' d i →
      (∀ g q, lbl g = some (p ++ i :: q) → ∀ j < 512, entryAt m'' g j = entryAt m' g j) →
      Copied m m'' lbl' n p a d i := by
  intro n
  induction n with
  | zero =>
    intro p a d i h ha hi hd _
    have hprot : Protected L m' m'' (a * 512 + i) := hsrc a ha i hi
    simp only [Copied] at *
    refine (h.congr rfl rfl hd).mono fun _ _ hu => ⟨hd.trans hu.1, ?_⟩
    have heq : entryAt m' a i = entryAt m a i &&& ~~~pageWrite := hu.2
    cases hprot with
    | inl hsame => exact (show entryAt m'' a i = entryAt m' a i from hsame).trans heq
    | inr hp =>
      rw [show entryAt m'' a i = entryAt m' a i &&& ~~~pageWrite from hp.2.2, heq, protect_protect]
  | succ n ih =>
    intro p a d i h ha hi hd hlbl
    simp only [Copied] at *
    refine (h.congr rfl rfl hd).mono fun hp h256 hu => ?_
    obtain ⟨g, hg, hentry, hsub⟩ := hu
    refine ⟨g, hext g _ hg, hd.trans hentry,
      fun j hj => ih (hsub j hj) (ha.next h256 hp) hj (hlbl g [] hg j hj) ?_⟩
    intro g' q hg' k hk
    exact hlbl g' (j :: q) (by simpa using hg') k hk

end

/-! ## The state of a copy -/

/-- The blocks in use when the labelled pages have been taken. -/
def heldWith (held : Set Block) (lbl : Labels) : Set Block :=
  held ∪ {b | b.order = 0 ∧ lbl b.base ≠ none}

/-- What does not change during a copy: the page allocator manages `S`,
`held` were in use before, and the source is in use. -/
structure CopyCtx (S : Set Nat) (hhdm : Nat) (held : Set Block) (T L : Set Nat) : Prop where
  ok : ∀ f ∈ S, PageOk hhdm f
  small : ∀ f ∈ S, f < 2 ^ 40
  source : ∀ t ∈ T ∪ L, (⟨0, t⟩ : Block) ∈ held ∧ t ∈ S
  apart : Disjoint T L

structure Copying (S : Set Nat) (hhdm : Nat) (held : Set Block) (s : Kmem) (lbl : Labels) :
    Prop where
  pmm : ∃ fl, PmmInv S s.pmm fl (heldWith held lbl)
  offset : s.hhdm = hhdm
  fresh : ∀ f, lbl f ≠ none → (⟨0, f⟩ : Block) ∉ held

/-- What a part of a copy that fills table `d` does to the rest. -/
structure CopyStep (L : Set Nat) (d : Nat) (s : Kmem) (lbl : Labels) (s' : Kmem) (lbl' : Labels) :
    Prop where
  kCaches : s'.kCaches = s.kCaches
  keeps : Pmm.Keeps s.pmm s'.pmm
  ext : ∀ f p, lbl f = some p → lbl' f = some p
  mem : ∀ w, (lbl (w / 512) ≠ none ∨ lbl' (w / 512) = none) → w / 512 ≠ d →
    Protected L s.mem s'.mem w

lemma CopyStep.refl (L : Set Nat) (d : Nat) (s : Kmem) (lbl : Labels) : CopyStep L d s lbl s lbl :=
  ⟨rfl, .refl _, fun _ _ hp => hp, fun _ _ _ => .refl _ _ _⟩

lemma CopyStep.trans {s s' s'' : Kmem} {lbl lbl' lbl'' : Labels} (h : CopyStep L d s lbl s' lbl')
    (h' : CopyStep L d s' lbl' s'' lbl'') : CopyStep L d s lbl s'' lbl'' := by
  refine ⟨h'.kCaches.trans h.kCaches, h.keeps.trans h'.keeps,
    fun f p hp => h'.ext f p (h.ext f p hp), fun w hw hd => ?_⟩
  cases hl : lbl (w / 512) with
  | some p =>
    have hl' := h.ext _ _ hl
    exact (h.mem w (Or.inl (by simp [hl])) hd).trans (h'.mem w (Or.inl (by simp [hl'])) hd)
  | none =>
    have hnone : lbl'' (w / 512) = none := hw.resolve_left (by simp [hl])
    have hnone' : lbl' (w / 512) = none := by
      cases hl' : lbl' (w / 512) with
      | none => rfl
      | some p => simp [h'.ext _ _ hl'] at hnone
    exact (h.mem w (Or.inr hnone') hd).trans (h'.mem w (Or.inr hnone) hd)

section

variable {S : Set Nat} {hhdm : Nat} {held : Set Block} {T L : Set Nat} {s s' : Kmem}
  {lbl lbl' : Labels} {a d i : Nat} {p : List Nat}

lemma Copying.mem_pages (h : Copying S hhdm held s lbl) (hf : lbl f ≠ none) : f ∈ S := by
  obtain ⟨fl, hpmm⟩ := h.pmm
  exact hpmm.mem_pages (b := ⟨0, f⟩) (Or.inr ⟨rfl, hf⟩)

lemma Copying.source_unlabelled (h : Copying S hhdm held s lbl) (hctx : CopyCtx S hhdm held T L)
    (ht : t ∈ T ∪ L) : lbl t = none := by
  by_contra hl
  exact h.fresh t hl (hctx.source t ht).1

lemma Copying.source_ne (h : Copying S hhdm held s lbl) (hctx : CopyCtx S hhdm held T L)
    (ht : t ∈ T ∪ L) (hd : lbl d = some p) : t ≠ d := by
  intro heq
  rw [← heq, h.source_unlabelled hctx ht] at hd
  cases hd

section

variable (hst : CopyStep L d s lbl s' lbl')
include hst

lemma CopyStep.source (h : Copying S hhdm held s lbl) (h' : Copying S hhdm held s' lbl')
    (hctx : CopyCtx S hhdm held T L) (hd : lbl d = some p) (ht : t ∈ T ∪ L) (hj : j < 512) :
    Protected L s.mem s'.mem (t * 512 + j) := by
  have hpage : (t * 512 + j) / 512 = t := by omega
  refine hst.mem _ (Or.inr ?_) ?_
  · rw [hpage]
    exact h'.source_unlabelled hctx ht
  · rw [hpage]
    exact h.source_ne hctx ht hd

lemma CopyStep.source_eq (h : Copying S hhdm held s lbl) (h' : Copying S hhdm held s' lbl')
    (hctx : CopyCtx S hhdm held T L) (hd : lbl d = some p) :
    ∀ t ∈ T, ∀ j < 512, entryAt s'.mem t j = entryAt s.mem t j := by
  intro t ht j hj
  have hpage : (t * 512 + j) / 512 = t := by omega
  refine (hst.source h h' hctx hd (Or.inl ht) hj).eq_of_notMem ?_
  rw [hpage]
  exact Set.disjoint_left.mp hctx.apart ht

lemma CopyStep.labelled (h : Copying S hhdm held s lbl) (hctx : CopyCtx S hhdm held T L)
    (hg : lbl g ≠ none) (hgd : g ≠ d) (hj : j < 512) : entryAt s'.mem g j = entryAt s.mem g j := by
  have hpage : (g * 512 + j) / 512 = g := by omega
  refine (hst.mem _ (Or.inl (by rw [hpage]; exact hg)) (by rw [hpage]; exact hgd)).eq_of_notMem ?_
  rw [hpage]
  exact fun hL => h.fresh g hg (hctx.source g (Or.inr hL)).1

lemma CopyStep.unlabelled (hd : lbl d = some p) (hg : lbl' g = none) (hL : g ∉ L) (hj : j < 512) :
    entryAt s'.mem g j = entryAt s.mem g j := by
  have hpage : (g * 512 + j) / 512 = g := by omega
  have hgd : g ≠ d := by
    intro heq
    rw [heq, hst.ext d p hd] at hg
    cases hg
  refine (hst.mem _ (Or.inr (by rw [hpage]; exact hg)) (by rw [hpage]; exact hgd)).eq_of_notMem ?_
  rw [hpage]
  exact hL

end

lemma CopyStep.setEntry (h : Copying S hhdm held s lbl) (hctx : CopyCtx S hhdm held T L)
    (hd : lbl d = some p) (hi : i < 512) (e : BitVec 64) (hm : m = update s.mem (d * 512 + i) e) :
    s.setEntry (pagePtr hhdm d) i e = { s with mem := m } ∧
    Copying S hhdm held { s with mem := m } lbl ∧ CopyStep L d s lbl { s with mem := m } lbl := by
  subst hm
  have hok := hctx.ok d (h.mem_pages (by simp [hd]))
  refine ⟨Kmem.setEntry_page h.offset hok hi e, ⟨h.pmm, h.offset, h.fresh⟩, ⟨rfl, .refl _,
    fun _ _ hp => hp, fun w _ hw => Or.inl ?_⟩⟩
  exact update_of_ne (by omega) _ _

lemma Copying.allocPage (h : Copying S hhdm held s lbl) (hctx : CopyCtx S hhdm held T L)
    (q : List Nat) : (s.allocPage = some (0, s) ∧ pmmAllocPage s.pmm = some (0, s.pmm)) ∨
    ∃ g pmm, s.allocPage = some (pfnToPhys g, { s with pmm := pmm }) ∧
    pmmAllocPage s.pmm = some (pfnToPhys g, pmm) ∧ pfnToPhys g ≠ 0 ∧ lbl g = none ∧
    Copying S hhdm held { s with pmm := pmm } (update lbl g (some q)) ∧ Pmm.Keeps s.pmm pmm := by
  obtain ⟨fl, hpmm⟩ := h.pmm
  unfold Kmem.allocPage
  cases pmmAllocPage_spec hpmm with
  | inl hnull =>
    rw [hnull]
    exact Or.inl ⟨rfl, rfl⟩
  | inr hgot =>
    obtain ⟨g, pmm, fl', halloc, hinv, hk, hfresh⟩ := hgot
    have hgS : g ∈ S := hinv.mem_pages (b := ⟨0, g⟩) (Or.inl rfl)
    have hphys : pfnToPhys g ≠ 0 := (hctx.ok g hgS).phys_ne_zero
    have hnone : lbl g = none := by
      by_contra hl
      exact hfresh (Or.inr ⟨rfl, hl⟩)
    have hheld : heldWith held (update lbl g (some q)) =
        insert ⟨0, g⟩ (heldWith held lbl) := by
      ext ⟨k, b⟩
      simp only [heldWith, Set.mem_union, Set.mem_ofPred_eq, Set.mem_insert_iff, Block.mk.injEq,
        update_apply]
      by_cases hb : b = g
      · simp [hb, hnone, or_comm]
      · simp [hb]
    rw [halloc]
    refine Or.inr ⟨g, pmm, rfl, rfl, hphys, hnone, ⟨⟨fl', ?_⟩, hk.hhdm.trans h.offset, ?_⟩, hk⟩
    · rw [hheld]
      exact hinv
    · intro f hf
      by_cases hfg : f = g
      · exact fun hin => hfresh (Or.inl (hfg ▸ hin))
      · rw [update_of_ne hfg] at hf
        exact h.fresh f hf

/-! ## One slot -/

variable (S hhdm held L) in
/-- A part of a copy that fills the slots `is` of table `d`, the copy of
path `p`, and wants `count` pages. -/
structure CopyResult (p : List Nat) (d : Nat) (is : List Nat) (s : Kmem) (lbl : Labels)
    (count : Nat) (b : Bool) (s' : Kmem) (lbl' : Labels) : Prop where
  alloc : allocTimes count s.pmm = some (b, s'.pmm)
  copying : Copying S hhdm held s' lbl'
  step : CopyStep L d s lbl s' lbl'
  labels : ∀ f q, lbl f = none → lbl' f = some q → ∃ i ∈ is, ∃ r, q = p ++ i :: r
  slots : ∀ j < 512, j ∉ is → entryAt s'.mem d j = entryAt s.mem d j

/-- How a present entry of the lower half is copied. -/
def copyUser : Nat → Nat → Nat → Nat → Kmem → Option (Bool × Kmem)
  | 0, src, dst => shareLeaf src dst
  | n + 1, src, dst => copyLower (fun src dst s => copyPageTableLevel n src dst false s) src dst

lemma copyPageTableLevel_eq (n src dst : Nat) (isKernel : Bool) (s : Kmem) :
    copyPageTableLevel n src dst isKernel s =
      forSlots (copySlot (copyUser n src dst) src dst isKernel) (List.range 512) s := by
  cases n <;> rfl

variable (S hhdm held T L) in
/-- `copy_page_table_level` on tables `n` levels above the pages. -/
def CopiesTables (n : Nat) : Prop :=
  ∀ ⦃s : Kmem⦄ ⦃lbl : Labels⦄ ⦃a d : Nat⦄ ⦃p : List Nat⦄, Copying S hhdm held s lbl →
    Below s.mem T L n a → lbl d = some p →
    ∃ b s' lbl', copyPageTableLevel n (pagePtr hhdm a) (pagePtr hhdm d) false s = some (b, s') ∧
      CopyResult S hhdm held L p d (List.range 512) s lbl (tableCount s.mem n a) b s' lbl' ∧
      (b = true → ∀ i < 512, Copied s.mem s'.mem lbl' n p a d i)

variable (S hhdm held T L) in
/-- Copying slots whose tables are `n` levels above the pages. -/
def CopiesSlots (n : Nat) (body : Nat → Nat → Nat → Kmem → Option (Bool × Kmem))
    (when : BitVec 64 → Nat → Prop) : Prop :=
  ∀ ⦃s : Kmem⦄ ⦃lbl : Labels⦄ ⦃a d i : Nat⦄ ⦃p : List Nat⦄, Copying S hhdm held s lbl →
    Below s.mem T L n a → lbl d = some p → i < 512 → when (entryAt s.mem a i) i →
    ∃ b s' lbl', body (pagePtr hhdm a) (pagePtr hhdm d) i s = some (b, s') ∧
      CopyResult S hhdm held L p d [i] s lbl (slotCount s.mem n a i) b s' lbl' ∧
      (b = true → Copied s.mem s'.mem lbl' n p a d i)

section

variable (hctx : CopyCtx S hhdm held T L)
include hctx

lemma shareLeaf_spec :
    CopiesSlots S hhdm held T L 0 (copyUser 0) fun e i => present e = true ∧ i < 256 := by
  intro s lbl a d i p h ha hd hi hwhen
  have hsrc : a ∈ T ∪ L := ha.mem
  have hok : PageOk hhdm a := hctx.ok a (hctx.source a hsrc).2
  have had : a ≠ d := h.source_ne hctx hsrc hd
  obtain ⟨m1, hm1⟩ : ∃ m, m = update s.mem (d * 512 + i)
    (entryAt s.mem a i &&& ~~~pageWrite) := ⟨_, rfl⟩
  obtain ⟨hset, h1, hst1⟩ := CopyStep.setEntry h hctx hd hi _ hm1
  have hread : entryAt m1 a i = entryAt s.mem a i := by
    rw [hm1, entryAt_update_of_ne _ hi hi fun heq => had heq.1]
  unfold copyUser shareLeaf
  simp only [Kmem.entry_page h.offset hok hi, hset, Kmem.entry_page h1.offset hok hi, hread,
    Kmem.setEntry_page h1.offset hok hi]
  obtain ⟨m2, hm2⟩ : ∃ m, m = update m1 (a * 512 + i)
    (entryAt s.mem a i &&& ~~~pageWrite) := ⟨_, rfl⟩
  have hdst : ∀ j < 512, entryAt m2 d j = entryAt m1 d j := fun j hj => by
    rw [hm2, entryAt_update_of_ne _ hi hj fun heq => had heq.1.symm]
  have hlast : CopyStep L d { s with mem := m1 } lbl { s with mem := m2 } lbl := by
    refine ⟨rfl, .refl _, fun _ _ hp => hp, fun w _ _ => ?_⟩
    by_cases hw : w = a * 512 + i
    · have hdiv : w / 512 = a := by omega
      refine Or.inr ⟨by rw [hdiv]; exact ha, by omega, ?_⟩
      show m2 w = m1 w &&& ~~~pageWrite
      rw [hw, hm2, update_self, ← hread]
      rfl
    · refine Or.inl ?_
      show m2 w = m1 w
      rw [hm2, update_of_ne hw]
  rw [← hm2]
  refine ⟨true, _, lbl, rfl, ⟨rfl, ⟨h.pmm, h.offset, h.fresh⟩, hst1.trans hlast,
    fun f q hnone hq => by simp [hnone] at hq, fun j hj hne => ?_⟩, fun _ => ?_⟩
  · rw [hdst j hj, hm1]
    exact entryAt_update_of_ne _ hi hj fun heq => hne (by simp [heq.2])
  · simp only [Copied, SlotCopied, hwhen.1, if_true, if_neg (Nat.not_le.mpr hwhen.2)]
    constructor
    · rw [hdst i hi, hm1]
      exact entryAt_update_self _ _ _ _
    · rw [hm2]
      exact entryAt_update_self _ _ _ _

/-- Taking a page and filling it, seen from the table `d` that gets an entry
for it. -/
lemma CopyResult.below {count : Nat} {pmm : Pmm} {s2 : Kmem} {lbl2 : Labels} (hd : lbl d = some p)
    (hgnone : lbl g = none) (hpmm : pmmAllocPage s.pmm = some (pfnToPhys g, pmm))
    (hphys : pfnToPhys g ≠ 0) (hkeeps : Pmm.Keeps s.pmm pmm)
    (h1 : Copying S hhdm held { s with pmm := pmm } (update lbl g (some (p ++ [i]))))
    (hres : CopyResult S hhdm held L (p ++ [i]) g (List.range 512) { s with pmm := pmm }
      (update lbl g (some (p ++ [i]))) count b s2 lbl2) :
    CopyResult S hhdm held L p d [i] s lbl (count + 1) b s2 lbl2 ∧
    ∀ j < 512, entryAt s2.mem d j = entryAt s.mem d j := by
  have hdg : d ≠ g := fun heq => by simp [heq, hgnone] at hd
  have hd1 : update lbl g (some (p ++ [i])) d = some p := by
    rw [update_of_ne hdg, hd]
  have hlbl : lbl2 g = some (p ++ [i]) := hres.step.ext g _ (update_self g _ lbl)
  have hslots : ∀ j < 512, entryAt s2.mem d j = entryAt s.mem d j := fun j hj =>
    hres.step.labelled h1 hctx (by simp [hd1]) hdg hj
  refine ⟨⟨?_, hres.copying, ⟨hres.step.kCaches, hkeeps.trans hres.step.keeps, fun f q hf => ?_,
    fun w hw _ => ?_⟩, fun f q hnone hq => ⟨i, by simp, ?_⟩, fun j hj _ => hslots j hj⟩, hslots⟩
  · rw [allocTimes, hpmm]
    simp only [if_neg hphys]
    exact hres.alloc
  · refine hres.step.ext f q ?_
    rwa [update_of_ne fun heq => by simp [heq, hgnone] at hf]
  · have hwg : w / 512 ≠ g := by
      intro heq
      rw [heq, hgnone, hlbl] at hw
      simp at hw
    refine hres.step.mem w ?_ hwg
    rwa [update_of_ne hwg]
  · by_cases hfg : f = g
    · rw [hfg, hlbl] at hq
      exact ⟨[], (Option.some.inj hq).symm⟩
    · obtain ⟨j, _, r, hr⟩ := hres.labels f q (by rwa [update_of_ne hfg]) hq
      exact ⟨j :: r, by simp [hr]⟩

lemma copyLower_spec (hlower : CopiesTables S hhdm held T L n) :
    CopiesSlots S hhdm held T L (n + 1) (copyUser (n + 1)) fun e i => present e = true ∧
    i < 256 := by
  intro s lbl a d i p h ha hd hi hwhen
  obtain ⟨hp, h256⟩ := hwhen
  have hsrc : a ∈ T ∪ L := ha.mem
  have hok : PageOk hhdm a := hctx.ok a (hctx.source a hsrc).2
  have hnext := ha.next h256 hp
  have hnextOk : PageOk hhdm (frameOf (entryAt s.mem a i)) :=
    hctx.ok _ (hctx.source _ hnext.mem).2
  have hcount : slotCount s.mem (n + 1) a i =
    tableCount s.mem n (frameOf (entryAt s.mem a i)) + 1 := by
    rw [slotCount, if_pos ⟨hp, h256⟩]
    exact Nat.add_comm _ _
  rw [hcount]
  simp only [copyUser, copyLower]
  cases h.allocPage hctx (p ++ [i]) with
  | inl hnull =>
    obtain ⟨hnull, hpmm⟩ := hnull
    rw [hnull]
    refine ⟨false, s, lbl, by simp, ⟨?_, h, .refl L d s lbl,
      fun f q hnone hq => by simp [hnone] at hq, fun _ _ _ => rfl⟩, by simp⟩
    simp [allocTimes, hpmm]
  | inr hgot =>
    obtain ⟨g, pmm, halloc, hpmm, hphys, hgnone, h1, hkeeps⟩ := hgot
    have hdg : d ≠ g := fun heq => by simp [heq, hgnone] at hd
    have hh1 : Kmem.hhdm { s with pmm := pmm } = hhdm := h1.offset
    have hgok : PageOk hhdm g := hctx.ok g (h1.mem_pages (by simp))
    rw [halloc]
    simp only [if_neg hphys, hh1, hgok.add64_phys, Kmem.entry_page hh1 hok hi,
      Kmem.tablePtr_eq hh1 hnextOk]
    obtain ⟨b, s2, lbl2, hcall, hres, hcopied⟩ := hlower h1 hnext (update_self g _ lbl)
    obtain ⟨hbelow, hslots⟩ := hres.below hctx hd hgnone hpmm hphys hkeeps h1
    have h2 := hres.copying
    rw [hcall]
    cases b with
    | false => exact ⟨false, s2, lbl2, rfl, hbelow, by simp⟩
    | true =>
      have hread : s2.entry (pagePtr hhdm a) i = entryAt s.mem a i := by
        rw [Kmem.entry_page h2.offset hok hi]
        exact hbelow.step.source_eq h h2 hctx hd a ha.1 i hi
      have hd2 : lbl2 d = some p := hbelow.step.ext d p hd
      obtain ⟨m3, hm3⟩ : ∃ m, m = update s2.mem (d * 512 + i)
        (copiedEntry g (entryAt s.mem a i)) := ⟨_, rfl⟩
      obtain ⟨hset, h3, hst3⟩ := CopyStep.setEntry h2 hctx hd2 hi _ hm3
      have hlbl : lbl2 g = some (p ++ [i]) := hres.step.ext g _ (update_self g _ lbl)
      refine ⟨true, { s2 with mem := m3 }, lbl2, ?_,
        ⟨hbelow.alloc, h3, hbelow.step.trans hst3, hbelow.labels, fun j hj hne => ?_⟩, fun _ => ?_⟩
      · simp only [hread]
        rw [copiedEntry] at hset
        rw [hset]
      · show entryAt m3 d j = entryAt s.mem d j
        rw [hm3, entryAt_update_of_ne _ hi hj fun heq => hne (by simp [heq.2]), hslots j hj]
      · simp only [Copied, SlotCopied, hp, if_true, if_neg (Nat.not_le.mpr h256)]
        refine ⟨g, hlbl, by rw [hm3]; exact entryAt_update_self _ _ _ _, fun j hj => ?_⟩
        refine (hcopied rfl j hj).right (T := T) (L := L) (fun _ _ hf => hf) ?_ hnext hj ?_ ?_
        · intro t ht k hk
          refine Or.inl ?_
          show m3 _ = s2.mem _
          have htd : t ≠ d := h.source_ne hctx (Or.inr ht) hd
          rw [hm3, update_of_ne (slot_ne hi hk fun heq => htd heq.1)]
        · show entryAt m3 g j = entryAt s2.mem g j
          rw [hm3, entryAt_update_of_ne _ hi hj fun heq => hdg heq.1.symm]
        · intro f q hf k hk
          show entryAt m3 f k = entryAt s2.mem f k
          have hfd : f ≠ d := ne_of_longer hd2 hf (by simp)
          rw [hm3, entryAt_update_of_ne _ hi hk fun heq => hfd heq.1]

/-- A slot whose entry is absent, shared, or copied by `copyUser`. -/
lemma copySlot_spec
    (huser : CopiesSlots S hhdm held T L n (copyUser n) fun e i => present e = true ∧ i < 256) :
    CopiesSlots S hhdm held T L n (fun src dst => copySlot (copyUser n src dst) src dst false)
      fun _ _ => True := by
  intro s lbl a d i p h ha hd hi _
  have hok : PageOk hhdm a := hctx.ok a (hctx.source a ha.mem).2
  have hzero : ¬ (present (entryAt s.mem a i) = true ∧ i < 256) → slotCount s.mem n a i = 0 := by
    intro hnot
    cases n with
    | zero => rfl
    | succ n => rw [slotCount, if_neg hnot]
  have hone : ∀ user, SlotCopied user s.mem s.mem a d i →
    (i < 256 → present (entryAt s.mem a i) = false) →
      Copied s.mem s.mem lbl n p a d i := by
    intro user hslot habs
    cases n with
    | zero => exact hslot.mono fun hp h256 _ => by simp [habs h256] at hp
    | succ n => exact hslot.mono fun hp h256 _ => by simp [habs h256] at hp
  simp only [copySlot, Kmem.entry_page h.offset hok hi]
  have hsame : ∀ f q, lbl f = none → lbl f = some q → ∃ j ∈ [i], ∃ r, q = p ++ j :: r :=
    fun f q hnone hq => by simp [hnone] at hq
  cases hp : present (entryAt s.mem a i) with
  | false =>
    refine ⟨true, s, lbl, by simp, ⟨?_, h, .refl L d s lbl, hsame, fun _ _ _ => rfl⟩, fun _ => ?_⟩
    · rw [hzero (by simp [hp])]
      rfl
    · exact hone True (by simp [SlotCopied, hp]) fun _ => hp
  | true =>
    by_cases h256 : 256 ≤ i
    · obtain ⟨m, hm⟩ : ∃ m, m = update s.mem (d * 512 + i) (entryAt s.mem a i) := ⟨_, rfl⟩
      obtain ⟨hset, h', hst⟩ := CopyStep.setEntry h hctx hd hi _ hm
      refine ⟨true, { s with mem := m }, lbl, by simp [h256, hset],
        ⟨?_, h', hst, hsame, fun j hj hne => ?_⟩, fun _ => ?_⟩
      · rw [hzero (by omega)]
        rfl
      · show entryAt m d j = entryAt s.mem d j
        rw [hm, entryAt_update_of_ne _ hi hj fun heq => hne (by simp [heq.2])]
      · have hslot : ∀ user, SlotCopied user s.mem m a d i := by
          intro user
          rw [SlotCopied, if_pos hp, if_pos h256, hm]
          exact entryAt_update_self _ _ _ _
        cases n with
        | zero => exact hslot _
        | succ n => exact hslot _
    · simp only [not_true_eq_false, if_false, Bool.false_eq_true, false_or, if_neg h256]
      exact huser h ha hd hi ⟨hp, Nat.not_le.mp h256⟩

end

/-! ## All slots -/

/-- The pages that will hold the copy of a later slot `j` are as they were
before slot `i` was copied. -/
lemma CopyResult.untouched {lbl1 : Labels} {b' : Bool}
    (hres1 : CopyResult S hhdm held L p d [i] s lbl c b s1 lbl1) (h : Copying S hhdm held s lbl)
    (hctx : CopyCtx S hhdm held T L) (hd : lbl d = some p)
    (hres : CopyResult S hhdm held L p d is s1 lbl1 c' b' s' lbl') {q : List Nat}
    (hg : lbl' g = some (p ++ j :: q)) (hji : j ≠ i) {k : Nat} (hk : k < 512) :
    entryAt s1.mem g k = entryAt s.mem g k := by
  have hgd : g ≠ d := ne_of_longer ((hres1.step.trans hres.step).ext d p hd) hg (by simp)
  cases hl : lbl g with
  | some r => exact hres1.step.labelled h hctx (by simp [hl]) hgd hk
  | none =>
    cases hl1 : lbl1 g with
    | none =>
      refine hres1.step.unlabelled hd hl1 (fun hL => ?_) hk
      exact hres.copying.fresh g (by simp [hg]) (hctx.source g (Or.inr hL)).1
    | some r =>
      -- a page taken for slot `i` has a label that starts with `p ++ [i]`
      obtain ⟨i', hi', q', hq'⟩ := hres1.labels g r hl hl1
      rw [hres.step.ext g r hl1, hq'] at hg
      have heq := List.append_cancel_left (Option.some.inj hg)
      rw [List.mem_singleton.mp hi'] at heq
      exact absurd (List.cons.inj heq).1.symm hji

lemma CopyResult.stop {lbl1 : Labels}
    (hres : CopyResult S hhdm held L p d [i] s lbl c false s1 lbl1) (is : List Nat) (c' : Nat) :
    CopyResult S hhdm held L p d (i :: is) s lbl (c + c') false s1 lbl1 where
  alloc := by rw [allocTimes_add, hres.alloc]
  copying := hres.copying
  step := hres.step
  labels f q hnone hq := by
    obtain ⟨j, hj, r, hr⟩ := hres.labels f q hnone hq
    exact ⟨j, by simp [List.mem_singleton.mp hj], r, hr⟩
  slots j hj hne := hres.slots j hj fun hin => hne (by simp [List.mem_singleton.mp hin])

lemma CopyResult.cons {lbl1 : Labels}
    (hres1 : CopyResult S hhdm held L p d [i] s lbl c true s1 lbl1)
    (hres : CopyResult S hhdm held L p d is s1 lbl1 c' b s' lbl') :
    CopyResult S hhdm held L p d (i :: is) s lbl (c + c') b s' lbl' where
  alloc := by
    rw [allocTimes_add, hres1.alloc]
    exact hres.alloc
  copying := hres.copying
  step := hres1.step.trans hres.step
  labels f q hnone hq := by
    cases hf : lbl1 f with
    | none =>
      obtain ⟨j, hj, r, hr⟩ := hres.labels f q hf hq
      exact ⟨j, by simp [hj], r, hr⟩
    | some q1 =>
      obtain ⟨j, hj, r, hr⟩ := hres1.labels f q1 hnone hf
      obtain rfl : q1 = q := Option.some.inj ((hres.step.ext f q1 hf).symm.trans hq)
      exact ⟨j, by simp [List.mem_singleton.mp hj], r, hr⟩
  slots j hj hne := by
    rw [List.mem_cons, not_or] at hne
    rw [hres.slots j hj hne.2, hres1.slots j hj (by simpa using hne.1)]

lemma forSlots_spec (hctx : CopyCtx S hhdm held T L)
    {body : Nat → Nat → Nat → Kmem → Option (Bool × Kmem)}
    (hbody : CopiesSlots S hhdm held T L n body fun _ _ => True) :
    ∀ (is : List Nat) {s : Kmem} {lbl : Labels} {a d : Nat} {p : List Nat}, is.Nodup →
    (∀ i ∈ is, i < 512) → Copying S hhdm held s lbl → Below s.mem T L n a → lbl d = some p →
    ∃ b s' lbl', forSlots (body (pagePtr hhdm a) (pagePtr hhdm d)) is s = some (b, s') ∧
      CopyResult S hhdm held L p d is s lbl ((is.map (slotCount s.mem n a)).sum) b s' lbl' ∧
      (b = true → ∀ i ∈ is, Copied s.mem s'.mem lbl' n p a d i) := by
  intro is
  induction is with
  | nil =>
    intro s lbl a d p _ _ h _ _
    exact ⟨true, s, lbl, rfl, ⟨rfl, h, .refl L d s lbl, fun f q hnone hq => by simp [hnone] at hq,
      fun _ _ _ => rfl⟩, by simp⟩
  | cons i is ih =>
    intro s lbl a d p hnd hlt h ha hd
    have hi : i < 512 := hlt i (by simp)
    obtain ⟨hnotin, hnd'⟩ := List.nodup_cons.mp hnd
    obtain ⟨b1, s1, lbl1, hcall1, hres1, hcop1⟩ := hbody h ha hd hi trivial
    have h1 := hres1.copying
    have hsame := hres1.step.source_eq h h1 hctx hd
    unfold forSlots
    rw [hcall1, List.map_cons, List.sum_cons]
    cases b1 with
    | false => exact ⟨false, s1, lbl1, rfl, hres1.stop is _, by simp⟩
    | true =>
      have hd1 : lbl1 d = some p := hres1.step.ext d p hd
      obtain ⟨b, s', lbl', hcall, hres, hcop⟩ :=
        ih hnd' (fun j hj => hlt j (by simp [hj])) h1 (ha.congr hsame) hd1
      have h' := hres.copying
      have hcounts : is.map (slotCount s1.mem n a) = is.map (slotCount s.mem n a) :=
        List.map_congr_left fun j hj => slotCount_congr hsame ha (hlt j (by simp [hj]))
      rw [hcounts] at hres
      refine ⟨b, s', lbl', hcall, hres1.cons hres, fun hb j hj => ?_⟩
      cases List.mem_cons.mp hj with
      | inl heq =>
        -- the first slot: what follows leaves its copy alone
        subst heq
        refine (hcop1 rfl).right (T := T) (L := L) hres.step.ext ?_ ha hi
          (hres.slots j hi hnotin) ?_
        · intro t ht k hk
          exact hres.step.source h1 h' hctx hd1 (Or.inr ht) hk
        · intro g q hg k hk
          exact hres.step.labelled h1 hctx (by simp [hg]) (ne_of_longer hd1 hg (by simp)) hk
      | inr hin =>
        -- a later slot: its source and its pages were as at the start
        have hj512 : j < 512 := hlt j (by simp [hin])
        have hji : j ≠ i := fun heq => hnotin (heq ▸ hin)
        refine (hcop hb j hin).left (T := T) (L := L) hctx.apart ?_ ha hj512
          (hres1.slots j hj512 (by simpa using hji)) ?_
        · intro t ht k hk
          exact hres1.step.source h h1 hctx hd ht hk
        · intro g q hg k hk
          exact hres1.untouched h hctx hd hres hg hji hk

lemma copyPageTableLevel_spec (hctx : CopyCtx S hhdm held T L) :
    ∀ n, CopiesTables S hhdm held T L n := by
  have htable : ∀ n, CopiesSlots S hhdm held T L n (copyUser n)
      (fun e i => present e = true ∧ i < 256) → CopiesTables S hhdm held T L n := by
    intro n huser s lbl a d p h ha hd
    have hloop := forSlots_spec hctx (copySlot_spec hctx huser) (List.range 512) List.nodup_range
      (fun i hi => List.mem_range.mp hi) h ha hd
    obtain ⟨b, s', lbl', hcall, hres, hcop⟩ := hloop
    refine ⟨b, s', lbl', ?_, hres, fun hb i hi => hcop hb i (List.mem_range.mpr hi)⟩
    rw [copyPageTableLevel_eq]
    exact hcall
  intro n
  induction n with
  | zero => exact htable 0 (shareLeaf_spec hctx)
  | succ n ih => exact htable (n + 1) (copyLower_spec hctx ih)

end

end VortexOS.Mm
