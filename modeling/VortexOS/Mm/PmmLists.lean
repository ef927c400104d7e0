/-
VortexOS.Mm.PmmLists — the free lists of the physical memory manager are
doubly linked lists of the library.

`Pmm.Repr s fl` ties a state to the eleven lists of page frame numbers it
represents: list `k` is the well-formed list `fl k`, a frame carries
`PAGE_FREE` exactly when it stands on one of them, and then its `order`
field names the list. `Repr.listAdd` and `Repr.listRemove` say what the
two list helpers of `mm.cpp` do to the lists; nothing outside this module
unfolds the helpers again.
-/
import VortexOS.Lib.DList
import VortexOS.Mm.Pmm

namespace VortexOS.Mm

open Function Lib

/-! ## Field reads after a store -/

namespace Pmm

variable (s : Pmm)

@[simp] lemma modFrame_kFrames (p : Nat) (f : PageFrame → PageFrame) (q : Nat) :
    (s.modFrame p f).kFrames q = if q = p then f (s.kFrames q) else s.kFrames q := by
  by_cases h : q = p
  · subst h; simp [modFrame]
  · simp [modFrame, h]

@[simp] lemma modFrame?_kFrames (o : Option Nat) (f : PageFrame → PageFrame) (q : Nat) :
    (s.modFrame? o f).kFrames q = if o = some q then f (s.kFrames q) else s.kFrames q := by
  cases o with
  | none => simp [modFrame?]
  | some p => simp [modFrame?, eq_comm]

@[simp] lemma setFreeList_kFreeLists (k : Nat) (h : Option Nat) (j : Nat) :
    (s.setFreeList k h).kFreeLists j = if j = k then h else s.kFreeLists j := by
  simp [setFreeList, update_apply]

@[simp] lemma setFreeList_kFrames (k : Nat) (h : Option Nat) :
    (s.setFreeList k h).kFrames = s.kFrames := rfl

@[simp] lemma modFrame_kFreeLists (p : Nat) (f : PageFrame → PageFrame) :
    (s.modFrame p f).kFreeLists = s.kFreeLists := rfl

@[simp] lemma modFrame?_kFreeLists (o : Option Nat) (f : PageFrame → PageFrame) :
    (s.modFrame? o f).kFreeLists = s.kFreeLists := by
  cases o <;> rfl

structure SameGlobals (s s' : Pmm) : Prop where
  addr : s'.kFramesAddr = s.kFramesAddr
  total : s'.kTotalPages = s.kTotalPages
  hhdm : s'.kHhdmOffset = s.kHhdmOffset

namespace SameGlobals

variable {s s' s'' : Pmm}

lemma refl (s : Pmm) : SameGlobals s s := ⟨rfl, rfl, rfl⟩

lemma trans (h : SameGlobals s s') (h' : SameGlobals s' s'') : SameGlobals s s'' :=
  ⟨h'.addr.trans h.addr, h'.total.trans h.total, h'.hhdm.trans h.hhdm⟩

lemma modFrame (p : Nat) (f : PageFrame → PageFrame) : SameGlobals s (s.modFrame p f) :=
  ⟨rfl, rfl, rfl⟩

lemma modFrame? (o : Option Nat) (f : PageFrame → PageFrame) : SameGlobals s (s.modFrame? o f) := by
  cases o with
  | none => exact refl s
  | some p => exact modFrame p f

end SameGlobals

def links : Links Nat where
  next p := (s.kFrames p).next
  prev p := (s.kFrames p).prev

lemma modFrame_proj {α : Type} (g : PageFrame → α) (p : Nat) (f : PageFrame → PageFrame)
    (hg : ∀ fr, g (f fr) = g fr) (q : Nat) : g ((s.modFrame p f).kFrames q) = g (s.kFrames q) := by
  simp [apply_ite g, hg]

lemma modFrame?_proj {α : Type} (g : PageFrame → α) (o : Option Nat) (f : PageFrame → PageFrame)
    (hg : ∀ fr, g (f fr) = g fr) (q : Nat) : g ((s.modFrame? o f).kFrames q) = g (s.kFrames q) := by
  simp [apply_ite g, hg]

lemma links_modFrame_next (p : Nat) (v : Option Nat) :
    (s.modFrame p fun f => { f with next := v }).links = s.links.setNext p v := by
  ext q : 2
  · simp [links, apply_ite PageFrame.next]
  · simp [links, apply_ite PageFrame.prev]

lemma links_modFrame_prev (p : Nat) (v : Option Nat) :
    (s.modFrame p fun f => { f with prev := v }).links = s.links.setPrev p v := by
  ext q : 2
  · simp [links, apply_ite PageFrame.next]
  · simp [links, apply_ite PageFrame.prev]

lemma links_modFrame?_prev (o v : Option Nat) :
    (s.modFrame? o fun f => { f with prev := v }).links = s.links.setPrev? o v := by
  cases o with
  | none => rfl
  | some p => exact s.links_modFrame_prev p v

lemma links_modFrame_of (p : Nat) (f : PageFrame → PageFrame) (hn : ∀ fr, (f fr).next = fr.next)
    (hp : ∀ fr, (f fr).prev = fr.prev) : (s.modFrame p f).links = s.links := by
  ext q : 2
  · exact s.modFrame_proj PageFrame.next p f hn q
  · exact s.modFrame_proj PageFrame.prev p f hp q

lemma links_setFreeList (k : Nat) (h : Option Nat) : (s.setFreeList k h).links = s.links := rfl

end Pmm

/-! ## The list helpers -/

section

variable (k p : Nat) (s : Pmm)

lemma listAdd_links : (listAdd k p s).links = s.links.push (s.kFreeLists k) p := by
  simp only [listAdd, Pmm.links_modFrame_of, Pmm.links_setFreeList, Pmm.links_modFrame?_prev,
    Pmm.links_modFrame_prev, Pmm.links_modFrame_next, implies_true]
  rfl

lemma listAdd_kFreeLists (j : Nat) :
    (listAdd k p s).kFreeLists j = if j = k then some p else s.kFreeLists j := by
  simp [listAdd]

lemma listAdd_flags (q : Nat) : ((listAdd k p s).kFrames q).flags =
      if q = p then (s.kFrames q).flags ||| pageFree else (s.kFrames q).flags := by
  simp [listAdd, apply_ite PageFrame.flags]

lemma listAdd_order (q : Nat) :
    ((listAdd k p s).kFrames q).order = if q = p then k else (s.kFrames q).order := by
  simp [listAdd, apply_ite PageFrame.order]

lemma listAdd_privateData (q : Nat) :
    ((listAdd k p s).kFrames q).privateData = (s.kFrames q).privateData := by
  simp [listAdd, apply_ite PageFrame.privateData]

lemma listAdd_kFreePages : (listAdd k p s).kFreePages = s.kFreePages := by
  cases h : s.kFreeLists k <;> simp [listAdd, h, Pmm.modFrame?, Pmm.modFrame, Pmm.setFreeList]

lemma listAdd_sameGlobals : Pmm.SameGlobals s (listAdd k p s) := by
  cases h : s.kFreeLists k <;>
    constructor <;> simp [listAdd, h, Pmm.modFrame?, Pmm.modFrame, Pmm.setFreeList]

/-- The state after the first `if` of `list_remove`. -/
def listRemoveNext : Pmm :=
  match (s.kFrames p).prev with
  | some prev => s.modFrame prev fun f => { f with next := (s.kFrames p).next }
  | none => s.setFreeList k (s.kFrames p).next

lemma listRemove_eq : listRemove k p s =
      ((listRemoveNext k p s).modFrame? ((listRemoveNext k p s).kFrames p).next
      fun f => { f with prev := ((listRemoveNext k p s).kFrames p).prev }).modFrame p fun f =>
      { f with flags := f.flags &&& ~~~pageFree } := by
  unfold listRemove listRemoveNext
  rfl

lemma listRemoveNext_links :
    (listRemoveNext k p s).links = s.links.setNext? (s.links.prev p) (s.links.next p) := by
  unfold listRemoveNext
  show _ = s.links.setNext? (s.kFrames p).prev (s.kFrames p).next
  cases hp : (s.kFrames p).prev with
  | none => rfl
  | some r => exact s.links_modFrame_next r _

lemma listRemoveNext_proj {α : Type} (g : PageFrame → α)
    (hg : ∀ fr v, g { fr with next := v } = g fr) (q : Nat) :
    g ((listRemoveNext k p s).kFrames q) = g (s.kFrames q) := by
  unfold listRemoveNext
  cases hp : (s.kFrames p).prev with
  | none => rfl
  | some r => exact s.modFrame_proj g r _ (fun fr => hg fr _) q

/-- `list_remove` is the library's `unlink`. A node that is its own
predecessor is excluded: there the source reads back the `next` field it
has just overwritten. -/
lemma listRemove_links (hself : s.links.prev p ≠ some p) :
    (listRemove k p s).links = s.links.unlink p := by
  have hn : ((listRemoveNext k p s).kFrames p).next = s.links.next p := by
    have h := congrArg (fun L => L.next p) (listRemoveNext_links k p s)
    simp only [Links.setNext?_next, if_neg hself] at h
    exact h
  have hp : ((listRemoveNext k p s).kFrames p).prev = s.links.prev p :=
    listRemoveNext_proj k p s PageFrame.prev (fun _ _ => rfl) p
  simp only [listRemove_eq, Pmm.links_modFrame_of, Pmm.links_modFrame?_prev,
    listRemoveNext_links, hn, hp, implies_true]
  rfl

lemma listRemove_kFreeLists (j : Nat) : (listRemove k p s).kFreeLists j =
      if j = k then s.links.unlinkHead (s.kFreeLists k) p else s.kFreeLists j := by
  rw [listRemove_eq]
  simp only [Pmm.modFrame_kFreeLists, Pmm.modFrame?_kFreeLists, listRemoveNext, Links.unlinkHead,
    Pmm.links]
  cases hp : (s.kFrames p).prev with
  | none => simp
  | some r =>
    by_cases hj : j = k
    · subst hj; simp
    · simp [hj]

lemma listRemove_proj {α : Type} (g : PageFrame → α) (hn : ∀ fr v, g { fr with next := v } = g fr)
    (hp : ∀ fr v, g { fr with prev := v } = g fr) (hf : ∀ fr v, g { fr with flags := v } = g fr)
    (q : Nat) : g ((listRemove k p s).kFrames q) = g (s.kFrames q) := by
  rw [listRemove_eq, Pmm.modFrame_proj _ g _ _ fun fr => hf fr _,
    Pmm.modFrame?_proj _ g _ _ fun fr => hp fr _]
  exact listRemoveNext_proj k p s g hn q

lemma listRemove_order (q : Nat) : ((listRemove k p s).kFrames q).order = (s.kFrames q).order :=
  listRemove_proj k p s PageFrame.order (fun _ _ => rfl) (fun _ _ => rfl) (fun _ _ => rfl) q

lemma listRemove_privateData (q : Nat) :
    ((listRemove k p s).kFrames q).privateData = (s.kFrames q).privateData :=
  listRemove_proj k p s PageFrame.privateData (fun _ _ => rfl) (fun _ _ => rfl)
    (fun _ _ => rfl) q

lemma listRemove_flags (q : Nat) : ((listRemove k p s).kFrames q).flags =
      if q = p then (s.kFrames q).flags &&& ~~~pageFree else (s.kFrames q).flags := by
  have h := listRemoveNext_proj k p s PageFrame.flags (fun _ _ => rfl) q
  rw [listRemove_eq]
  simp [apply_ite PageFrame.flags, h]

lemma listRemove_kFreePages : (listRemove k p s).kFreePages = s.kFreePages := by
  rw [listRemove_eq]
  have h : (listRemoveNext k p s).kFreePages = s.kFreePages := by
    unfold listRemoveNext; split <;> rfl
  cases hn : ((listRemoveNext k p s).kFrames p).next <;>
    simp [Pmm.modFrame?, Pmm.modFrame, h]

lemma listRemove_sameGlobals : Pmm.SameGlobals s (listRemove k p s) := by
  rw [listRemove_eq]
  have h : Pmm.SameGlobals s (listRemoveNext k p s) := by
    unfold listRemoveNext; split <;> exact ⟨rfl, rfl, rfl⟩
  exact h.trans ((Pmm.SameGlobals.modFrame? ..).trans (Pmm.SameGlobals.modFrame ..))

end

/-! ## Flags -/

lemma isReserved_setFree (x : BitVec 8) :
    ((x ||| pageFree) &&& pageReserved) = x &&& pageReserved := by
  revert x; decide

lemma isReserved_clearFree (x : BitVec 8) :
    ((x &&& ~~~pageFree) &&& pageReserved) = x &&& pageReserved := by
  revert x; decide

lemma isReserved_setUsed (x : BitVec 8) :
    ((x ||| pageUsed) &&& pageReserved) = x &&& pageReserved := by
  revert x; decide

lemma isReserved_clearUsed (x : BitVec 8) :
    ((x &&& ~~~pageUsed) &&& pageReserved) = x &&& pageReserved := by
  revert x; decide

lemma isFree_setFree (f : PageFrame) :
    ({ f with flags := f.flags ||| pageFree } : PageFrame).isFree = true := by
  have h : ∀ x : BitVec 8, ((x ||| pageFree) &&& pageFree != 0) = true := by decide
  exact h f.flags

lemma isFree_clearFree (f : PageFrame) :
    ({ f with flags := f.flags &&& ~~~pageFree } : PageFrame).isFree = false := by
  have h : ∀ x : BitVec 8, ((x &&& ~~~pageFree) &&& pageFree != 0) = false := by decide
  exact h f.flags

lemma isFree_setUsed (f : PageFrame) :
    ({ f with flags := f.flags ||| pageUsed } : PageFrame).isFree = f.isFree := by
  have h : ∀ x : BitVec 8, ((x ||| pageUsed) &&& pageFree != 0) = (x &&& pageFree != 0) := by
    decide
  exact h f.flags

lemma isFree_clearUsed (f : PageFrame) :
    ({ f with flags := f.flags &&& ~~~pageUsed } : PageFrame).isFree = f.isFree := by
  have h : ∀ x : BitVec 8, ((x &&& ~~~pageUsed) &&& pageFree != 0) = (x &&& pageFree != 0) := by
    decide
  exact h f.flags

lemma listAdd_isFree (k p : Nat) (s : Pmm) (q : Nat) :
    ((listAdd k p s).kFrames q).isFree = if q = p then true else (s.kFrames q).isFree := by
  have h := listAdd_flags k p s q
  by_cases hq : q = p
  · rw [if_pos hq] at h ⊢
    have hs := isFree_setFree (s.kFrames q)
    simpa only [PageFrame.isFree, h] using hs
  · rw [if_neg hq] at h ⊢
    simp only [PageFrame.isFree, h]

lemma listRemove_isFree (k p : Nat) (s : Pmm) (q : Nat) :
    ((listRemove k p s).kFrames q).isFree = if q = p then false else (s.kFrames q).isFree := by
  have h := listRemove_flags k p s q
  by_cases hq : q = p
  · rw [if_pos hq] at h ⊢
    have hs := isFree_clearFree (s.kFrames q)
    simpa only [PageFrame.isFree, h] using hs
  · rw [if_neg hq] at h ⊢
    simp only [PageFrame.isFree, h]

/-! ## What allocation and deallocation leave alone -/

/-- The variables and frame fields that no call after `pmm_init` writes. -/
structure Pmm.Keeps (s s' : Pmm) : Prop extends Pmm.SameGlobals s s' where
  privateData : ∀ q, (s'.kFrames q).privateData = (s.kFrames q).privateData
  reserved : ∀ q, (s'.kFrames q).isReserved = (s.kFrames q).isReserved

namespace Pmm.Keeps

variable {s s' s'' : Pmm}

lemma refl (s : Pmm) : Pmm.Keeps s s := ⟨.refl s, fun _ => rfl, fun _ => rfl⟩

lemma trans (h : Pmm.Keeps s s') (h' : Pmm.Keeps s' s'') : Pmm.Keeps s s'' :=
  ⟨h.toSameGlobals.trans h'.toSameGlobals, fun q => (h'.privateData q).trans (h.privateData q),
    fun q => (h'.reserved q).trans (h.reserved q)⟩

lemma setFreePages (h : Pmm.Keeps s s') (n : Nat) : Pmm.Keeps s { s' with kFreePages := n } :=
  ⟨⟨h.addr, h.total, h.hhdm⟩, h.privateData, h.reserved⟩

lemma modFrame (p : Nat) (f : PageFrame → PageFrame)
    (hd : ∀ fr, (f fr).privateData = fr.privateData)
    (hr : ∀ fr, (f fr).isReserved = fr.isReserved) : Pmm.Keeps s (s.modFrame p f) :=
  ⟨.modFrame p f, s.modFrame_proj PageFrame.privateData p f hd,
    s.modFrame_proj PageFrame.isReserved p f hr⟩

lemma listAdd (k p : Nat) (s : Pmm) : Pmm.Keeps s (Mm.listAdd k p s) := by
  refine ⟨listAdd_sameGlobals k p s, listAdd_privateData k p s, fun q => ?_⟩
  simp only [PageFrame.isReserved, listAdd_flags]
  split
  · rw [isReserved_setFree]
  · rfl

lemma listRemove (k p : Nat) (s : Pmm) : Pmm.Keeps s (Mm.listRemove k p s) := by
  refine ⟨listRemove_sameGlobals k p s, listRemove_privateData k p s, fun q => ?_⟩
  simp only [PageFrame.isReserved, listRemove_flags]
  split
  · rw [isReserved_clearFree]
  · rfl

end Pmm.Keeps

/-! ## The lists a state represents -/

/-- The free lists of `s` are `fl`, and flags and order fields agree with
them. -/
structure Pmm.Repr (s : Pmm) (fl : Nat → List Nat) : Prop where
  dlist : ∀ k, k ≤ maxOrder → s.links.DList (s.kFreeLists k) (fl k)
  high : ∀ k, maxOrder < k → fl k = []
  flag : ∀ p, p < s.kTotalPages → ((s.kFrames p).isFree = true ↔ ∃ k, p ∈ fl k)
  order : ∀ k p, p ∈ fl k → (s.kFrames p).order = k
  bound : ∀ k p, p ∈ fl k → p < s.kTotalPages

namespace Pmm.Repr

variable {s : Pmm} {fl : Nat → List Nat} {k p : Nat}

section

variable (h : s.Repr fl)
include h

lemma order_le (hp : p ∈ fl k) : k ≤ maxOrder := by
  by_contra hk
  rw [h.high k (by omega)] at hp
  simp at hp

lemma nodup (k : Nat) : (fl k).Nodup := by
  by_cases hk : k ≤ maxOrder
  · exact (h.dlist k hk).nodup
  · rw [h.high k (by omega)]
    exact List.nodup_nil

lemma disjoint {j : Nat} (hj : p ∈ fl j) (hk : p ∈ fl k) : j = k :=
  (h.order j p hj).symm.trans (h.order k p hk)

lemma head (hk : k ≤ maxOrder) : s.kFreeLists k = (fl k).head? :=
  (h.dlist k hk).head

/-- Stores to a frame on no list that keep its `PAGE_FREE` bit. -/
lemma modFrame {f : PageFrame → PageFrame} (hp : ∀ k, p ∉ fl k)
    (hf : (f (s.kFrames p)).isFree = (s.kFrames p).isFree) : (s.modFrame p f).Repr fl := by
  have hother : ∀ k q, q ∈ fl k → (s.modFrame p f).kFrames q = s.kFrames q := by
    intro k q hq
    have hne : q ≠ p := fun e => hp k (e ▸ hq)
    simp [hne]
  refine ⟨fun k hk => (h.dlist k hk).congr fun q hq => ?_, h.high, fun q hq => ?_,
    fun k q hq => ?_, h.bound⟩
  · simp only [Pmm.links, hother k q hq, and_self]
  · rw [← h.flag q hq]
    by_cases hqp : q = p
    · subst hqp; simp [hf]
    · simp [hqp]
  · rw [hother k q hq]
    exact h.order k q hq

lemma setFreePages (n : Nat) : ({ s with kFreePages := n } : Pmm).Repr fl :=
  ⟨h.dlist, h.high, h.flag, h.order, h.bound⟩

/-- `list_add` puts a frame that is on no list at the head of list `k`. -/
lemma listAdd (hk : k ≤ maxOrder) (hp : p < s.kTotalPages) (hnew : ∀ j, p ∉ fl j) :
    (Mm.listAdd k p s).Repr (update fl k (p :: fl k)) := by
  have hupd : ∀ j q, q ∈ update fl k (p :: fl k) j ↔ q ∈ fl j ∨ (j = k ∧ q = p) := by
    intro j q
    by_cases hj : j = k
    · subst hj; simp [or_comm]
    · simp [hj]
  refine ⟨fun j hj => ?_, fun j hj => ?_, fun q hq => ?_, fun j q hq => ?_, fun j q hq => ?_⟩
  · rw [listAdd_links, listAdd_kFreeLists]
    by_cases hjk : j = k
    · subst hjk
      simpa using (h.dlist j hk).push (hnew j)
    · simp only [if_neg hjk, update_of_ne hjk]
      exact (h.dlist k hk).push_frame (h.dlist j hj) (hnew j)
        fun q hqk hqj => hjk (h.disjoint hqj hqk)
  · have hjk : j ≠ k := by omega
    simpa [hjk] using h.high j hj
  · rw [(listAdd_sameGlobals k p s).total] at hq
    rw [listAdd_isFree]
    simp only [hupd]
    by_cases hqp : q = p
    · subst hqp
      simp only [if_true, true_iff]
      exact ⟨k, Or.inr ⟨rfl, trivial⟩⟩
    · rw [if_neg hqp, h.flag q hq]
      simp only [hqp, and_false, or_false]
  · rw [listAdd_order]
    rcases (hupd j q).mp hq with hq' | ⟨rfl, rfl⟩
    · have hqp : q ≠ p := fun e => hnew j (e ▸ hq')
      rw [if_neg hqp]
      exact h.order j q hq'
    · simp
  · rw [(listAdd_sameGlobals k p s).total]
    rcases (hupd j q).mp hq with hq' | ⟨rfl, rfl⟩
    · exact h.bound j q hq'
    · exact hp

lemma listRemove (hp : p ∈ fl k) : (Mm.listRemove k p s).Repr (update fl k ((fl k).erase p)) := by
  have hk := h.order_le hp
  have hupd : ∀ j q, q ∈ update fl k ((fl k).erase p) j ↔ q ∈ fl j ∧ q ≠ p := by
    intro j q
    by_cases hj : j = k
    · subst hj
      rw [update_self, (h.nodup j).mem_erase_iff, and_comm]
    · rw [update_of_ne hj]
      refine ⟨fun hq => ⟨hq, ?_⟩, And.left⟩
      rintro rfl
      exact hj (h.disjoint hq hp)
  refine ⟨fun j hj => ?_, fun j hj => ?_, fun q hq => ?_, fun j q hq => ?_, fun j q hq => ?_⟩
  · rw [listRemove_links k p s ((h.dlist k hk).prev_ne_self hp), listRemove_kFreeLists]
    by_cases hjk : j = k
    · subst hjk
      simpa using (h.dlist j hk).unlink hp
    · simp only [if_neg hjk, update_of_ne hjk]
      exact (h.dlist k hk).unlink_frame hp (h.dlist j hj)
        fun q hqk hqj => hjk (h.disjoint hqj hqk)
  · have hjk : j ≠ k := by omega
    simpa [hjk] using h.high j hj
  · rw [(listRemove_sameGlobals k p s).total] at hq
    rw [listRemove_isFree]
    simp only [hupd]
    by_cases hqp : q = p
    · simp [hqp]
    · rw [if_neg hqp, h.flag q hq]
      simp only [ne_eq, hqp, not_false_eq_true, and_true]
  · rw [listRemove_order]
    exact h.order j q ((hupd j q).mp hq).1
  · rw [(listRemove_sameGlobals k p s).total]
    exact h.bound j q ((hupd j q).mp hq).1

end

end Pmm.Repr

end VortexOS.Mm
