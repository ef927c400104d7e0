/-
VortexOS.Lib.DList — intrusive doubly linked lists.

The nodes live in a table indexed by `ι`, and the list is two link fields
per node (`Links ι`) and a head pointer held somewhere else.
`Links.DList L head l` says that following `L` from `head` visits exactly
`l`, that each node's `prev` is the node before it, and that no node is
visited twice.

`push` and `unlink` are written as the stores C code performs, so a
caller's model reduces to them by unfolding. Each has one correctness lemma
and one frame lemma, for a second list threaded through the same table.
-/
import Mathlib

namespace VortexOS.Lib

open Function

@[ext]
structure Links (ι : Type) where
  next : ι → Option ι
  prev : ι → Option ι

namespace Links

variable {ι : Type}

section

variable [DecidableEq ι] {L : Links ι}

def setNext (L : Links ι) (x : ι) (v : Option ι) : Links ι :=
  { L with next := update L.next x v }

def setPrev (L : Links ι) (x : ι) (v : Option ι) : Links ι :=
  { L with prev := update L.prev x v }

/-- Store `v` in the `next` field of the node `o` points at, if any. -/
def setNext? (L : Links ι) (o v : Option ι) : Links ι :=
  match o with
  | some x => L.setNext x v
  | none => L

/-- Store `v` in the `prev` field of the node `o` points at, if any. -/
def setPrev? (L : Links ι) (o v : Option ι) : Links ι :=
  match o with
  | some x => L.setPrev x v
  | none => L

/-- Link `x` in front of the list headed by `head`. -/
def push (L : Links ι) (head : Option ι) (x : ι) : Links ι :=
  ((L.setNext x head).setPrev x none).setPrev? head (some x)

/-- Take `x` out of the list it stands in. -/
def unlink (L : Links ι) (x : ι) : Links ι :=
  (L.setNext? (L.prev x) (L.next x)).setPrev? (L.next x) (L.prev x)

/-- The head pointer after `x` has been taken out. -/
def unlinkHead (L : Links ι) (head : Option ι) (x : ι) : Option ι :=
  match L.prev x with
  | some _ => head
  | none => L.next x

/-! ## Field reads after a store -/

section

variable (x : ι) (v : Option ι)

@[simp] lemma setNext_next (y : ι) : (L.setNext x v).next y = if y = x then v else L.next y := by
  simp [setNext, update_apply]

@[simp] lemma setNext_prev : (L.setNext x v).prev = L.prev := rfl

@[simp] lemma setPrev_prev (y : ι) : (L.setPrev x v).prev y = if y = x then v else L.prev y := by
  simp [setPrev, update_apply]

@[simp] lemma setPrev_next : (L.setPrev x v).next = L.next := rfl

end

@[simp] lemma setNext?_prev (o v : Option ι) : (L.setNext? o v).prev = L.prev := by
  cases o <;> rfl

@[simp] lemma setPrev?_next (o v : Option ι) : (L.setPrev? o v).next = L.next := by
  cases o <;> rfl

@[simp] lemma setNext?_next (o v : Option ι) (y : ι) :
    (L.setNext? o v).next y = if o = some y then v else L.next y := by
  cases o with
  | none => simp [setNext?]
  | some x => simp [setNext?, eq_comm]

@[simp] lemma setPrev?_prev (o v : Option ι) (y : ι) :
    (L.setPrev? o v).prev y = if o = some y then v else L.prev y := by
  cases o with
  | none => simp [setPrev?]
  | some x => simp [setPrev?, eq_comm]

end

/-! ## Segments and lists -/

variable {L : Links ι}

/-- Following `L` from `h` visits exactly `l`; the first node's `prev` is
`pv`, and every later node's is the node before it. -/
def Seg (L : Links ι) : Option ι → Option ι → List ι → Prop
  | _, h, [] => h = none
  | pv, h, x :: xs => h = some x ∧ L.prev x = pv ∧ L.Seg (some x) (L.next x) xs

/-- `head` heads a well-formed doubly linked list with members `l`. -/
structure DList (L : Links ι) (head : Option ι) (l : List ι) : Prop where
  seg : L.Seg none head l
  nodup : l.Nodup

variable {L' : Links ι} {pv h h' : Option ι} {l l' : List ι} {x p n : ι}

lemma Seg.head (hs : L.Seg pv h l) : h = l.head? := by
  cases l with
  | nil => exact hs
  | cons x xs => exact hs.1

lemma DList.head (hd : L.DList h l) : h = l.head? :=
  hd.seg.head

lemma Seg.congr : ∀ {l : List ι} {pv h : Option ι}, L.Seg pv h l →
    (∀ x ∈ l, L'.next x = L.next x ∧ L'.prev x = L.prev x) → L'.Seg pv h l
  | [], _, _, hs, _ => hs
  | x :: xs, _, _, ⟨hh, hp, hs⟩, hag => by
    obtain ⟨hn, hp'⟩ := hag x (by simp)
    refine ⟨hh, hp'.trans hp, ?_⟩
    rw [hn]
    exact Seg.congr hs fun y hy => hag y (by simp [hy])

lemma DList.congr (hd : L.DList h l) (hag : ∀ x ∈ l, L'.next x = L.next x ∧ L'.prev x = L.prev x) :
    L'.DList h l :=
  ⟨hd.seg.congr hag, hd.nodup⟩

lemma Seg.next_mem :
    ∀ {l : List ι} {pv h : Option ι}, L.Seg pv h l → ∀ {x n : ι}, x ∈ l → L.next x = some n → n ∈ l
  | y :: ys, _, _, ⟨_, _, hs⟩, x, n, hx, hn => by
    rcases List.mem_cons.mp hx with rfl | hx
    · have hh := hs.head
      rw [hn] at hh
      exact List.mem_cons_of_mem _ (List.mem_of_mem_head? hh.symm)
    · exact List.mem_cons_of_mem _ (Seg.next_mem hs hx hn)

lemma Seg.prev_mem : ∀ {l : List ι} {pv h : Option ι}, L.Seg pv h l → ∀ {x p : ι}, x ∈ l →
    L.prev x = some p → p ∈ l ∨ pv = some p
  | y :: ys, _, _, ⟨_, hp, hs⟩, x, p, hx, hxp => by
    rcases List.mem_cons.mp hx with rfl | hx
    · exact Or.inr (hp ▸ hxp)
    · rcases Seg.prev_mem hs hx hxp with h | h
      · exact Or.inl (List.mem_cons_of_mem _ h)
      · cases h
        exact Or.inl (by simp)

lemma Seg.prev_ne_none :
    ∀ {l : List ι} {p : ι} {h : Option ι}, L.Seg (some p) h l → ∀ {x : ι}, x ∈ l → L.prev x ≠ none
  | y :: ys, _, _, ⟨_, hp, hs⟩, x, hx => by
    rcases List.mem_cons.mp hx with rfl | hx
    · simp [hp]
    · exact Seg.prev_ne_none hs hx

lemma Seg.prev_ne_self : ∀ {l : List ι} {pv h : Option ι}, L.Seg pv h l → l.Nodup →
    ∀ {x : ι}, x ∈ l → pv ≠ some x → L.prev x ≠ some x
  | y :: ys, _, _, ⟨_, hp, hs⟩, hnd, x, hx, hpv => by
    obtain ⟨hy, hnd'⟩ := List.nodup_cons.mp hnd
    rcases List.mem_cons.mp hx with rfl | hx
    · rw [hp]
      exact hpv
    · refine Seg.prev_ne_self hs hnd' hx ?_
      intro e
      cases e
      exact hy hx

lemma DList.prev_ne_self (hd : L.DList h l) (hx : x ∈ l) : L.prev x ≠ some x :=
  hd.seg.prev_ne_self hd.nodup hx (by simp)

lemma DList.next_mem (hd : L.DList h l) (hx : x ∈ l) (hn : L.next x = some n) : n ∈ l :=
  hd.seg.next_mem hx hn

lemma DList.prev_mem (hd : L.DList h l) (hx : x ∈ l) (hp : L.prev x = some p) : p ∈ l := by
  rcases hd.seg.prev_mem hx hp with h | h
  · exact h
  · cases h

variable [DecidableEq ι]

lemma Seg.setPrev?_head {pv' : Option ι} (hs : L.Seg pv h l) (hnd : l.Nodup) :
    (L.setPrev? h pv').Seg pv' h l := by
  cases l with
  | nil => exact hs
  | cons x xs =>
    obtain ⟨rfl, _, htl⟩ := hs
    refine ⟨rfl, by simp, ?_⟩
    rw [setPrev?_next]
    refine htl.congr fun y hy => ⟨by simp, ?_⟩
    have hne : x ≠ y := fun e => (List.nodup_cons.mp hnd).1 (e ▸ hy)
    simp [hne]

/-! ## Linking a node in -/

lemma DList.push (hd : L.DList h l) (hx : x ∉ l) : (L.push h x).DList (some x) (x :: l) := by
  refine ⟨⟨rfl, ?_, ?_⟩, List.nodup_cons.mpr ⟨hx, hd.nodup⟩⟩
  · have hne : h ≠ some x := by
      intro e
      rw [hd.head] at e
      exact hx (List.mem_of_mem_head? e)
    simp [Links.push, hne]
  · have hseg : ((L.setNext x h).setPrev x none).Seg none h l := by
      refine hd.seg.congr fun y hy => ?_
      have hne : y ≠ x := fun e => hx (e ▸ hy)
      simp [hne]
    have hnext : (L.push h x).next x = h := by simp [Links.push]
    rw [hnext]
    exact hseg.setPrev?_head hd.nodup

lemma DList.push_frame (hd : L.DList h l) (hd' : L.DList h' l') (hx : x ∉ l')
    (hdis : ∀ y ∈ l, y ∉ l') : (L.push h x).DList h' l' := by
  refine hd'.congr fun y hy => ?_
  have hyx : y ≠ x := fun e => hx (e ▸ hy)
  have hyh : h ≠ some y := by
    intro e
    rw [hd.head] at e
    exact hdis y (List.mem_of_mem_head? e) hy
  simp [Links.push, hyx, hyh]

/-! ## Taking a node out -/

/-- The segment form of `DList.unlink`. The induction runs along the
segment, so the predecessor of its first node is a parameter that must
stand outside it. -/
lemma Seg.unlink :
    ∀ {l : List ι} {pv h : Option ι}, L.Seg pv h l → l.Nodup → (∀ p, pv = some p → p ∉ l) → x ∈ l →
    (L.unlink x).Seg pv (if h = some x then L.next x else h) (l.erase x)
  | y :: ys, pv, h, ⟨hh, hp, hs⟩, hnd, hpv, hx => by
    obtain ⟨hy, hnd'⟩ := List.nodup_cons.mp hnd
    by_cases hyx : y = x
    · -- `x` is the first node: its successor inherits `pv`
      subst hyx
      rw [if_pos hh, List.erase_cons_head]
      have hseg : (L.setNext? (L.prev y) (L.next y)).Seg (some y) (L.next y) ys := by
        refine hs.congr fun z hz => ⟨?_, by simp⟩
        have hne : L.prev y ≠ some z := fun e => hpv z (hp ▸ e) (by simp [hz])
        simp [hne]
      rw [Links.unlink, hp] at *
      exact hseg.setPrev?_head hnd'
    · -- `x` stands further on: only its predecessor's `next` can change here
      have hx' : x ∈ ys := by
        rcases List.mem_cons.mp hx with e | e
        · exact absurd e.symm hyx
        · exact e
      have hh' : h ≠ some x := by rw [hh]; simpa using hyx
      rw [if_neg hh', List.erase_cons_tail (by simpa using hyx)]
      have hnx : L.next x ≠ some y := fun e => hy (hs.next_mem hx' e)
      refine ⟨hh, by simp [Links.unlink, hnx, hp], ?_⟩
      have ih := Seg.unlink hs hnd' (by rintro p ⟨⟩; exact hy) hx'
      have hstep : (L.unlink x).next y = if L.next y = some x then L.next x else L.next y := by
        simp only [Links.unlink, setPrev?_next, setNext?_next]
        by_cases hyn : L.next y = some x
        · have hpx : L.prev x = some y := by
            cases ys with
            | nil => simp at hx'
            | cons z zs =>
              obtain ⟨hz, hpz, _⟩ := hs
              rw [hyn] at hz
              cases hz
              exact hpz
          rw [if_pos hpx, if_pos hyn]
        · have hpx : L.prev x ≠ some y := by
            intro e
            cases ys with
            | nil => simp at hx'
            | cons z zs =>
              obtain ⟨hz, _, hs'⟩ := hs
              rcases List.mem_cons.mp hx' with rfl | hxz
              · exact hyn hz
              · rcases hs'.prev_mem hxz e with h1 | h1
                · exact hy (by simp [h1])
                · cases h1
                  exact hy (by simp)
          rw [if_neg hpx, if_neg hyn]
      rw [hstep]
      exact ih

lemma DList.unlinkHead_eq (hd : L.DList h l) (hx : x ∈ l) :
    L.unlinkHead h x = if h = some x then L.next x else h := by
  cases l with
  | nil => simp at hx
  | cons y ys =>
    obtain ⟨hh, hp, hs⟩ := hd.seg
    obtain ⟨hy, _⟩ := List.nodup_cons.mp hd.nodup
    unfold Links.unlinkHead
    by_cases hyx : y = x
    · subst hyx
      rw [if_pos hh, hp]
    · have hx' : x ∈ ys := by
        rcases List.mem_cons.mp hx with e | e
        · exact absurd e.symm hyx
        · exact e
      have hh' : h ≠ some x := by rw [hh]; simpa using hyx
      rw [if_neg hh']
      cases hpx : L.prev x with
      | none => exact absurd hpx (hs.prev_ne_none hx')
      | some _ => rfl

lemma DList.unlink (hd : L.DList h l) (hx : x ∈ l) :
    (L.unlink x).DList (L.unlinkHead h x) (l.erase x) := by
  refine ⟨?_, hd.nodup.erase x⟩
  rw [hd.unlinkHead_eq hx]
  exact hd.seg.unlink hd.nodup (by rintro p ⟨⟩) hx

lemma DList.unlink_frame (hd : L.DList h l) (hx : x ∈ l) (hd' : L.DList h' l')
    (hdis : ∀ y ∈ l, y ∉ l') : (L.unlink x).DList h' l' := by
  refine hd'.congr fun y hy => ?_
  have hp : L.prev x ≠ some y := fun e => hdis y (hd.prev_mem hx e) hy
  have hn : L.next x ≠ some y := fun e => hdis y (hd.next_mem hx e) hy
  simp [Links.unlink, hp, hn]

end Links

end VortexOS.Lib
