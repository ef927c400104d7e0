/-
VortexOS.Lib.Queue — intrusive singly linked queues.

The nodes live in a table indexed by `ι` and carry one link field `next`;
the queue is a head and a tail pointer held somewhere else. `Seg next h l e`
says that following `next` from `h` visits exactly `l` and arrives at `e`.
`Fifo next head tail l` describes a queue with members `l`, oldest first.

The operations are written as the stores C code performs: `pushBack`,
`takeOut` for a node whose predecessor is known, and for lists with a head
pointer only `Seg.push` and `Seg.unlink`. `findPrev`, `findCell`,
`foldChain`, `searchChain` and `nthChain` are the loops. They take a number
of rounds and return `none` when it does not suffice, as on a cyclic chain.
-/
import Mathlib

namespace VortexOS.Lib

open Function

variable {ι : Type}

/-- Following `next` from `h` visits exactly `l` and arrives at `e`. -/
def Seg (next : ι → Option ι) : Option ι → List ι → Option ι → Prop
  | h, [], e => h = e
  | h, x :: xs, e => h = some x ∧ Seg next (next x) xs e

/-- `head` and `tail` describe the queue with members `l`. -/
structure Fifo (next : ι → Option ι) (head tail : Option ι) (l : List ι) : Prop where
  seg : Seg next head l none
  tail_eq : tail = l.getLast?
  nodup : l.Nodup

/-! ## Segments -/

section

variable {next next' : ι → Option ι} {a b l l' : List ι} {h e : Option ι}

lemma Seg.head (hs : Seg next h l none) : h = l.head? := by
  cases l with
  | nil => exact hs
  | cons x xs => exact hs.1

lemma Seg.congr (hs : Seg next h l e) (hag : ∀ x ∈ l, next' x = next x) : Seg next' h l e := by
  induction l generalizing h with
  | nil => exact hs
  | cons x xs ih =>
    obtain ⟨hh, ht⟩ := hs
    refine ⟨hh, ?_⟩
    rw [hag x (by simp)]
    exact ih ht fun y hy => hag y (by simp [hy])

lemma seg_append : Seg next h (a ++ b) e ↔ ∃ m, Seg next h a m ∧ Seg next m b e := by
  induction a generalizing h with
  | nil => simp [Seg]
  | cons x xs ih => simp [Seg, ih, and_assoc]

lemma Seg.unique (hs : Seg next h l none) (hs' : Seg next h l' none) : l = l' := by
  induction l generalizing h l' with
  | nil =>
    cases l' with
    | nil => rfl
    | cons y ys =>
      rw [show h = none from hs] at hs'
      cases hs'.1
  | cons x xs ih =>
    cases l' with
    | nil =>
      rw [show h = none from hs'] at hs
      cases hs.1
    | cons y ys =>
      have hxy : x = y := Option.mem_unique hs.1 hs'.1
      subst hxy
      rw [ih hs.2 hs'.2]

end

section

variable {next next' : ι → Option ι} {head tail : Option ι} {l : List ι}

lemma Fifo.congr (hf : Fifo next head tail l) (hag : ∀ y ∈ l, next' y = next y) :
    Fifo next' head tail l :=
  ⟨hf.seg.congr hag, hf.tail_eq, hf.nodup⟩

lemma Fifo.empty : Fifo next none none [] := ⟨rfl, rfl, List.nodup_nil⟩

lemma Fifo.tail_eq_none (hf : Fifo next head tail l) : tail = none ↔ l = [] := by
  rw [hf.tail_eq, List.getLast?_eq_none_iff]

end

/-! ## Loops along a chain -/

def chainList (next : ι → Option ι) : Nat → Option ι → List ι
  | 0, _ => []
  | _ + 1, none => []
  | n + 1, some x => x :: chainList next n (next x)

/-- `while (curr) { b = f(b, curr); curr = curr->next; }` -/
def foldChain {β : Type} (next : ι → Option ι) (f : β → ι → β) : Nat → Option ι → β → Option β
  | _, none, b => some b
  | 0, some _, _ => none
  | n + 1, some x, b => foldChain next f n (next x) (f b x)

/-- `while (curr) { if (p(curr)) return curr; curr = curr->next; }`, and
null behind the loop. -/
def searchChain (next : ι → Option ι) (p : ι → Bool) : Nat → Option ι → Option (Option ι)
  | _, none => some none
  | 0, some _ => none
  | n + 1, some x => if p x then some (some x) else searchChain next p n (next x)

/-- `while (curr) { if (i == index) return curr; curr = curr->next; ++i; }`,
and null behind the loop; `k` is `index - i`. -/
def nthChain (next : ι → Option ι) : Nat → Option ι → Nat → Option (Option ι)
  | _, none, _ => some none
  | 0, some _, _ => none
  | _ + 1, some x, 0 => some (some x)
  | n + 1, some x, k + 1 => nthChain next n (next x) k

lemma Seg.loop_induction {next : ι → Option ι} {motive : Nat → Option ι → List ι → Prop}
    (nil : ∀ n, motive n none [])
    (cons : ∀ n x xs, motive n (next x) xs → motive (n + 1) (some x) (x :: xs)) {l : List ι}
    {h : Option ι} {n : Nat} (hs : Seg next h l none) (hn : l.length ≤ n) : motive n h l := by
  induction l generalizing h n with
  | nil =>
    cases hs
    exact nil n
  | cons x xs ih =>
    obtain ⟨rfl, ht⟩ := hs
    cases n with
    | zero => simp at hn
    | succ n => exact cons n x xs (ih ht (by simpa using hn))

section

variable {next : ι → Option ι} {l : List ι} {h : Option ι} {n : Nat}

lemma Seg.chainList_eq (hs : Seg next h l none) (hn : l.length ≤ n) : chainList next n h = l := by
  refine Seg.loop_induction (motive := fun n h l => chainList next n h = l) ?_ ?_ hs hn
  · intro n
    cases n <;> rfl
  · intro n x xs ih
    rw [chainList, ih]

lemma Seg.foldChain_eq {β : Type} {f : β → ι → β} {b : β} (hs : Seg next h l none)
    (hn : l.length ≤ n) : foldChain next f n h b = some (l.foldl f b) := by
  refine Seg.loop_induction (motive := fun n h l =>
    ∀ b, foldChain next f n h b = some (l.foldl f b))
    ?_ ?_ hs hn b
  · intro n b
    cases n <;> rfl
  · intro n x xs ih b
    exact ih (f b x)

lemma Seg.searchChain_eq {p : ι → Bool} (hs : Seg next h l none) (hn : l.length ≤ n) :
    searchChain next p n h = some (l.find? p) := by
  refine Seg.loop_induction (motive := fun n h l => searchChain next p n h = some (l.find? p))
    ?_ ?_ hs hn
  · intro n
    cases n <;> rfl
  · intro n x xs ih
    rw [searchChain, ih]
    cases hp : p x <;> simp [hp]

lemma Seg.nthChain_eq (hs : Seg next h l none) (hn : l.length ≤ n) (k : Nat) :
    nthChain next n h k = some l[k]? := by
  refine Seg.loop_induction (motive := fun n h l => ∀ k, nthChain next n h k = some l[k]?)
    ?_ ?_ hs hn k
  · intro n k
    cases n <;> rfl
  · intro n x xs ih k
    cases k with
    | zero => rfl
    | succ k => simpa [nthChain] using ih k

end

lemma find?_key_eq_some {ν : Type} [DecidableEq ν] {f : ι → ν} {l : List ι} (h : (l.map f).Nodup)
    {n : ν} {x : ι} : l.find? (fun y => decide (f y = n)) = some x ↔ x ∈ l ∧ f x = n := by
  constructor
  · intro hf
    exact ⟨List.mem_of_find?_eq_some hf, by simpa using List.find?_some hf⟩
  · rintro ⟨hx, rfl⟩
    cases hf : l.find? (fun y => decide (f y = f x)) with
    | none => simpa using List.find?_eq_none.mp hf x hx
    | some y =>
      have hy : f y = f x := by simpa using List.find?_some hf
      rw [List.inj_on_of_nodup_map h (List.mem_of_find?_eq_some hf) hx hy]

variable [DecidableEq ι] {next : ι → Option ι} {head tail h prev pp head' tail' : Option ι}
    {n : Nat}
  {a b l l' : List ι} {x y : ι}

/-- `while (curr != x) { prev = curr; curr = curr->next; }`, returning
`prev`. Running into the end of the chain is a null dereference. -/
def findPrev (next : ι → Option ι) (x : ι) : Nat → Option ι → Option ι → Option (Option ι)
  | _, _, none => none
  | 0, prev, some c => if c = x then some prev else none
  | n + 1, prev, some c => if c = x then some prev else findPrev next x n (some c) (next c)

lemma Seg.findPrev_eq (hs : Seg next h (a ++ x :: b) none) (hx : x ∉ a) (hn : a.length ≤ n) :
    findPrev next x n prev h = some (a.getLast?.or prev) := by
  induction a generalizing h prev n with
  | nil =>
    obtain ⟨rfl, -⟩ := hs
    cases n <;> simp [findPrev]
  | cons y ys ih =>
    obtain ⟨rfl, ht⟩ := hs
    have hy : y ≠ x := fun e => hx (by simp [e])
    cases n with
    | zero => simp at hn
    | succ n =>
      simp only [findPrev, if_neg hy]
      rw [ih ht (fun h => hx (by simp [h])) (by simpa using hn), List.getLast?_cons]
      cases ys.getLast? <;> rfl

/-- `while (*pp) { if (*pp == x) return pp; pp = &(*pp)->next; }` with
`curr = *pp`. The pointer to the head pointer is `none`, the one to the link
field of `y` is `some y`; the inner `none` says that the loop has ended. -/
def findCell (next : ι → Option ι) (x : ι) :
    Nat → Option ι → Option ι → Option (Option (Option ι))
  | _, _, none => some none
  | 0, _, some _ => none
  | n + 1, pp, some c => if c = x then some (some pp) else findCell next x n (some c) (next c)

lemma Seg.findCell_eq (hs : Seg next h (a ++ x :: b) none) (hx : x ∉ a) (hn : a.length < n) :
    findCell next x n pp h = some (some (a.getLast?.or pp)) := by
  induction a generalizing h pp n with
  | nil =>
    obtain ⟨rfl, -⟩ := hs
    cases n with
    | zero => simp at hn
    | succ n => simp [findCell]
  | cons y ys ih =>
    obtain ⟨rfl, ht⟩ := hs
    have hy : y ≠ x := fun e => hx (by simp [e])
    cases n with
    | zero => simp at hn
    | succ n =>
      simp only [findCell, if_neg hy]
      rw [ih ht (fun h => hx (by simp [h])) (by simpa using hn), List.getLast?_cons]
      cases ys.getLast? <;> rfl

lemma Seg.findCell_eq_none (hs : Seg next h l none) (hx : x ∉ l) (hn : l.length ≤ n) :
    findCell next x n pp h = some none := by
  refine Seg.loop_induction (motive := fun n h l =>
    ∀ pp, x ∉ l → findCell next x n pp h = some none)
    ?_ ?_ hs hn pp hx
  · intro n pp _
    cases n <;> rfl
  · intro n y ys ih pp hx
    have hy : y ≠ x := fun e => hx (by simp [e])
    rw [findCell, if_neg hy]
    exact ih (some y) fun h => hx (by simp [h])

/-! ## Stores -/

/-- Store `v` in the link field of the node `o` points at, if any. -/
def setNext? (next : ι → Option ι) (o v : Option ι) : ι → Option ι :=
  match o with
  | some x => update next x v
  | none => next

/-- The link fields after `x` has been linked in behind `tail`. -/
def pushBack (next : ι → Option ι) (tail : Option ι) (x : ι) : ι → Option ι :=
  setNext? (update next x none) tail (some x)

/-- The link fields after `x`, which follows `prev`, has been taken out. -/
def takeOut (next : ι → Option ι) (prev : Option ι) (x : ι) : ι → Option ι :=
  update (setNext? next prev (next x)) x none

lemma setNext?_of_ne {o v : Option ι} (h : o ≠ some y) : setNext? next o v y = next y := by
  cases o with
  | none => rfl
  | some z => exact update_of_ne (fun e => h (by rw [e])) _ _

lemma pushBack_of_ne (hx : y ≠ x) (ht : tail ≠ some y) : pushBack next tail x y = next y := by
  rw [pushBack, setNext?_of_ne ht, update_of_ne hx]

lemma takeOut_of_ne (hx : y ≠ x) (hp : prev ≠ some y) : takeOut next prev x y = next y := by
  rw [takeOut, update_of_ne hx, setNext?_of_ne hp]

/-! ## Lists with a head pointer -/

lemma Seg.push (hs : Seg next head l none) (hx : x ∉ l) :
    Seg (update next x head) (some x) (x :: l) none := by
  refine ⟨rfl, ?_⟩
  rw [update_self]
  exact hs.congr fun y hy => update_of_ne (fun e : y = x => hx (e ▸ hy)) _ _

lemma Seg.unlink (hs : Seg next head (a ++ x :: b) none) (hnd : (a ++ x :: b).Nodup) :
    Seg (setNext? next a.getLast? (next x)) (if a = [] then next x else head) (a ++ b) none := by
  obtain ⟨m, ha, rfl, hb⟩ := seg_append.mp hs
  rcases List.eq_nil_or_concat' a with rfl | ⟨a', p, rfl⟩
  · exact hb
  · obtain ⟨m', ha', rfl, hp⟩ := seg_append.mp ha
    have hdis := List.nodup_append.mp hnd
    have hpa : p ∉ a' := fun h => (List.nodup_append.mp hdis.1).2.2 p h p (by simp) rfl
    rw [if_neg (by simp), List.append_assoc, List.getLast?_concat]
    refine seg_append.mpr ⟨some p, ?_, rfl, ?_⟩
    · exact ha'.congr fun y hy => setNext?_of_ne fun e => hpa (Option.some.inj e ▸ hy)
    · rw [setNext?, update_self]
      refine hb.congr fun y hy => update_of_ne (fun e => ?_) _ _
      exact hdis.2.2 p (by simp) y (by simp [hy]) e.symm

/-! ## Queue operations -/

lemma Fifo.push (hf : Fifo next head tail l) (hx : x ∉ l) :
    Fifo (pushBack next tail x) (if tail = none then some x else head) (some x) (l ++ [x]) := by
  refine ⟨?_, by simp, by simpa using List.Nodup.concat hx hf.nodup⟩
  rcases List.eq_nil_or_concat' l with rfl | ⟨a, t, rfl⟩
  · -- the queue was empty: `x` becomes the head
    rw [if_pos (hf.tail_eq_none.mpr rfl), hf.tail_eq]
    exact ⟨rfl, by simp [pushBack, setNext?, Seg]⟩
  · have ht : tail = some t := by simpa using hf.tail_eq
    obtain ⟨m, hs, rfl, hend⟩ := seg_append.mp hf.seg
    have hnd := List.nodup_append.mp hf.nodup
    have hta : t ∉ a := fun h => hnd.2.2 t h t (by simp) rfl
    have htx : t ≠ x := fun e => hx (by simp [e])
    rw [if_neg (by simp [ht]), ht, List.append_assoc]
    refine seg_append.mpr ⟨some t, ?_, rfl, ?_, ?_⟩
    · refine hs.congr fun y hy => pushBack_of_ne ?_ ?_
      · exact fun e => hx (by simp [← e, hy])
      · exact fun e => hta (Option.some.inj e ▸ hy)
    · simp [pushBack, setNext?]
    · rw [pushBack, setNext?, update_of_ne htx.symm, update_self]
      rfl

lemma Fifo.push_frame (hf : Fifo next head tail l) (hf' : Fifo next head' tail' l') (hx : x ∉ l')
    (hdis : ∀ y ∈ l, y ∉ l') : Fifo (pushBack next tail x) head' tail' l' := by
  refine hf'.congr fun y hy => pushBack_of_ne (fun e => hx (e ▸ hy)) ?_
  intro e
  rw [hf.tail_eq] at e
  exact hdis y (List.mem_of_getLast? e) hy

lemma Fifo.takeOut (hf : Fifo next head tail (a ++ x :: b)) : Fifo (takeOut next a.getLast? x)
      (if a = [] then next x else head) (if next x = none then a.getLast? else tail) (a ++ b) := by
  have hnd := List.nodup_append.mp hf.nodup
  obtain ⟨hxb, hndb⟩ := List.nodup_cons.mp hnd.2.1
  obtain ⟨m, hs, rfl, ht⟩ := seg_append.mp hf.seg
  refine ⟨?_, ?_, ?_⟩
  · -- behind the node before `x`, or from the new head, the chain goes on with `b`
    have hb : ∀ p : Option ι, (∀ y ∈ b, p ≠ some y) →
        Seg (Lib.takeOut next p x) (next x) b none := fun p hp =>
      ht.congr fun y hy => takeOut_of_ne (fun e => hxb (e ▸ hy)) (hp y hy)
    rcases List.eq_nil_or_concat' a with rfl | ⟨a', p, rfl⟩
    · simpa using hb none (by simp)
    · obtain ⟨m', hs', rfl, hp⟩ := seg_append.mp hs
      have hpx : p ≠ x := hnd.2.2 p (by simp) x (by simp)
      have hpa : p ∉ a' := fun h => (List.nodup_append.mp hnd.1).2.2 p h p (by simp) rfl
      rw [if_neg (by simp), List.append_assoc, List.getLast?_concat]
      refine seg_append.mpr ⟨some p, ?_, rfl, ?_⟩
      · refine hs'.congr fun y hy => takeOut_of_ne ?_ ?_
        · exact hnd.2.2 y (by simp [hy]) x (by simp)
        · exact fun e => hpa (Option.some.inj e ▸ hy)
      · have hpn : Lib.takeOut next (some p) x p = next x := by
          rw [Lib.takeOut, update_of_ne hpx]
          simp [setNext?]
        rw [hpn]
        exact hb (some p) fun y hy e =>
          hnd.2.2 p (by simp) y (by simp [hy]) (Option.some.inj e)
  · have htl := hf.tail_eq
    cases b with
    | nil => simp [show next x = none from ht]
    | cons y ys => simpa [ht.1, List.getLast?_append, List.getLast?_cons_cons] using htl
  · exact List.nodup_append.mpr ⟨hnd.1, hndb, fun u hu v hv => hnd.2.2 u hu v (by simp [hv])⟩

lemma Fifo.takeOut_frame (hf' : Fifo next head' tail' l') (hdis : ∀ y ∈ a ++ x :: b, y ∉ l') :
    Fifo (Lib.takeOut next a.getLast? x) head' tail' l' := by
  refine hf'.congr fun y hy => takeOut_of_ne ?_ ?_
  · exact fun e => hdis x (by simp) (e ▸ hy)
  · exact fun e => hdis y (by simp [List.mem_of_getLast? e]) hy

end VortexOS.Lib
