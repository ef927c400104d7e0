/-
VortexOS.Lib.Radix — trees of tables in memory.

A table is a row of slots, and an entry in a slot may lead to a further
table. `next` decodes an entry; nothing else is assumed of entries.

Tables are shared memory cells, so a store to one table may change many
walks. A walk only depends on the entries it reads (`walk_congr`), and where
every table has one path (`IsTree`) a store to one slot changes only the
walks through it (`walk_unaffected`). `walk_link` hangs a new table into a
slot; `walk_moved` turns an entry to a copy of what it led to, and asks for
no tree.
-/
import Mathlib

namespace VortexOS.Lib

variable {E : Type} {next : E → Option Nat}

variable (next) in
/-- The table that the slots `p` lead to from table `t`. -/
def walk (m : Nat → Nat → E) : Nat → List Nat → Option Nat
  | t, [] => some t
  | t, i :: p => (next (m t i)).bind fun u => walk m u p

variable {m m' : Nat → Nat → E}

@[simp] lemma walk_nil (t : Nat) : walk next m t [] = some t := rfl

@[simp] lemma walk_cons (t i : Nat) (p : List Nat) :
    walk next m t (i :: p) = (next (m t i)).bind fun u => walk next m u p := rfl

lemma walk_append (t : Nat) (p q : List Nat) :
    walk next m t (p ++ q) = (walk next m t p).bind fun u => walk next m u q := by
  induction p generalizing t with
  | nil => rfl
  | cons i p ih =>
    simp only [List.cons_append, walk_cons]
    cases next (m t i) with
    | none => rfl
    | some u => exact ih u

lemma walk_concat (t i : Nat) (p : List Nat) :
    walk next m t (p ++ [i]) = (walk next m t p).bind fun u => next (m u i) := by
  rw [walk_append]
  cases walk next m t p with
  | none => rfl
  | some u => simp

lemma walk_congr {t : Nat} {p : List Nat}
    (h : ∀ q i r u, p = q ++ i :: r → walk next m t q = some u → next (m' u i) = next (m u i)) :
    walk next m' t p = walk next m t p := by
  induction p generalizing t with
  | nil => rfl
  | cons i p ih =>
    rw [walk_cons, walk_cons, h [] i p t rfl rfl]
    cases hn : next (m t i) with
    | none => rfl
    | some u =>
      refine ih fun q j r v hp hq => h (i :: q) j r v (by simp [hp]) ?_
      simpa [hn] using hq

lemma walk_mono {next' : E → Option Nat} (hle : ∀ e u, next' e = some u → next e = some u)
    {t u : Nat} {p : List Nat} (h : walk next' m t p = some u) : walk next m t p = some u := by
  induction p generalizing t with
  | nil => exact h
  | cons i p ih =>
    rw [walk_cons] at h ⊢
    obtain ⟨v, hv, hvu⟩ := Option.bind_eq_some_iff.mp h
    rw [hle _ v hv, Option.bind_some]
    exact ih hvu

/-- Slot `i` of table `t` leads to `g` instead of `f`, and `g` has become a
copy of `f`. A walk that met no `g` before arrives where it did, or at `g`
instead of `f`. -/
lemma walk_moved {t i f g width : Nat} (hold : next (m t i) = some f)
    (hnew : next (m' t i) = some g) (hcopy : ∀ j < width, next (m' g j) = next (m f j))
    (hsame : ∀ u, u ≠ g → ∀ j < width, ¬ (u = t ∧ j = i) → next (m' u j) = next (m u j))
    {p : List Nat} (hp : ∀ j ∈ p, j < width) {a a' : Nat} (ha : a' = a ∨ a = f ∧ a' = g)
    (hg : ∀ q, q <+: p → walk next m a q ≠ some g) : walk next m' a' p = walk next m a p ∨
    walk next m a p = some f ∧ walk next m' a' p = some g := by
  induction p generalizing a a' with
  | nil =>
    cases ha with
    | inl heq => exact Or.inl (congrArg some heq)
    | inr hmoved => exact Or.inr ⟨congrArg some hmoved.1, congrArg some hmoved.2⟩
  | cons j p ih =>
    have hj : j < width := hp j (by simp)
    have hrest : ∀ u u', next (m a j) = some u → next (m' a' j) = some u' →
      (u' = u ∨ u = f ∧ u' = g) →
        walk next m' a' (j :: p) = walk next m a (j :: p) ∨
          walk next m a (j :: p) = some f ∧ walk next m' a' (j :: p) = some g := by
      intro u u' hu hu' hR
      rw [walk_cons, walk_cons, hu, hu']
      refine ih (fun k hk => hp k (by simp [hk])) hR fun q hq hwalk => ?_
      refine hg (j :: q) (List.cons_prefix_cons.mpr ⟨rfl, hq⟩) ?_
      rw [walk_cons, hu]
      exact hwalk
    -- the entry is the one that changed, or it leads where it did
    by_cases hslot : a' = a ∧ a = t ∧ j = i
    · obtain ⟨rfl, rfl, rfl⟩ := hslot
      exact hrest f g hold hnew (Or.inr ⟨rfl, rfl⟩)
    · have heq : next (m' a' j) = next (m a j) := by
        cases ha with
        | inl heq =>
          subst heq
          refine hsame a' (fun h => hg [] List.nil_prefix ?_) j hj fun h => hslot ⟨rfl, h⟩
          rw [h]
          rfl
        | inr hmoved =>
          rw [hmoved.1, hmoved.2]
          exact hcopy j hj
      cases hu : next (m a j) with
      | none =>
        rw [walk_cons, walk_cons, heq, hu]
        exact Or.inl rfl
      | some u => exact hrest u u hu (heq.trans hu) (Or.inl rfl)

/-! ## Trees -/

def tables (next : E → Option Nat) (P : Set (List Nat)) (m : Nat → Nat → E) (root : Nat) :
    Set Nat :=
  {t | ∃ p ∈ P, walk next m root p = some t}

/-- No table is at two of the paths `P`. -/
def IsTree (next : E → Option Nat) (P : Set (List Nat)) (m : Nat → Nat → E) (root : Nat) : Prop :=
  ∀ p ∈ P, ∀ q ∈ P, ∀ t, walk next m root p = some t → walk next m root q = some t → p = q

section

variable {P : Set (List Nat)} {root : Nat}

lemma tables_congr (h : ∀ p ∈ P, walk next m' root p = walk next m root p) :
    tables next P m' root = tables next P m root := by
  have hsub : ∀ {m m' : Nat → Nat → E}, (∀ p ∈ P, walk next m' root p = walk next m root p) →
      tables next P m' root ⊆ tables next P m root := by
    intro m m' h t ht
    obtain ⟨p, hp, hpt⟩ := ht
    exact ⟨p, hp, (h p hp).symm.trans hpt⟩
  exact Set.Subset.antisymm (hsub h) (hsub fun p hp => (h p hp).symm)

lemma IsTree.congr (htree : IsTree next P m root)
    (h : ∀ p ∈ P, walk next m' root p = walk next m root p) : IsTree next P m' root := by
  intro p hp q hq t ht hqt
  rw [h p hp] at ht
  rw [h q hq] at hqt
  exact htree p hp q hq t ht hqt

end

/-- The tables that the walk along `r` reads are at paths in `P`, and it
reads slots below `width`. -/
def Within (P : Set (List Nat)) (width : Nat) (r : List Nat) : Prop :=
  ∀ q i s, r = q ++ i :: s → q ∈ P ∧ i < width

section

variable {P : Set (List Nat)} {width root t i : Nat} {q r : List Nat}

lemma IsTree.unique (htree : IsTree next P m root) (hq : q ∈ P) (ht : walk next m root q = some t) :
    ∀ p ∈ P, walk next m root p = some t → p = q :=
  fun p hp hpt => htree p hp q hq t hpt ht

/-- If `q` is the only path to table `t`, a store to slot `i` of `t`
changes only the walks through that slot; so does a change of whatever is
not a table. -/
lemma walk_unaffected (honly : ∀ p ∈ P, walk next m root p = some t → p = q)
    (hsame : ∀ u ∈ tables next P m root, ∀ j < width, ¬ (u = t ∧ j = i) →
      next (m' u j) = next (m u j)) (hr : Within P width r) (hnot : ¬ q ++ [i] <+: r) :
    walk next m' root r = walk next m root r := by
  apply walk_congr
  intro r1 j r2 u hsplit hu
  obtain ⟨hmem, hj⟩ := hr r1 j r2 hsplit
  apply hsame u ⟨r1, hmem, hu⟩ j hj
  intro heq
  obtain ⟨rfl, rfl⟩ := heq
  obtain rfl := honly r1 hmem hu
  exact hnot ⟨r2, by simp [hsplit]⟩

/-- A new table `g` without entries, hung into the empty slot `i` of the
table at `q`, adds one table and changes no other walk. -/
lemma walk_link {g : Nat} (htree : IsTree next P m root) (hq : q ∈ P)
    (ht : walk next m root q = some t) (hnone : next (m t i) = none)
    (hsame : ∀ u ∈ tables next P m root, ∀ j < width, ¬ (u = t ∧ j = i) →
      next (m' u j) = next (m u j)) (hset : next (m' t i) = some g)
    (hempty : ∀ j < width, next (m' g j) = none) (hpre : Within P width q) (hr : Within P width r) :
    walk next m' root r = if r = q ++ [i] then some g else walk next m root r := by
  have hstay : walk next m' root q = some t := by
    rw [walk_unaffected (htree.unique hq ht) hsame hpre, ht]
    intro hle
    have hlen := hle.length_le
    simp only [List.length_append, List.length_singleton] at hlen
    omega
  by_cases hthrough : q ++ [i] <+: r
  · obtain ⟨r', rfl⟩ := hthrough
    have hold : walk next m root (q ++ [i] ++ r') = none := by
      rw [walk_append, walk_concat, ht]
      simp [hnone]
    rw [hold, walk_append, walk_concat, hstay]
    cases r' with
    | nil => simp [hset]
    | cons j r' =>
      have hj : j < width := (hr (q ++ [i]) j r' rfl).2
      simp [hset, hempty j hj]
  · rw [walk_unaffected (htree.unique hq ht) hsame hr hthrough, if_neg]
    intro heq
    exact hthrough ⟨[], by simp [heq]⟩

end

end VortexOS.Lib
