/-
VortexOS.Mm.VmmTrees — page tables as trees of tables in memory.

The paths to tables of the user half (`tablePaths`) have at most three
slots, the first of them below 256, and the paths to pages (`pagePaths`)
have four. Two stores change such a tree. A new table is linked into an
empty slot (`EmptySlot`): no entry for a page changes. An entry for a page
is set in a last table (`LeafSlot`): no table changes, and no other entry
for a page. Both are stated for a tree at any set of paths.
-/
import VortexOS.Mm.VmmTables

namespace VortexOS.Mm

open Function Lib

variable {p q r : List Nat} {virt i root t g j u : Nat} {m : WordMem} {flags : BitVec 32}
  {P : Set (List Nat)}

/-! ## Paths -/

def UserPath (p : List Nat) : Prop := (∀ i ∈ p, i < 512) ∧ ∀ i ∈ p.head?, i < 256

def tablePaths : Set (List Nat) := {p | UserPath p ∧ p.length ≤ 3}

def pagePaths : Set (List Nat) := {p | UserPath p ∧ p.length = 4}

def pathOf (virt : Nat) : List Nat := upperIdx virt ++ [getPtIdx virt]

lemma UserPath.of_append (h : UserPath (p ++ q)) : UserPath p := by
  refine ⟨fun i hi => h.1 i (by simp [hi]), ?_⟩
  cases p with
  | nil => simp
  | cons i p => exact h.2

lemma UserPath.within (h : UserPath r) (hlen : r.length ≤ 4) : Within tablePaths 512 r := by
  intro q i s hr
  subst hr
  simp only [List.length_append, List.length_cons] at hlen
  exact ⟨⟨h.of_append, by omega⟩, h.1 i (by simp)⟩

lemma tablePaths_within (h : r ∈ tablePaths) : Within tablePaths 512 r :=
  h.1.within (Nat.le_succ_of_le h.2)

lemma tablePaths_nil : [] ∈ tablePaths := by
  simp [tablePaths, UserPath]

lemma and_511_eq (x : Nat) : x &&& 0x1FF = x % 512 := Nat.and_two_pow_sub_one_eq_mod x 9

lemma and_511_lt (x : Nat) : x &&& 0x1FF < 512 := by
  rw [and_511_eq]
  exact Nat.mod_lt _ (by decide)

lemma upperIdx_lt (virt : Nat) : ∀ i ∈ upperIdx virt, i < 512 := by
  intro i hi
  simp only [upperIdx, List.mem_cons, List.not_mem_nil, or_false] at hi
  rcases hi with rfl | rfl | rfl <;> exact and_511_lt _

lemma userPath_pathOf (h : virt < 2 ^ 47) : UserPath (pathOf virt) := by
  have hhead : getPml4Idx virt < 256 := by
    have hle : (virt >>> 39) &&& 0x1FF ≤ virt >>> 39 := Nat.and_le_left
    have hlt : virt >>> 39 < 256 := by
      rw [Nat.shiftRight_eq_div_pow]
      omega
    exact Nat.lt_of_le_of_lt hle hlt
  refine ⟨?_, by simpa [pathOf, upperIdx] using hhead⟩
  simp [pathOf, upperIdx, getPml4Idx, getPdptIdx, getPdIdx, getPtIdx, and_511_lt]

lemma pathOf_mem (h : virt < 2 ^ 47) : pathOf virt ∈ pagePaths :=
  ⟨userPath_pathOf h, rfl⟩

lemma pagePaths_split (hp : q ++ [i] ∈ pagePaths) : q ∈ tablePaths ∧ q.length = 3 ∧ i < 512 := by
  have hlen : q.length = 3 := by simpa using hp.2
  exact ⟨⟨hp.1.of_append, Nat.le_of_eq hlen⟩, hlen, hp.1.1 i (by simp)⟩

lemma exists_pathOf (hp : p ∈ pagePaths) : ∃ virt < 2 ^ 47, pathOf virt = p := by
  obtain ⟨⟨hlt, hhead⟩, hlen⟩ := hp
  match p, hlen with
  | [i, j, k, l], _ =>
    have hi : i < 256 := hhead i rfl
    have hj : j < 512 := hlt j (by simp)
    have hk : k < 512 := hlt k (by simp)
    have hl : l < 512 := hlt l (by simp)
    refine ⟨i * 2 ^ 39 + j * 2 ^ 30 + k * 2 ^ 21 + l * 2 ^ 12, by omega, ?_⟩
    simp only [pathOf, upperIdx, getPml4Idx, getPdptIdx, getPdIdx, getPtIdx, and_511_eq,
      Nat.shiftRight_eq_div_pow, List.cons_append, List.nil_append, List.cons.injEq, and_true]
    omega

lemma upperIdx_mem (h : virt < 2 ^ 47) : upperIdx virt ∈ tablePaths :=
  ⟨(userPath_pathOf h).of_append, Nat.le_refl 3⟩

lemma tablePaths_of_prefix (hp : p <+: q) (hq : q ∈ tablePaths) : p ∈ tablePaths := by
  obtain ⟨r, rfl⟩ := hp
  exact ⟨hq.1.of_append, Nat.le_trans (by simp) hq.2⟩

/-- The table, or the page, at a path. -/
abbrev tableAt (m : WordMem) (root : Nat) (p : List Nat) : Option Nat :=
  walk nextFrame (entryAt m) root p

lemma tableAt_cons (m : WordMem) (t i : Nat) (p : List Nat) :
    tableAt m t (i :: p) = (nextFrame (entryAt m t i)).bind fun u => tableAt m u p := rfl

lemma tableAt_concat (m : WordMem) (root i : Nat) (p : List Nat) :
    tableAt m root (p ++ [i]) = (tableAt m root p).bind fun t => nextFrame (entryAt m t i) :=
  walk_concat root i p

lemma tableAt_of_writable {f : Nat} (h : walk nextWritable (entryAt m) root p = some f) :
    tableAt m root p = some f :=
  walk_mono (fun _ _ he => (nextFrame_of_nextWritable he).1) h

def userTables (m : WordMem) (root : Nat) : Set Nat :=
  tables nextFrame tablePaths (entryAt m) root

/-! ## Entries -/

def newTableEntry (g : Nat) : BitVec 64 :=
  BitVec.ofNat 64 (pfnToPhys g) ||| pagePresent ||| pageWrite ||| pageUser

def leafEntry (phys : Nat) (flags : BitVec 32) : BitVec 64 :=
  (BitVec.ofNat 64 phys &&& addrMask) ||| flags.setWidth 64 ||| pagePresent

lemma present_leafEntry (phys : Nat) (flags : BitVec 32) :
    present (leafEntry phys flags) = true := by
  rw [present_eq, leafEntry, BitVec.getLsbD_or, getLsbD_pagePresent]
  simp

lemma isWrite_leafEntry (phys : Nat) (h : flags.getLsbD 1 = true) :
    isWrite (leafEntry phys flags) = true := by
  rw [isWrite_eq, leafEntry, BitVec.getLsbD_or, BitVec.getLsbD_or, BitVec.getLsbD_setWidth, h]
  simp

lemma isUser_leafEntry (phys : Nat) (h : flags.getLsbD 2 = true) :
    isUser (leafEntry phys flags) = true := by
  rw [isUser_eq, leafEntry, BitVec.getLsbD_or, BitVec.getLsbD_or, BitVec.getLsbD_setWidth, h]
  simp

lemma isWrite_newTableEntry (g : Nat) : isWrite (newTableEntry g) = true := by
  rw [isWrite_eq, newTableEntry, BitVec.getLsbD_or, BitVec.getLsbD_or, getLsbD_pageWrite]
  simp

/-- What `vmm_walk_page_table` returns for an entry. -/
def walkResult (e : Option (BitVec 64)) : Nat := (e.map fun e => (e &&& addrMask).toNat).getD 0

/-- Memory after page `g` has become an empty table in slot `i` of table
`t`. -/
def linkTable (m : WordMem) (t i g : Nat) : WordMem :=
  fun w => if w / 512 = g then 0 else if w = t * 512 + i then newTableEntry g else m w

lemma entryAt_linkTable_new (hj : j < 512) : entryAt (linkTable m t i g) g j = 0 := by
  rw [entryAt, linkTable, if_pos (by omega)]

lemma entryAt_linkTable_slot (hi : i < 512) (htg : t ≠ g) :
    entryAt (linkTable m t i g) t i = newTableEntry g := by
  rw [entryAt, linkTable, if_neg (by omega), if_pos rfl]

lemma entryAt_linkTable_of_ne (hi : i < 512) (hj : j < 512) (hug : u ≠ g)
    (hne : ¬ (u = t ∧ j = i)) : entryAt (linkTable m t i g) u j = entryAt m u j := by
  rw [entryAt, linkTable, if_neg (by omega), if_neg (slot_ne hi hj hne)]
  rfl

lemma linkTable_of_ne {w : Nat} (hi : i < 512) (hg : w / 512 ≠ g) (ht : w / 512 ≠ t) :
    linkTable m t i g w = m w := by
  rw [linkTable, if_neg hg, if_neg (by omega)]

lemma linkTable_eq {s : Kmem} {hhdm : Nat} (hs : s.hhdm = hhdm) (ht : PageOk hhdm t)
    (hg : PageOk hhdm g) (hi : i < 512) :
    (s.setEntry (pagePtr hhdm t) i (newTableEntry g)).zeroTable (pagePtr hhdm g) =
      { s with mem := linkTable s.mem t i g } := by
  rw [Kmem.setEntry_page hs ht hi]
  generalize hs1 : ({ s with mem := _ } : Kmem) = s1
  have hh : s1.hhdm = hhdm := by rw [← hs1]; exact hs
  obtain ⟨hst, hzero⟩ := zeroTable_spec hh hg
  generalize s1.zeroTable (pagePtr hhdm g) = s2 at hst hzero ⊢
  obtain ⟨pmm, mem, kCaches⟩ := s2
  have hmem : mem = linkTable s.mem t i g := by
    funext w
    unfold linkTable
    by_cases hw : w / 512 = g
    · have hword : g * 512 + w % 512 = w := by omega
      have hz := hzero (w % 512) (Nat.mod_lt _ (by decide))
      rw [entryAt, hword] at hz
      rw [if_pos hw]
      exact hz
    · rw [if_neg hw]
      have hkeep : mem w = s1.mem w := hst.mem w fun hin => hw hin.1
      rw [hkeep, ← hs1]
      exact update_apply _ _ _ _
  have hpmm : pmm = s.pmm := hst.pmm.trans (by rw [← hs1])
  have hcaches : kCaches = s.kCaches := hst.kCaches.trans (by rw [← hs1])
  rw [hmem, hpmm, hcaches]

/-- The entry for a page: slot `i` of the last table, at path `q`, if it is
present. -/
def leafAt (m : WordMem) (root : Nat) (q : List Nat) (i : Nat) : Option (BitVec 64) :=
  (tableAt m root q).bind fun t => if present (entryAt m t i) then some (entryAt m t i) else none

lemma tableAt_leaf (m : WordMem) (root : Nat) (q : List Nat) (i : Nat) :
    tableAt m root (q ++ [i]) = (leafAt m root q i).map frameOf := by
  rw [tableAt_concat, leafAt]
  cases tableAt m root q with
  | none => rfl
  | some t =>
    simp only [Option.bind_some, nextFrame]
    split <;> rfl

/-! ## A new table -/

/-- Slot `i` of the table `t` at path `q` is empty, and page `g`, which is to
go there, is no table. -/
structure EmptySlot (P : Set (List Nat)) (m : WordMem) (root : Nat) (q : List Nat) (t i g : Nat) :
    Prop where
  tree : IsTree nextFrame P (entryAt m) root
  within : ∀ p ∈ P, Within P 512 p
  path : q ++ [i] ∈ P
  table : tableAt m root q = some t
  empty : nextFrame (entryAt m t i) = none
  fresh : ∀ p ∈ P, ∀ u, tableAt m root p = some u → u ≠ g
  small : g < 2 ^ 40

namespace EmptySlot

section

variable (h : EmptySlot P m root q t i g)
include h

lemma mem : q ∈ P := (h.within _ h.path q i [] rfl).1

lemma index : i < 512 := (h.within _ h.path q i [] rfl).2

lemma tableAt_link (hr : Within P 512 r) :
    tableAt (linkTable m t i g) root r = if r = q ++ [i] then some g else tableAt m root r := by
  have hset : nextFrame (entryAt (linkTable m t i g) t i) = some g := by
    rw [entryAt_linkTable_slot h.index (h.fresh q h.mem t h.table)]
    exact nextFrame_newTable h.small
  apply walk_link h.tree h.mem h.table h.empty _ hset _ (h.within q h.mem) hr
  · rintro u ⟨p, hp, hu⟩ j hj hslot
    rw [entryAt_linkTable_of_ne h.index hj (h.fresh p hp u hu) hslot]
  · intro j hj
    rw [entryAt_linkTable_new hj]
    rfl

lemma table_cases (hp : p ∈ P) (hu : tableAt (linkTable m t i g) root p = some u) :
    (p = q ++ [i] ∧ u = g) ∨ tableAt m root p = some u := by
  rw [h.tableAt_link (h.within p hp)] at hu
  split at hu
  · exact Or.inl ⟨‹_›, (Option.some.inj hu).symm⟩
  · exact Or.inr hu

lemma tableAt_new : tableAt (linkTable m t i g) root (q ++ [i]) = some g := by
  rw [h.tableAt_link (h.within _ h.path), if_pos rfl]

lemma noTable : tableAt m root (q ++ [i]) = none := by
  rw [tableAt_concat, h.table]
  exact h.empty

lemma table_stays (hp : p ∈ P) (hu : tableAt m root p = some u) :
    tableAt (linkTable m t i g) root p = some u := by
  rw [h.tableAt_link (h.within p hp), if_neg, hu]
  rintro rfl
  rw [h.noTable] at hu
  cases hu

lemma isTree : IsTree nextFrame P (entryAt (linkTable m t i g)) root := by
  intro p hp p' hp' u hu hu'
  cases h.table_cases hp hu with
  | inl hnew =>
    cases h.table_cases hp' hu' with
    | inl hnew' => rw [hnew.1, hnew'.1]
    | inr hold' => exact absurd hnew.2 (h.fresh p' hp' u hold')
  | inr hold =>
    cases h.table_cases hp' hu' with
    | inl hnew' => exact absurd hnew'.2 (h.fresh p hp u hold)
    | inr hold' => exact h.tree p hp p' hp' u hold hold'

lemma entryAt_link (hp : p ∈ P) (hu : tableAt m root p = some u) (hne : p ≠ q) (hj : j < 512) :
    entryAt (linkTable m t i g) u j = entryAt m u j := by
  refine entryAt_linkTable_of_ne h.index hj (h.fresh p hp u hu) fun heq => hne ?_
  exact h.tree p hp q h.mem u hu (heq.1 ▸ h.table)

lemma leafAt_link (hp : p ∈ P) (hne : p ≠ q) (hj : j < 512) :
    leafAt (linkTable m t i g) root p j = leafAt m root p j := by
  unfold leafAt
  rw [h.tableAt_link (h.within p hp)]
  by_cases hnew : p = q ++ [i]
  · rw [if_pos hnew, hnew, h.noTable, Option.bind_some, entryAt_linkTable_new hj]
    rfl
  · rw [if_neg hnew]
    cases hu : tableAt m root p with
    | none => rfl
    | some u => rw [Option.bind_some, Option.bind_some, h.entryAt_link hp hu hne hj]

end

end EmptySlot

/-! ## An entry for a page -/

/-- Slot `i` of the table `t` at path `q`, which is a last table. -/
structure LeafSlot (P : Set (List Nat)) (m : WordMem) (root : Nat) (q : List Nat) (t i : Nat) :
    Prop where
  tree : IsTree nextFrame P (entryAt m) root
  within : ∀ p ∈ P, Within P 512 p
  last : ∀ p ∈ P, p.length ≤ q.length
  path : q ∈ P
  table : tableAt m root q = some t
  index : i < 512

namespace LeafSlot

section

variable (h : LeafSlot P m root q t i) (e : BitVec 64) (hp : p ∈ P)
include h hp

lemma tableAt_set : tableAt (update m (t * 512 + i) e) root p = tableAt m root p := by
  have hsame : ∀ u ∈ tables nextFrame P (entryAt m) root, ∀ j < 512, ¬ (u = t ∧ j = i) →
      nextFrame (entryAt (update m (t * 512 + i) e) u j) = nextFrame (entryAt m u j) := by
    intro u _ j hj hne
    rw [entryAt_update_of_ne e h.index hj hne]
  apply walk_unaffected (h.tree.unique h.path h.table) hsame (h.within p hp)
  intro hle
  have hlong := hle.length_le
  have hlast := h.last p hp
  simp only [List.length_append, List.length_singleton] at hlong
  omega

lemma entryAt_set (hu : tableAt m root p = some u) (hj : j < 512) :
    entryAt (update m (t * 512 + i) e) u j = if p = q ∧ j = i then e else entryAt m u j := by
  by_cases hslot : u = t ∧ j = i
  · obtain ⟨rfl, rfl⟩ := hslot
    rw [if_pos ⟨h.tree p hp q h.path u hu h.table, rfl⟩]
    exact entryAt_update_self _ _ _ _
  · rw [entryAt_update_of_ne e h.index hj hslot, if_neg]
    rintro ⟨rfl, hij⟩
    rw [h.table] at hu
    exact hslot ⟨(Option.some.inj hu).symm, hij⟩

lemma leafAt_set (hj : j < 512) : leafAt (update m (t * 512 + i) e) root p j =
      if p = q ∧ j = i then (if present e then some e else none) else leafAt m root p j := by
  unfold leafAt
  rw [h.tableAt_set e hp]
  cases hu : tableAt m root p with
  | none =>
    rw [if_neg]
    · rfl
    · rintro ⟨rfl, -⟩
      rw [h.table] at hu
      cases hu
  | some u =>
    simp only [Option.bind_some, h.entryAt_set e hp hu hj]
    split <;> rfl

end

end LeafSlot

lemma storesTo_slot (s : Kmem) (t : Nat) (hi : i < 512) (e : BitVec 64) :
    StoresTo {w | w / 512 = t} s { s with mem := update s.mem (t * 512 + i) e } := by
  refine ⟨rfl, rfl, fun w hw => update_of_ne (fun heq => hw ?_) _ _⟩
  simp only [Set.mem_ofPred_eq]
  omega

end VortexOS.Mm
