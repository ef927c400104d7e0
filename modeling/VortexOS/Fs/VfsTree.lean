/-
VortexOS.Fs.VfsTree — the nodes of the file system form a tree.

`Tree s kids` is the invariant: the link fields are a forest with the child
lists `kids`, every child has a larger number than its parent and stands
before its older siblings, and the parent link of a mounted root leads to
its mount point. `vfs_init` makes such a tree whichever of its allocations
fail (`vfsInit_booted`), and a node that is created and linked in keeps it
(`Tree.addNode`).
-/
import VortexOS.Fs.VfsStrings
import VortexOS.Lib.Forest

namespace VortexOS.Fs

open Function Lib

variable {s s' : Vfs} {n r m root : Nat} {node : VfsNode}
  {op : Nat → List Byte → Vfs → Option (Option Nat)}

/-! ## Fields after a store -/

namespace Vfs

variable (s : Vfs) (n m : Nat) (f : VfsNode → VfsNode) (node : VfsNode)

def links : Forest Nat := ⟨s.parent, s.children, s.nextSibling⟩

@[simp] lemma modNode_nodeCount : (s.modNode n f).nodeCount = s.nodeCount := rfl

@[simp] lemma modNode_nodes :
    (s.modNode n f).nodes m = if m = n then f (s.nodes m) else s.nodes m := by
  by_cases h : m = n <;> simp [modNode, h]

@[simp] lemma modNode_kRootNode : (s.modNode n f).kRootNode = s.kRootNode := rfl

@[simp] lemma modNode_kMountList : (s.modNode n f).kMountList = s.kMountList := rfl

@[simp] lemma addMount_kMountList (m r : Nat) :
    (s.addMount m r).kMountList = (m, r) :: s.kMountList := rfl

@[simp] lemma setParent_kMountList (p : Option Nat) :
    (s.setParent n p).kMountList = s.kMountList := rfl

lemma push_modNode : (s.push node).modNode s.nodeCount f = s.push (f node) := by
  simp [modNode, push]

lemma push_setOps (ops : Option VfsOps) :
    (s.push node).setOps s.nodeCount ops = s.push { node with ops := ops } :=
  s.push_modNode _ node

@[simp] lemma bump_nodes : s.bump.nodes = s.nodes := rfl

@[simp] lemma bump_nodeCount : s.bump.nodeCount = s.nodeCount := rfl

@[simp] lemma bump_kRootNode : s.bump.kRootNode = s.kRootNode := rfl

@[simp] lemma bump_kMountList : s.bump.kMountList = s.kMountList := rfl

@[simp] lemma push_nodes : (s.push node).nodes m = if m = s.nodeCount then node else s.nodes m := by
  simp [push, update_apply]

@[simp] lemma push_nodeCount : (s.push node).nodeCount = s.nodeCount + 1 := rfl

@[simp] lemma push_kRootNode : (s.push node).kRootNode = s.kRootNode := rfl

@[simp] lemma push_kMountList : (s.push node).kMountList = s.kMountList := rfl

end Vfs

section

variable (s : Vfs) (p c n : Nat)

@[simp] lemma dirAddChild_nodeCount : (dirAddChild p c s).nodeCount = s.nodeCount := rfl

@[simp] lemma dirAddChild_nodes : (dirAddChild p c s).nodes n =
    { s.nodes n with
      parent := if n = c then some p else s.parent n
      children := if n = p then some c else s.children n
      nextSibling := if n = c then s.children p else s.nextSibling n } := by
  by_cases hp : n = p <;> by_cases hc : n = c <;> by_cases hpc : p = c <;>
    simp_all [dirAddChild, Vfs.setParent, Vfs.parent, Vfs.children, Vfs.nextSibling]

@[simp] lemma dirAddChild_kRootNode : (dirAddChild p c s).kRootNode = s.kRootNode := rfl

@[simp] lemma dirAddChild_kMountList : (dirAddChild p c s).kMountList = s.kMountList := rfl

lemma links_dirAddChild : (dirAddChild p c s).links = s.links.addChild p c := by
  ext n : 2 <;> simp [Vfs.links, Vfs.parent, Vfs.children, Vfs.nextSibling, Forest.addChild,
    update_apply]

end

/-! ## The invariant -/

/-- The child lists of the file system are `kids`, and `R` are the nodes
that are on none of them. -/
structure Tree (s : Vfs) (kids : Nat → List Nat) (R : Set Nat) : Prop where
  forest : s.links.Kids kids
  younger : ∀ d, (kids d).Pairwise (· > ·)
  child : ∀ d, ∀ c ∈ kids d, d < c ∧ c < s.nodeCount ∧ c ∉ R
  dir : ∀ d, kids d ≠ [] → (s.nodes d).type = .directory
  fresh : ∀ n, s.nodeCount ≤ n → kids n = []
  loose : ∀ c < s.nodeCount, c ∉ R → ∃ d, c ∈ kids d
  bounded : ∀ c ∈ R, c < s.nodeCount
  root : ∀ r, s.kRootNode = some r → s.parent r = some r ∧ r ∈ R
  mount : ∀ m r, (m, r) ∈ s.kMountList → s.parent r = some m ∧ m < r ∧ r ∈ R

section

variable {kids : Nat → List Nat} {R : Set Nat} {c d p : Nat}

section

variable (h : Tree s kids R)
include h

lemma Tree.congr (hlinks : s'.links = s.links) (htype : ∀ n, (s'.nodes n).type = (s.nodes n).type)
    (hcount : s'.nodeCount = s.nodeCount) (hroot : s'.kRootNode = s.kRootNode)
    (hmount : s'.kMountList = s.kMountList) : Tree s' kids R where
  forest := by rw [hlinks]; exact h.forest
  younger := h.younger
  child := by rw [hcount]; exact h.child
  dir d hd := by rw [htype]; exact h.dir d hd
  fresh := by rw [hcount]; exact h.fresh
  loose := by rw [hcount]; exact h.loose
  bounded := by rw [hcount]; exact h.bounded
  root r hr := by
    rw [hroot] at hr
    rw [show s'.parent = s.parent from congrArg Forest.parent hlinks]
    exact h.root r hr
  mount m r hr := by
    rw [hmount] at hr
    rw [show s'.parent = s.parent from congrArg Forest.parent hlinks]
    exact h.mount m r hr

lemma Tree.length_le (d : Nat) : (kids d).length ≤ s.nodeCount := by
  have hnodup : (kids d).Nodup := (h.younger d).imp fun hgt => Nat.ne_of_gt hgt
  have hsub : kids d ⊆ List.range s.nodeCount := fun c hc => List.mem_range.mpr (h.child d c hc).2.1
  simpa using (List.subperm_of_subset hnodup hsub).length_le

lemma Tree.seg (d : Nat) : Seg s.nextSibling (s.children d) (kids d) none :=
  h.forest.seg d

lemma Tree.childList_eq (d : Nat) : s.childList d = kids d :=
  (h.seg d).chainList_eq (h.length_le d)

lemma Tree.parent_eq (hc : c ∈ kids d) : s.parent c = some d :=
  h.forest.parent d c hc

lemma Tree.push (hnode : node.children = none) :
    Tree (s.push node) kids (insert s.nodeCount R) where
  forest :=
    { seg := fun d => by
        have hseg : Seg (s.push node).links.next (s.links.first d) (kids d) none :=
          (h.forest.seg d).congr fun c hc => by
            have hlt := (h.child d c hc).2.1
            simp [Vfs.links, Vfs.nextSibling, Nat.ne_of_lt hlt]
        by_cases hd : d = s.nodeCount
        · subst hd
          rw [h.fresh _ (Nat.le_refl _)]
          simp [Vfs.links, Vfs.children, hnode, Seg]
        · simpa [Vfs.links, Vfs.children, hd] using hseg
      parent := fun d c hc => by
        have hlt := (h.child d c hc).2.1
        simpa [Vfs.links, Vfs.parent, Nat.ne_of_lt hlt] using h.parent_eq hc }
  younger := h.younger
  child d c hc := by
    obtain ⟨hdc, hlt, hR⟩ := h.child d c hc
    exact ⟨hdc, Nat.lt_succ_of_lt hlt, by simp [hR, Nat.ne_of_lt hlt]⟩
  dir d hd := by
    have hne : d ≠ s.nodeCount := fun heq => hd (h.fresh d (Nat.le_of_eq heq.symm))
    simpa [hne] using h.dir d hd
  fresh n hn := h.fresh n (Nat.le_of_succ_le hn)
  loose c hc hR := by
    simp only [Vfs.push_nodeCount, Set.mem_insert_iff, not_or] at hc hR
    exact h.loose c (by omega) hR.2
  bounded c hc := by
    simp only [Set.mem_insert_iff] at hc
    cases hc with
    | inl heq => simp [heq]
    | inr hc => exact Nat.lt_succ_of_lt (h.bounded c hc)
  root r hr := by
    obtain ⟨hp, hR⟩ := h.root r hr
    exact ⟨by simpa [Vfs.parent, Nat.ne_of_lt (h.bounded r hR)] using hp, by simp [hR]⟩
  mount m r hr := by
    obtain ⟨hp, hm, hR⟩ := h.mount m r hr
    exact ⟨by simpa [Vfs.parent, Nat.ne_of_lt (h.bounded r hR)] using hp, hm, by simp [hR]⟩

/-- A node that was on no list, and that is younger than its new parent and
its siblings. -/
lemma Tree.addChild (hc : c ∈ R) (hp : p < c) (hdir : (s.nodes p).type = .directory)
    (hkids : ∀ x ∈ kids p, x < c) (hroot : s.kRootNode ≠ some c)
    (hmount : ∀ m, (m, c) ∉ s.kMountList) :
    Tree (dirAddChild p c s) (update kids p (c :: kids p)) (R \ {c}) where
  forest := by
    rw [links_dirAddChild]
    exact h.forest.addChild (fun e hin => (h.child e c hin).2.2 hc) p
  younger d := by
    by_cases hd : d = p
    · subst hd
      simpa using ⟨hkids, h.younger d⟩
    · simpa [hd] using h.younger d
  child d x hx := by
    have hold : x ∈ kids d → d < x ∧ x < s.nodeCount ∧ x ∉ R \ {c} := fun hx => by
      obtain ⟨hdx, hlt, hxR⟩ := h.child d x hx
      exact ⟨hdx, hlt, fun hin => hxR hin.1⟩
    by_cases hd : d = p
    · subst hd
      simp only [update_self, List.mem_cons] at hx
      cases hx with
      | inl heq => simpa [heq] using ⟨hp, h.bounded c hc⟩
      | inr hx => exact hold hx
    · rw [update_of_ne hd] at hx
      exact hold hx
  dir d hd := by
    by_cases hdp : d = p
    · simpa [hdp] using hdir
    · simpa [hdp] using h.dir d (by simpa [hdp] using hd)
  fresh n hn := by
    have hn' : s.nodeCount ≤ n := hn
    have hlt := h.bounded c hc
    rw [update_of_ne (by omega)]
    exact h.fresh n hn
  loose x hx hxR := by
    by_cases hxc : x = c
    · exact ⟨p, by simp [hxc]⟩
    · obtain ⟨d, hd⟩ := h.loose x hx (fun hin => hxR ⟨hin, hxc⟩)
      refine ⟨d, ?_⟩
      by_cases hdp : d = p
      · subst hdp
        simp [hd]
      · simpa [hdp] using hd
  bounded x hx := h.bounded x hx.1
  root r hr := by
    have hne : r ≠ c := fun heq => hroot (heq ▸ hr)
    obtain ⟨hpar, hin⟩ := h.root r hr
    exact ⟨by simpa [Vfs.parent, hne] using hpar, hin, hne⟩
  mount m r hr := by
    have hne : r ≠ c := fun heq => hmount m (heq ▸ hr)
    obtain ⟨hpar, hmr, hin⟩ := h.mount m r hr
    exact ⟨by simpa [Vfs.parent, hne] using hpar, hmr, hin, hne⟩

lemma Tree.addNode (hp : p < s.nodeCount) (hdir : (s.nodes p).type = .directory)
    (hnode : node.children = none) :
    Tree (dirAddChild p s.nodeCount (s.push node)) (update kids p (s.nodeCount :: kids p)) R := by
  have hnew : s.nodeCount ∉ R := fun hin => Nat.lt_irrefl _ (h.bounded _ hin)
  have hadd := (h.push hnode).addChild (p := p) (Set.mem_insert _ R) hp
    (by simpa [Nat.ne_of_lt hp] using hdir) (fun x hx => (h.child p x hx).2.1)
    (fun heq => hnew (h.root _ heq).2)
    (fun m hm => hnew (h.mount m _ hm).2.2)
  rwa [Set.insert_sdiff_self_of_notMem hnew] at hadd

lemma Tree.rootAt (hr : r ∈ R) (hmount : s.kMountList = []) (ops : Option VfsOps) :
    Tree (((s.setRoot r).setOps r ops).setParent r (some r)) kids R where
  forest := by
    have hfree : ∀ e, r ∉ kids e := fun e hin => (h.child e r hin).2.2 hr
    convert h.forest.setParent hfree (some r) using 1
    ext n : 2 <;> simp only [Vfs.links, Vfs.parent, Vfs.children, Vfs.nextSibling, Vfs.setParent,
      Vfs.setOps, Vfs.setRoot, Vfs.modNode_nodes, Forest.setParent, update_apply] <;>
      split <;> simp
  younger := h.younger
  child := h.child
  dir d hd := by
    rw [Vfs.setParent, Vfs.modNode_nodes, Vfs.setOps, Vfs.modNode_nodes]
    split <;> exact h.dir d hd
  fresh := h.fresh
  loose := h.loose
  bounded := h.bounded
  root q hq := by
    have hq' : r = q := Option.some.inj hq
    simpa [Vfs.setParent, Vfs.parent, ← hq'] using hr
  mount m q hq := by
    have hq' : (m, q) ∈ s.kMountList := hq
    simp [hmount] at hq'

lemma Tree.mountAt (hm : m < r) (hr : r ∈ R) (hroot : s.kRootNode ≠ some r)
    (hmount : ∀ m, (m, r) ∉ s.kMountList) :
    Tree ((s.addMount m r).setParent r (some m)) kids R where
  forest := by
    have hfree : ∀ e, r ∉ kids e := fun e hin => (h.child e r hin).2.2 hr
    convert h.forest.setParent hfree (some m) using 1
    ext n : 2 <;> simp only [Vfs.links, Vfs.parent, Vfs.children, Vfs.nextSibling, Vfs.setParent,
      Vfs.addMount, Vfs.modNode_nodes, Forest.setParent, update_apply] <;> split <;> simp
  younger := h.younger
  child := h.child
  dir d hd := by
    rw [Vfs.setParent, Vfs.modNode_nodes]
    split <;> exact h.dir d hd
  fresh := h.fresh
  loose := h.loose
  bounded := h.bounded
  root q hq := by
    have hne : q ≠ r := fun heq => hroot (heq ▸ hq)
    simpa [Vfs.setParent, Vfs.addMount, Vfs.parent, hne] using h.root q hq
  mount m' q hq := by
    simp only [Vfs.setParent, Vfs.addMount, Vfs.modNode_kMountList, List.mem_cons,
      Prod.mk.injEq] at hq
    cases hq with
    | inl heq => simpa [Vfs.setParent, Vfs.parent, heq.1, heq.2] using ⟨hm, hr⟩
    | inr hq =>
      have hne : q ≠ r := fun heq => hmount m' (heq ▸ hq)
      simpa [Vfs.setParent, Vfs.addMount, Vfs.parent, hne] using h.mount m' q hq

end

end

/-! ## `vfs_init` -/

/-- The root, or the root of a mount. -/
def Vfs.IsRoot (s : Vfs) (r : Nat) : Prop := s.kRootNode = some r ∨ ∃ m, (m, r) ∈ s.kMountList

section

variable {mem : Nat → Bool} {s : Vfs} {kids : Nat → List Nat} {R : Set Nat} {p : Nat}

lemma Tree.bump (h : Tree s kids R) : Tree s.bump kids R := h.congr rfl (fun _ => rfl) rfl rfl rfl

lemma createNode_eq (mem : Nat → Bool) (name : List Byte) (type : NodeType) (s : Vfs) :
    createNode mem name type s = if mem s.mallocs then
      (some s.nodeCount, s.bump.push (newNode name type)) else (none, s.bump) := by
  unfold createNode kmalloc
  cases mem s.mallocs <;> rfl

lemma blank_tree : Tree .blank (fun _ => []) ∅ where
  forest := ⟨fun _ => rfl, by simp⟩
  younger := by simp
  child := by simp
  dir := by simp
  fresh := by simp
  loose := by simp [Vfs.blank]
  bounded := by simp
  root := by simp [Vfs.blank]
  mount := by simp [Vfs.blank]

/-- A name is a string without zeros, and a directory can be searched. -/
structure NodeOk (node : VfsNode) : Prop where
  name : 0 ∉ node.name
  ops : node.type = .directory → node.ops.bind VfsOps.open ≠ none

def NodesOk (s : Vfs) : Prop := ∀ n < s.nodeCount, NodeOk (s.nodes n)

def VfsNode.core (node : VfsNode) :
    List Byte × NodeType × Option VfsOps := (node.name, node.type, node.ops)

lemma NodeOk.congr {node' : VfsNode} (h : NodeOk node) (hcore : node'.core = node.core) :
    NodeOk node' := by
  simp only [VfsNode.core, Prod.mk.injEq] at hcore
  obtain ⟨hname, htype, hops⟩ := hcore
  exact ⟨hname ▸ h.name, by rw [htype, hops]; exact h.ops⟩

@[simp] lemma setParent_core (s : Vfs) (n : Nat) (p : Option Nat) (i : Nat) :
    ((s.setParent n p).nodes i).core = (s.nodes i).core := by
  simp only [Vfs.setParent, Vfs.modNode_nodes]
  split <;> rfl

/-- There are more nodes, and the others keep their names, types and
operations. -/
structure Extends (s s' : Vfs) : Prop where
  nodeCount : s.nodeCount ≤ s'.nodeCount
  core : ∀ n < s.nodeCount, (s'.nodes n).core = (s.nodes n).core
  new : ∀ n, s.nodeCount ≤ n → n < s'.nodeCount → NodeOk (s'.nodes n)
  kRootNode : s'.kRootNode = s.kRootNode
  kMountList : s'.kMountList = s.kMountList

lemma Extends.type (h : Extends s s') (hn : n < s.nodeCount) :
    (s'.nodes n).type = (s.nodes n).type :=
  congrArg (fun core => core.2.1) (h.core n hn)

lemma Extends.name (h : Extends s s') (hn : n < s.nodeCount) :
    (s'.nodes n).name = (s.nodes n).name :=
  congrArg Prod.fst (h.core n hn)

lemma Extends.nodesOk (h : Extends s s') (hs : NodesOk s) : NodesOk s' := by
  intro n hn
  by_cases hlt : n < s.nodeCount
  · exact (hs n hlt).congr (h.core n hlt)
  · exact h.new n (Nat.not_lt.mp hlt) hn

lemma Extends.trans {s1 s2 s3 : Vfs} (h : Extends s1 s2) (h' : Extends s2 s3) : Extends s1 s3 where
  nodeCount := h.nodeCount.trans h'.nodeCount
  core n hn := (h'.core n (Nat.lt_of_lt_of_le hn h.nodeCount)).trans (h.core n hn)
  new n hn hlt := by
    by_cases hmid : n < s2.nodeCount
    · exact (h.new n hn hmid).congr (h'.core n hmid)
    · exact h'.new n (Nat.not_lt.mp hmid) hlt
  kRootNode := h'.kRootNode.trans h.kRootNode
  kMountList := h'.kMountList.trans h.kMountList

lemma extends_of_core (hcount : s'.nodeCount = s.nodeCount)
    (hcore : ∀ n, (s'.nodes n).core = (s.nodes n).core) (hroot : s'.kRootNode = s.kRootNode)
    (hmount : s'.kMountList = s.kMountList) : Extends s s' :=
  ⟨Nat.le_of_eq hcount.symm, fun n _ => hcore n, fun n hn hlt => by omega, hroot, hmount⟩

lemma extends_bump (s : Vfs) : Extends s s.bump := extends_of_core rfl (fun _ => rfl) rfl rfl

lemma extends_dirAddChild (s : Vfs) (p c : Nat) : Extends s (dirAddChild p c s) :=
  extends_of_core rfl (fun n => by simp [VfsNode.core]) rfl rfl

lemma extends_push (s : Vfs) (hnode : NodeOk node) : Extends s (s.push node) where
  nodeCount := Nat.le_succ _
  core n hn := by simp [Nat.ne_of_lt hn]
  new n hn hlt := by
    have heq : n = s.nodeCount := Nat.le_antisymm (Nat.le_of_lt_succ hlt) hn
    simpa [heq] using hnode
  kRootNode := rfl
  kMountList := rfl

lemma makeDevs_tree (mem : Nat → Bool) (h : Tree s kids R)
    (devs : List (List Byte × VfsOps × Nat × Nat)) :
    Tree (makeDevs mem devs s).2 kids (R ∪ {x | x ∈ (makeDevs mem devs s).1}) ∧
    (makeDevs mem devs s).1.Pairwise (· < ·) ∧ (∀ x ∈ (makeDevs mem devs s).1, s.nodeCount ≤ x) ∧
    Extends s (makeDevs mem devs s).2 ∧
    ((makeDevs mem devs s).1.map fun x => ((makeDevs mem devs s).2.nodes x).name).Sublist
      (devs.map fun d => strCpy d.1 sizeofName) := by
  induction devs generalizing s R with
  | nil => simpa [makeDevs] using ⟨h, extends_of_core rfl (fun _ => rfl) rfl rfl⟩
  | cons dev devs ih =>
    obtain ⟨name, ops, size, perms⟩ := dev
    simp only [makeDevs, makeDev, createNode_eq]
    cases mem s.mallocs with
    | false =>
      obtain ⟨h2, hsorted, hge, hext, hnames⟩ := ih h.bump
      exact ⟨h2, hsorted, hge, (extends_bump s).trans hext,
        hnames.trans (List.sublist_cons_self _ _)⟩
    | true =>
      let node : VfsNode :=
        { newNode name .charDevice with ops := some ops, size := size, permissions := perms }
      have hpush : (s.bump.push (newNode name .charDevice)).modNode s.nodeCount
          (fun n => { n with ops := some ops, size := size, permissions := perms }) =
            s.bump.push node := s.bump.push_modNode _ _
      have hnode : NodeOk node := ⟨zero_not_mem_strCpy name sizeofName, by simp [node, newNode]⟩
      obtain ⟨h2, hsorted, hge, hext, hnames⟩ :=
        ih (h.bump.push (show node.children = none from rfl))
      have hname := hext.name (Nat.lt_succ_self s.nodeCount)
      simp only [if_true, hpush]
      refine ⟨?_, List.pairwise_cons.mpr ⟨hge, hsorted⟩, fun x hx => ?_,
        ((extends_bump s).trans (extends_push _ hnode)).trans hext, ?_⟩
      · have hset : ∀ ns : List Nat, R ∪ {x | x ∈ s.nodeCount :: ns} =
            insert s.nodeCount R ∪ {x | x ∈ ns} := fun ns => by
          ext x
          simp [or_left_comm, or_assoc]
        exact (hset _).symm ▸ h2
      · cases hx with
        | head => exact Nat.le_refl _
        | tail _ hx => exact Nat.le_of_succ_le (hge x hx)
      · have hhead : ((s.bump.push node).nodes s.nodeCount).name = strCpy name sizeofName := by
          simp [node, newNode]
        rw [hhead] at hname
        simp only [Option.toList_some, List.singleton_append, List.map_cons, hname]
        exact hnames.cons_cons _

lemma addDevs_tree {devs : List Nat} (h : Tree s kids R) (hdir : (s.nodes p).type = .directory)
    (hsorted : devs.Pairwise (· < ·)) (hdevs : ∀ x ∈ devs, x ∈ R ∧ p < x ∧ ¬ s.IsRoot x)
    (hkids : ∀ x ∈ devs, ∀ y ∈ kids p, y < x) :
    Tree (addDevs p devs s) (update kids p (devs.reverse ++ kids p)) (R \ {x | x ∈ devs}) ∧
    Extends s (addDevs p devs s) := by
  induction devs generalizing s kids R with
  | nil => exact ⟨by simpa [addDevs] using h, extends_of_core rfl (fun _ => rfl) rfl rfl⟩
  | cons c devs ih =>
    rw [List.pairwise_cons] at hsorted
    obtain ⟨hR, hp, hroot⟩ := hdevs c (by simp)
    simp only [Vfs.IsRoot, not_or, not_exists] at hroot
    have h1 := h.addChild hR hp hdir (hkids c (by simp)) hroot.1 hroot.2
    obtain ⟨h', hext⟩ := ih h1 (by simpa using hdir) hsorted.2
      (fun x hx => by
        obtain ⟨hxR, hpx, hxroot⟩ := hdevs x (by simp [hx])
        exact ⟨⟨hxR, Nat.ne_of_gt (hsorted.1 x hx)⟩, hpx, hxroot⟩)
      (fun x hx y hy => by
        simp only [update_self, List.mem_cons] at hy
        cases hy with
        | inl heq => exact heq ▸ hsorted.1 x hx
        | inr hy => exact hkids x (by simp [hx]) y hy)
    refine ⟨?_, (extends_dirAddChild s p c).trans hext⟩
    have hset : R \ {x | x ∈ c :: devs} = (R \ {c}) \ {x | x ∈ devs} := by
      ext x
      simp [and_assoc]
    rw [hset, List.reverse_cons, List.append_assoc, List.singleton_append]
    simpa [addDevs] using h'

lemma devices_tree (mem : Nat → Bool) (h : Tree s kids R) (hr : r ∈ R)
    (hdir : (s.nodes r).type = .directory) (hkids : kids r = []) (hmount : s.kMountList = []) :
    ∃ devs s1, makeDevs mem devices s = (devs, s1) ∧
    Tree (addDevs r devs s1) (update kids r devs.reverse) R ∧
      Extends s (addDevs r devs s1) ∧ (devs.map fun x => ((addDevs r devs s1).nodes x).name).Sublist
        (devices.map fun d => strCpy d.1 sizeofName) := by
  have hdevs := makeDevs_tree mem h devices
  obtain ⟨devs, s1, hq⟩ : ∃ devs s1, makeDevs mem devices s = (devs, s1) := ⟨_, _, rfl⟩
  rw [hq] at hdevs
  obtain ⟨h1, hsorted, hge, hext1, hnames⟩ := hdevs
  have hnotR : ∀ x ∈ devs, x ∉ R := fun x hx hin => Nat.not_lt.mpr (hge x hx) (h.bounded x hin)
  have hdir1 : (s1.nodes r).type = .directory := by
    rw [hext1.type (h.bounded r hr)]
    exact hdir
  obtain ⟨h2, hext2⟩ := addDevs_tree (p := r) h1 hdir1 hsorted
    (fun x hx => by
      refine ⟨Or.inr hx, Nat.lt_of_lt_of_le (h.bounded r hr) (hge x hx), fun hx' => ?_⟩
      have hm1 : s1.kMountList = [] := hext1.kMountList.trans hmount
      rw [Vfs.IsRoot, hext1.kRootNode, hm1] at hx'
      cases hx' with
      | inl heq => exact hnotR x hx (h.root x heq).2
      | inr hex => simp at hex)
    (by simp [hkids])
  have hset : (R ∪ {x | x ∈ devs}) \ {x | x ∈ devs} = R := by
    ext x
    simp only [Set.mem_sdiff, Set.mem_union, Set.mem_ofPred_eq]
    constructor
    · rintro ⟨hin | hin, hnot⟩
      · exact hin
      · exact absurd hin hnot
    · exact fun hin => ⟨Or.inl hin, fun hx => hnotR x hx hin⟩
  rw [hset, hkids, List.append_nil] at h2
  refine ⟨devs, s1, hq, h2, hext1.trans hext2, ?_⟩
  rwa [List.map_congr_left fun x hx => hext2.name (h1.bounded x (Or.inr hx))]

/-- If the mount was entered, every node that is on no list is a root. -/
def Mounted (s : Vfs) (R : Set Nat) : Prop := s.kMountList ≠ [] → ∀ r ∈ R, s.IsRoot r

/-- There is one mount at most. Its mount point is the child of the root
with the name `dev`. -/
def DevMount (s : Vfs) (kids : Nat → List Nat) : Prop :=
  s.kMountList = [] ∨ ∃ root m r, s.kRootNode = some root ∧ s.kMountList = [(m, r)] ∧
    m ∈ kids root ∧
    (s.nodes m).name = dev ∧ ∀ c ∈ kids root, (s.nodes c).name = dev → c = m

/-- A name that a path can have between two slashes. -/
structure PlainName (name : List Byte) : Prop where
  nonempty : name ≠ []
  noSlash : slash ∉ name

/-- The children of a directory have different names. -/
structure Named (s : Vfs) (kids : Nat → List Nat) : Prop where
  distinct : ∀ d, ((kids d).map fun c => (s.nodes c).name).Nodup
  plain : ∀ d, ∀ c ∈ kids d, PlainName (s.nodes c).name

lemma Named.congr (h : Named s kids)
    (hsame : ∀ d, ∀ c ∈ kids d, (s'.nodes c).name = (s.nodes c).name) : Named s' kids where
  distinct d := by
    rw [List.map_congr_left (hsame d)]
    exact h.distinct d
  plain d c hc := hsame d c hc ▸ h.plain d c hc

lemma Named.bump (h : Named s kids) : Named s.bump kids := h.congr fun _ _ _ => rfl

lemma Named.update (h : Named s kids) {l : List Nat}
    (hdistinct : (l.map fun c => (s.nodes c).name).Nodup)
    (hplain : ∀ c ∈ l, PlainName (s.nodes c).name) : Named s (update kids p l) where
  distinct d := by
    by_cases hd : d = p
    · subst hd
      simpa using hdistinct
    · simpa [hd] using h.distinct d
  plain d c hc := by
    by_cases hd : d = p
    · subst hd
      exact hplain c (by simpa using hc)
    · exact h.plain d c (by simpa [hd] using hc)

lemma Named.addNode (h : Named s kids) (htree : Tree s kids R)
    (hnew : ∀ c ∈ kids p, (s.nodes c).name ≠ node.name) (hplain : PlainName node.name) :
    Named (dirAddChild p s.nodeCount (s.push node))
      (Function.update kids p (s.nodeCount :: kids p)) := by
  have hself : ((dirAddChild p s.nodeCount (s.push node)).nodes s.nodeCount).name = node.name := by
    simp
  have hsame : ∀ d, ∀ c ∈ kids d,
      ((dirAddChild p s.nodeCount (s.push node)).nodes c).name = (s.nodes c).name :=
        fun d c hc => by
    simp [Nat.ne_of_lt (htree.child d c hc).2.1]
  have hold := h.congr hsame
  refine hold.update ?_ fun c hc => ?_
  · rw [List.map_cons, hself, List.nodup_cons, List.map_congr_left (hsame p)]
    refine ⟨fun hin => ?_, h.distinct p⟩
    obtain ⟨c, hc, heq⟩ := List.mem_map.mp hin
    exact hnew c hc heq
  · cases hc with
    | head => exact hself.symm ▸ hplain
    | tail _ hc => exact hold.plain p c hc

/-- What `vfs_init` leaves. -/
structure Booted (s : Vfs) (kids : Nat → List Nat) (R : Set Nat) : Prop extends Tree s kids R where
  mounted : Mounted s R
  nodes : NodesOk s
  devMount : DevMount s kids

lemma Tree.booted (h : Tree s kids R) (hnodes : NodesOk s) (hmount : s.kMountList = []) :
    Booted s kids R :=
  ⟨h, fun hne => absurd hmount hne, hnodes, Or.inl hmount⟩

lemma device_names : ∀ name ∈ devices.map fun d => strCpy d.1 sizeofName, PlainName name := by
  intro name hname
  constructor
  · rintro rfl
    revert hname
    decide
  · revert name
    decide

lemma initDevfs_booted (mem : Nat → Bool) (h : Tree s kids {root}) (hnodes : NodesOk s)
    (hnamed : Named s kids) (hroot : s.kRootNode = some root) (hmount : s.kMountList = [])
    (hkids : kids root = [m]) (hname : (s.nodes m).name = dev) :
    ∃ kids' R, Booted (initDevfs mem m s.nodeCount (s.push (newNode dev .directory))) kids' R ∧
    Named (initDevfs mem m s.nodeCount (s.push (newNode dev .directory))) kids' := by
  -- the devfs root gets its operations first
  let node : VfsNode := { newNode dev .directory with ops := some .kDevDirOps }
  have hnode : NodeOk node := ⟨zero_not_mem_strCpy dev sizeofName,
    by simp [node, newNode, VfsOps.open]⟩
  have hpush : (s.push (newNode dev .directory)).setOps s.nodeCount (some .kDevDirOps) =
    s.push node :=
    s.push_setOps _ _
  have h1 : Tree (s.push node) kids (insert s.nodeCount {root}) := h.push rfl
  obtain ⟨devs, s1, hq, h2, hext, hnames⟩ := devices_tree mem h1 (Set.mem_insert _ _)
    (by simp [node, newNode]) (h.fresh _ (Nat.le_refl _)) hmount
  have hext' : Extends s (addDevs s.nodeCount devs s1) := (extends_push s hnode).trans hext
  have hnodes2 := hext'.nodesOk hnodes
  simp only [initDevfs, hpush, hq, mountAdd, kmalloc]
  generalize addDevs s.nodeCount devs s1 = s2 at h2 hext' hnodes2 hnames
  have hroot2 : s2.kRootNode = some root := hext'.kRootNode.trans hroot
  have hmount2 : s2.kMountList = [] := hext'.kMountList.trans hmount
  have hlt := h.bounded root rfl
  obtain ⟨-, hm, -⟩ := h.child root m (by simp [hkids])
  have hnamed2 : Named s2 (update kids s.nodeCount devs.reverse) := by
    refine (hnamed.congr fun d c hc => hext'.name (h.child d c hc).2.1).update ?_ fun c hc => ?_
    · rw [List.map_reverse, List.nodup_reverse]
      exact hnames.nodup (by decide)
    · exact device_names _ (hnames.subset (List.mem_map_of_mem (List.mem_reverse.mp hc)))
  cases mem s2.mallocs with
  | false => exact ⟨_, _, h2.bump.booted hnodes2 hmount2, hnamed2.bump⟩
  | true =>
    have h3 := h2.bump.mountAt hm (Set.mem_insert _ _)
      (fun heq => Nat.ne_of_lt hlt (Option.mem_unique hroot2 heq))
      (by simp [hmount2])
    have hsame : ∀ n,
        (((s2.bump.addMount m s.nodeCount).setParent s.nodeCount (some m)).nodes n).name =
        (s2.nodes n).name := fun n => congrArg Prod.fst (setParent_core _ _ _ n)
    refine ⟨_, _, ⟨h3, fun _ r hr => ?_, fun n hn => ?_, Or.inr ⟨root, m, s.nodeCount, hroot2, ?_⟩⟩,
      hnamed2.congr fun _ c _ => hsame c⟩
    · cases hr with
      | inl heq => exact Or.inr ⟨m, by simp [heq]⟩
      | inr heq =>
        rw [Set.mem_singleton_iff] at heq
        exact Or.inl (by rw [heq]; exact hroot2)
    · exact (hnodes2 n hn).congr (setParent_core _ _ _ n)
    · simp only [update_of_ne (Nat.ne_of_lt hlt), hkids, List.mem_singleton, hsame]
      exact ⟨by simp [hmount2], trivial, (hext'.name hm).trans hname, fun c hc _ => hc⟩

lemma initDev_booted (mem : Nat → Bool) (h : Tree s kids {root}) (hnodes : NodesOk s)
    (hnamed : Named s kids) (hdir : (s.nodes root).type = .directory)
    (hroot : s.kRootNode = some root) (hmount : s.kMountList = []) (hkids : kids root = []) :
    ∃ kids' R, Booted (initDev mem root s) kids' R ∧ Named (initDev mem root s) kids' := by
  unfold initDev
  rw [createNode_eq]
  cases mem s.mallocs with
  | false => exact ⟨kids, {root}, h.bump.booted hnodes hmount, hnamed.bump⟩
  | true =>
    let node : VfsNode := { newNode dev .directory with ops := some .kTmpDirOps }
    have hnode : NodeOk node :=
      ⟨zero_not_mem_strCpy dev sizeofName, by simp [node, newNode, VfsOps.open]⟩
    have hpush : (s.bump.push (newNode dev .directory)).setOps s.nodeCount (some .kTmpDirOps) =
        s.bump.push node := s.bump.push_setOps _ _
    have h1 : Tree (dirAddChild root s.nodeCount (s.bump.push node)) _ {root} :=
      h.bump.addNode (h.bounded root rfl) hdir rfl
    have hnodeName : node.name = dev := by decide
    have hplain : PlainName node.name := by
      rw [hnodeName]
      constructor <;> decide
    have hnamed1 := hnamed.bump.addNode (p := root) h.bump (by simp [hkids]) hplain
    rw [s.bump_nodeCount] at hnamed1
    have hext : Extends s (dirAddChild root s.nodeCount (s.bump.push node)) :=
      ((extends_bump s).trans (extends_push _ hnode)).trans (extends_dirAddChild _ _ _)
    have hname : ((dirAddChild root s.nodeCount (s.bump.push node)).nodes s.nodeCount).name =
      dev := by
      simp [hnodeName]
    simp only [if_true, hpush, createNode_eq]
    generalize dirAddChild root s.nodeCount (s.bump.push node) = s1 at h1 hext hname hnamed1
    have hnodes1 := hext.nodesOk hnodes
    have hroot1 : s1.kRootNode = some root := hext.kRootNode.trans hroot
    have hmount1 : s1.kMountList = [] := hext.kMountList.trans hmount
    cases mem s1.mallocs with
    | false => exact ⟨_, _, h1.bump.booted hnodes1 hmount1, hnamed1.bump⟩
    | true =>
      exact initDevfs_booted mem h1.bump hnodes1 hnamed1.bump hroot1 hmount1
        (by simp [hkids]) hname

/-- The tree after `vfs_init`, whichever allocations have failed. -/
lemma vfsInit_booted (mem : Nat → Bool) :
    ∃ kids R, Booted (vfsInit mem) kids R ∧ Named (vfsInit mem) kids := by
  have hempty : ∀ s : Vfs, Named s fun _ => [] := fun s => ⟨by simp, by simp⟩
  have hblank : NodesOk .blank := fun n hn => absurd hn (Nat.not_lt_zero n)
  unfold vfsInit
  rw [createNode_eq]
  cases mem Vfs.blank.mallocs with
  | false => exact ⟨_, _, blank_tree.bump.booted hblank rfl, hempty _⟩
  | true =>
    have h1 := (blank_tree.bump.push
      (show (newNode rootName .directory).children = none from rfl)).rootAt
      (Set.mem_insert _ _) rfl (some .kTmpDirOps)
    rw [insert_empty_eq] at h1
    refine initDev_booted mem h1 (fun n hn => ?_) (hempty _)
      (by simp [Vfs.setParent, Vfs.setOps, Vfs.setRoot, newNode]) rfl rfl rfl
    have hn0 : n = 0 := Nat.lt_one_iff.mp hn
    subst hn0
    exact ⟨zero_not_mem_strCpy rootName sizeofName, fun _ => by decide⟩

/-! ## `vfs_mkdir` -/

/-- What `parent->ops->open(parent, name)` finds, if there is such an
operation. -/
def Vfs.existing (s : Vfs) (parent : Nat) (name : List Byte) : Option Nat :=
  if s.openOp parent = none then none
  else if strCmp name dot = 0 then some parent
  else if strCmp name dotdot = 0 then some ((s.parent parent).getD parent)
  else (s.childList parent).find? fun c => strCmp (s.nodes c).name name = 0

def Vfs.addDir (s : Vfs) (parent : Nat) (name : List Byte) : Vfs :=
  dirAddChild parent s.nodeCount
    (s.bump.push { newNode name .directory with ops := (s.nodes parent).ops })

lemma Tree.dirOpen_eq (h : Tree s kids R) (node : Nat) (name : List Byte) :
    dirOpen node name s = some (if strCmp name dot = 0 then some node else if strCmp name dotdot =
      0 then some ((s.parent node).getD node) else (kids node).find?
      fun c => strCmp (s.nodes c).name name = 0) := by
  unfold dirOpen
  rw [(h.seg node).searchChain_eq (h.length_le node)]
  split
  · rfl
  · split <;> rfl

lemma openOp_eq (h : s.openOp p = some op) : op = dirOpen := by
  unfold Vfs.openOp at h
  obtain ⟨ops, -, hop⟩ := Option.bind_eq_some_iff.mp h
  cases ops <;> simp_all [VfsOps.open, tmpfsDirOpen, devfsDirOpen]

lemma Tree.open_eq (h : Tree s kids R) (hop : s.openOp p = some op) (name : List Byte) :
    op p name s = some (s.existing p name) := by
  rw [openOp_eq hop, h.dirOpen_eq, Vfs.existing, h.childList_eq]
  simp [hop]

lemma makeDir_eq (hp : p < s.nodeCount) (name : List Byte) : makeDir mem p name s =
    if mem s.mallocs then (some s.nodeCount, s.addDir p name) else (none, s.bump) := by
  unfold makeDir
  rw [createNode_eq]
  cases mem s.mallocs with
  | false => rfl
  | true =>
    have hops : ((s.bump.push (newNode name .directory)).nodes p).ops = (s.nodes p).ops := by
      simp [Nat.ne_of_lt hp]
    simp only [if_true, hops, Vfs.addDir]
    rw [← Vfs.bump_nodeCount, Vfs.push_setOps]

lemma Tree.vfsMkdir_eq (h : Tree s kids R) (hp : p < s.nodeCount) (name : List Byte) :
    vfsMkdir mem (some p) (some name) s =
      some ( if (s.nodes p).type ≠ .directory ∨ s.existing p name ≠ none then (none,
      s) else if mem s.mallocs then (some s.nodeCount, s.addDir p name) else (none, s.bump)) := by
  unfold vfsMkdir
  by_cases htype : (s.nodes p).type = .directory
  · simp only [htype, ne_eq, not_true_eq_false, if_false, false_or]
    cases hop : s.openOp p with
    | none => simp [Vfs.existing, hop, makeDir_eq hp]
    | some op =>
      simp only [h.open_eq hop]
      cases s.existing p name <;> simp [makeDir_eq hp]
  · simp [htype]

/-! ## Runs -/

lemma Tree.lt_of_reachable (h : Tree s kids R) (hn : s.Reachable n) : n < s.nodeCount := by
  cases hn with
  | root hr => exact h.bounded n (h.root n hr).2
  | child hd hc =>
    rw [h.childList_eq] at hc
    exact (h.child _ n hc).2.1
  | mounted hm hr => exact h.bounded n (h.mount _ n hr).2.2

def VfsInv (s : Vfs) : Prop := ∃ kids R, Tree s kids R ∧ Mounted s R

lemma VfsInv.bump (h : VfsInv s) : VfsInv s.bump := by
  obtain ⟨kids, R, htree, hmounted⟩ := h
  exact ⟨kids, R, htree.bump, hmounted⟩

lemma VfsInv.addNode (h : VfsInv s) (hp : s.Reachable p) (hdir : (s.nodes p).type = .directory)
    (hnode : node.children = none) : VfsInv (dirAddChild p s.nodeCount (s.bump.push node)) := by
  obtain ⟨kids, R, htree, hmounted⟩ := h
  exact ⟨_, R, htree.bump.addNode (htree.lt_of_reachable hp) hdir hnode, hmounted⟩

lemma vfsStep_inv (h : VfsInv s) {op : VfsOp} (hlegal : VfsLegal s op) :
    ∃ s', vfsStep mem s op = some s' ∧ VfsInv s' := by
  obtain ⟨kids, R, htree, -⟩ := id h
  cases op with
  | mkdir parent name =>
    have hp : parent < s.nodeCount := htree.lt_of_reachable hlegal
    simp only [vfsStep, htree.vfsMkdir_eq hp, Option.map_some, Option.some.injEq, exists_eq_left']
    split
    · exact h
    · rename_i hnew
      rw [not_or, not_not] at hnew
      split
      · exact h.addNode hlegal hnew.1 rfl
      · exact h.bump
  | addChild parent name type =>
    simp only [vfsStep, createNode_eq]
    cases mem s.mallocs with
    | false => exact ⟨_, rfl, h.bump⟩
    | true => exact ⟨_, rfl, h.addNode hlegal.1 hlegal.2 rfl⟩

lemma vfs_run_inv {ops : List VfsOp} (hlegal : Along (vfsStep mem) VfsLegal (vfsInit mem) ops) :
    ∃ s, run (vfsStep mem) (vfsInit mem) ops = some s ∧ VfsInv s :=
  run_invariant VfsInv (fun _ _ h hop => vfsStep_inv h hop) (by
    obtain ⟨kids, R, h, -⟩ := vfsInit_booted mem
    exact ⟨kids, R, h.toTree, h.mounted⟩) hlegal

/-- The child lists end, with the newest child first; every node but the
roots is on the list of the directory that is its parent, and on no other;
the parents of a node lead to the root; and `vfs_readdir` enumerates the
list. -/
structure ProperTree (s : Vfs) : Prop where
  lists : ∀ d, s.Reachable d → Seg s.nextSibling (s.children d) (s.childList d) none ∧
    (s.childList d).Pairwise (· > ·)
  oneList : ∀ c, s.Reachable c → ¬ s.IsRoot c →
    ∃ d, s.parent c = some d ∧ (s.nodes d).type = .directory ∧ ∀ e, c ∈ s.childList e ↔ e = d
  root : ∀ n, s.Reachable n → ∃ r, s.kRootNode = some r ∧ s.links.Climbs n r
  readdir : ∀ d, s.Reachable d → (s.nodes d).type = .directory → ∀ i,
    vfsReaddir (some d) i s = some (s.childList d)[i]?

lemma Tree.climbs (h : Tree s kids R) (hn : s.Reachable n) :
    ∃ r, s.kRootNode = some r ∧ s.links.Climbs n r := by
  induction hn with
  | root hr => exact ⟨_, hr, .refl⟩
  | child hd hc ih =>
    obtain ⟨r, hr, hclimb⟩ := ih
    rw [h.childList_eq] at hc
    exact ⟨r, hr, hclimb.head (h.parent_eq hc)⟩
  | mounted hm hr ih =>
    obtain ⟨r, hroot, hclimb⟩ := ih
    exact ⟨r, hroot, hclimb.head (h.mount _ _ hr).1⟩

lemma Tree.proper (h : Tree s kids R) : ProperTree s where
  lists d _ := by
    rw [h.childList_eq]
    exact ⟨h.seg d, h.younger d⟩
  oneList c hc hroot := by
    cases hc with
    | root hr => exact absurd (Or.inl hr) hroot
    | mounted hm hr => exact absurd (Or.inr ⟨_, hr⟩) hroot
    | @child d _ hd hc =>
      have hin : c ∈ kids d := h.childList_eq d ▸ hc
      refine ⟨d, h.parent_eq hin, h.dir d (List.ne_nil_of_mem hin), fun e => ?_⟩
      rw [h.childList_eq]
      exact ⟨fun he => h.forest.unique he hin, fun he => he ▸ hin⟩
  root n hn := h.climbs hn
  readdir d _ hdir i := by
    simp only [vfsReaddir, hdir, ne_eq, not_true_eq_false, if_false, h.childList_eq]
    exact (h.seg d).nthChain_eq (h.length_le d) i

/-- If `vfs_init` has entered the mount, there are no nodes but those of the
file system. -/
lemma Tree.reachable_of_lt (h : Tree s kids R) (hmounted : Mounted s R) (hne : s.kMountList ≠ [])
    (hn : n < s.nodeCount) : s.Reachable n := by
  induction n using Nat.strongRecOn with
  | ind n ih =>
    by_cases hR : n ∈ R
    · cases hmounted hne n hR with
      | inl hr => exact .root hr
      | inr hr =>
        obtain ⟨m, hm⟩ := hr
        have hlt := (h.mount m n hm).2.1
        exact .mounted (ih m hlt (hlt.trans hn)) hm
    · obtain ⟨d, hd⟩ := h.loose n hn hR
      obtain ⟨hlt, -⟩ := h.child d n hd
      exact .child (ih d hlt (hlt.trans hn)) (h.childList_eq d ▸ hd)

/-- The file system is a proper tree in every state, and a call of
`vfs_mkdir` that returns null does not change it. -/
theorem vfs_tree_structure (mem : Nat → Bool) {ops : List VfsOp}
    (hlegal : Along (vfsStep mem) VfsLegal (vfsInit mem) ops) :
    ∃ s, run (vfsStep mem) (vfsInit mem) ops = some s ∧ ProperTree s ∧
      (s.kMountList ≠ [] → ∀ n < s.nodeCount, s.Reachable n) ∧
      ∀ parent name s', s.Reachable parent →
        vfsMkdir mem (some parent) (some name) s = some (none, s') →
        s'.nodes = s.nodes ∧ s'.nodeCount = s.nodeCount := by
  obtain ⟨s, hrun, kids, R, htree, hmounted⟩ := vfs_run_inv hlegal
  refine ⟨s, hrun, htree.proper, fun hne n hn => ?_, fun parent name s' hp hcall => ?_⟩
  · exact htree.reachable_of_lt hmounted hne hn
  · rw [htree.vfsMkdir_eq (htree.lt_of_reachable hp)] at hcall
    split at hcall
    · cases hcall
      exact ⟨rfl, rfl⟩
    · split at hcall
      · cases hcall
      · cases hcall
        exact ⟨rfl, rfl⟩

theorem vfs_tree_structure_one : ∃ s,
    run (vfsStep fun _ => true) (vfsInit fun _ => true) [.mkdir 0 [0x61]] = some s ∧
    ProperTree s := by
  obtain ⟨s, hrun, hproper, -⟩ := @vfs_tree_structure (fun _ => true) [.mkdir 0 [0x61]]
    ⟨.root rfl, fun _ _ => trivial⟩
  exact ⟨s, hrun, hproper⟩

end

end VortexOS.Fs
