/-
VortexOS.Fs.VfsNames — the names of the nodes.

`vfs_mkdir` looks for the name it was given and stores what `str_cpy` leaves
of it. With names that can be components of a path the tree is a proper
namespace (`vfs_names_proper`).

Nothing checks the name. An empty name and a name with a slash are stored
as they are, and two names that differ behind their first 255 bytes become
two children of one name (`mkdir_names_unchecked`).
-/
import VortexOS.Fs.VfsPaths

namespace VortexOS.Fs

open Lib

/-- The names from `d` down to `n`. -/
inductive Vfs.Follows (s : Vfs) : Nat → List (List Byte) → Nat → Prop
  | nil (n : Nat) : s.Follows n [] n
  | cons {d c n : Nat} {names : List (List Byte)} (hc : c ∈ s.childList d)
      (h : s.Follows c names n) :
    s.Follows d ((s.nodes c).name :: names) n

/-- Siblings have different names, which are not empty and have no slash;
every node has exactly one sequence of names from a root, and no two nodes
have the same. -/
structure ProperNames (s : Vfs) : Prop where
  distinct : ∀ d, s.Reachable d → ((s.childList d).map fun c => (s.nodes c).name).Nodup
  plain : ∀ d, s.Reachable d → ∀ c ∈ s.childList d, PlainName (s.nodes c).name
  address : ∀ n, s.Reachable n → ∃! a : Nat × List (List Byte), s.IsRoot a.1 ∧ s.Follows a.1 a.2 n
  node : ∀ d names n n', s.Follows d names n → s.Follows d names n' → n = n'

section

variable {s : Vfs} {kids : Nat → List Nat} {R : Set Nat} {d e n : Nat} {names : List (List Byte)}

lemma Vfs.Follows.snoc (h : s.Follows d names e) (hn : n ∈ s.childList e) :
    s.Follows d (names ++ [(s.nodes n).name]) n := by
  induction h with
  | nil e => exact .cons hn (.nil n)
  | cons hc _ ih => exact .cons hc (ih hn)

lemma Vfs.Follows.cases_last (h : s.Follows d names n) : names = [] ∧ n = d ∨
    ∃ init e, names = init ++ [(s.nodes n).name] ∧ s.Follows d init e ∧ n ∈ s.childList e := by
  induction h with
  | nil n => exact Or.inl ⟨rfl, rfl⟩
  | @cons d c n names hc h ih =>
    obtain ⟨rfl, rfl⟩ | ⟨init, e, rfl, hinit, hn⟩ := ih
    · exact Or.inr ⟨[], d, rfl, .nil d, hc⟩
    · exact Or.inr ⟨_, e, rfl, .cons hc hinit, hn⟩

lemma Tree.root_not_child (h : Tree s kids R) (hroot : s.IsRoot n) : n ∉ s.childList d := by
  rw [h.childList_eq]
  intro hn
  have hR := (h.child d n hn).2.2
  cases hroot with
  | inl hr => exact hR (h.root n hr).2
  | inr hm =>
    obtain ⟨m, hm⟩ := hm
    exact hR (h.mount m n hm).2.2

lemma Vfs.Reachable.exists_address (hn : s.Reachable n) :
    ∃ r names, s.IsRoot r ∧ s.Follows r names n := by
  induction hn with
  | root hr => exact ⟨_, [], Or.inl hr, .nil _⟩
  | child _ hc ih =>
    obtain ⟨r, names, hr, hfollows⟩ := ih
    exact ⟨r, _, hr, hfollows.snoc hc⟩
  | mounted _ hm _ => exact ⟨_, [], Or.inr ⟨_, hm⟩, .nil _⟩

lemma Tree.address_unique (h : Tree s kids R) {r r' : Nat} {names names' : List (List Byte)}
    (hr : s.IsRoot r) (hr' : s.IsRoot r') (hn : s.Follows r names n) (hn' : s.Follows r' names' n) :
    r = r' ∧ names = names' := by
  -- up from the node, whose parent is older
  induction n using Nat.strongRecOn generalizing names names' with
  | ind n ih =>
    obtain ⟨rfl, rfl⟩ | ⟨init, e, rfl, hinit, he⟩ := hn.cases_last <;>
      obtain ⟨rfl, hnr⟩ | ⟨init', e', rfl, hinit', he'⟩ := hn'.cases_last
    · exact ⟨hnr, rfl⟩
    · exact absurd he' (h.root_not_child hr)
    · exact absurd he (h.root_not_child (hnr ▸ hr'))
    · rw [h.childList_eq] at he he'
      cases h.forest.unique he he'
      obtain ⟨hroots, hinits⟩ := ih e (h.child e n he).1 hinit hinit'
      exact ⟨hroots, by rw [hinits]⟩

lemma Named.follows_unique (h : Named s kids) (htree : Tree s kids R) {n' : Nat}
    (hn : s.Follows d names n) (hn' : s.Follows d names n') : n = n' := by
  induction hn with
  | nil n =>
    cases hn'
    rfl
  | @cons d c n names hc _ ih =>
    generalize hall : (s.nodes c).name :: names = all at hn'
    cases hn' with
    | nil => cases hall
    | @cons _ c' _ names' hc' hrest =>
      obtain ⟨hname, rfl⟩ := List.cons.inj hall
      rw [htree.childList_eq] at hc hc'
      cases List.inj_on_of_nodup_map (h.distinct d) hc hc' hname
      exact ih hrest

lemma Named.proper (h : Named s kids) (htree : Tree s kids R) : ProperNames s where
  distinct d _ := by
    rw [htree.childList_eq]
    exact h.distinct d
  plain d _ c hc := by
    rw [htree.childList_eq] at hc
    exact h.plain d c hc
  address n hn := by
    obtain ⟨r, names, hr, hfollows⟩ := hn.exists_address
    refine ⟨(r, names), ⟨hr, hfollows⟩, fun a ha => ?_⟩
    obtain ⟨hroots, hnames⟩ := htree.address_unique ha.1 hr ha.2 hfollows
    exact Prod.ext hroots hnames
  node _ _ _ _ hn hn' := h.follows_unique htree hn hn'

end

/-! ## Runs -/

/-- The name can be a component of a path. -/
def NamedLegal (s : Vfs) : VfsOp → Prop
  | .mkdir parent name => s.Reachable parent ∧ IsComponent (cstr name)
  | .addChild _ _ _ => False

def NamedInv (s : Vfs) : Prop := ∃ kids R, Booted s kids R ∧ Named s kids

lemma namedStep_inv {mem : Nat → Bool} {s : Vfs} (h : NamedInv s) {op : VfsOp}
    (hlegal : NamedLegal s op) : ∃ s', vfsStep mem s op = some s' ∧ NamedInv s' := by
  obtain ⟨kids, R, h, hnamed⟩ := h
  cases op with
  | addChild parent name type => exact absurd hlegal id
  | mkdir parent name =>
    obtain ⟨hreach, hname⟩ := hlegal
    obtain ⟨o, s', hcall, hcases⟩ := h.mkdir_cases mem hreach name
    refine ⟨s', by simp [vfsStep, hcall], ?_⟩
    obtain ⟨-, rfl | rfl⟩ | ⟨-, rfl, hdir, hfree⟩ := hcases
    · exact ⟨kids, R, h, hnamed⟩
    · exact ⟨kids, R, h.bump, hnamed.bump⟩
    · have hlt := h.lt_of_reachable hreach
      have hstored : strCpy name sizeofName = cstr name := by
        rw [strCpy_eq]
        exact List.take_of_length_le hname.length
      obtain ⟨-, -, hnew⟩ := (h.existing_eq_none hlt hdir).mp hfree
      rw [← hstored] at hnew hname
      exact ⟨_, R, h.addDir hlt hdir hfree,
        hnamed.bump.addNode h.toTree.bump hnew ⟨hname.nonempty, hname.noSlash⟩⟩

/-- After any `vfs_mkdir` calls with such names, a node is given by its path. -/
theorem vfs_names_proper (mem : Nat → Bool) {ops : List VfsOp}
    (hlegal : Along (vfsStep mem) NamedLegal (vfsInit mem) ops) :
    ∃ s, run (vfsStep mem) (vfsInit mem) ops = some s ∧ ProperNames s := by
  obtain ⟨s, hrun, kids, R, h, hnamed⟩ := run_invariant NamedInv
    (fun _ _ h hop => namedStep_inv h hop) (vfsInit_booted mem) hlegal
  exact ⟨s, hrun, hnamed.proper h.toTree⟩

theorem vfs_names_proper_one : ∃ s,
    run (vfsStep fun _ => true) (vfsInit fun _ => true) [.mkdir 0 [0x61]] = some s ∧
    ProperNames s :=
  @vfs_names_proper (fun _ => true) [.mkdir 0 [0x61]]
    ⟨⟨.root rfl, by constructor <;> decide⟩, fun _ _ => trivial⟩

/-- The root's children after four calls for it: two of them have the same
name, one has a slash for its name, and one has none. -/
theorem mkdir_names_unchecked : (run (vfsStep fun _ => true) (vfsInit fun _ => true)
      [.mkdir 0 [], .mkdir 0 [slash], .mkdir 0 (List.replicate 255 0x61 ++ [0x62]),
        .mkdir 0 (List.replicate 255 0x61 ++ [0x63])]).map
      (fun s => (s.kRootNode, (s.childList 0).map fun c => (s.nodes c).name)) =
    some (some 0, [List.replicate 255 0x61, List.replicate 255 0x61, [slash], [], dev]) := by
  decide +kernel

end VortexOS.Fs
