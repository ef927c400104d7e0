/-
VortexOS.Fs.VfsPaths — what paths lead to.

`resolve_path` is a walk along the components of the path (`vfsOpen_eq`).
A component goes down by the child lists, through a mount, or up by the
parent link. A directory that `vfs_mkdir` makes is found under its path, and
all other paths lead where they led before (`vfs_mkdir_found`).

Going down and up again leads back, except through the mount: the parent of
the devfs root is the mount point (`vfs_parent_law`).
-/
import VortexOS.Fs.VfsTree

namespace VortexOS.Fs

open Lib

/-! ## Walks along components -/

def resolveAll (s : Vfs) : Nat → List (List Byte) → Option (Option Nat)
  | current, [] => some (some current)
  | current, c :: cs =>
    match stepComponent s current c with
    | none => none
    | some none => some none
    | some (some next) => resolveAll s next cs

lemma resolveLoop_eq (s : Vfs) {n current : Nat} {path : List Byte} (hn : path.length < n) :
    resolveLoop s n current path = resolveAll s current (components path) := by
  induction n generalizing current path with
  | zero => omega
  | succ n ih =>
    rw [components_eq]
    simp only [resolveLoop]
    split
    · rfl
    · rename_i hhead
      have hlt := restOf_length hhead
      simp only [resolveAll]
      cases stepComponent s current (takeComponent (sizeofName - 1) (path.dropWhile (· == slash)))
        with
      | none => rfl
      | some o =>
        cases o with
        | none => rfl
        | some next => exact ih (Nat.lt_of_lt_of_le hlt (Nat.le_of_lt_succ hn))

lemma vfsOpen_eq {s : Vfs} {root : Nat} (hroot : s.kRootNode = some root) (path : List Byte) :
    vfsOpen (some path) s = resolveAll s root (components path) := by
  unfold vfsOpen resolvePath
  simp only [hroot]
  split
  · rename_i hslash
    rw [resolveLoop_eq s (Nat.lt_succ_self _)]
    cases path with
    | nil => rfl
    | cons c path =>
      simp only [List.headD_cons] at hslash
      rw [hslash, components_slash, List.tail_cons]
  · exact resolveLoop_eq s (Nat.lt_succ_self _)

lemma resolveAll_append {s : Vfs} {current : Nat} (cs ds : List (List Byte)) :
    resolveAll s current (cs ++ ds) = match resolveAll s current cs with
        | none => none
        | some none => some none
        | some (some next) => resolveAll s next ds := by
  induction cs generalizing current with
  | nil => rfl
  | cons c cs ih =>
    simp only [List.cons_append, resolveAll]
    cases stepComponent s current c with
    | none => rfl
    | some o =>
      cases o with
      | none => rfl
      | some next => exact ih

section

variable {s : Vfs} {kids : Nat → List Nat} {R : Set Nat} {current next : Nat} {c : List Byte}

lemma Tree.stepComponent_eq (h : Tree s kids R) (hdot : strCmp c dot ≠ 0)
    (hdotdot : strCmp c dotdot ≠ 0) : stepComponent s current c =
      some (if s.openOp current = none then none else
        ((kids current).find? fun x => strCmp (s.nodes x).name c = 0).map
          fun x => mountResolve x s) := by
  unfold stepComponent
  rw [if_neg hdot, if_neg hdotdot]
  cases hop : s.openOp current with
  | none => simp
  | some op =>
    simp only [h.open_eq hop, Vfs.existing, hop, if_neg hdot, if_neg hdotdot, h.childList_eq]
    cases (kids current).find? fun x => strCmp (s.nodes x).name c = 0 <;> simp

lemma mountResolve_cases (x : Nat) (s : Vfs) :
    mountResolve x s = x ∨ (x, mountResolve x s) ∈ s.kMountList := by
  unfold mountResolve
  cases hfind : s.kMountList.find? fun entry => entry.1 = x with
  | none => exact Or.inl rfl
  | some entry =>
    have hx : entry.1 = x := by simpa using List.find?_some hfind
    have hmem := List.mem_of_find?_eq_some hfind
    refine Or.inr ?_
    rw [← hx]
    exact hmem

lemma Vfs.Reachable.mountResolve {x : Nat} (hx : s.Reachable x) :
    s.Reachable (mountResolve x s) := by
  cases mountResolve_cases x s with
  | inl heq => rwa [heq]
  | inr hmem => exact .mounted hx hmem

section

variable (h : Tree s kids R) (hcur : s.Reachable current)
include h hcur

lemma Tree.parent_reachable : ∃ p, s.parent current = some p ∧ s.Reachable p := by
  cases hcur with
  | root hr => exact ⟨current, (h.root current hr).1, .root hr⟩
  | child hd hc =>
    rw [h.childList_eq] at hc
    exact ⟨_, h.parent_eq hc, hd⟩
  | mounted hm hr => exact ⟨_, (h.mount _ current hr).1, hm⟩

lemma Tree.step_reachable (hstep : stepComponent s current c = some (some next)) :
    s.Reachable next := by
  by_cases hdot : strCmp c dot = 0
  · rw [stepComponent, if_pos hdot] at hstep
    cases hstep
    exact hcur
  · by_cases hdotdot : strCmp c dotdot = 0
    · rw [stepComponent, if_neg hdot, if_pos hdotdot] at hstep
      obtain ⟨p, hp, hreach⟩ := h.parent_reachable hcur
      rw [hp] at hstep
      cases hstep
      exact hreach
    · rw [h.stepComponent_eq hdot hdotdot] at hstep
      split at hstep
      · cases hstep
      · obtain ⟨x, hx, rfl⟩ := Option.map_eq_some_iff.mp (Option.some.inj hstep)
        have hmem := List.mem_of_find?_eq_some hx
        exact (Vfs.Reachable.child hcur (h.childList_eq current ▸ hmem)).mountResolve

lemma Tree.resolveAll_reachable {cs : List (List Byte)}
    (hres : resolveAll s current cs = some (some next)) : s.Reachable next := by
  induction cs generalizing current with
  | nil =>
    cases hres
    exact hcur
  | cons c cs ih =>
    simp only [resolveAll] at hres
    split at hres
    · cases hres
    · cases hres
    · rename_i hstep
      exact ih (h.step_reachable hcur hstep) hres

end

end

/-! ## Runs of `vfs_mkdir` -/

section

variable {mem : Nat → Bool} {s : Vfs} {kids : Nat → List Nat} {R : Set Nat} {p d n : Nat}
    {name path c : List Byte}
  {ops : List VfsOp}

lemma Booted.strCmp_name (h : Booted s kids R) {c : Nat} (hc : c ∈ kids d) :
    strCmp (s.nodes c).name name = 0 ↔ (s.nodes c).name = cstr name := by
  rw [strCmp_eq_zero, cstr_of_not_mem (h.nodes c (h.child d c hc).2.1).name]

lemma strCmp_dot : strCmp name dot = 0 ↔ cstr name = dot := strCmp_eq_zero name dot

lemma strCmp_dotdot : strCmp name dotdot = 0 ↔ cstr name = dotdot := strCmp_eq_zero name dotdot

section

variable (h : Booted s kids R) (hp : p < s.nodeCount) (hdir : (s.nodes p).type = .directory)
include h hp hdir

lemma Booted.openOp_ne_none : s.openOp p ≠ none :=
  (h.nodes p hp).ops hdir

lemma Booted.existing_eq_none : s.existing p name = none ↔
    cstr name ≠ dot ∧ cstr name ≠ dotdot ∧ ∀ c ∈ kids p, (s.nodes c).name ≠ cstr name := by
  unfold Vfs.existing
  rw [if_neg (h.openOp_ne_none hp hdir), h.childList_eq]
  by_cases hdot : strCmp name dot = 0
  · simp [hdot, strCmp_dot.mp hdot]
  · by_cases hdotdot : strCmp name dotdot = 0
    · simp [hdot, hdotdot, strCmp_dotdot.mp hdotdot]
    · simp only [hdot, hdotdot, if_false, List.find?_eq_none, decide_eq_true_eq]
      have hnames : (∀ c ∈ kids p, ¬ strCmp (s.nodes c).name name = 0) ↔
          ∀ c ∈ kids p, (s.nodes c).name ≠ cstr name :=
        forall₂_congr fun c hc => not_congr (h.strCmp_name hc)
      rw [hnames]
      exact ⟨fun hfree => ⟨fun heq => hdot (strCmp_dot.mpr heq),
        fun heq => hdotdot (strCmp_dotdot.mpr heq), hfree⟩, fun hfree => hfree.2.2⟩

lemma Booted.extends_addDir (name : List Byte) : Extends s (s.addDir p name) := by
  have hnode : NodeOk { newNode name .directory with ops := (s.nodes p).ops } :=
    ⟨zero_not_mem_strCpy name sizeofName, fun _ => (h.nodes p hp).ops hdir⟩
  exact ((extends_bump s).trans (extends_push _ hnode)).trans (extends_dirAddChild _ _ _)

end

@[simp] lemma addDir_name (s : Vfs) (p : Nat) (name : List Byte) :
    ((s.addDir p name).nodes s.nodeCount).name = strCpy name sizeofName := by
  simp [Vfs.addDir, newNode]

lemma cstr_eq_dev (h : strCpy name sizeofName = dev) : cstr name = dev := by
  rw [strCpy_eq] at h
  have hlen := congrArg List.length h
  rw [List.length_take] at hlen
  have hshort : (cstr name).length ≤ sizeofName - 1 := by
    have hdev : dev.length = 3 := rfl
    have hsize : sizeofName = 256 := rfl
    omega
  rwa [List.take_of_length_le hshort] at h

lemma Booted.addDir (h : Booted s kids R) (hp : p < s.nodeCount)
    (hdir : (s.nodes p).type = .directory) (hfree : s.existing p name = none) :
    Booted (s.addDir p name) (Function.update kids p (s.nodeCount :: kids p)) R where
  toTree := h.toTree.bump.addNode hp hdir rfl
  mounted := h.mounted
  nodes := (h.extends_addDir hp hdir name).nodesOk h.nodes
  devMount := by
    have hext := h.extends_addDir hp hdir name
    obtain ⟨-, -, hnames⟩ := (h.existing_eq_none hp hdir).mp hfree
    cases h.devMount with
    | inl hnil => exact Or.inl hnil
    | inr hex =>
      obtain ⟨root, m, r, hroot, hmount, hm, hname, hone⟩ := hex
      have hlt : ∀ c ∈ kids root, c < s.nodeCount := fun c hc => (h.child root c hc).2.1
      have hold : ∀ c ∈ kids root, ((s.addDir p name).nodes c).name = dev → c = m := fun c hc heq =>
        hone c hc ((hext.name (hlt c hc)).symm.trans heq)
      refine Or.inr ⟨root, m, r, hroot, hmount, ?_, (hext.name (hlt m hm)).trans hname,
        fun c hc heq => ?_⟩
      · by_cases hr : root = p
        · subst hr
          simp [hm]
        · simpa [hr] using hm
      · by_cases hr : root = p
        · subst hr
          simp only [Function.update_self, List.mem_cons] at hc
          cases hc with
          | inl hc =>
            -- the mount point would have been found
            rw [hc, addDir_name] at heq
            exact absurd (hname.trans (cstr_eq_dev heq).symm) (hnames m hm)
          | inr hc => exact hold c hc heq
        · exact hold c (by simpa [hr] using hc) heq

lemma Booted.bump (h : Booted s kids R) : Booted s.bump kids R :=
  ⟨h.toTree.bump, h.mounted, h.nodes, h.devMount⟩

def MkdirInv (s : Vfs) : Prop := ∃ kids R, Booted s kids R

lemma Booted.mkdir_cases (h : Booted s kids R) (mem : Nat → Bool) (hp : s.Reachable p)
    (name : List Byte) : ∃ o s', vfsMkdir mem (some p) (some name) s = some (o, s') ∧
    (o = none ∧ (s' = s ∨ s' = s.bump) ∨ o = some s.nodeCount ∧ s' = s.addDir p name ∧
      (s.nodes p).type = .directory ∧ s.existing p name = none) := by
  have hlt := h.lt_of_reachable hp
  rw [h.vfsMkdir_eq hlt]
  by_cases hfree : (s.nodes p).type ≠ .directory ∨ s.existing p name ≠ none
  · rw [if_pos hfree]
    exact ⟨none, s, rfl, Or.inl ⟨rfl, Or.inl rfl⟩⟩
  · rw [if_neg hfree]
    rw [not_or, not_not, not_not] at hfree
    cases mem s.mallocs with
    | false => exact ⟨none, s.bump, rfl, Or.inl ⟨rfl, Or.inr rfl⟩⟩
    | true => exact ⟨some s.nodeCount, s.addDir p name, rfl, Or.inr ⟨rfl, rfl, hfree.1, hfree.2⟩⟩

lemma mkdirStep_inv (h : MkdirInv s) {op : VfsOp} (hlegal : MkdirLegal s op) :
    ∃ s', vfsStep mem s op = some s' ∧ MkdirInv s' := by
  obtain ⟨kids, R, h⟩ := h
  cases op with
  | addChild parent name type => exact absurd hlegal id
  | mkdir parent name =>
    obtain ⟨o, s', hcall, hcases⟩ := h.mkdir_cases mem hlegal name
    refine ⟨s', by simp [vfsStep, hcall], ?_⟩
    obtain ⟨-, rfl | rfl⟩ | ⟨-, rfl, hdir, hfree⟩ := hcases
    · exact ⟨kids, R, h⟩
    · exact ⟨kids, R, h.bump⟩
    · exact ⟨_, R, h.addDir (h.lt_of_reachable hlegal) hdir hfree⟩

lemma mkdir_run_inv (hlegal : Along (vfsStep mem) MkdirLegal (vfsInit mem) ops) :
    ∃ s, run (vfsStep mem) (vfsInit mem) ops = some s ∧ MkdirInv s :=
  run_invariant MkdirInv (fun _ _ h hop => mkdirStep_inv h hop) (by
    obtain ⟨kids, R, h, -⟩ := vfsInit_booted mem
    exact ⟨kids, R, h⟩) hlegal

/-! ## A new directory is found -/

lemma addDir_parent (hn : n < s.nodeCount) : (s.addDir p name).parent n = s.parent n := by
  simp [Vfs.addDir, Vfs.parent, Nat.ne_of_lt hn]

lemma addDir_openOp (hext : Extends s (s.addDir p name)) (hn : n < s.nodeCount) :
    (s.addDir p name).openOp n = s.openOp n := by
  have hops : ((s.addDir p name).nodes n).ops = (s.nodes n).ops :=
    congrArg (fun core => core.2.2) (hext.core n hn)
  rw [Vfs.openOp, hops, Vfs.openOp]

section

variable (h : Booted s kids R) (hp : p < s.nodeCount) (hdir : (s.nodes p).type = .directory)
  (hfree : s.existing p name = none) (hshort : strCpy name sizeofName = cstr name)
include h hp hdir hfree hshort

lemma Booted.step_addDir {current next : Nat} (hcur : s.Reachable current)
    (hstep : stepComponent s current c = some (some next)) :
    stepComponent (s.addDir p name) current c = some (some next) := by
  have hlt := h.lt_of_reachable hcur
  have hext := h.extends_addDir hp hdir name
  have h' := h.addDir hp hdir hfree
  obtain ⟨-, -, hnames⟩ := (h.existing_eq_none hp hdir).mp hfree
  by_cases hdot : strCmp c dot = 0
  · rw [stepComponent, if_pos hdot] at hstep ⊢
    exact hstep
  by_cases hdotdot : strCmp c dotdot = 0
  · rw [stepComponent, if_neg hdot, if_pos hdotdot] at hstep ⊢
    rwa [addDir_parent hlt]
  rw [h.stepComponent_eq hdot hdotdot] at hstep
  rw [h'.stepComponent_eq hdot hdotdot, addDir_openOp hext hlt]
  by_cases hop : s.openOp current = none
  · rw [if_pos hop] at hstep
    cases hstep
  rw [if_neg hop, Option.some.injEq, Option.map_eq_some_iff] at hstep ⊢
  obtain ⟨x, hx, hnext⟩ := hstep
  -- the old children are found as before
  have hsame : ((kids current).find? fun x => strCmp ((s.addDir p name).nodes x).name c = 0) =
    some x := by
    rw [← hx]
    exact List.find?_congr fun y hy => by rw [hext.name (h.child current y hy).2.1]
  refine ⟨x, ?_, hnext⟩
  by_cases hcp : current = p
  · subst hcp
    have hxmem := List.mem_of_find?_eq_some hx
    have hxname : strCmp (s.nodes x).name c = 0 := by simpa using List.find?_some hx
    have hne : strCmp (strCpy name sizeofName) c ≠ 0 := fun heq => by
      rw [strCmp_eq_zero, cstr_of_not_mem (zero_not_mem_strCpy _ _), hshort] at heq
      exact hnames x hxmem (((h.strCmp_name hxmem).mp hxname).trans heq.symm)
    simpa [hne] using hsame
  · simpa [hcp] using hsame

lemma Booted.resolveAll_addDir {current next : Nat} {cs : List (List Byte)}
    (hcur : s.Reachable current) (hres : resolveAll s current cs = some (some next)) :
    resolveAll (s.addDir p name) current cs = some (some next) := by
  induction cs generalizing current with
  | nil => exact hres
  | cons c cs ih =>
    simp only [resolveAll] at hres ⊢
    split at hres
    · cases hres
    · cases hres
    · rename_i mid hstep
      rw [h.step_addDir hp hdir hfree hshort hcur hstep]
      exact ih (h.toTree.step_reachable hcur hstep) hres

lemma Booted.step_new : stepComponent (s.addDir p name) p name = some (some s.nodeCount) := by
  have hext := h.extends_addDir hp hdir name
  obtain ⟨hdot, hdotdot, -⟩ := (h.existing_eq_none hp hdir).mp hfree
  have hfound : strCmp (strCpy name sizeofName) name = 0 := by
    rw [strCmp_eq_zero, cstr_of_not_mem (zero_not_mem_strCpy _ _), hshort]
  have hmount : mountResolve s.nodeCount (s.addDir p name) = s.nodeCount := by
    cases mountResolve_cases s.nodeCount (s.addDir p name) with
    | inl heq => exact heq
    | inr hmem =>
      obtain ⟨-, hlt, hR⟩ := h.mount _ _ hmem
      exact absurd (h.bounded _ hR) (Nat.not_lt_of_gt hlt)
  rw [(h.addDir hp hdir hfree).stepComponent_eq (fun heq => hdot (strCmp_dot.mp heq))
    (fun heq => hdotdot (strCmp_dotdot.mp heq)), addDir_openOp hext hp,
      if_neg (h.openOp_ne_none hp hdir)]
  simp [hfound, hmount]

end

lemma root_of_vfsOpen (h : vfsOpen (some path) s = some (some n)) :
    ∃ root, s.kRootNode = some root ∧ resolveAll s root (components path) = some (some n) := by
  cases hroot : s.kRootNode with
  | none =>
    simp [vfsOpen, hroot] at h
  | some root => exact ⟨root, rfl, vfsOpen_eq hroot path ▸ h⟩

/-- In every tree that `vfs_mkdir` makes: a call for a directory that some
path leads to returns null only for a name that is taken, the directory it
makes is found under its path, and all paths that led somewhere lead there
still. -/
theorem vfs_mkdir_found (mem : Nat → Bool) {ops : List VfsOp}
    (hlegal : Along (vfsStep mem) MkdirLegal (vfsInit mem) ops) :
    ∃ s, run (vfsStep mem) (vfsInit mem) ops = some s ∧
      ∀ P d name, 0 ∉ P → IsComponent name → vfsOpen (some P) s = some (some d) →
        (s.nodes d).type = .directory → ∃ o s', vfsMkdir mem (some d) (some name) s = some (o, s') ∧
          (mem s.mallocs = true → (o = none ↔
            name = dot ∨ name = dotdot ∨ ∃ c ∈ s.childList d, (s.nodes c).name = name)) ∧
          ∀ n, o = some n → vfsOpen (some (P ++ slash :: name)) s' = some (some n) ∧
            ∀ Q m, vfsOpen (some Q) s = some (some m) → vfsOpen (some Q) s' = some (some m) := by
  obtain ⟨s, hrun, kids, R, h⟩ := mkdir_run_inv hlegal
  refine ⟨s, hrun, fun P d name hP hname hopen hdir => ?_⟩
  obtain ⟨root, hroot, hres⟩ := root_of_vfsOpen hopen
  have hd : s.Reachable d := h.toTree.resolveAll_reachable (.root hroot) hres
  have hlt := h.lt_of_reachable hd
  have hcstr : cstr name = name := cstr_of_not_mem hname.noZero
  have hfree : s.existing d name = none ↔ _ := h.existing_eq_none hlt hdir
  rw [hcstr] at hfree
  obtain ⟨o, s', hcall, hcases⟩ := h.mkdir_cases mem hd name
  refine ⟨o, s', hcall, fun hmem => ?_, fun n ho => ?_⟩
  · have heq : vfsMkdir mem (some d) (some name) s = _ := h.vfsMkdir_eq hlt name
    rw [hcall, Option.some.injEq, hmem] at heq
    rw [h.childList_eq]
    by_cases hnone : s.existing d name = none
    · have ho : o = some s.nodeCount := by simpa [hdir, hnone] using congrArg Prod.fst heq
      obtain ⟨hdot, hdotdot, hnames⟩ := hfree.mp hnone
      simpa [ho, hdot, hdotdot] using hnames
    · have ho : o = none := by simpa [hnone] using congrArg Prod.fst heq
      simp only [ho, true_iff]
      by_contra hall
      push Not at hall
      exact hnone (hfree.mpr hall)
  · obtain ⟨hnone, -⟩ | ⟨hnew, rfl, -, hnone⟩ := hcases
    · cases hnone.symm.trans ho
    · cases hnew.symm.trans ho
      have hshort : strCpy name sizeofName = cstr name := (strCpy_component hname).trans hcstr.symm
      have hroot' : (s.addDir d name).kRootNode = some root := hroot
      constructor
      · rw [vfsOpen_eq hroot', components_append hP, components_component hname, resolveAll_append,
          h.resolveAll_addDir hlt hdir hnone hshort (.root hroot) hres]
        simp only [resolveAll, h.step_new hlt hdir hnone hshort]
      · intro Q m hQ
        obtain ⟨root2, hroot2, hresQ⟩ := root_of_vfsOpen hQ
        cases hroot.symm.trans hroot2
        rw [vfsOpen_eq hroot']
        exact h.resolveAll_addDir hlt hdir hnone hshort (.root hroot) hresQ

/-- `/a` is made, and then `/a/b`. -/
theorem vfs_mkdir_found_one : ∃ s s' n,
    run (vfsStep fun _ => true) (vfsInit fun _ => true) [.mkdir 0 [0x61]] = some s ∧
      vfsMkdir (fun _ => true) (some 7) (some [0x62]) s = some (some n, s') ∧
      vfsOpen (some [slash, 0x61, slash, 0x62]) s' = some (some n) := by
  obtain ⟨s, hrun, hall⟩ := @vfs_mkdir_found (fun _ => true) [.mkdir 0 [0x61]]
    ⟨.root rfl, fun _ _ => trivial⟩
  have hname : IsComponent [0x62] := by constructor <;> decide
  have hopen : (run (vfsStep fun _ => true) (vfsInit fun _ => true) [.mkdir 0 [0x61]]).bind
      (vfsOpen (some [slash, 0x61])) = some (some 7) := by decide
  have hdir : (run (vfsStep fun _ => true) (vfsInit fun _ => true) [.mkdir 0 [0x61]]).map
      (fun s => (s.nodes 7).type) = some .directory := by decide
  have hlist : (run (vfsStep fun _ => true) (vfsInit fun _ => true) [.mkdir 0 [0x61]]).map
      (fun s => s.childList 7) = some [] := by decide
  rw [hrun] at hopen hdir hlist
  obtain ⟨o, s', hcall, hnull, hfound⟩ := hall [slash, 0x61] 7 [0x62] (by decide) hname hopen
    (Option.some.inj hdir)
  have hne : o ≠ none := fun ho => by
    have hempty : s.childList 7 = [] := Option.some.inj hlist
    have hor := (hnull rfl).mp ho
    simp [hempty, dot, dotdot] at hor
  obtain ⟨n, rfl⟩ := Option.ne_none_iff_exists'.mp hne
  exact ⟨s, s', n, hrun, hcall, (hfound n rfl).1⟩

/-! ## Down and up again -/

lemma IsComponent.strCmp_ne (hc : IsComponent c) (hdot : c ≠ dot) (hdotdot : c ≠ dotdot) :
    strCmp c dot ≠ 0 ∧ strCmp c dotdot ≠ 0 := by
  rw [Ne, Ne, strCmp_dot, strCmp_dotdot, cstr_of_not_mem hc.noZero]
  exact ⟨hdot, hdotdot⟩

lemma Booted.step_down (h : Booted s kids R) (hc : IsComponent c) (hdot : c ≠ dot)
    (hdotdot : c ≠ dotdot) (hstep : stepComponent s d c = some (some n)) :
    ∃ x ∈ kids d, (s.nodes x).name = c ∧ mountResolve x s = n ∧ s.existing d c = some x := by
  obtain ⟨hdot, hdotdot⟩ := hc.strCmp_ne hdot hdotdot
  rw [h.stepComponent_eq hdot hdotdot, Option.some.injEq] at hstep
  by_cases hop : s.openOp d = none
  · rw [if_pos hop] at hstep
    cases hstep
  · rw [if_neg hop, Option.map_eq_some_iff] at hstep
    obtain ⟨x, hfind, hn⟩ := hstep
    have hx := List.mem_of_find?_eq_some hfind
    have hname : strCmp (s.nodes x).name c = 0 := by simpa using List.find?_some hfind
    refine ⟨x, hx, ((h.strCmp_name hx).mp hname).trans (cstr_of_not_mem hc.noZero), hn, ?_⟩
    rw [Vfs.existing, if_neg hop, if_neg hdot, if_neg hdotdot, h.childList_eq, hfind]

lemma Booted.open_child (h : Booted s kids R) (hpath : 0 ∉ path) (hc : IsComponent c)
    (hdot : c ≠ dot) (hdotdot : c ≠ dotdot)
    (hopen : vfsOpen (some (path ++ slash :: c)) s = some (some n)) : ∃ d, vfsOpen (some path) s =
      some (some d) ∧ s.Reachable d ∧ (∃ x ∈ kids d, (s.nodes x).name = c ∧ mountResolve x s = n) ∧
    vfsOpen (some (path ++ slash :: c ++ slash :: dotdot)) s =
      some (some ((s.parent n).getD n)) := by
  obtain ⟨root, hroot, hres⟩ := root_of_vfsOpen hopen
  have hzero : 0 ∉ path ++ slash :: c := by
    rw [List.mem_append, List.mem_cons, not_or, not_or]
    exact ⟨hpath, by decide, hc.noZero⟩
  have hup : stepComponent s n dotdot = some (some ((s.parent n).getD n)) := rfl
  have hall : vfsOpen (some (path ++ slash :: c ++ slash :: dotdot)) s =
      some (some ((s.parent n).getD n)) := by
    rw [vfsOpen_eq hroot, components_append hzero, components_component isComponent_dotdot,
      resolveAll_append, hres]
    simp only [resolveAll, hup]
  rw [components_append hpath, components_component hc, resolveAll_append] at hres
  split at hres
  · cases hres
  · cases hres
  · rename_i d hd
    have hreach := h.toTree.resolveAll_reachable (.root hroot) hd
    refine ⟨d, (vfsOpen_eq hroot path).trans hd, hreach, ?_, hall⟩
    have hstep : stepComponent s d c = some (some n) := by
      rw [resolveAll] at hres
      split at hres
      · cases hres
      · cases hres
      · rename_i hstep
        cases hres
        exact hstep
    obtain ⟨x, hx, hname, hn, -⟩ := h.step_down hc hdot hdotdot hstep
    exact ⟨x, hx, hname, hn⟩

/-- `..` leads back to where a component came from, except from `/dev` with a
file system mounted: that is a root of its own. -/
theorem vfs_parent_law (mem : Nat → Bool) {ops : List VfsOp}
    (hlegal : Along (vfsStep mem) MkdirLegal (vfsInit mem) ops) :
    ∃ s, run (vfsStep mem) (vfsInit mem) ops = some s ∧ ∀ p c n, 0 ∉ p → IsComponent c → c ≠ dot →
    c ≠ dotdot →
        vfsOpen (some (p ++ slash :: c)) s = some (some n) →
        (vfsOpen (some (p ++ slash :: c ++ slash :: dotdot)) s = vfsOpen (some p) s ↔
          ¬ (vfsOpen (some p) s = some s.kRootNode ∧ c = dev ∧ s.kMountList ≠ [])) := by
  obtain ⟨s, hrun, kids, R, h⟩ := mkdir_run_inv hlegal
  refine ⟨s, hrun, fun p c n hp hc hdot hdotdot hopen => ?_⟩
  obtain ⟨d, hd, hreach, ⟨x, hx, hname, hn⟩, hup⟩ := h.open_child hp hc hdot hdotdot hopen
  rw [hup, hd]
  have hxd : d < x := (h.child d x hx).1
  cases mountResolve_cases x s with
  | inl heq =>
    -- no mount: the parent of the child is the directory
    rw [heq] at hn
    subst hn
    simp only [h.parent_eq hx, Option.getD_some, true_iff]
    rintro ⟨hroot, rfl, hne⟩
    obtain hnil | ⟨root, m, r, hr, hmount, -, -, hone⟩ := h.devMount
    · exact hne hnil
    · have hdr : d = root := Option.some.inj ((Option.some.inj hroot).trans hr)
      have hxm := hone x (hdr ▸ hx) hname
      have hmem : (m, r) ∈ s.kMountList := by simp [hmount]
      have hres : mountResolve x s = r := by simp [mountResolve, hmount, hxm]
      have hlt := (h.mount m r hmem).2.1
      rw [← hres, heq, hxm] at hlt
      exact Nat.lt_irrefl m hlt
  | inr hmem =>
    rw [hn] at hmem
    have hparent : s.parent n = some x := (h.mount x n hmem).1
    obtain hnil | ⟨root, m, r, hr, hmount, hm, hmdev, -⟩ := h.devMount
    · rw [hnil] at hmem
      cases hmem
    · have hxm : x = m := by
        rw [hmount, List.mem_singleton] at hmem
        exact congrArg Prod.fst hmem
      subst hxm
      have hdr : d = root := h.forest.unique hx hm
      simp only [hparent, Option.getD_some, Option.some.injEq]
      exact ⟨fun heq => absurd heq (Nat.ne_of_gt hxd), fun hnot =>
        absurd ⟨by rw [hr, hdr], hname.symm.trans hmdev, by simp [hmount]⟩ hnot⟩

/-- `/dev/null/..` is `/dev`. -/
theorem vfs_parent_law_null : ∃ s, run (vfsStep fun _ => true) (vfsInit fun _ => true) [] = some s ∧
    vfsOpen (some ([slash] ++ dev ++ slash :: nullName ++ slash :: dotdot)) s =
      vfsOpen (some ([slash] ++ dev)) s := by
  obtain ⟨s, hrun, hall⟩ := @vfs_parent_law (fun _ => true) [] trivial
  have hs : vfsInit (fun _ => true) = s := Option.some.inj hrun
  refine ⟨s, hrun, (hall ([slash] ++ dev) nullName 3 (by decide) (by constructor <;> decide)
    (by decide)
    (by decide) ?_).mpr fun hroot => absurd hroot.2.1 (by decide)⟩
  rw [← hs]
  decide

/-- `/dev/..` is the mount point, and not the root. -/
theorem dev_dotdot_not_root :
    vfsOpen (some ([slash] ++ dev)) (vfsInit fun _ => true) = some (some 2) ∧
    vfsOpen (some ([slash] ++ dev ++ slash :: dotdot)) (vfsInit fun _ => true) = some (some 1) ∧
    vfsOpen (some []) (vfsInit fun _ => true) = some (some 0) := by
  decide

end

end VortexOS.Fs
