/-
VortexOS.Fs.VfsResolve — paths by the names between their slashes.

`resolve_path` cuts the path by a loop of its own, which cuts inside a name
as well when the name does not fit its buffer (`components_eq_flatMap`).
For where a path leads only the names count, and a path put together from
two is walked one after the other (`resolve_path_append`).

A walk has one step down for each name, to a node of that name, if no name
is longer than 255 bytes. Where there is a name of 255 bytes, some longer
name is accepted (`exact_names_iff`).
-/
import VortexOS.Fs.VfsPaths

namespace VortexOS.Fs

open Lib

variable {c path p : List Byte} {cs : List (List Byte)} {s : Vfs} {kids : Nat → List Nat}
  {R : Set Nat} {n current : Nat}

/-! ## The names of a path -/

/-- What is between the slashes, if it is not empty. -/
def pathNames (path : List Byte) : List (List Byte) := (path.splitOn slash).filter (· ≠ [])

@[simp] lemma pathNames_nil : pathNames [] = [] := rfl

lemma pathNames_append (p q : List Byte) :
    pathNames (p ++ slash :: q) = pathNames p ++ pathNames q := by
  simp only [pathNames, List.splitOn_eq_splitOnP]
  rw [List.splitOnP_append_cons p q (by simp), List.filter_append]

lemma pathNames_noSlash (h : slash ∉ c) (hne : c ≠ []) : pathNames c = [c] := by
  have hsplit : c.splitOnP (· == slash) = [c] := List.splitOnP_eq_singleton fun b hb => by
    simpa using fun heq : b = slash => h (heq ▸ hb)
  rw [pathNames, List.splitOn_eq_splitOnP, hsplit]
  simp [hne]

lemma path_induction {P : List Byte → Prop} (last : ∀ c, slash ∉ c → P c)
    (more : ∀ c rest, slash ∉ c → P rest → P (c ++ slash :: rest)) (path : List Byte) : P path := by
  induction hlen : path.length using Nat.strongRecOn generalizing path with
  | ind n ih =>
    by_cases hslash : slash ∈ path
    · obtain ⟨c, rest, rfl, hc⟩ := List.eq_append_cons_of_mem hslash
      refine more c rest hc (ih rest.length ?_ rest rfl)
      rw [← hlen, List.length_append, List.length_cons]
      omega
    · exact last path hslash

lemma pathNames_mem (hc : c ∈ pathNames path) : c ≠ [] ∧ slash ∉ c ∧ ∀ b ∈ c, b ∈ path := by
  induction path using path_induction with
  | last d hd =>
    by_cases hne : d = []
    · rw [hne] at hc
      cases hc
    · rw [pathNames_noSlash hd hne, List.mem_singleton] at hc
      subst hc
      exact ⟨hne, hd, fun _ hb => hb⟩
  | more d rest hd ih =>
    rw [pathNames_append, List.mem_append] at hc
    cases hc with
    | inl hc =>
      have hne : d ≠ [] := by
        rintro rfl
        cases hc
      rw [pathNames_noSlash hd hne, List.mem_singleton] at hc
      subst hc
      exact ⟨hne, hd, fun b hb => List.mem_append_left _ hb⟩
    | inr hc =>
      obtain ⟨hne, hslash, hin⟩ := ih hc
      exact ⟨hne, hslash, fun b hb => List.mem_append_right _ (List.mem_cons_of_mem _ (hin b hb))⟩

def joinNames : List (List Byte) → List Byte
  | [] => []
  | c :: cs => c ++ slash :: joinNames cs

lemma pathNames_joinNames (h : ∀ c ∈ cs, c ≠ [] ∧ slash ∉ c) : pathNames (joinNames cs) = cs := by
  induction cs with
  | nil => rfl
  | cons c cs ih =>
    obtain ⟨hne, hslash⟩ := h c (by simp)
    rw [joinNames, pathNames_append, pathNames_noSlash hslash hne,
      ih fun d hd => h d (by simp [hd]), List.singleton_append]

lemma zero_not_mem_joinNames (h : ∀ c ∈ cs, 0 ∉ c) : 0 ∉ joinNames cs := by
  induction cs with
  | nil => simp [joinNames]
  | cons c cs ih =>
    rw [joinNames, List.mem_append, List.mem_cons, not_or, not_or]
    exact ⟨h c (by simp), by decide, ih fun d hd => h d (by simp [hd])⟩

/-! ## The names and the loop -/

@[simp] lemma components_nil : components [] = [] := rfl

lemma components_eq_flatMap (h : 0 ∉ path) :
    components path = (pathNames path).flatMap components := by
  induction path using path_induction with
  | last c hc =>
    by_cases hne : c = []
    · rw [hne]
      rfl
    · rw [pathNames_noSlash hc hne, List.flatMap_singleton]
  | more c rest hc ih =>
    rw [List.mem_append, List.mem_cons, not_or, not_or] at h
    rw [components_append h.1, pathNames_append, List.flatMap_append, ih h.2.2]
    congr 1
    by_cases hne : c = []
    · rw [hne]
      rfl
    · rw [pathNames_noSlash hc hne, List.flatMap_singleton]

lemma components_eq_pathNames (h : 0 ∉ path) (hshort : ∀ c ∈ pathNames path, c.length ≤ 255) :
    components path = pathNames path := by
  rw [components_eq_flatMap h]
  have hone : ∀ c ∈ pathNames path, components c = [c] := fun c hc => by
    obtain ⟨hne, hslash, hin⟩ := pathNames_mem hc
    exact components_component ⟨hne, hslash, fun h0 => h (hin 0 h0), hshort c hc⟩
  rw [List.flatMap_congr hone, List.flatMap_singleton']

/-! ## Where a path leads -/

def resolvePathFrom (base : Option Nat) (path : List Byte) (s : Vfs) : Option (Option Nat) :=
  match base with
  | none => some none
  | some base => resolvePath base path s

lemma resolvePath_eq (s : Vfs) (b : Nat) (path : List Byte) :
    resolvePath b path s = resolveAll s b (components path) :=
  resolveLoop_eq s (Nat.lt_succ_self _)

section

variable {b : Nat}

lemma Tree.stepComponent_some (h : Tree s kids R) (b : Nat) (c : List Byte) :
    ∃ r, stepComponent s b c = some r := by
  by_cases hdot : strCmp c dot = 0
  · exact ⟨some b, by rw [stepComponent, if_pos hdot]⟩
  · by_cases hdotdot : strCmp c dotdot = 0
    · exact ⟨some ((s.parent b).getD b), by rw [stepComponent, if_neg hdot, if_pos hdotdot]⟩
    · exact ⟨_, h.stepComponent_eq hdot hdotdot⟩

lemma Tree.resolveAll_some (h : Tree s kids R) (b : Nat) (cs : List (List Byte)) :
    ∃ r, resolveAll s b cs = some r := by
  induction cs generalizing b with
  | nil => exact ⟨some b, rfl⟩
  | cons c cs ih =>
    obtain ⟨r, hstep⟩ := h.stepComponent_some b c
    simp only [resolveAll, hstep]
    cases r with
    | none => exact ⟨none, rfl⟩
    | some next => exact ih next

lemma resolvePath_append (hp : 0 ∉ p) (q : List Byte) {r : Option Nat}
    (hr : resolvePath b p s = some r) :
    resolvePath b (p ++ slash :: q) s = resolvePathFrom r q s := by
  rw [resolvePath_eq] at hr
  rw [resolvePath_eq, components_append hp, resolveAll_append, hr]
  cases r with
  | none => rfl
  | some n => exact (resolvePath_eq s n q).symm

lemma resolveAll_filter_dot (s : Vfs) (b : Nat) (cs : List (List Byte)) :
    resolveAll s b ((cs.filter (· ≠ dot)).flatMap components) =
      resolveAll s b (cs.flatMap components) := by
  induction cs generalizing b with
  | nil => rfl
  | cons c cs ih =>
    by_cases hc : c = dot
    · subst hc
      have hdot : components dot = [dot] := by decide
      have hstep : stepComponent s b dot = some (some b) := rfl
      rw [List.filter_cons_of_neg (by simp), List.flatMap_cons, hdot, List.singleton_append,
        resolveAll, hstep]
      exact ih b
    · rw [List.filter_cons_of_pos (by simpa using hc), List.flatMap_cons, List.flatMap_cons,
        resolveAll_append, resolveAll_append]
      split
      · rfl
      · rfl
      · exact ih _

lemma resolvePath_names (s : Vfs) (b : Nat) {q : List Byte} (hp : 0 ∉ p) (hq : 0 ∉ q)
    (hnames : (pathNames p).filter (· ≠ dot) = (pathNames q).filter (· ≠ dot)) :
    resolvePath b p s = resolvePath b q s := by
  rw [resolvePath_eq, resolvePath_eq, components_eq_flatMap hp, components_eq_flatMap hq,
    ← resolveAll_filter_dot, hnames, resolveAll_filter_dot]

lemma vfsOpen_slash (s : Vfs) (p : List Byte) :
    vfsOpen (some (slash :: p)) s = vfsOpen (some p) s := by
  cases hroot : s.kRootNode with
  | none => simp only [vfsOpen, hroot]
  | some root => rw [vfsOpen_eq hroot, vfsOpen_eq hroot, components_slash]

end

/-- In every tree that `vfs_mkdir` makes and from every node: the loop ends,
a path in two parts leads where its second part leads from where the first
one does, slashes and the name `.` make no difference, and neither does a
slash in front for `vfs_open`. -/
theorem resolve_path_append (mem : Nat → Bool) {ops : List VfsOp}
    (hlegal : Along (vfsStep mem) MkdirLegal (vfsInit mem) ops) :
    ∃ s, run (vfsStep mem) (vfsInit mem) ops = some s ∧
    (∀ b p, 0 ∉ p → ∃ r, resolvePath b p s = some r ∧
        ∀ q, 0 ∉ q → resolvePath b (p ++ slash :: q) s = resolvePathFrom r q s) ∧
      (∀ b p q, 0 ∉ p → 0 ∉ q → (pathNames p).filter (· ≠ dot) = (pathNames q).filter (· ≠ dot) →
        resolvePath b p s = resolvePath b q s) ∧
      ∀ p, 0 ∉ p → vfsOpen (some (slash :: p)) s = vfsOpen (some p) s := by
  obtain ⟨s, hrun, kids, R, h⟩ := mkdir_run_inv hlegal
  refine ⟨s, hrun, fun b p hp => ?_, fun b p q hp hq => resolvePath_names s b hp hq,
    fun p _ => vfsOpen_slash s p⟩
  obtain ⟨r, hr⟩ := h.toTree.resolveAll_some b (components p)
  rw [← resolvePath_eq] at hr
  exact ⟨r, hr, fun q _ => resolvePath_append hp q hr⟩

lemma legal_two {name name' : List Byte}
    (h : (vfsStep (fun _ => true) (vfsInit fun _ => true) (.mkdir 0 name)).map
      (fun s => (s.kRootNode, decide (7 ∈ s.childList 0))) = some (some 0, true)) :
    Along (vfsStep fun _ => true) MkdirLegal (vfsInit fun _ => true)
      [.mkdir 0 name, .mkdir 7 name'] := by
  refine ⟨.root rfl, fun s hs => ?_⟩
  rw [hs] at h
  simp only [Option.map_some, Option.some.injEq, Prod.mk.injEq, decide_eq_true_eq] at h
  exact ⟨.child (.root h.1) h.2, fun _ _ => trivial⟩

/-- `//a/./b/` from the root, in a tree with `/a/b`. -/
theorem resolve_path_append_slashes : ∃ s,
    run (vfsStep fun _ => true) (vfsInit fun _ => true) [.mkdir 0 [0x61], .mkdir 7 [0x62]] =
      some s ∧
      resolvePath 0 [slash, slash, 0x61, slash, 0x2E, slash, 0x62, slash] s =
        resolvePath 0 [0x61, slash, 0x62] s ∧ ∃ r, resolvePath 0 [0x61] s = some r ∧
        resolvePath 0 [0x61, slash, 0x62] s = resolvePathFrom r [0x62] s := by
  obtain ⟨s, hrun, hsplit, hnames, -⟩ := @resolve_path_append (fun _ => true)
    [.mkdir 0 [0x61], .mkdir 7 [0x62]] (legal_two (by decide))
  obtain ⟨r, hr, hq⟩ := hsplit 0 [0x61] (by decide)
  exact ⟨s, hrun, hnames 0 _ _ (by decide) (by decide) (by decide), r, hr, hq [0x62] (by decide)⟩

/-! ## The steps of a walk -/

/-- The node that `open` returns for a component. -/
def openedBy (s : Vfs) (current : Nat) (component : List Byte) : List Nat :=
  if strCmp component dot = 0 ∨ strCmp component dotdot = 0 then []
  else
    match s.openOp current with
    | none => []
    | some op =>
      match op current component s with
      | some (some next) => [next]
      | _ => []

/-- The nodes that `open` returns in the rounds of the loop. -/
def openedLoop (s : Vfs) : Nat → Nat → List Byte → List Nat
  | 0, _, _ => []
  | n + 1, current, path =>
    let path := path.dropWhile (· == slash)
    if path.headD 0 = 0 then []
    else
      let component := takeComponent (sizeofName - 1) path
      openedBy s current component ++
        match stepComponent s current component with
        | some (some next) => openedLoop s n next (path.drop component.length)
        | _ => []

def vfsOpened (path : List Byte) (s : Vfs) : List Nat :=
  match s.kRootNode with
  | none => []
  | some root =>
    if path.headD 0 = slash then openedLoop s (path.tail.length + 1) root path.tail
    else openedLoop s (path.length + 1) root path

def openedAll (s : Vfs) : Nat → List (List Byte) → List Nat
  | _, [] => []
  | current, c :: cs =>
    openedBy s current c ++
      match stepComponent s current c with
      | some (some next) => openedAll s next cs
      | _ => []

lemma openedLoop_eq (s : Vfs) (hn : path.length < n) :
    openedLoop s n current path = openedAll s current (components path) := by
  induction n generalizing current path with
  | zero => omega
  | succ n ih =>
    rw [components_eq]
    simp only [openedLoop]
    split
    · rfl
    · rename_i hhead
      have hlt := restOf_length hhead
      simp only [openedAll]
      congr 1
      split
      · exact ih (Nat.lt_of_lt_of_le hlt (Nat.le_of_lt_succ hn))
      · rfl

lemma vfsOpened_eq {root : Nat} (hroot : s.kRootNode = some root) (path : List Byte) :
    vfsOpened path s = openedAll s root (components path) := by
  unfold vfsOpened
  simp only [hroot]
  split
  · rename_i hslash
    rw [openedLoop_eq s (Nat.lt_succ_self _)]
    cases path with
    | nil => rfl
    | cons c path =>
      simp only [List.headD_cons] at hslash
      rw [hslash, components_slash, List.tail_cons]
  · exact openedLoop_eq s (Nat.lt_succ_self _)

/-! ## Names and steps -/

section

variable {next : Nat}

lemma Booted.openedBy_eq (h : Booted s kids R) (hc : IsComponent c) (hdot : c ≠ dot)
    (hdotdot : c ≠ dotdot) (hstep : stepComponent s current c = some (some next)) :
    ∃ x ∈ kids current, (s.nodes x).name = c ∧ openedBy s current c = [x] := by
  obtain ⟨x, hx, hname, -, hfirst⟩ := h.step_down hc hdot hdotdot hstep
  obtain ⟨hdot, hdotdot⟩ := hc.strCmp_ne hdot hdotdot
  refine ⟨x, hx, hname, ?_⟩
  rw [openedBy, if_neg (not_or.mpr ⟨hdot, hdotdot⟩)]
  cases hop : s.openOp current with
  | none => simp [Vfs.existing, hop] at hfirst
  | some op => simp only [h.open_eq hop, hfirst]

lemma openedBy_dots (h : c = dot ∨ c = dotdot) : openedBy s current c = [] := by
  obtain rfl | rfl := h
  · exact if_pos (Or.inl rfl)
  · exact if_pos (Or.inr rfl)

lemma Booted.openedAll_names (h : Booted s kids R) (hcs : ∀ c ∈ cs, IsComponent c)
    (hres : resolveAll s current cs = some (some n)) :
    (openedAll s current cs).map (fun x => (s.nodes x).name) = cs.filter fun c => c ≠ dot ∧
    c ≠ dotdot := by
  induction cs generalizing current with
  | nil => rfl
  | cons c cs ih =>
    rw [resolveAll] at hres
    split at hres
    · cases hres
    · cases hres
    · rename_i next hstep
      have hrest := ih (fun d hd => hcs d (by simp [hd])) hres
      simp only [openedAll, hstep, List.map_append, hrest]
      by_cases hdots : c = dot ∨ c = dotdot
      · have hnot : ¬ (c ≠ dot ∧ c ≠ dotdot) := fun hne => hdots.elim hne.1 hne.2
        rw [openedBy_dots hdots, List.filter_cons_of_neg (by simpa using hnot)]
        rfl
      · rw [not_or] at hdots
        obtain ⟨x, -, hname, hopened⟩ := h.openedBy_eq (hcs c (by simp)) hdots.1 hdots.2 hstep
        rw [hopened, List.filter_cons_of_pos (by simpa using hdots)]
        simp [hname]

end

/-! ## Exact names -/

/-- No name of the path is `.` or `..`. -/
def PlainPath (path : List Byte) : Prop := ∀ c ∈ pathNames path, c ≠ dot ∧ c ≠ dotdot

/-- All names of the path fit the buffer. -/
def ShortNames (path : List Byte) : Prop := ∀ c ∈ pathNames path, c.length ≤ 255

/-- If the path leads somewhere, then by one step for each of its names, to
a node with that name. -/
def ExactWalk (s : Vfs) (path : List Byte) : Prop :=
  ∀ n, vfsOpen (some path) s = some (some n) →
    (vfsOpened path s).map (fun x => (s.nodes x).name) = pathNames path

lemma dots_of_length (h : 2 < c.length) : c ≠ dot ∧ c ≠ dotdot := by
  constructor
  · rintro rfl
    exact absurd h (by decide)
  · rintro rfl
    exact absurd h (by decide)

section

variable (h : Booted s kids R)
include h

lemma Booted.opened_names (hopen : vfsOpen (some path) s = some (some n)) :
    (vfsOpened path s).map (fun x => (s.nodes x).name) = (components path).filter fun c => c ≠ dot ∧
    c ≠ dotdot := by
  obtain ⟨root, hroot, hres⟩ := root_of_vfsOpen hopen
  rw [vfsOpened_eq hroot]
  exact h.openedAll_names (fun c hc => isComponent_of_mem hc) hres

lemma Booted.exactWalk (hpath : 0 ∉ path) (hplain : PlainPath path) (hshort : ShortNames path) :
    ExactWalk s path := by
  intro n hopen
  rw [h.opened_names hopen, components_eq_pathNames hpath hshort, List.filter_eq_self]
  intro c hc
  simpa using hplain c hc

/-- A node that is entered has a name that fits. -/
lemma Booted.short_of_exactWalk (hopen : vfsOpen (some path) s = some (some n))
    (hexact : ExactWalk s path) : ShortNames path := by
  intro c hc
  rw [← hexact n hopen, h.opened_names hopen] at hc
  exact (isComponent_of_mem (List.mem_of_mem_filter hc)).length

lemma Booted.long_name (hpath : 0 ∉ path) (hopen : vfsOpen (some path) s = some (some n)) {x : Nat}
    (hx : x ∈ kids n) (hslash : slash ∉ (s.nodes x).name) (hlen : (s.nodes x).name.length = 255) :
    ∃ m, vfsOpen (some (path ++ slash :: ((s.nodes x).name ++ dot))) s = some (some m) := by
  obtain ⟨root, hroot, hres⟩ := root_of_vfsOpen hopen
  have hzero : 0 ∉ (s.nodes x).name := (h.nodes x (h.child n x hx).2.1).name
  have hop : s.openOp n ≠ none := by
    refine h.openOp_ne_none ?_ (h.dir n (List.ne_nil_of_mem hx))
    exact Nat.lt_trans (h.child n x hx).1 (h.child n x hx).2.1
  have hfound : ((kids n).find? fun y => strCmp (s.nodes y).name (s.nodes x).name = 0).isSome := by
    rw [List.find?_isSome]
    exact ⟨x, hx, by simp [strCmp_eq_zero]⟩
  generalize (s.nodes x).name = c at hslash hlen hzero hfound
  -- the loop cuts the name behind its 255th byte
  have hcut : components (c ++ dot) = [c, dot] := by
    have hdot : 0 ∉ dot ∧ slash ∉ dot ∧ components dot = [dot] := by decide
    rw [components_name (by simp [dot]) (by simp [hslash, hdot.2.1])
      (List.not_mem_append hzero hdot.1), List.take_left' hlen, List.drop_left' hlen, hdot.2.2]
  have hne := dots_of_length (c := c) (by omega)
  have hc : IsComponent c := @isComponent_of_mem (c ++ dot) c (by simp [hcut])
  obtain ⟨hdot, hdotdot⟩ := hc.strCmp_ne hne.1 hne.2
  obtain ⟨y, hy⟩ := Option.isSome_iff_exists.mp hfound
  refine ⟨mountResolve y s, ?_⟩
  rw [vfsOpen_eq hroot, components_append hpath, hcut, resolveAll_append, hres]
  simp only [resolveAll, h.stepComponent_eq hdot hdotdot, if_neg hop, hy, Option.map_some]
  rfl

end

lemma exists_first_long (h : ¬ ShortNames path) : ∃ pre c post, pathNames path = pre ++ c :: post ∧
    (∀ d ∈ pre, d.length ≤ 255) ∧ 255 < c.length := by
  unfold ShortNames at h
  push Not at h
  have hsome : ((pathNames path).find? fun c => 255 < c.length).isSome := by
    rw [List.find?_isSome]
    simpa using h
  obtain ⟨c, hc⟩ := Option.isSome_iff_exists.mp hsome
  obtain ⟨hlong, pre, post, hsplit, hpre⟩ := List.find?_eq_some_iff_append.mp hc
  exact ⟨pre, c, post, hsplit, fun d hd => by simpa using hpre d hd, by simpa using hlong⟩

lemma Booted.exists_long (h : Booted s kids R) (hpath : 0 ∉ path) (hplain : PlainPath path)
    (hopen : vfsOpen (some path) s = some (some n)) (hlong : ¬ ShortNames path) :
    ∃ p d x, 0 ∉ p ∧ PlainPath p ∧ ShortNames p ∧ vfsOpen (some p) s = some (some d) ∧ x ∈ kids d ∧
    slash ∉ (s.nodes x).name ∧ (s.nodes x).name.length = 255 := by
  obtain ⟨root, hroot, hres⟩ := root_of_vfsOpen hopen
  obtain ⟨pre, c, post, hsplit, hpre, hc⟩ := exists_first_long hlong
  have hname : ∀ d ∈ pathNames path, d ≠ [] ∧ slash ∉ d ∧ 0 ∉ d := fun d hd => by
    obtain ⟨hne, hslash, hin⟩ := pathNames_mem hd
    exact ⟨hne, hslash, fun h0 => hpath (hin 0 h0)⟩
  rw [components_eq_flatMap hpath] at hres
  rw [PlainPath] at hplain
  rw [hsplit] at hname hplain hres
  -- the names before it are a path of their own
  have hjoin : pathNames (joinNames pre) = pre := pathNames_joinNames fun d hd =>
    ⟨(hname d (by simp [hd])).1, (hname d (by simp [hd])).2.1⟩
  have hzero : 0 ∉ joinNames pre := zero_not_mem_joinNames fun d hd => (hname d (by simp [hd])).2.2
  obtain ⟨hne, hslash, hc0⟩ := hname c (by simp)
  have hlen : (c.take 255).length = 255 := by
    rw [List.length_take]
    omega
  rw [List.flatMap_append, List.flatMap_cons, components_name hne hslash hc0,
    resolveAll_append] at hres
  split at hres
  · cases hres
  · cases hres
  · rename_i d hd
    rw [List.cons_append, resolveAll] at hres
    split at hres
    · cases hres
    · cases hres
    · rename_i next hstep
      have hcomp : IsComponent (c.take 255) := isComponent_of_mem (by
        rw [components_name hne hslash hc0]
        exact List.mem_cons_self)
      have hdots := dots_of_length (c := c.take 255) (by omega)
      obtain ⟨x, hx, hname', -⟩ := h.step_down hcomp hdots.1 hdots.2 hstep
      refine ⟨joinNames pre, d, x, hzero, ?_, ?_, ?_, hx, ?_, ?_⟩
      · rw [PlainPath, hjoin]
        exact fun e he => hplain e (by simp [he])
      · rw [ShortNames, hjoin]
        exact hpre
      · rw [vfsOpen_eq hroot, components_eq_flatMap hzero, hjoin, hd]
      · rw [hname']
        exact hcomp.noSlash
      · rw [hname', hlen]

/-- In every tree that `vfs_mkdir` makes: paths whose names have 255 bytes
at most are walked by their names. All paths are, if and only if no such
path leads to a directory with a name of exactly 255 bytes in it. -/
theorem exact_names_iff (mem : Nat → Bool) {ops : List VfsOp}
    (hlegal : Along (vfsStep mem) MkdirLegal (vfsInit mem) ops) :
    ∃ s, run (vfsStep mem) (vfsInit mem) ops = some s ∧
      (∀ path, 0 ∉ path → PlainPath path → ShortNames path → ExactWalk s path) ∧
      ((∀ path, 0 ∉ path → PlainPath path → ExactWalk s path) ↔
        ∀ path d, 0 ∉ path → PlainPath path → ShortNames path →
        vfsOpen (some path) s = some (some d) →
          ∀ x ∈ s.childList d, slash ∉ (s.nodes x).name → (s.nodes x).name.length ≠ 255) := by
  obtain ⟨s, hrun, kids, R, h⟩ := mkdir_run_inv hlegal
  refine ⟨s, hrun, fun path => h.exactWalk, ?_, ?_⟩
  · intro hall path d hpath hplain hshort hopen x hx hslash hlen
    rw [h.childList_eq] at hx
    have hzero : 0 ∉ (s.nodes x).name := (h.nodes x (h.child d x hx).2.1).name
    obtain ⟨m, hm⟩ := h.long_name hpath hopen hx hslash hlen
    generalize (s.nodes x).name = c at hslash hlen hzero hm
    have hlen' : (c ++ dot).length = 256 := by rw [List.length_append, hlen]; rfl
    have hnames : pathNames (path ++ slash :: (c ++ dot)) = pathNames path ++ [c ++ dot] := by
      rw [pathNames_append, pathNames_noSlash (List.not_mem_append hslash (by decide))
        (by simp [dot])]
    have hexact := hall (path ++ slash :: (c ++ dot))
      (List.not_mem_append hpath (by simpa [slash] using List.not_mem_append hzero (by decide))) ?_
    · have hshort' := h.short_of_exactWalk hm hexact (c ++ dot) (by simp [hnames])
      omega
    · intro e he
      rw [hnames, List.mem_append, List.mem_singleton] at he
      cases he with
      | inl he => exact hplain e he
      | inr he => exact he ▸ dots_of_length (by omega)
  · intro hnone path hpath hplain
    by_cases hshort : ShortNames path
    · exact h.exactWalk hpath hplain hshort
    · intro n hopen
      obtain ⟨p, d, x, hp, hpplain, hpshort, hpopen, hx, hslash, hlen⟩ :=
        h.exists_long hpath hplain hopen hshort
      rw [← h.childList_eq] at hx
      exact absurd hlen (hnone p d hp hpplain hpshort hpopen x hx hslash)

/-- `/a`, in a tree with that directory. -/
theorem exact_names_a :
    ∃ s, run (vfsStep fun _ => true) (vfsInit fun _ => true) [.mkdir 0 [0x61]] = some s ∧
    PlainPath [slash, 0x61] ∧ ExactWalk s [slash, 0x61] := by
  obtain ⟨s, hrun, hshort, -⟩ := @exact_names_iff (fun _ => true) [.mkdir 0 [0x61]]
    ⟨.root rfl, fun _ _ => trivial⟩
  have hplain : PlainPath [slash, 0x61] := by
    unfold PlainPath
    decide
  exact ⟨s, hrun, hplain, hshort _ (by decide) hplain (by unfold ShortNames; decide)⟩

def longName : List Byte := List.replicate 255 0x61

def longTree : Vfs :=
  (run (vfsStep fun _ => true) (vfsInit fun _ => true) [.mkdir 0 longName, .mkdir 7 [0x62]]).get
    (by decide)

lemma run_longTree : run (vfsStep fun _ => true) (vfsInit fun _ => true)
    [.mkdir 0 longName, .mkdir 7 [0x62]] = some longTree := (Option.some_get _).symm

/-- A name of 256 bytes leads to the directory `b` in the one whose name are
the first 255 of them. -/
theorem long_name_two_steps :
    Along (vfsStep fun _ => true) MkdirLegal (vfsInit fun _ => true)
      [.mkdir 0 longName, .mkdir 7 [0x62]] ∧
    run (vfsStep fun _ => true) (vfsInit fun _ => true) [.mkdir 0 longName, .mkdir 7 [0x62]] =
      some longTree ∧ 0 ∉ longName ++ [0x62] ∧ PlainPath (longName ++ [0x62]) ∧
    pathNames (longName ++ [0x62]) = [longName ++ [0x62]] ∧
    vfsOpen (some (longName ++ [0x62])) longTree = some (some 8) ∧
    vfsOpened (longName ++ [0x62]) longTree = [7, 8] ∧
    ¬ ExactWalk longTree (longName ++ [0x62]) := by
  have hnames : pathNames (longName ++ [0x62]) = [longName ++ [0x62]] :=
    pathNames_noSlash (by decide) (by decide)
  have hopen : vfsOpen (some (longName ++ [0x62])) longTree = some (some 8) := by decide +kernel
  have hopened : vfsOpened (longName ++ [0x62]) longTree = [7, 8] := by decide +kernel
  have hplain : PlainPath (longName ++ [0x62]) := by
    intro c hc
    rw [hnames, List.mem_singleton] at hc
    exact hc ▸ dots_of_length (by decide +kernel)
  have hzero : 0 ∉ longName ++ [0x62] := by decide
  have hnot : ¬ ExactWalk longTree (longName ++ [0x62]) := fun hexact => by
    have hsteps := congrArg List.length (hexact 8 hopen)
    rw [hnames, hopened, List.length_map, List.length_cons, List.length_singleton,
      List.length_singleton] at hsteps
    omega
  exact ⟨legal_two (by decide), run_longTree, hzero, hplain, hnames, hopen, hopened, hnot⟩

end VortexOS.Fs
