/-
VortexOS.Proc.ProcessTable — the process list over runs of `proc_create`,
`proc_create_from_parent` and `proc_destroy`.

`TableInv` adds to `ProcInv` what holds in such runs: no record is twice on
the list or the address space of a process, no process has a page, and the
count is the length up to a multiple of 2^32.

The ids are what a step may break: `kNextPid` is a 32-bit counter that is
compared with nothing. The table is sound exactly as long as every creation
that has the pages it needs starts with a number that is not zero and not
in use (`processTable_iff`). The first 2^32 - 1 creations do; on a machine
with enough memory the next one makes process zero (`pid_zero`).
-/
import VortexOS.Arch.Smp
import VortexOS.Proc.ProcessTheorems

namespace VortexOS.Proc

open Lib Mm Sched Arch

variable {S : Set Nat} {k : Kernel} {a a1 : AHeap} {fl : Nat → List Nat} {held : Set Block}
  {l : List Nat} {p n c : Nat} {pmm : Pmm}

/-! ## Runs -/

inductive ProcOp where
  | create
  | fork (parent : Nat)
  | destroy (proc : Nat)
  deriving DecidableEq, Repr

def ProcOp.creates : ProcOp → Bool
  | .destroy _ => false
  | _ => true

/-- A call, with the pointer that a creation returns. -/
def procCall (k : Kernel) : ProcOp → Option (Option Nat × Kernel)
  | .create => procCreate k
  | .fork parent => procCreateFromParent parent k
  | .destroy proc => (procDestroy proc k).map fun k => (none, k)

def procStep (k : Kernel) (op : ProcOp) : Option Kernel := (procCall k op).map Prod.snd

def Kernel.Listed (k : Kernel) (p : Nat) : Prop := ∃ l, Seg k.next k.kProcessList l none ∧ p ∈ l

/-- Only a process can be a parent or be destroyed. -/
def ProcLegal (k : Kernel) : ProcOp → Prop
  | .create => True
  | .fork p => k.Listed p
  | .destroy p => k.Listed p

/-- The list ends, its processes have different numbers, none of them zero,
the count is its length, a search finds the process with the number, and a
creation that returns null changes no process. -/
structure TableOk (k : Kernel) : Prop where
  list : ∃ l, Seg k.next k.kProcessList l none ∧ l.Nodup ∧ (∀ p ∈ l, (k.procs p).pid ≠ 0) ∧
    (l.map fun p => (k.procs p).pid).Nodup ∧ k.kProcessCount.toNat = l.length
  find : ∀ pid, ∃ o, procFind pid k = some o ∧
    ∀ p, o = some p ↔ k.Listed p ∧ (k.procs p).pid = pid
  failed : ∀ op k', op.creates → ProcLegal k op → procCall k op = some (none, k') →
    k'.kProcessCount = k.kProcessCount ∧ ∀ l, Seg k.next k.kProcessList l none →
      Seg k'.next k'.kProcessList l none ∧ ∀ p ∈ l, k'.procs p = k.procs p

/-- There are pages for the slabs of a record and of an address-space
object, if they are needed, and for a table. -/
def Kernel.HasRoom (k : Kernel) : Prop :=
  k.kmem.slabsNeeded 5 + k.kmem.slabsNeeded 1 < k.kmem.pmm.kFreePages

/-- The number of the process that the call makes is not zero and not in
use. -/
def PidFree (k : Kernel) (op : ProcOp) : Prop :=
  op.creates → k.HasRoom → k.kNextPid ≠ 0 ∧ ∀ p, k.Listed p → (k.procs p).pid ≠ k.kNextPid

/-! ## The invariant -/

structure TableInv (S : Set Nat) (k : Kernel) (a : AHeap) (fl : Nat → List Nat) (held : Set Block)
    (l : List Nat) : Prop extends ProcInv S k a fl held l where
  nodup : l.Nodup
  apart : ∀ p ∈ l, ∀ q ∈ l, (k.procs q).addrSpace ≠ p
  empty : ∀ p ∈ l, ∀ i < 256, entryAt k.kmem.mem (k.kmem.root (k.procs p).addrSpace) i = 0
  count : k.kProcessCount = UInt32.ofNat l.length

lemma TableInv.listed (h : TableInv S k a fl held l) : k.Listed p ↔ p ∈ l := by
  constructor
  · rintro ⟨l', hl', hp⟩
    exact hl'.unique h.list ▸ hp
  · exact fun hp => ⟨l, h.list, hp⟩

lemma TableInv.length_le (h : TableInv S k a fl held l) : l.length ≤ k.listBound := by
  have hword : ∀ p ∈ l, a.hhdm ≤ p ∧ p - a.hhdm < k.listBound := by
    intro p hp
    obtain ⟨f, hobj⟩ := h.object p hp
    obtain ⟨j, -, hj, rfl, -⟩ := h.inv.toSlabsOk.object_word hobj.slab hobj.object
    have hlt : f < a.pmm.kTotalPages := h.inv.pmmInv.base_lt (h.inv.slabHeld f hobj.slab)
    rw [Kernel.listBound, h.rep.pmm]
    simp only [pagePtr, pageSize] at *
    omega
  have hnd : (l.map (· - a.hhdm)).Nodup := h.nodup.map_on fun p hp q hq heq => by
    have hp := (hword p hp).1
    have hq := (hword q hq).1
    omega
  have hle := length_le_of_bounded (n := k.listBound) hnd fun x hx => by
    obtain ⟨p, hp, rfl⟩ := List.mem_map.mp hx
    exact (hword p hp).2
  rw [List.length_map] at hle
  exact hle

lemma bootKernel_table {entries : List MemmapEntry} {hhdm : Nat} {ram : Nat → PageFrame}
    (hm : MachineOk entries hhdm ram) (hinit : pmmInit entries hhdm ram = some pmm)
    (mem : WordMem) :
    ∃ fl held, TableInv pmm.freePages (bootKernel pmm mem) (AHeap.start pmm) fl held [] := by
  obtain ⟨fl, held, h⟩ := bootKernel_inv hm hinit mem
  exact ⟨fl, held, h, List.nodup_nil, by simp, by simp, rfl⟩

lemma length_lt_of_pids (h0 : ∀ p ∈ l, (k.procs p).pid ≠ 0)
    (hnd : (l.map fun p => (k.procs p).pid).Nodup) : l.length < 2 ^ 32 := by
  have hcons : ((0 : UInt32) :: l.map fun p => (k.procs p).pid).Nodup := by
    refine List.nodup_cons.mpr ⟨fun hin => ?_, hnd⟩
    obtain ⟨p, hp, hpid⟩ := List.mem_map.mp hin
    exact h0 p hp hpid
  have hle := length_le_of_bounded (n := 2 ^ 32)
      (hcons.map fun _ _ => UInt32.toNat_inj.mp) fun x hx => by
    obtain ⟨pid, -, rfl⟩ := List.mem_map.mp hx
    exact pid.toNat_lt
  rw [List.length_map, List.length_cons, List.length_map] at hle
  exact hle

/-! ## Creations -/

lemma hasRoom_iff (h : KernelInv S k.kmem a fl held)
    (hcall : a.kmalloc sizeofProcess = some (p, a1)) :
    (k.HasRoom ↔ p ≠ 0 ∧ ¬ ∃ a2, a1.newSpace = some (0, a2)) ∧
    ∀ as a2, a1.newSpace = some (as, a2) → k.kmem.pmm.kFreePages ≤ a2.pmm.kFreePages + 3 := by
  obtain ⟨p', s1, a1', fl1, held1, hmalloc, hacall, hk1, -⟩ := h.kmalloc sizeofProcess
  obtain ⟨rfl, rfl⟩ := Prod.mk.inj (Option.mem_unique hcall hacall)
  have hcache : findCache sizeofProcess = some 5 := by decide
  obtain ⟨hnull, hfree, -⟩ := h.kmalloc_count hcache (by decide) hmalloc
  have hslabs := h.slabsNeeded_kmalloc (j := 1) hk1 hcache (by decide) hcall
  have hle5 := k.kmem.slabsNeeded_le_one 5
  have hle1 := k.kmem.slabsNeeded_le_one 1
  obtain ⟨as, s2, a2, fl2, held2, -, hspace, -⟩ := hk1.create 0
  obtain ⟨hzero, hcount⟩ := hk1.newSpace_count hspace
  have hex : (∃ a2, a1.newSpace = some (0, a2)) ↔ as = 0 := by
    constructor
    · rintro ⟨a3, ha3⟩
      exact (Prod.mk.inj (Option.mem_unique hspace ha3)).1
    · rintro rfl
      exact ⟨a2, hspace⟩
  rw [hslabs] at hzero hcount
  constructor
  · rw [hex, Kernel.HasRoom]
    split at hfree <;> omega
  · intro as' a3 ha3
    obtain ⟨rfl, rfl⟩ := Prod.mk.inj (Option.mem_unique hspace ha3)
    split at hfree <;> omega

/-- A creation that returned `o`; before it the processes were `l`. -/
structure Creation (k : Kernel) (l : List Nat) (o : Option Nat) (k' : Kernel) : Prop where
  same : ∀ q ∈ l, k'.procs q = k.procs q
  room : k.HasRoom ↔ o ≠ none
  failed : o = none → k'.kProcessList = k.kProcessList ∧ k'.kProcessCount = k.kProcessCount ∧
    (k'.kNextPid = k.kNextPid ∨ k'.kNextPid = k.kNextPid + 1)
  made : ∀ p, o = some p → (k'.procs p).pid = k.kNextPid ∧ k'.kNextPid = k.kNextPid + 1 ∧
    k.kmem.pmm.kFreePages ≤ k'.kmem.pmm.kFreePages + 3

section

variable {k' : Kernel} {a' : AHeap} {fl' : Nat → List Nat}
  {held' : Set Block} {ppid : Kernel → UInt32}
  {inherit : Kernel → Process → Process}

section

variable (h : TableInv S k a fl held l)
include h

lemma TableInv.notMade (h' : ProcInv S k' a' fl' held' l)
    (hf : Frame ∅ ∅ k.kmem a held k'.kmem a' held') (hsame : ∀ q ∈ l, k'.procs q = k.procs q)
    (hcount : k'.kProcessCount = k.kProcessCount) : TableInv S k' a' fl' held' l := by
  refine ⟨h', h.nodup, fun p hp q hq => ?_, fun p hp i hi => ?_, hcount.trans h.count⟩
  · rw [hsame q hq]
    exact h.apart p hp q hq
  · rw [hsame p hp, h.toProcInv.top_frame h'.toKernelInv hf hp (by simp) (by omega)]
    exact h.empty p hp i hi

lemma TableInv.made (h' : ProcInv S k' a' fl' held' (p :: l))
    (hf : Frame ∅ ∅ k.kmem a held k'.kmem a' held') (hsame : ∀ q ∈ l, k'.procs q = k.procs q)
    (hm : Made k k' a a1 a' held' l p ppid inherit)
    (hinherit : ∀ k r, (inherit k r).addrSpace = r.addrSpace) :
    TableInv S k' a' fl' held' (p :: l) := by
  obtain ⟨as, k1, k2, -, -, -, hasp, -, hasFresh, ⟨root, hs, hempty⟩, hrec⟩ := hm.record
  have hself : (k'.procs p).addrSpace = as := by rw [hrec, hinherit]
  have hfresh := h.toProcInv.fresh hm.fresh
  refine ⟨h', ?_, ?_, ?_, ?_⟩
  · exact List.nodup_cons.mpr ⟨fun hin => (hfresh p hin).1 rfl, h.nodup⟩
  · simp only [List.forall_mem_cons, hself]
    refine ⟨⟨hasp, fun q hq => ?_⟩, fun r hr => ⟨fun heq => ?_, fun q hq => ?_⟩⟩
    · rw [hsame q hq]
      exact (hfresh q hq).2
    · obtain ⟨f, hobj⟩ := h.object r hr
      exact hasFresh f (heq ▸ hobj)
    · rw [hsame q hq]
      exact h.apart r hr q hq
  · rw [List.forall_mem_cons]
    constructor
    · rw [(h'.vmInv (p := p) (hself.symm ▸ hs)).root_eq]
      exact hempty
    · intro q hq i hi
      rw [hsame q hq, h.toProcInv.top_frame h'.toKernelInv hf hq (by simp) (by omega)]
      exact h.empty q hq i hi
  · rw [hm.count, h.count, List.length_cons, UInt32.ofNat_add]
    rfl

lemma TableInv.makes (ppid : Kernel → UInt32) (space : Kernel → Option (Nat × Kmem))
    (inherit : Kernel → Process → Process) (hinherit : ∀ k r, (inherit k r).addrSpace = r.addrSpace)
    (hpid : ∀ k r, (inherit k r).pid = r.pid)
    (hspace : ∀ k1 a1 fl1 held1, ProcInv S k1 a1 fl1 held1 l → (∀ q ∈ l, k1.procs q = k.procs q) →
      Frame ∅ ∅ k.kmem a held k1.kmem a1 held1 → MakesSpace S k1.kmem a1 held1 (space k1)) :
    ∃ o k' a' fl' held', makeProcess ppid space inherit k = some (o, k') ∧
    TableInv S k' a' fl' held' (o.toList ++ l) ∧ Creation k l o k' := by
  obtain ⟨p, a1, o, k', a', fl', held', hacall, hcall, h', hf, hsame, hres⟩ :=
    h.toProcInv.makeProcess_spec ppid space inherit hinherit hspace
  obtain ⟨hroom, hpages⟩ := hasRoom_iff h.toKernelInv hacall
  refine ⟨o, k', a', fl', held', hcall, ?_⟩
  cases hres with
  | inl hnone =>
    obtain ⟨rfl, hnot⟩ := hnone
    refine ⟨h.notMade h' hf hsame hnot.count, hsame, ?_,
      fun _ => ⟨hnot.list, hnot.count, ?_⟩, by simp⟩
    · rw [hroom]
      have hwhy := hnot.why.imp And.left And.left
      simp only [ne_eq, not_true_eq_false, iff_false, not_and, not_not]
      exact hwhy.resolve_left
    · exact hnot.why.imp And.right And.right
  | inr hsome =>
    obtain ⟨rfl, hp0, hm⟩ := hsome
    obtain ⟨as, k1, k2, -, -, has, -, hnew, -, -, hrec⟩ := hm.record
    refine ⟨h.made h' hf hsame hm hinherit, hsame, ?_, by simp, fun q hq => ?_⟩
    · rw [hroom]
      refine iff_of_true ⟨hp0, ?_⟩ (by simp)
      rintro ⟨a2, ha2⟩
      exact has (Prod.mk.inj (Option.mem_unique hnew ha2)).1
    · cases hq
      refine ⟨by rw [hrec, hpid], hm.nextPid, ?_⟩
      rw [h'.rep.pmm]
      exact hpages as a' hnew

lemma TableInv.creation (op : ProcOp) (hop : op.creates) (hlegal : ProcLegal k op) :
    ∃ o k' a' fl' held', procCall k op = some (o, k') ∧ TableInv S k' a' fl' held' (o.toList ++ l) ∧
    Creation k l o k' := by
  cases op with
  | create =>
    exact h.makes _ _ _ (fun _ _ => rfl) (fun _ _ => rfl) fun k1 _ _ _ h1 _ _ =>
      h1.toKernelInv.makesSpace k1.cr3
  | fork parent =>
    have hp : parent ∈ l := h.listed.mp hlegal
    simp only [procCall, procCreateFromParent]
    exact h.makes _ _ _ (fun _ _ => rfl)
      (fun _ _ => rfl) (h.toProcInv.cloneMakesSpace hp (h.empty parent hp))
  | destroy proc => cases hop

end

end

/-! ## Destruction -/

/-- The list without `p`, to which `cell` points. -/
def dropProcess (cell : Option Nat) (p : Nat) (k : Kernel) : Kernel :=
  { k.setLink cell (k.next p) with kProcessCount := k.kProcessCount - 1 }

lemma removeLoop_eq {pp cell : Option Nat}
    (hfind : findCell k.next p n pp (k.link pp) = some (some cell)) :
    removeLoop p n pp k = some (dropProcess cell p k) := by
  induction n generalizing pp with
  | zero => cases hlink : k.link pp <;> simp [hlink, findCell] at hfind
  | succ n ih =>
    cases hlink : k.link pp with
    | none => simp [hlink, findCell] at hfind
    | some q =>
      simp only [hlink, findCell] at hfind
      simp only [removeLoop, hlink]
      by_cases hq : q = p
      · rw [if_pos hq] at hfind ⊢
        cases hfind
        cases cell <;> rfl
      · rw [if_neg hq] at hfind ⊢
        exact ih hfind

section

variable (cell : Option Nat) (p q : Nat) (k : Kernel)

lemma dropProcess_next : (dropProcess cell p k).next = setNext? k.next cell (k.next p) := by
  cases cell with
  | none => rfl
  | some c =>
    funext q
    by_cases hq : q = c
    · simp [dropProcess, Kernel.setLink, Kernel.modProc, Kernel.next, setNext?, hq]
    · simp [dropProcess, Kernel.setLink, Kernel.modProc, Kernel.next, setNext?, hq]

lemma dropProcess_fields : ((dropProcess cell p k).procs q).pid = (k.procs q).pid ∧
    ((dropProcess cell p k).procs q).addrSpace = (k.procs q).addrSpace := by
  cases cell with
  | none => exact ⟨rfl, rfl⟩
  | some c =>
    by_cases hq : q = c
    · simp [dropProcess, Kernel.setLink, Kernel.modProc, hq]
    · simp [dropProcess, Kernel.setLink, Kernel.modProc, hq]

lemma dropProcess_same :
    (dropProcess cell p k).kmem = k.kmem ∧ (dropProcess cell p k).kNextPid = k.kNextPid := by
  cases cell <;> exact ⟨rfl, rfl⟩

lemma dropProcess_head :
    (dropProcess cell p k).kProcessList = if cell = none then k.next p else k.kProcessList := by
  cases cell <;> rfl

end

lemma TableInv.drop (h : TableInv S k a fl held l) (hp : p ∈ l) : ∃ k', procRemove p k = some k' ∧
    TableInv S k' a fl held (l.erase p) ∧ k'.kmem = k.kmem ∧ k'.kNextPid = k.kNextPid ∧
    ∀ q, (k'.procs q).pid = (k.procs q).pid ∧ (k'.procs q).addrSpace = (k.procs q).addrSpace := by
  obtain ⟨x, y, rfl⟩ := List.append_of_mem hp
  have hpx : p ∉ x := fun hin => (List.nodup_append.mp h.nodup).2.2 p hin p (by simp) rfl
  have herase : (x ++ p :: y).erase p = x ++ y := by
    rw [List.erase_append_right _ hpx, List.erase_cons_head]
  have hlen : x.length < k.listBound + 1 := by
    have hle := h.length_le
    simp only [List.length_append, List.length_cons] at hle
    omega
  have hcall : procRemove p k = some (dropProcess x.getLast? p k) := by
    have hfind : findCell k.next p (k.listBound + 1) none k.kProcessList =
        some (some (x.getLast?.or none)) := h.list.findCell_eq hpx hlen
    rw [Option.or_none] at hfind
    exact removeLoop_eq hfind
  obtain ⟨hkmem, hpid⟩ := dropProcess_same x.getLast? p k
  have hfields := fun q => dropProcess_fields x.getLast? p q k
  have hsub : ∀ q ∈ x ++ y, q ∈ x ++ p :: y := fun q hq => by
    rw [List.mem_append, List.mem_cons]
    exact (List.mem_append.mp hq).imp_right Or.inr
  have hlist : Seg (dropProcess x.getLast? p k).next (dropProcess x.getLast? p k).kProcessList
      (x ++ y) none := by
    have hunlink := h.list.unlink h.nodup
    rw [dropProcess_next, dropProcess_head]
    simp only [List.getLast?_eq_none_iff]
    exact hunlink
  refine ⟨_, hcall, ?_, hkmem, hpid, hfields⟩
  rw [herase]
  refine ⟨⟨hkmem ▸ h.toKernelInv, hlist, fun q hq => h.object q (hsub q hq), fun q hq => ?_,
    fun q hq => ?_⟩, ?_, fun r hr q hq => ?_, fun q hq => ?_, ?_⟩
  · rw [hkmem, (hfields q).2]
    exact h.space q (hsub q hq)
  · rw [hkmem, (hfields q).2]
    exact h.pages q (hsub q hq)
  · exact herase ▸ h.nodup.erase p
  · rw [(hfields q).2]
    exact h.apart r (hsub r hr) q (hsub q hq)
  · rw [hkmem, (hfields q).2]
    exact h.empty q (hsub q hq)
  · show k.kProcessCount - 1 = _
    rw [h.count, List.length_append, List.length_cons, List.length_append, ← Nat.add_assoc,
      UInt32.ofNat_add]
    exact UInt32.add_sub_cancel _ _

lemma TableInv.destroy (h : TableInv S k a fl held l) (hp : p ∈ l) :
    ∃ k' a' fl' held', procDestroy p k = some k' ∧ TableInv S k' a' fl' held' (l.erase p) ∧
    k'.kNextPid = k.kNextPid ∧ ∀ q, (k'.procs q).pid = (k.procs q).pid := by
  obtain ⟨k1, hcall, h1, hkmem, hpid, hfields⟩ := h.drop hp
  obtain ⟨f, hobj⟩ := h.object p hp
  have hne : ∀ q ∈ l.erase p, q ≠ p ∧ (k1.procs q).addrSpace ≠ p := by
    intro q hq
    obtain ⟨hqp, hq⟩ := (h.nodup.mem_erase_iff).mp hq
    rw [(hfields q).2]
    exact ⟨hqp, h.apart p hp q hq⟩
  obtain ⟨a', fl', held', h', hf, -⟩ := h1.toProcInv.kfree hobj hne
  refine ⟨k1.setKmem (Mm.kfree p k1.kmem), a', fl', held', ?_, ?_, hpid, fun q => (hfields q).1⟩
  · rw [procDestroy, hcall, Option.map_some]
  · refine ⟨h', h1.nodup, h1.apart, fun q hq i hi => ?_, h1.count⟩
    rw [Kernel.setKmem_procs, h1.toProcInv.top_frame h'.toKernelInv hf hq (hne q hq).2 (by omega)]
    exact h1.empty q hq i hi

/-! ## The numbers -/

section

variable {S : Set Nat} {k k' : Kernel} {a : AHeap} {fl : Nat → List Nat} {held : Set Block}
  {l : List Nat} {p : Nat} {o : Option Nat} {op : ProcOp}

def NumbersOk (k : Kernel) (l : List Nat) : Prop :=
  (∀ p ∈ l, (k.procs p).pid ≠ 0) ∧ (l.map fun p => (k.procs p).pid).Nodup

lemma NumbersOk.congr (h : NumbersOk k l) (hsame : ∀ q ∈ l, (k'.procs q).pid = (k.procs q).pid) :
    NumbersOk k' l := by
  refine ⟨fun q hq => hsame q hq ▸ h.1 q hq, ?_⟩
  rw [List.map_congr_left hsame]
  exact h.2

lemma TableInv.tableOk_iff (h : TableInv S k a fl held l) : TableOk k ↔ NumbersOk k l := by
  constructor
  · intro hok
    obtain ⟨l', hl', -, h0, hnd, -⟩ := hok.list
    obtain rfl := hl'.unique h.list
    exact ⟨h0, hnd⟩
  · rintro ⟨h0, hnd⟩
    refine ⟨⟨l, h.list, h.nodup, h0, hnd, ?_⟩, fun pid => ?_, fun op k' hop hlegal hcall => ?_⟩
    · rw [h.count, UInt32.toNat_ofNat_of_lt' (length_lt_of_pids h0 hnd)]
    · refine ⟨_, h.list.searchChain_eq h.length_le, fun p => ?_⟩
      rw [h.listed]
      exact find?_key_eq_some hnd
    · obtain ⟨o, k1, _, _, _, hcall', -, hc⟩ := h.creation _ hop hlegal
      obtain ⟨rfl, rfl⟩ := Prod.mk.inj (Option.mem_unique hcall hcall')
      obtain ⟨hhead, hcount, -⟩ := hc.failed rfl
      refine ⟨hcount, fun l' hl' => ?_⟩
      obtain rfl := hl'.unique h.list
      rw [hhead]
      exact ⟨h.list.congr fun q hq => congrArg Process.next (hc.same q hq), hc.same⟩

/-- After a creation the numbers are sound exactly if the new one is. -/
lemma Creation.numbersOk_iff (hc : Creation k l o k') (h : TableInv S k a fl held l)
    (hop : op.creates) (hok : NumbersOk k l) : NumbersOk k' (o.toList ++ l) ↔ PidFree k op := by
  have hsame := hok.congr fun q hq => congrArg Process.pid (hc.same q hq)
  cases o with
  | none =>
    refine iff_of_true hsame fun _ hroom => ?_
    exact absurd rfl (hc.room.mp hroom)
  | some p =>
    have hpid := (hc.made p rfl).1
    have hroom : k.HasRoom := hc.room.mpr (by simp)
    have hmap : (k.kNextPid ∉ l.map fun q => (k'.procs q).pid) ↔
        ∀ q, k.Listed q → (k.procs q).pid ≠ k.kNextPid := by
      simp only [h.listed, List.mem_map, not_exists, not_and]
      exact forall₂_congr fun q hq => by rw [hc.same q hq]
    simp only [PidFree, hop, hroom, true_imp_iff, ← hmap, NumbersOk, Option.toList_some,
      List.singleton_append, List.forall_mem_cons, List.map_cons, List.nodup_cons, hpid]
    exact ⟨fun hnew => ⟨hnew.1.1, hnew.2.1⟩, fun hfree => ⟨⟨hfree.1, hsame.1⟩, hfree.2, hsame.2⟩⟩

lemma TableInv.step (h : TableInv S k a fl held l) (hlegal : ProcLegal k op) :
    ∃ k' a' fl' held' l', procStep k op = some k' ∧ TableInv S k' a' fl' held' l' ∧
    (TableOk k → (TableOk k' ↔ PidFree k op)) := by
  by_cases hop : op.creates
  · obtain ⟨o, k', a', fl', held', hcall, h', hc⟩ := h.creation _ hop hlegal
    refine ⟨k', a', fl', held', _, by rw [procStep, hcall, Option.map_some], h', fun hok => ?_⟩
    rw [h'.tableOk_iff]
    exact hc.numbersOk_iff h hop (h.tableOk_iff.mp hok)
  · cases op with
    | destroy p =>
      obtain ⟨k', a', fl', held', hcall, h', -, hpid⟩ := h.destroy (h.listed.mp hlegal)
      refine ⟨k', a', fl', held', _, ?_, h', fun hok => iff_of_true ?_ fun hc => absurd hc hop⟩
      · rw [procStep, procCall, hcall, Option.map_some, Option.map_some]
      · have hnum := (h.tableOk_iff.mp hok).congr fun q _ => hpid q
        rw [h'.tableOk_iff]
        exact ⟨fun q hq => hnum.1 q (List.mem_of_mem_erase hq),
          hnum.2.sublist (List.erase_sublist.map _)⟩
    | create => exact absurd rfl hop
    | fork parent => exact absurd rfl hop

/-- The counter after `c` numbers; nobody has a larger one. -/
structure PidsUpTo (k : Kernel) (l : List Nat) (c : Nat) : Prop where
  next : k.kNextPid = UInt32.ofNat (c + 1)
  le : ∀ p ∈ l, (k.procs p).pid.toNat ≤ c

lemma PidsUpTo.pidFree (hc : PidsUpTo k l c) (h : TableInv S k a fl held l) (hlt : c + 1 < 2 ^ 32) :
    PidFree k op := by
  intro _ _
  have hnext : k.kNextPid.toNat = c + 1 := by rw [hc.next, UInt32.toNat_ofNat_of_lt' hlt]
  refine ⟨fun h0 => ?_, fun p hp heq => ?_⟩
  · rw [h0] at hnext
    cases hnext
  · have hle := hc.le p (h.listed.mp hp)
    rw [heq, hnext] at hle
    omega

lemma PidsUpTo.creation (hp : PidsUpTo k l c) (hc : Creation k l o k') (hlt : c + 1 < 2 ^ 32) :
    ∃ c' ≤ c + 1, PidsUpTo k' (o.toList ++ l) c' := by
  have hle : ∀ q ∈ l, (k'.procs q).pid.toNat ≤ c := fun q hq => by
    rw [hc.same q hq]
    exact hp.le q hq
  have hnext : k.kNextPid + 1 = UInt32.ofNat (c + 1 + 1) := by
    rw [hp.next, UInt32.ofNat_add (c + 1)]
    rfl
  cases o with
  | none =>
    cases (hc.failed rfl).2.2 with
    | inl hsame => exact ⟨c, by omega, hsame.trans hp.next, hle⟩
    | inr hstep => exact ⟨c + 1, le_rfl, hstep.trans hnext, fun q hq => (hle q hq).trans (by omega)⟩
  | some p =>
    obtain ⟨hpid, hstep, -⟩ := hc.made p rfl
    refine ⟨c + 1, le_rfl, hstep.trans hnext, ?_⟩
    simp only [Option.toList_some, List.singleton_append, List.forall_mem_cons]
    refine ⟨?_, fun q hq => (hle q hq).trans (by omega)⟩
    rw [hpid, hp.next, UInt32.toNat_ofNat_of_lt' hlt]

end

/-- Fewer than 2^32 numbers have been used up by the end of the run. -/
lemma along_pidFree {ops : List ProcOp} {c : Nat} (h : TableInv S k a fl held l)
    (hpids : PidsUpTo k l c) (hlegal : Along procStep ProcLegal k ops)
    (hlt : c + ops.countP ProcOp.creates < 2 ^ 32) : Along procStep PidFree k ops := by
  induction ops generalizing k a fl held l c with
  | nil => trivial
  | cons op ops ih =>
    rw [List.countP_cons] at hlt
    by_cases hop : op.creates
    · rw [if_pos hop] at hlt
      have hlt' : c + 1 < 2 ^ 32 := by omega
      refine ⟨hpids.pidFree h hlt', fun k' hstep => ?_⟩
      obtain ⟨o, k1, a1, fl1, held1, hcall, h1, hc⟩ := h.creation _ hop hlegal.1
      obtain rfl : k1 = k' := by
        rw [procStep, hcall, Option.map_some] at hstep
        exact Option.some.inj hstep
      obtain ⟨c', hle, hpids'⟩ := hpids.creation hc hlt'
      exact ih h1 hpids' (hlegal.2 _ hstep) (by omega)
    · cases op with
      | destroy p =>
        refine ⟨fun hc => absurd hc hop, fun k' hstep => ?_⟩
        obtain ⟨k1, a1, fl1, held1, hcall, h1, hnext, hpid⟩ := h.destroy (h.listed.mp hlegal.1)
        obtain rfl : k1 = k' := by
          rw [procStep, procCall, hcall, Option.map_some, Option.map_some] at hstep
          exact Option.some.inj hstep
        refine ih h1 ⟨hnext.trans hpids.next, fun q hq => ?_⟩ (hlegal.2 _ hstep) (by omega)
        rw [hpid q]
        exact hpids.le q (List.mem_of_mem_erase hq)
      | create => exact absurd rfl hop
      | fork parent => exact absurd rfl hop

/-- **Process table.** From the start of the kernel every legal run of
creations and destructions returns. The table is sound in all its states
exactly if every creation that has the pages it needs starts with a number
that is not zero and not in use. A run with fewer than 2^32 creations is
such a run. -/
theorem processTable_iff {entries : List MemmapEntry} {hhdm : Nat} {ram : Nat → PageFrame}
    {pmm : Pmm} (hm : MachineOk entries hhdm ram) (hinit : pmmInit entries hhdm ram = some pmm)
    (mem : WordMem) (ops : List ProcOp)
    (hlegal : Along procStep ProcLegal (bootKernel pmm mem) ops) :
    (∃ k, run procStep (bootKernel pmm mem) ops = some k) ∧
      ((∀ before k, before <+: ops → run procStep (bootKernel pmm mem) before = some k →
        TableOk k) ↔
        Along procStep PidFree (bootKernel pmm mem) ops) ∧
      (ops.countP ProcOp.creates < 2 ^ 32 → Along procStep PidFree (bootKernel pmm mem) ops) := by
  obtain ⟨fl, held, h⟩ := bootKernel_table hm hinit mem
  have hstep : ∀ k op, (∃ a fl held l, TableInv pmm.freePages k a fl held l) → ProcLegal k op →
      ∃ k', procStep k op = some k' ∧ (∃ a fl held l, TableInv pmm.freePages k' a fl held l) ∧
        (TableOk k → (TableOk k' ↔ PidFree k op)) := by
    rintro k op ⟨a, fl, held, l, hk⟩ hl
    obtain ⟨k', a', fl', held', l', hcall, hk', hiff⟩ := hk.step hl
    exact ⟨k', hcall, ⟨a', fl', held', l', hk'⟩, hiff⟩
  have hboot : TableOk (bootKernel pmm mem) := h.tableOk_iff.mpr ⟨by simp, List.nodup_nil⟩
  refine ⟨?_, prefixes_iff_along _ hstep ⟨_, _, _, _, h⟩ hboot hlegal, fun hlt => ?_⟩
  · obtain ⟨k, hk, -⟩ := run_invariant _ (fun k op hk hl => (hstep k op hk hl).imp
      fun _ hx => ⟨hx.1, hx.2.1⟩) ⟨_, _, _, _, h⟩ hlegal
    exact ⟨k, hk⟩
  · exact along_pidFree h ⟨rfl, by simp⟩ hlegal (by simpa using hlt)

lemma legal_forkMap : Along procStep ProcLegal (bootKernel forkStart fun _ => 0)
    [.create, .fork forkRecord.1, .destroy forkRecord.1] := by
  obtain ⟨fl, held, h⟩ := bootKernel_table forkMap_ok pmmInit_forkMap fun _ => 0
  obtain ⟨o, k1, _, _, _, hcall1, h1, -⟩ := h.creation .create rfl trivial
  obtain ⟨k, _, _, hfirst, -⟩ := firstProcess_forkMap 0
  obtain ⟨rfl, rfl⟩ := Prod.mk.inj (Option.mem_unique hcall1 hfirst)
  have hfork : ProcLegal k1 (.fork forkRecord.1) := h1.listed.mpr (by simp)
  obtain ⟨o, k2, _, _, _, hcall2, h2, -⟩ := h1.creation _ rfl hfork
  refine ⟨trivial, fun s hs => ?_⟩
  obtain rfl : k1 = s := Option.some.inj ((congrArg (Option.map Prod.snd) hcall1).symm.trans hs)
  refine ⟨hfork, fun s hs => ?_⟩
  obtain rfl : k2 = s := Option.some.inj ((congrArg (Option.map Prod.snd) hcall2).symm.trans hs)
  exact ⟨h2.listed.mpr (by simp), fun _ _ => trivial⟩

theorem processTable_forkMap : ∃ k, run procStep (bootKernel forkStart fun _ => 0)
    [.create, .fork forkRecord.1, .destroy forkRecord.1] = some k ∧ TableOk k := by
  obtain ⟨⟨k, hk⟩, hiff, hfew⟩ := processTable_iff forkMap_ok pmmInit_forkMap
    (fun _ => 0) _ legal_forkMap
  exact ⟨k, hk, hiff.mpr (hfew (by simp [List.countP_cons, ProcOp.creates])) _ k List.prefix_rfl hk⟩

/-! ## The number zero -/

lemma hasRoom_of_three_le (h : 3 ≤ k.kmem.pmm.kFreePages) : k.HasRoom := by
  have hle5 := k.kmem.slabsNeeded_le_one 5
  have hle1 := k.kmem.slabsNeeded_le_one 1
  rw [Kernel.HasRoom]
  omega

lemma TableInv.creates (n : Nat) (h : TableInv S k a fl held l)
    (hpages : 3 * n ≤ k.kmem.pmm.kFreePages) :
    ∃ k' a' fl' held' l', run procStep k (List.replicate n .create) = some k' ∧
    TableInv S k' a' fl' held' l' ∧ k'.kNextPid = k.kNextPid + UInt32.ofNat n ∧
    k.kmem.pmm.kFreePages ≤ k'.kmem.pmm.kFreePages + 3 * n := by
  induction n generalizing k a fl held l with
  | zero => exact ⟨k, a, fl, held, l, rfl, h, by simp, by omega⟩
  | succ n ih =>
    obtain ⟨o, k1, a1, fl1, held1, hcall, h1, hc⟩ := h.creation .create rfl trivial
    have hroom : k.HasRoom := hasRoom_of_three_le (by omega)
    obtain ⟨p, rfl⟩ := Option.ne_none_iff_exists'.mp (hc.room.mp hroom)
    obtain ⟨-, hnext, hfree⟩ := hc.made p rfl
    obtain ⟨k', a', fl', held', l', hrun, h', hnext', hfree'⟩ := ih h1 (by omega)
    refine ⟨k', a', fl', held', l', ?_, h', ?_, by omega⟩
    · rw [List.replicate_succ, run, procStep, hcall, Option.map_some, Option.bind_some]
      exact hrun
    · rw [hnext', hnext, Nat.add_comm n 1, UInt32.ofNat_add, UInt32.add_assoc]
      rfl

/-- After 2^32 - 1 creations the next process gets the number zero. -/
lemma TableInv.number_zero (h : TableInv S k a fl held []) (hnext : k.kNextPid = 1)
    (hn : n + 1 = 2 ^ 32) (hpages : 3 * 2 ^ 32 ≤ k.kmem.pmm.kFreePages) :
    ∃ k' p, run procStep k (List.replicate (2 ^ 32) .create) = some k' ∧ k'.Listed p ∧
    (k'.procs p).pid = 0 := by
  obtain ⟨k1, a1, fl1, held1, l1, hrun, h1, hnext1, hfree⟩ := h.creates n (by omega)
  obtain ⟨o, k', a', fl', held', hcall, h', hc⟩ := h1.creation .create rfl trivial
  have hroom : k1.HasRoom := hasRoom_of_three_le (by omega)
  obtain ⟨p, rfl⟩ := Option.ne_none_iff_exists'.mp (hc.room.mp hroom)
  refine ⟨k', p, ?_, h'.listed.mpr (by simp), ?_⟩
  · rw [← hn, List.replicate_succ', run_append, hrun, Option.bind_some, run, procStep, hcall]
    rfl
  · have hwrap : (1 : UInt32) + UInt32.ofNat n = UInt32.ofNat (n + 1) := by
      rw [UInt32.add_comm, UInt32.ofNat_add]
      rfl
    rw [(hc.made p rfl).1, hnext1, hnext, hwrap, hn]
    decide

/-- A machine with 64 TiB of memory. -/
def hugeMap : List MemmapEntry := [⟨16 * pageSize, 2 ^ 34 * pageSize, .usable⟩]

def hugeOffset : Nat := 0xFFFF800000000000

lemma hugeMap_ok : MachineOk hugeMap hugeOffset fun _ => blankFrame :=
  .single (.single (by decide)) (by decide)

lemma freePages_hugeMap (hinit : pmmInit hugeMap hugeOffset (fun _ => blankFrame) = some pmm)
    {f : Nat} (hf : 2 ^ 28 ≤ f ∧ f < 2 ^ 34) : f ∈ pmm.freePages := by
  obtain ⟨pmm', fl, ms, me, hinit', hstart⟩ :=
    pmmInit_spec hugeMap_ok.memmap hugeMap_ok.offset fun _ => blankFrame
  obtain rfl := Option.mem_unique hinit hinit'
  rw [hstart.inv.mem_freePages, mem_listedPages_iff hstart,
    mem_metadataPages_iff hugeMap_ok.memmap hugeMap_ok.offset hinit]
  refine ⟨⟨⟨_, List.mem_singleton_self _, rfl, ?_⟩, ?_⟩, by simp⟩
  · have hstartPfn : MemmapEntry.startPfn ⟨16 * pageSize, 2 ^ 34 * pageSize, .usable⟩ = 16 := by
      decide
    have hendPfn : MemmapEntry.endPfn ⟨16 * pageSize, 2 ^ 34 * pageSize,
      .usable⟩ = 2 ^ 34 + 16 := by
      decide
    rw [hstartPfn, hendPfn]
    omega
  · rintro ⟨place, hplace, i, hi, hpage⟩
    obtain rfl : (⟨16 * pageSize, 2 ^ 34 * pageSize, .usable⟩ : MemmapEntry) = place :=
      Option.some.inj ((show findMetadataEntry hugeMap
        (metadataSize hugeMap) = some _ by rfl).symm.trans hplace)
    have hsize : metadataSize hugeMap = (2 ^ 34 + 16) * 32 := by decide
    simp only [pageSize] at hpage
    omega

/-- On that machine 2^32 creations end with a process whose number is
zero. -/
theorem pid_zero : ∃ pmm k p, pmmInit hugeMap hugeOffset (fun _ => blankFrame) = some pmm ∧
    Along procStep ProcLegal (bootKernel pmm fun _ => 0) (List.replicate (2 ^ 32) .create) ∧
    run procStep (bootKernel pmm fun _ => 0) (List.replicate (2 ^ 32) .create) = some k ∧
    k.Listed p ∧ (k.procs p).pid = 0 ∧ ¬ TableOk k := by
  obtain ⟨pmm, _, _, _, hinit, -⟩ :=
    pmmInit_spec hugeMap_ok.memmap hugeMap_ok.offset fun _ => blankFrame
  obtain ⟨fl, held, h⟩ := bootKernel_table hugeMap_ok hinit fun _ => 0
  have hcard := h.inv.pmmInv.card_le_kFreePages (F := Finset.Ico (2 ^ 28) (2 ^ 34)) fun f hf =>
    freePages_hugeMap hinit (Finset.mem_Ico.mp hf)
  rw [Nat.card_Ico] at hcard
  obtain ⟨k, p, hrun, hlisted, hzero⟩ := h.number_zero (n := 2 ^ 32 - 1) rfl (by decide)
    (Nat.le_trans (by decide) hcard)
  have hcreate : ∀ op ∈ List.replicate (2 ^ 32) ProcOp.create, op = .create := fun op hop =>
    List.eq_of_mem_replicate hop
  refine ⟨pmm, k, p, hinit, (Along.of_forall hcreate).mono ?_, hrun, hlisted, hzero, fun hok => ?_⟩
  · rintro _ _ rfl
    trivial
  · obtain ⟨l, hl, -, h0, -⟩ := hok.list
    obtain ⟨l', hl', hp⟩ := hlisted
    obtain rfl := hl'.unique hl
    exact h0 p hp hzero

end VortexOS.Proc
