/-
VortexOS.Sched.ReadyQueues — what the ready queues hold.

`Queues` gives the members of each of the 140 queues, oldest first, and
`Holds s q` says that the links, heads, tails and the counter of `s`
represent `q`. `queuePushBack_spec` appends a thread to its queue and
`pickNext_spec` takes out `q.pick`: the first of those with the earliest
deadline among the deadline threads, else the first by priority.

All these functions change is the link fields, the heads and tails, and
the counter (`SchedState.relink`). Everything else about the state is then
read off by `rfl`.
-/
import VortexOS.Sched.Scheduler

namespace VortexOS.Sched

open Function Lib

variable {t p prio tcb : Nat} {pool : Nat → Tcb} {s : SchedState} {a b : List Nat}

/-- A deadline thread that the deadline scan can choose. -/
def Tcb.hasDeadline (t : Tcb) : Prop := t.policy = .dl ∧ t.absDeadline < noDeadline

instance (t : Tcb) : Decidable t.hasDeadline := inferInstanceAs (Decidable (_ ∧ _))

lemma Tcb.hasDeadline_of_lt {t : Tcb} {d : UInt64} (hp : t.policy = .dl) (hd : t.absDeadline < d) :
    t.hasDeadline :=
  ⟨hp, UInt64.lt_iff_toNat_lt.mpr
    ((UInt64.lt_iff_toNat_lt.mp hd).trans_le (Nat.le_of_lt_succ d.toNat_lt))⟩

/-! ## The members of the queues -/

abbrev Queues := Nat → List Nat

namespace Queues

def push (q : Queues) (p t : Nat) : Queues := update q p (q p ++ [t])

def remove (q : Queues) (p t : Nat) : Queues := update q p ((q p).erase t)

def count (q : Queues) : Nat := ∑ p ∈ Finset.range numPriorities, (q p).length

/-- The queued threads in the order in which the deadline scan visits them. -/
def all (q : Queues) : List Nat := (List.range numPriorities).flatMap q

/-- The queued threads in the order of the priorities. -/
def byPriority (q : Queues) : List Nat := (rtPriorities ++ normalPriorities).flatMap q

def deadlines (q : Queues) (pool : Nat → Tcb) : List Nat :=
  q.all.filter fun t => (pool t).hasDeadline

/-- The thread that `schedule` takes off the queues. -/
def pick (q : Queues) (pool : Nat → Tcb) : Option Nat :=
  ((q.deadlines pool).argmin fun t => (pool t).absDeadline.toNat).or q.byPriority.head?

variable {q : Queues} {p t u : Nat}

lemma mem_push : u ∈ q.push p t p' ↔ u ∈ q p' ∨ p' = p ∧ u = t := by
  by_cases h : p' = p
  · subst h
    simp [push]
  · simp [push, h]

lemma mem_of_mem_remove (h : u ∈ q.remove p t p') : u ∈ q p' := by
  by_cases hp : p' = p
  · subst hp
    simp only [remove, update_self] at h
    exact List.mem_of_mem_erase h
  · simpa [remove, hp] using h

lemma mem_remove_of_ne (h : u ≠ t) : u ∈ q.remove p t p' ↔ u ∈ q p' := by
  by_cases hp : p' = p
  · subst hp
    simp [remove, List.mem_erase_of_ne h]
  · simp [remove, hp]

lemma mem_all : t ∈ q.all ↔ ∃ p < numPriorities, t ∈ q p := by
  simp [all]

lemma mem_deadlines : t ∈ q.deadlines pool ↔ t ∈ q.all ∧ (pool t).hasDeadline := by
  simp [deadlines]

lemma mem_priorities : p ∈ rtPriorities ++ normalPriorities ↔ p < numPriorities := by
  simp only [rtPriorities, normalPriorities, numPriorities, List.mem_append, List.mem_reverse,
    List.mem_range, List.mem_range'_1]
  omega

lemma mem_byPriority : t ∈ q.byPriority ↔ t ∈ q.all := by
  simp only [byPriority, List.mem_flatMap, mem_priorities, mem_all]

lemma head?_flatMap {ps : List Nat} (h : (ps.flatMap q).head? = some t) : ∃ p l, q p = t :: l := by
  induction ps with
  | nil => simp at h
  | cons p ps ih =>
    cases hq : q p with
    | nil =>
      apply ih
      simpa [hq] using h
    | cons u l =>
      have hut : u = t := by simpa [hq] using h
      exact ⟨p, l, hut ▸ hq⟩

lemma pick_mem (h : q.pick pool = some t) : t ∈ q.all := by
  rcases Option.or_eq_some_iff.mp h with h | ⟨-, h⟩
  · exact (mem_deadlines.mp (List.argmin_mem h)).1
  · exact mem_byPriority.mp (List.mem_of_mem_head? h)

lemma pick_eq_none : q.pick pool = none ↔ q.all = [] := by
  simp only [pick, Option.or_eq_none_iff, List.argmin_eq_none, List.head?_eq_none_iff,
    List.eq_nil_iff_forall_not_mem, mem_byPriority]
  exact ⟨fun h => h.2, fun h => ⟨fun t ht => h t (mem_deadlines.mp ht).1, h⟩⟩

lemma count_update (hp : p < numPriorities) (l : List Nat) :
    count (update q p l) + (q p).length = q.count + l.length := by
  have hmem : p ∈ Finset.range numPriorities := Finset.mem_range.mpr hp
  have hrest : ∑ p' ∈ (Finset.range numPriorities).erase p, (update q p l p').length =
      ∑ p' ∈ (Finset.range numPriorities).erase p, (q p').length := by
    refine Finset.sum_congr rfl fun p' hp' => ?_
    rw [update_of_ne (Finset.ne_of_mem_erase hp')]
  unfold count
  rw [← Finset.add_sum_erase _ _ hmem, ← Finset.add_sum_erase _ _ hmem, hrest]
  simp only [update_self]
  omega

end Queues

/-! ## Representation -/

/-- Change the links, the queues and the counter. -/
def SchedState.relink (s : SchedState) (next : Nat → Option Nat) (queues : Nat → ReadyQueue)
    (total : Nat) : SchedState :=
  { s with
    kTcbPool := fun t => { s.kTcbPool t with next := next t }
    kReadyQueues := queues
    kTotalReady := total }

section

variable (s : SchedState) (next next' : Nat → Option Nat) (queues queues' : Nat → ReadyQueue)
  (total total' : Nat)

@[simp] lemma relink_next : (s.relink next queues total).next = next := rfl

@[simp] lemma relink_queues : (s.relink next queues total).kReadyQueues = queues := rfl

@[simp] lemma relink_total : (s.relink next queues total).kTotalReady = total := rfl

@[simp] lemma relink_relink :
    (s.relink next queues total).relink next' queues' total' = s.relink next' queues' total' := rfl

/-! Every store a queue operation makes is a `relink`. -/

lemma modTcb_next (x : Nat) (v : Option Nat) : (s.modTcb x fun t => { t with next := v }) =
      s.relink (update s.next x v) s.kReadyQueues s.kTotalReady := by
  have hpool : update s.kTcbPool x { s.kTcbPool x with next := v } =
      fun t => { s.kTcbPool t with next := update s.next x v t } := by
    funext t
    by_cases ht : t = x
    · subst ht
      simp
    · simp [ht, SchedState.next]
  unfold SchedState.modTcb SchedState.relink
  rw [hpool]

lemma modQueue_eq (p : Nat) (f : ReadyQueue → ReadyQueue) : s.modQueue p f =
      s.relink s.next (update s.kReadyQueues p (f (s.kReadyQueues p))) s.kTotalReady := rfl

lemma setTotalReady_eq (n : Nat) : s.setTotalReady n = s.relink s.next s.kReadyQueues n := rfl

end

/-- `s'` differs from `s` in the links, the queues and the counter only. -/
def Relinked (s s' : SchedState) : Prop :=
  ∃ next queues total, s' = s.relink next queues total

/-- The links, heads, tails and the counter of `s` represent `q`. -/
structure Holds (s : SchedState) (q : Queues) : Prop where
  fifo : ∀ p, Fifo s.next (s.kReadyQueues p).head (s.kReadyQueues p).tail (q p)
  priority : ∀ p, ∀ t ∈ q p, (s.kTcbPool t).priority = p
  bounded : ∀ p, ∀ t ∈ q p, p < numPriorities ∧ t < s.kNextTcbIndex
  index_le : s.kNextTcbIndex ≤ maxThreads
  total : s.kTotalReady = q.count

namespace Holds

variable {q : Queues}

lemma disjoint (h : Holds s q) {p' : Nat} (hne : p ≠ p') : ∀ t ∈ q p, t ∉ q p' :=
  fun t ht ht' => hne ((h.priority p t ht).symm.trans (h.priority p' t ht'))

lemma mem_all (h : Holds s q) : t ∈ q.all ↔ ∃ p, t ∈ q p := by
  rw [Queues.mem_all]
  exact ⟨fun ⟨p, _, ht⟩ => ⟨p, ht⟩, fun ⟨p, ht⟩ => ⟨p, (h.bounded p t ht).1, ht⟩⟩

lemma mem_of_mem_all (h : Holds s q) (ht : t ∈ q.all) : t ∈ q (s.kTcbPool t).priority := by
  obtain ⟨p, hp⟩ := h.mem_all.mp ht
  rwa [h.priority p t hp]

lemma count_le (h : Holds s q) : q.count ≤ s.kNextTcbIndex := by
  have hdis : ∀ p ∈ Finset.range numPriorities, ∀ p' ∈ Finset.range numPriorities, p ≠ p' →
      Disjoint (q p).toFinset (q p').toFinset := by
    intro p _ p' _ hne
    rw [Finset.disjoint_left]
    simpa using h.disjoint hne
  calc q.count = ∑ p ∈ Finset.range numPriorities, (q p).toFinset.card :=
        Finset.sum_congr rfl fun p _ => (List.toFinset_card_of_nodup (h.fifo p).nodup).symm
    _ = ((Finset.range numPriorities).biUnion fun p => (q p).toFinset).card :=
        (Finset.card_biUnion hdis).symm
    _ ≤ (Finset.range s.kNextTcbIndex).card := by
        refine Finset.card_le_card (Finset.biUnion_subset.mpr fun p _ t ht => ?_)
        exact Finset.mem_range.mpr (h.bounded p t (List.mem_toFinset.mp ht)).2
    _ = s.kNextTcbIndex := Finset.card_range _

lemma length_le (h : Holds s q) (p : Nat) : (q p).length ≤ maxThreads := by
  by_cases hp : p < numPriorities
  · have hle : (q p).length ≤ q.count :=
      Finset.single_le_sum (f := fun p => (q p).length) (fun _ _ => Nat.zero_le _)
        (Finset.mem_range.mpr hp)
    exact hle.trans (h.count_le.trans h.index_le)
  · have hnil : q p = [] :=
      List.eq_nil_iff_forall_not_mem.mpr fun t ht => hp (h.bounded p t ht).1
    simp [hnil]

/-- Whether a state represents `q` depends on the links, the priorities,
the queues, the counter and the number of threads. -/
lemma congr {s' : SchedState} (h : Holds s q) (hnext : ∀ t < s.kNextTcbIndex, s'.next t = s.next t)
    (hprio : ∀ t < s.kNextTcbIndex, (s'.kTcbPool t).priority = (s.kTcbPool t).priority)
    (hqueues : s'.kReadyQueues = s.kReadyQueues) (htotal : s'.kTotalReady = s.kTotalReady)
    (hindex : s.kNextTcbIndex ≤ s'.kNextTcbIndex) (hmax : s'.kNextTcbIndex ≤ maxThreads) :
    Holds s' q where
  fifo p := by
    rw [hqueues]
    exact (h.fifo p).congr fun t ht => hnext t (h.bounded p t ht).2
  priority p t ht := (hprio t (h.bounded p t ht).2).trans (h.priority p t ht)
  bounded p t ht := ⟨(h.bounded p t ht).1, (h.bounded p t ht).2.trans_le hindex⟩
  index_le := hmax
  total := htotal.trans h.total

end Holds

variable {q : Queues}

/-! ## `queue_push_back` -/

/-- The state after `tcb` has been appended to the queue `prio`. -/
def SchedState.pushed (s : SchedState) (prio tcb : Nat) : SchedState :=
  s.relink (pushBack s.next (s.kReadyQueues prio).tail tcb)
    (update s.kReadyQueues prio
      ⟨if (s.kReadyQueues prio).tail = none then
        some tcb else (s.kReadyQueues prio).head, some tcb⟩)
    ((s.kTotalReady + 1) % 2 ^ 32)

lemma queuePushBack_eq (hp : prio < numPriorities) :
    queuePushBack prio tcb s = some (s.pushed prio tcb) := by
  unfold queuePushBack SchedState.pushed
  rw [if_neg (Nat.not_le.mpr hp)]
  cases htail : (s.kReadyQueues prio).tail with
  | none => simp [modTcb_next, modQueue_eq, setTotalReady_eq, htail, pushBack, setNext?]
  | some tail => simp [modTcb_next, modQueue_eq, setTotalReady_eq, htail, pushBack, setNext?]

lemma Holds.push (h : Holds s q) (hp : p < numPriorities) (ht : t < s.kNextTcbIndex)
    (hprio : (s.kTcbPool t).priority = p) (hnew : ∀ p', t ∉ q p') :
    Holds (s.pushed p t) (q.push p t) where
  fifo p' := by
    by_cases hpp : p' = p
    · subst hpp
      simpa [SchedState.pushed, Queues.push] using (h.fifo p').push (hnew p')
    · simpa [SchedState.pushed, Queues.push, hpp] using
        (h.fifo p).push_frame (h.fifo p') (hnew p') (h.disjoint (Ne.symm hpp))
  priority p' u hu := by
    rcases Queues.mem_push.mp hu with hu | ⟨rfl, rfl⟩
    · exact h.priority p' u hu
    · exact hprio
  bounded p' u hu := by
    rcases Queues.mem_push.mp hu with hu | ⟨rfl, rfl⟩
    · exact h.bounded p' u hu
    · exact ⟨hp, ht⟩
  index_le := h.index_le
  total := by
    have hcount := Queues.count_update (q := q) hp (q p ++ [t])
    have hle := h.count_le.trans h.index_le
    simp only [List.length_append, List.length_singleton] at hcount
    simp only [SchedState.pushed, relink_total, Queues.push, h.total]
    unfold maxThreads at hle
    omega

/-! ## Taking a thread out of its queue -/

/-- The state after `tcb`, which follows `prev`, has been taken out of the
queue `prio`. -/
def SchedState.unlinked (s : SchedState) (prio : Nat) (prev : Option Nat) (tcb : Nat) :
    SchedState :=
  s.relink (takeOut s.next prev tcb)
    (update s.kReadyQueues prio
      ⟨if prev = none then s.next tcb else (s.kReadyQueues prio).head,
        if s.next tcb = none then prev else (s.kReadyQueues prio).tail⟩)
    ((s.kTotalReady + (2 ^ 32 - 1)) % 2 ^ 32)

lemma queuePopFront_eq (hhead : (s.kReadyQueues prio).head = some tcb) :
    queuePopFront prio s = (some tcb, s.unlinked prio none tcb) := by
  unfold queuePopFront SchedState.unlinked
  simp only [hhead]
  by_cases hn : s.next tcb = none
  · simp [modTcb_next, modQueue_eq, setTotalReady_eq, hn, takeOut, setNext?]
  · simp [modTcb_next, modQueue_eq, setTotalReady_eq, hn, takeOut, setNext?]

lemma Holds.unlink (h : Holds s q) (hq : q p = a ++ t :: b) :
    Holds (s.unlinked p a.getLast? t) (q.remove p t) where
  fifo p' := by
    by_cases hpp : p' = p
    · subst hpp
      have hnd := (h.fifo p').nodup
      have ha : t ∉ a := by
        rw [hq] at hnd
        exact fun ht => (List.nodup_append.mp hnd).2.2 t ht t (by simp) rfl
      have hf := h.fifo p'
      rw [hq] at hf
      simpa [SchedState.unlinked, Queues.remove, hq, List.erase_append_right _ ha] using hf.takeOut
    · have hdis := h.disjoint (Ne.symm hpp)
      rw [hq] at hdis
      simpa [SchedState.unlinked, Queues.remove, hpp] using (h.fifo p').takeOut_frame hdis
  priority p' u hu := h.priority p' u (Queues.mem_of_mem_remove hu)
  bounded p' u hu := h.bounded p' u (Queues.mem_of_mem_remove hu)
  index_le := h.index_le
  total := by
    have ht : t ∈ q p := by simp [hq]
    have hcount := Queues.count_update (q := q) (h.bounded p t ht).1 ((q p).erase t)
    have hlen := List.length_erase_of_mem ht
    have hpos := List.length_pos_of_mem ht
    have hle := h.count_le.trans h.index_le
    simp only [SchedState.unlinked, relink_total, Queues.remove, h.total]
    unfold maxThreads at hle
    omega

/-! ## The deadline scan -/

def scanAt (pool : Nat → Tcb) : Option Nat → DlScan
  | none => ⟨none, noDeadline⟩
  | some t => ⟨some t, (pool t).absDeadline⟩

/-- Of two threads, keep the one with the earlier deadline. -/
abbrev earlier (pool : Nat → Tcb) : Option Nat → Nat → Option Nat :=
  List.argAux fun b c => (pool b).absDeadline.toNat < (pool c).absDeadline.toNat

lemma dlVisit_scanAt (s : SchedState) (o : Option Nat) (t : Nat) :
    dlVisit s (scanAt s.kTcbPool o) t =
      scanAt s.kTcbPool (if (s.kTcbPool t).hasDeadline then earlier s.kTcbPool o t else o) := by
  cases o with
  | none =>
    by_cases hd : (s.kTcbPool t).hasDeadline
    · rw [if_pos hd]
      exact if_pos hd
    · rw [if_neg hd]
      exact if_neg hd
  | some u =>
    by_cases hlt : (s.kTcbPool t).policy = .dl ∧
        (s.kTcbPool t).absDeadline < (s.kTcbPool u).absDeadline
    · have htake : earlier s.kTcbPool (some u) t = some t :=
        if_pos (UInt64.lt_iff_toNat_lt.mp hlt.2)
      rw [if_pos (Tcb.hasDeadline_of_lt hlt.1 hlt.2), htake]
      exact if_pos hlt
    · have hkeep : (if (s.kTcbPool t).hasDeadline then earlier s.kTcbPool (some u) t else some u) =
          some u := by
        split
        · rename_i hd
          have hle : ¬ (s.kTcbPool t).absDeadline.toNat < (s.kTcbPool u).absDeadline.toNat :=
            fun h => hlt ⟨hd.1, UInt64.lt_iff_toNat_lt.mpr h⟩
          exact if_neg hle
        · rfl
      rw [hkeep]
      exact if_neg hlt

lemma foldl_dlVisit (s : SchedState) (l : List Nat) (o : Option Nat) :
    l.foldl (dlVisit s) (scanAt s.kTcbPool o) = scanAt s.kTcbPool
      ((l.filter fun t => (s.kTcbPool t).hasDeadline).foldl (earlier s.kTcbPool) o) := by
  induction l generalizing o with
  | nil => rfl
  | cons t l ih =>
    rw [List.foldl_cons, dlVisit_scanAt, ih]
    by_cases hd : (s.kTcbPool t).hasDeadline
    · simp [hd]
    · simp [hd]

lemma Holds.dlScan_eq (h : Holds s q) : dlScan s =
    some (scanAt s.kTcbPool
      ((q.deadlines s.kTcbPool).argmin fun t => (s.kTcbPool t).absDeadline.toNat)) := by
  have hloop : ∀ (ps : List Nat) (r : DlScan),
      ps.foldlM (fun r p => foldChain s.next (dlVisit s) maxThreads (s.kReadyQueues p).head r) r =
        some ((ps.flatMap q).foldl (dlVisit s) r) := by
    intro ps
    induction ps with
    | nil => exact fun r => rfl
    | cons p ps ih =>
      intro r
      rw [List.foldlM_cons, (h.fifo p).seg.foldChain_eq (h.length_le p)]
      simp [ih]
  unfold dlScan
  rw [hloop]
  exact congrArg some (foldl_dlVisit s _ none)

lemma Holds.dlRemove_eq (h : Holds s q) (hq : q (s.kTcbPool t).priority = a ++ t :: b) :
    dlRemove t s = some (s.unlinked (s.kTcbPool t).priority a.getLast? t) := by
  have hf := h.fifo (s.kTcbPool t).priority
  have hlen := h.length_le (s.kTcbPool t).priority
  rw [hq] at hf hlen
  have ha : t ∉ a := fun ht => (List.nodup_append.mp hf.nodup).2.2 t ht t (by simp) rfl
  have hfind : findPrev s.next t maxThreads none (s.kReadyQueues (s.kTcbPool t).priority).head =
      some (a.getLast?.or none) :=
    hf.seg.findPrev_eq ha (show a.length ≤ maxThreads by simp at hlen; omega)
  rw [Option.or_none] at hfind
  unfold dlRemove SchedState.unlinked
  simp only [hfind, Option.bind_eq_bind, Option.bind_some]
  cases hlast : a.getLast? with
  | none =>
    by_cases hn : s.next t = none
    · simp [modTcb_next, modQueue_eq, setTotalReady_eq, hn, takeOut, setNext?]
    · simp [modTcb_next, modQueue_eq, setTotalReady_eq, hn, takeOut, setNext?]
  | some prev =>
    have hpt : t ≠ prev := fun e => ha (e ▸ List.mem_of_getLast? hlast)
    by_cases hn : s.next t = none
    · simp [modTcb_next, modQueue_eq, setTotalReady_eq, hn, hpt, takeOut, setNext?]
    · simp [modTcb_next, setTotalReady_eq, hn, hpt, takeOut, setNext?]

/-! ## The scan of the priorities -/

lemma Holds.popFirst_eq (h : Holds s q) (ps : List Nat) :
    popFirst ps s = match (ps.flatMap q).head? with
      | none => (none, s)
      | some t => (some t, s.unlinked (s.kTcbPool t).priority none t) := by
  induction ps with
  | nil => rfl
  | cons p ps ih =>
    have hhead := (h.fifo p).seg.head
    cases hq : q p with
    | nil =>
      rw [hq] at hhead
      have hpop : queuePopFront p s = (none, s) := by
        unfold queuePopFront
        simp [hhead]
      simp [popFirst, hpop, ih, hq]
    | cons t l =>
      rw [hq] at hhead
      have ht : (s.kTcbPool t).priority = p := h.priority p t (by simp [hq])
      simp [popFirst, queuePopFront_eq hhead, hq, ht]

lemma Holds.popByPriority_eq (h : Holds s q) : popByPriority s = match q.byPriority.head? with
      | none => (none, s)
      | some t => (some t, s.unlinked (s.kTcbPool t).priority none t) := by
  unfold popByPriority Queues.byPriority
  rw [h.popFirst_eq rtPriorities, List.flatMap_append, List.head?_append]
  cases (rtPriorities.flatMap q).head? with
  | none => exact h.popFirst_eq normalPriorities
  | some t => rfl

/-! ## The choice -/

def Queues.without (q : Queues) (pool : Nat → Tcb) : Option Nat → Queues
  | none => q
  | some t => q.remove (pool t).priority t

lemma pickNext_spec (h : Holds s q) : ∃ s', pickNext s = some (q.pick s.kTcbPool, s') ∧
    Relinked s s' ∧ Holds s' (q.without s.kTcbPool (q.pick s.kTcbPool)) := by
  unfold pickNext
  rw [h.dlScan_eq]
  cases hdl : (q.deadlines s.kTcbPool).argmin fun t => (s.kTcbPool t).absDeadline.toNat with
  | some t =>
    have hpick : q.pick s.kTcbPool = some t := by simp [Queues.pick, hdl]
    have hmem := h.mem_of_mem_all (Queues.pick_mem hpick)
    obtain ⟨a, b, hq⟩ := List.append_of_mem hmem
    rw [hpick]
    refine ⟨s.unlinked (s.kTcbPool t).priority a.getLast? t, ?_, ⟨_, _, _, rfl⟩, h.unlink hq⟩
    simp [scanAt, h.dlRemove_eq hq]
  | none =>
    have hpick : q.pick s.kTcbPool = q.byPriority.head? := by simp [Queues.pick, hdl]
    rw [hpick]
    cases hhead : q.byPriority.head? with
    | none =>
      refine ⟨s, ?_, ⟨_, _, _, rfl⟩, h⟩
      simp [scanAt, h.popByPriority_eq, hhead]
    | some t =>
      obtain ⟨p, l, hq⟩ := Queues.head?_flatMap hhead
      have hp : (s.kTcbPool t).priority = p := h.priority p t (by simp [hq])
      refine ⟨s.unlinked (s.kTcbPool t).priority none t, ?_, ⟨_, _, _, rfl⟩, ?_⟩
      · simp [scanAt, h.popByPriority_eq, hhead]
      · have hq' : q (s.kTcbPool t).priority = [] ++ t :: l := by rw [hp, hq, List.nil_append]
        exact h.unlink hq'

end VortexOS.Sched
