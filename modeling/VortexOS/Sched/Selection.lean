/-
VortexOS.Sched.Selection — which thread `schedule` makes current, and what
it leaves on the queues.

`Selected` says it without reference to the code: among deadline threads
the earliest deadline, then the lower priority number, then the position in
the queue; without deadline threads the head of one queue; with nothing
queued the idle thread. `schedule_selects` is also for states that no run
leads to.
-/
import VortexOS.Sched.Urgency

namespace VortexOS.Sched

open Lib

/-- Thread `t` comes before `u`: a lower priority number, or an earlier
place in the same queue. -/
def Queues.Before (q : Queues) (pool : Nat → Tcb) (t u : Nat) : Prop :=
  (pool t).priority < (pool u).priority ∨
    (pool t).priority = (pool u).priority ∧
      (q (pool t).priority).idxOf t ≤ (q (pool t).priority).idxOf u

/-- The choice of `schedule` among the threads of `q`. -/
structure Selected (q : Queues) (pool : Nat → Tcb) (idle t : Nat) : Prop where
  deadline : (∃ u ∈ q.all, (pool u).hasDeadline) →
    t ∈ q.all ∧ (pool t).policy = .dl ∧ ∀ u ∈ q.all, (pool u).policy = .dl →
      (pool t).absDeadline < (pool u).absDeadline ∨
        (pool t).absDeadline = (pool u).absDeadline ∧ q.Before pool t u
  realTime : (∀ u ∈ q.all, ¬ (pool u).hasDeadline) → ∀ p < 100, q p ≠ [] →
    (∀ p', p < p' → p' < 100 → q p' = []) → (q p).head? = some t
  normal : (∀ u ∈ q.all, ¬ (pool u).hasDeadline) → (∀ p < 100, q p = []) →
    ∀ p, 100 ≤ p → p < numPriorities → q p ≠ [] →
      (∀ p', 100 ≤ p' → p' < p → q p' = []) → (q p).head? = some t
  nothing : (∀ p < numPriorities, q p = []) → t = idle

/-! ## Lists in order -/

lemma rel_of_idxOf_lt {R : Nat → Nat → Prop} {l : List Nat} (h : l.Pairwise R) {t u : Nat}
    (hu : u ∈ l) (hlt : l.idxOf t < l.idxOf u) : R t u := by
  have hu' := List.idxOf_lt_length_of_mem hu
  have hrel := List.pairwise_iff_getElem.mp h _ _ (hlt.trans hu') hu' hlt
  rwa [List.getElem_idxOf, List.getElem_idxOf] at hrel

lemma pairwise_idxOf {l : List Nat} (h : l.Nodup) :
    l.Pairwise fun t u => l.idxOf t ≤ l.idxOf u := by
  rw [List.pairwise_iff_getElem]
  intro i j hi hj hij
  rw [h.idxOf_getElem, h.idxOf_getElem]
  exact Nat.le_of_lt hij

/-! ## The choice -/

/-- Every thread is queued once, on the queue of its priority. -/
structure Queues.Placed (q : Queues) (pool : Nat → Tcb) : Prop where
  nodup : ∀ p, (q p).Nodup
  priority : ∀ p, ∀ t ∈ q p, (pool t).priority = p
  bounded : ∀ p, ∀ t ∈ q p, p < numPriorities

namespace Queues.Placed

variable {q : Queues} {pool : Nat → Tcb} {t u p : Nat}

section

variable (h : q.Placed pool)
include h

lemma mem_all (ht : t ∈ q p) : t ∈ q.all :=
  Queues.mem_all.mpr ⟨p, h.bounded p t ht, ht⟩

lemma pairwise_all : q.all.Pairwise (q.Before pool) := by
  refine List.pairwise_flatMap.mpr ⟨?_, ?_⟩
  · intro p _
    refine (pairwise_idxOf (h.nodup p)).imp_of_mem ?_
    intro t u ht hu hle
    have hpt := h.priority p t ht
    have hpu := h.priority p u hu
    exact Or.inr ⟨hpt.trans hpu.symm, by rwa [hpt]⟩
  · refine List.pairwise_lt_range.imp ?_
    intro p p' hlt t ht u hu
    rw [← h.priority p t ht, ← h.priority p' u hu] at hlt
    exact Or.inl hlt

/-- The deadline scan keeps the first of several threads with one
deadline. -/
lemma before_of_argmin
    (hmin : ((q.deadlines pool).argmin fun t => (pool t).absDeadline.toNat) = some t)
    (hu : u ∈ q.deadlines pool) (heq : (pool t).absDeadline = (pool u).absDeadline) :
    q.Before pool t u := by
  have hle := List.index_of_argmin (Option.mem_def.mpr hmin) hu (by simp [heq])
  rcases Nat.lt_or_eq_of_le hle with hlt | hidx
  · exact rel_of_idxOf_lt (h.pairwise_all.sublist List.filter_sublist) hu hlt
  · rw [(List.idxOf_inj (List.argmin_mem hmin)).mp hidx]
    exact Or.inr ⟨rfl, Nat.le_refl _⟩

lemma select_deadline (hex : ∃ u ∈ q.all, (pool u).hasDeadline) (hpick : q.pick pool = some t) :
    t ∈ q.all ∧ (pool t).policy = .dl ∧ ∀ u ∈ q.all, (pool u).policy = .dl → (pool t).absDeadline <
      (pool u).absDeadline ∨ (pool t).absDeadline = (pool u).absDeadline ∧ q.Before pool t u := by
  obtain ⟨v, hv, htall, htd, hle⟩ := Queues.pick_deadline pool hex
  obtain rfl := Option.mem_unique hv hpick
  have hmin : ((q.deadlines pool).argmin fun t => (pool t).absDeadline.toNat) = some v := by
    rcases Option.or_eq_some_iff.mp hpick with hmin | ⟨hnone, -⟩
    · exact hmin
    · have hmem := Queues.mem_deadlines.mpr ⟨htall, htd⟩
      rw [List.argmin_eq_none.mp hnone] at hmem
      cases hmem
  refine ⟨htall, htd.1, ?_⟩
  intro u hu hdl
  by_cases hud : (pool u).hasDeadline
  · rcases Nat.lt_or_eq_of_le (hle u hu hud) with hlt | heq
    · exact Or.inl (UInt64.lt_iff_toNat_lt.mpr hlt)
    · have heq := UInt64.toNat_inj.mp heq
      exact Or.inr ⟨heq, h.before_of_argmin hmin (Queues.mem_deadlines.mpr ⟨hu, hud⟩) heq⟩
  · -- a deadline thread with the greatest deadline there is
    have hmax : noDeadline ≤ (pool u).absDeadline := UInt64.not_lt.mp fun hlt => hud ⟨hdl, hlt⟩
    exact Or.inl (UInt64.lt_of_lt_of_le htd.2 hmax)

lemma select_priority (hno : ∀ u ∈ q.all, ¬ (pool u).hasDeadline) (hne : q p ≠ []) :
    ∃ p' l, q.pick pool = l.head? ∧ q p' = l ∧ l ≠ [] ∧ priorityRank p' ≤ priorityRank p := by
  obtain ⟨u, hu⟩ := List.exists_mem_of_ne_nil _ hne
  have hall : u ∈ q.byPriority := Queues.mem_byPriority.mpr (h.mem_all hu)
  cases hhead : q.byPriority.head? with
  | none =>
    rw [List.head?_eq_none_iff.mp hhead] at hall
    cases hall
  | some t =>
    obtain ⟨p', l, hq⟩ := Queues.head?_flatMap hhead
    have ht : t ∈ q p' := by simp [hq]
    have hrank := Queues.head?_rank (fun t => (pool t).priority) priorities_sorted
      (fun p t ht => h.priority p t ht) hhead hall
    simp only [h.priority p' t ht, h.priority p u hu] at hrank
    refine ⟨p', t :: l, ?_, hq, by simp, hrank⟩
    rw [Queues.pick_priority pool hno, hhead, List.head?_cons]

lemma selected (idle : Nat) : Selected q pool idle ((q.pick pool).getD idle) := by
  constructor
  case deadline =>
    intro hex
    obtain ⟨v, hv, -⟩ := Queues.pick_deadline pool hex
    rw [hv, Option.getD_some]
    exact h.select_deadline hex hv
  case realTime =>
    intro hno p hp hne hhigh
    obtain ⟨p', l, hpick, rfl, hl, hrank⟩ := h.select_priority hno hne
    -- of the real-time queues none above `p` has a thread
    have hpp : p' = p := by
      unfold priorityRank at hrank
      by_cases hlt : p' < 100
      · rw [if_pos hlt, if_pos hp] at hrank
        by_contra hne'
        exact hl (hhigh p' (by omega) hlt)
      · rw [if_neg hlt, if_pos hp] at hrank
        omega
    subst hpp
    rw [hpick]
    cases hq : q p' with
    | nil => exact absurd hq hl
    | cons t l => rfl
  case normal =>
    intro hno hrt p hp _ hne hlow
    obtain ⟨p', l, hpick, rfl, hl, hrank⟩ := h.select_priority hno hne
    have hpp : p' = p := by
      unfold priorityRank at hrank
      by_cases hrt' : p' < 100
      · exact absurd (hrt p' hrt') hl
      · rw [if_neg hrt', if_neg (by omega)] at hrank
        by_contra hne'
        exact hl (hlow p' (by omega) (by omega))
    subst hpp
    rw [hpick]
    cases hq : q p' with
    | nil => exact absurd hq hl
    | cons t l => rfl
  case nothing =>
    intro hempty
    have hall : q.all = [] := by
      refine List.eq_nil_iff_forall_not_mem.mpr ?_
      intro t ht
      obtain ⟨p, hp, ht⟩ := Queues.mem_all.mp ht
      simp [hempty p hp] at ht
    rw [Queues.pick_eq_none.mpr hall, Option.getD_none]

lemma without_pick (idle : Nat) :
    q.without pool (q.pick pool) = fun p => (q p).erase ((q.pick pool).getD idle) := by
  funext p
  cases hpick : q.pick pool with
  | none =>
    have hall := Queues.pick_eq_none.mp hpick
    have hnil : q p = [] := by
      refine List.eq_nil_iff_forall_not_mem.mpr ?_
      intro t ht
      have hmem := h.mem_all ht
      simp [hall] at hmem
    simp [Queues.without, hnil]
  | some t =>
    simp only [Queues.without, Queues.remove, Option.getD_some]
    by_cases hp : p = (pool t).priority
    · subst hp
      rw [Function.update_self]
    · rw [Function.update_of_ne hp, List.erase_of_not_mem]
      intro ht
      exact hp (h.priority p t ht).symm

end

end Queues.Placed

/-! ## The call -/

section

variable {s : SchedState} {q : Queues}

lemma Schedulable.placed (h : Schedulable s q) : (s.requeued q).Placed s.kTcbPool := by
  obtain ⟨s1, -, ⟨next, queues, total, rfl⟩, hholds⟩ := requeueCurrent_spec h
  exact ⟨fun p => (hholds.fifo p).nodup, hholds.priority, fun p t ht => (hholds.bounded p t ht).1⟩

/-- **Selection.** -/
theorem schedule_selects (h : Schedulable s q) (hen : s.kSchedulingEnabled = true) :
    ∃ s', schedule s = some s' ∧
    Selected (s.requeued q) s.kTcbPool s.kIdleThread s'.kCurrentThread ∧
      (s'.kTcbPool s'.kCurrentThread).state = .running ∧
      Holds s' fun p => (s.requeued q p).erase s'.kCurrentThread := by
  obtain ⟨s', hsched, hsw, hholds⟩ := schedule_switches h hen
  refine ⟨s', hsched, ?_, ?_, ?_⟩
  · rw [hsw.current]
    exact h.placed.selected s.kIdleThread
  · rw [hsw.current, hsw.pool]
    simp
  · rw [SchedState.rest, h.placed.without_pick s.kIdleThread] at hholds
    rwa [hsw.current]

def deadlineRun : List Op := [.create 50 .dl 7 0x100000, .create 20 .dl 7 0x200000, .start]

def deadlineState : SchedState := (runFrom 1000 0 deadlineRun).get (by decide)

lemma runFrom_deadlineRun : runFrom 1000 0 deadlineRun = some deadlineState :=
  (Option.some_get _).symm

theorem schedule_selects_deadlines :
    ∃ q s', Schedulable deadlineState q ∧ schedule deadlineState = some s' ∧
    Selected (deadlineState.requeued q) deadlineState.kTcbPool deadlineState.kIdleThread
      s'.kCurrentThread ∧ (s'.kTcbPool s'.kCurrentThread).state = .running ∧
    Holds s' fun p => (deadlineState.requeued q p).erase s'.kCurrentThread := by
  obtain ⟨q, hok⟩ := Ok.run (by decide) runFrom_deadlineRun
  obtain ⟨s', hs'⟩ := schedule_selects hok.schedulable (by decide)
  exact ⟨q, s', hok.schedulable, hs'⟩

end

end VortexOS.Sched
