/-
VortexOS.Dev.NvmeTheorems — which completion a call returns.

The completion queue is a ring with phase bits (`RingInv`), in every run
and whatever the controller does. The driver does not know which command a
completion is for. If the controller completes every command before the
call has given up, there is one command at a time (`Stage`), and so the
`n`-th call takes the `n`-th completion (`nvme_ring_synchrony`). After a
timeout the next call takes the completion that is left over
(`late_completion_taken`).
-/
import VortexOS.Dev.Nvme
import VortexOS.Lib.PhaseRing

namespace VortexOS.Dev

open Lib

/-! ## Status and phase -/

def NvmeCqe.tag (cqe : NvmeCqe) : Bool := cqe.status.getLsbD 0

def phaseWord (b : Bool) : BitVec 16 := if b then 1 else 0

lemma and_one_eq (x : BitVec 16) : x &&& 1#16 = phaseWord (x.getLsbD 0) := by
  apply BitVec.eq_of_toNat_eq
  have hbit : x.getLsbD 0 = decide (x.toNat % 2 = 1) := by
    rw [BitVec.getLsbD, Nat.testBit_zero]
  rw [BitVec.toNat_and, hbit]
  simp only [BitVec.toNat_ofNat]
  cases Nat.mod_two_eq_zero_or_one x.toNat with
  | inl h => simp [phaseWord, Nat.and_one_is_mod, h]
  | inr h => simp [phaseWord, Nat.and_one_is_mod, h]

lemma phaseWord_inj {a b : Bool} : phaseWord a = phaseWord b ↔ a = b := by
  cases a <;> cases b <;> decide

lemma phaseWord_flip (b : Bool) : phaseWord b ^^^ 1#16 = phaseWord !b := by
  cases b <;> decide

lemma entry_tag (s : System) (cmd : NvmeCmd) (status : BitVec 15) (cdw0 : BitVec 32) :
    (s.entry cmd status cdw0).tag = s.ctl.phase := by
  change (status ++ BitVec.ofBool s.ctl.phase).getLsbD 0 = s.ctl.phase
  rw [BitVec.getLsbD_append]
  simp

lemma entry_code (s : System) (cmd : NvmeCmd) (status : BitVec 15) (cdw0 : BitVec 32) :
    (s.entry cmd status cdw0).code = status.toNat := by
  have hlt := status.isLt
  have hbit := (BitVec.ofBool s.ctl.phase).isLt
  have hval : (status ++ BitVec.ofBool s.ctl.phase).toNat =
      status.toNat * 2 + (BitVec.ofBool s.ctl.phase).toNat := by
    rw [BitVec.toNat_append, ← Nat.shiftLeft_add_eq_or_of_lt hbit, Nat.shiftLeft_eq]
  change ((status ++ BitVec.ofBool s.ctl.phase) >>> 1 &&& 0x7FFF#16).toNat = status.toNat
  have hmask : (0x7FFF#16).toNat = 2 ^ 15 - 1 := rfl
  rw [BitVec.toNat_and, BitVec.toNat_ushiftRight, hval, hmask, Nat.and_two_pow_sub_one_eq_mod,
    Nat.shiftRight_eq_div_pow]
  omega

/-! ## The ring -/

/-- The completion queue is a ring of phase bits that has `queue`. -/
structure RingInv (s : System) (queue : List NvmeCqe) : Prop where
  size : 2 ≤ s.q.qsize
  sqTail : s.q.sqTail = s.calls % s.q.qsize
  sqDoorbell : s.sqDoorbell = s.calls % s.q.qsize
  cqHead : s.q.cqHead = s.taken.length % s.q.qsize
  phase : s.q.phase = phaseWord (lap s.q.qsize s.taken.length)
  cqDoorbell : s.cqDoorbell = s.q.cqHead
  cqTail : s.ctl.cqTail = (s.taken.length + queue.length) % s.q.qsize
  ctlPhase : s.ctl.phase = lap s.q.qsize (s.taken.length + queue.length)
  entries : s.posted.map Posted.entry = s.taken ++ queue
  ring : Holds NvmeCqe.tag s.q.qsize s.q.cqVirt s.taken.length queue
  room : queue.length < s.q.qsize
  codes : ∀ p ∈ s.posted, p.entry.code = p.status.toNat

section

variable {hhdm : BitVec 64} {s s' : System} {queue : List NvmeCqe} {e : Event} {c : Call}
    {status : Nat}
  {q : NvmeQueue}

section

variable (h : RingInv s queue)
include h

lemma RingInv.posted_length : s.posted.length = s.taken.length + queue.length := by
  have hlen := congrArg List.length h.entries
  simpa using hlen

lemma RingInv.poll_eq_none : s.q.poll = none ↔ queue = [] := by
  have hready := h.ring.ready_iff (Nat.zero_lt_of_lt h.size)
  rw [← h.cqHead] at hready
  unfold NvmeQueue.poll
  simp only [and_one_eq, h.phase, phaseWord_inj, ite_eq_right_iff, reduceCtorEq, imp_false]
  rw [NvmeCqe.tag] at hready
  rw [hready, not_not]

lemma RingInv.poll_eq_some (hpoll : s.q.poll = some (status, q)) :
    ∃ a rest, queue = a :: rest ∧ s.q.cqVirt s.q.cqHead = a ∧ status = a.code ∧ q = { s.q with
        cqHead := (s.taken.length + 1) % s.q.qsize
        phase := phaseWord (lap s.q.qsize (s.taken.length + 1)) } := by
  have hne : queue ≠ [] := fun hnil => by
    rw [h.poll_eq_none.mpr hnil] at hpoll
    cases hpoll
  obtain ⟨a, rest, rfl⟩ := List.exists_cons_of_ne_nil hne
  have ha : s.q.cqVirt s.q.cqHead = a := by
    rw [h.cqHead]
    exact h.ring.head
  have hhead : (s.q.cqHead + 1) % s.q.qsize = (s.taken.length + 1) % s.q.qsize := by
    rw [h.cqHead, Nat.mod_add_mod]
  unfold NvmeQueue.poll at hpoll
  simp only [hhead, ha] at hpoll
  split at hpoll
  · cases hpoll
    refine ⟨a, rest, rfl, ha, rfl, ?_⟩
    rw [h.phase, phaseWord_flip, lap_succ, apply_ite phaseWord]
  · cases hpoll

lemma RingInv.submit (request : Request) (cmd : NvmeCmd) :
    RingInv (s.submit request cmd) queue := by
  have htail : (s.q.sqTail + 1) % s.q.qsize = (s.calls + 1) % s.q.qsize := by
    rw [h.sqTail, Nat.mod_add_mod]
  exact { h with sqTail := htail, sqDoorbell := htail }

lemma RingInv.wait (c : Call) : RingInv (s.wait c) queue := by
  unfold System.wait
  split
  · exact { h with }
  · exact { h with }

lemma RingInv.finish (hpoll : s.q.poll = some (status, q)) :
    ∃ a rest, queue = a :: rest ∧ status = a.code ∧ RingInv (s.finish c status q) rest := by
  obtain ⟨a, rest, rfl, ha, hstatus, rfl⟩ := h.poll_eq_some hpoll
  have hlen : (s.taken ++ [a]).length = s.taken.length + 1 := List.length_append
  have hnext : s.taken.length + (a :: rest).length = s.taken.length + 1 + rest.length := by
    rw [List.length_cons]
    omega
  refine ⟨a, rest, rfl, hstatus, ?_⟩
  rw [System.finish, ha]
  exact {
    size := h.size
    sqTail := h.sqTail
    sqDoorbell := h.sqDoorbell
    cqHead := by simp only [hlen]
    phase := by simp only [hlen]
    cqDoorbell := rfl
    cqTail := by simpa only [hlen, ← hnext] using h.cqTail
    ctlPhase := by simpa only [hlen, ← hnext] using h.ctlPhase
    entries := by rw [h.entries, List.append_assoc, List.singleton_append]
    ring := by simpa only [hlen] using h.ring.pop
    room := Nat.lt_of_succ_lt h.room
    codes := h.codes }

lemma RingInv.accept : RingInv s.accept queue := { h with }

lemma RingInv.nextTail : s.nextTail = (s.taken.length + (queue.length + 1)) % s.q.qsize := by
  rw [System.nextTail, h.cqTail, Nat.mod_add_mod, Nat.add_assoc]

lemma RingInv.complete (i call : Nat) (cmd : NvmeCmd) (status : BitVec 15) (cdw0 : BitVec 32)
    (hfull : s.nextTail ≠ s.cqDoorbell) :
    RingInv (s.complete i call cmd status cdw0) (queue ++ [s.entry cmd status cdw0]) := by
  have hlen : (queue ++ [s.entry cmd status cdw0]).length = queue.length + 1 := List.length_append
  -- the controller does not overtake the driver
  have hroom : queue.length + 1 < s.q.qsize := by
    refine Nat.lt_of_le_of_ne h.room fun heq => hfull ?_
    rw [h.nextTail, heq, Nat.add_mod_right, h.cqDoorbell, h.cqHead]
  exact {
    size := h.size
    sqTail := h.sqTail
    sqDoorbell := h.sqDoorbell
    cqHead := h.cqHead
    phase := h.phase
    cqDoorbell := h.cqDoorbell
    cqTail := by
      rw [hlen]
      exact h.nextTail
    ctlPhase := by
      simp only [System.complete, hlen]
      rw [h.nextTail, ← Nat.add_assoc, lap_succ, h.ctlPhase]
    entries := by simp [System.complete, h.entries]
    ring := by
      simp only [System.complete, h.cqTail]
      exact h.ring.push h.room ((entry_tag s cmd status cdw0).trans h.ctlPhase)
    room := by
      rw [hlen]
      exact hroom
    codes := fun p hp => by
      cases List.mem_append.mp hp with
      | inl hp => exact h.codes p hp
      | inr hp =>
        rw [List.mem_singleton] at hp
        rw [hp]
        exact entry_code s cmd status cdw0 }

end

lemma nvmeStep_cases (hstep : nvmeStep hhdm s e = some s') :
    (s.call = none ∧ (s' = s ∨ ∃ request cmd, s' = s.submit request cmd)) ∨
    (∃ c, s.call = some c ∧ e = .poll ∧ ((s.q.poll = none ∧ s' = s.wait c) ∨
      ∃ status q, s.q.poll = some (status, q) ∧ s' = s.finish c status q)) ∨
    (s.ctl.sqHead ≠ s.sqDoorbell ∧ s' = s.accept) ∨ ∃ i call cmd status cdw0, s.ctl.fetched[i]? =
      some (call, cmd) ∧ s.nextTail ≠ s.cqDoorbell ∧ s' = s.complete i call cmd status cdw0 := by
  cases e with
  | call request =>
    simp only [nvmeStep, System.begin] at hstep
    split at hstep
    · cases hstep
    · rename_i hcall _
      cases hstep
      exact Or.inl ⟨hcall, Or.inl rfl⟩
    · rename_i cmd hcall _
      cases hstep
      exact Or.inl ⟨hcall, Or.inr ⟨request, cmd, rfl⟩⟩
  | poll =>
    simp only [nvmeStep, System.poll] at hstep
    split at hstep
    · cases hstep
    · rename_i c status q hcall hpoll
      cases hstep
      exact Or.inr (Or.inl ⟨c, hcall, rfl, Or.inr ⟨status, q, hpoll, rfl⟩⟩)
    · rename_i c hcall hpoll
      cases hstep
      exact Or.inr (Or.inl ⟨c, hcall, rfl, Or.inl ⟨hpoll, rfl⟩⟩)
  | fetch =>
    simp only [nvmeStep, System.fetch] at hstep
    split at hstep
    · cases hstep
    · rename_i hne
      cases hstep
      exact Or.inr (Or.inr (Or.inl ⟨hne, rfl⟩))
  | post i status cdw0 =>
    simp only [nvmeStep, System.post] at hstep
    split at hstep
    · cases hstep
    · rename_i call cmd hcmd
      split at hstep
      · cases hstep
      · rename_i hfull
        cases hstep
        exact Or.inr (Or.inr (Or.inr ⟨i, call, cmd, status, cdw0, hcmd, hfull, rfl⟩))

/-! ## One command at a time -/

inductive Stage (s : System) : Prop
  | idle (hcall : s.call = none) (hposted : s.posted.length = s.calls)
    (htaken : s.taken.length = s.calls) (hfetched : s.ctl.fetched = [])
    (hhead : s.ctl.sqHead = s.calls % s.q.qsize)
  | submitted (c : Call) (hcall : s.call = some c) (hnumber : s.calls = c.number + 1)
    (hposted : s.posted.length = c.number) (htaken : s.taken.length = c.number)
    (hfetched : s.ctl.fetched = []) (hhead : s.ctl.sqHead = c.number % s.q.qsize)
    (hslot : s.slots (c.number % s.q.qsize) = c.number)
  | fetched (c : Call) (hcall : s.call = some c) (hnumber : s.calls = c.number + 1)
    (hposted : s.posted.length = c.number) (htaken : s.taken.length = c.number) (cmd : NvmeCmd)
    (hfetched : s.ctl.fetched = [(c.number, cmd)]) (hhead : s.ctl.sqHead = s.calls % s.q.qsize)
  | completed (c : Call) (hcall : s.call = some c) (hnumber : s.calls = c.number + 1)
    (hposted : s.posted.length = s.calls) (htaken : s.taken.length = c.number)
    (hfetched : s.ctl.fetched = []) (hhead : s.ctl.sqHead = s.calls % s.q.qsize)

/-- What a call returns comes from the completion of its own command. -/
structure InTimeInv (s : System) : Prop where
  ring : ∃ queue, RingInv s queue
  stage : Stage s
  owner : ∀ (i : Nat) (p : Posted), s.posted[i]? = some p → p.call = i
  own : ∀ r ∈ s.returned, ∃ p, s.posted[r.call]? = some p ∧
    r.reply = r.request.reply (some p.status.toNat)

lemma Stage.submit (h : Stage s) (hcall : s.call = none) (hring : RingInv s queue)
    (request : Request) (cmd : NvmeCmd) : Stage (s.submit request cmd) := by
  cases h with
  | idle _ hposted htaken hfetched hhead =>
    refine .submitted ⟨s.calls, request, timeoutRounds⟩ rfl rfl hposted htaken hfetched hhead ?_
    simp only [System.submit, hring.sqTail]
    exact Function.update_self _ _ _
  | submitted c hc => cases hcall.symm.trans hc
  | fetched c hc => cases hcall.symm.trans hc
  | completed c hc => cases hcall.symm.trans hc

lemma Stage.accept (h : Stage s) (hring : RingInv s queue) (hne : s.ctl.sqHead ≠ s.sqDoorbell) :
    Stage s.accept := by
  cases h with
  | idle _ _ _ _ hhead => exact absurd (hhead.trans hring.sqDoorbell.symm) hne
  | fetched _ _ _ _ _ _ _ hhead => exact absurd (hhead.trans hring.sqDoorbell.symm) hne
  | completed _ _ _ _ _ _ hhead => exact absurd (hhead.trans hring.sqDoorbell.symm) hne
  | submitted c hcall hnumber hposted htaken hfetched hhead hslot =>
    refine .fetched c hcall hnumber hposted htaken (s.q.sqVirt s.ctl.sqHead) ?_ ?_
    · simp [System.accept, hfetched, hhead, hslot]
    · simp only [System.accept, hhead, hnumber, Nat.mod_add_mod]

lemma Stage.complete (h : Stage s) {i call : Nat} {cmd : NvmeCmd}
    (hcmd : s.ctl.fetched[i]? = some (call, cmd)) (status : BitVec 15) (cdw0 : BitVec 32) :
    Stage (s.complete i call cmd status cdw0) ∧ call = s.posted.length := by
  cases h with
  | idle _ _ _ hfetched => simp [hfetched] at hcmd
  | submitted _ _ _ _ _ hfetched => simp [hfetched] at hcmd
  | completed _ _ _ _ _ hfetched => simp [hfetched] at hcmd
  | fetched c hcall hnumber hposted htaken cmd' hfetched hhead =>
    rw [hfetched] at hcmd
    have hi : i = 0 := by
      have hlt := (List.getElem?_eq_some_iff.mp hcmd).1
      simpa using hlt
    subst hi
    cases hcmd
    refine ⟨.completed c hcall hnumber ?_ htaken ?_ hhead, hposted.symm⟩
    · simp [System.complete, hposted, hnumber]
    · simp [System.complete, hfetched]

lemma Stage.wait (h : Stage s) (hring : RingInv s queue) (hcall : s.call = some c)
    (hpoll : s.q.poll = none) (hintime : c.timeout ≤ 1 → s.posted.length = s.calls) :
    Stage (s.wait c) ∧ (s.wait c).returned = s.returned := by
  have hlen := hring.posted_length
  rw [hring.poll_eq_none.mp hpoll, List.length_nil, Nat.add_zero] at hlen
  unfold System.wait
  by_cases hlast : c.timeout ≤ 1
  · -- the completion would have been found
    have hposted := hintime hlast
    cases h with
    | idle hc => cases hcall.symm.trans hc
    | submitted c' _ hnumber _ htaken => omega
    | fetched c' _ hnumber _ htaken => omega
    | completed c' _ hnumber _ htaken => omega
  · rw [if_neg hlast]
    refine ⟨?_, rfl⟩
    cases h with
    | idle hc => cases hcall.symm.trans hc
    | submitted c' hc hnumber hposted htaken hfetched hhead hslot =>
      cases hcall.symm.trans hc
      exact .submitted _ rfl hnumber hposted htaken hfetched hhead hslot
    | fetched c' hc hnumber hposted htaken cmd hfetched hhead =>
      cases hcall.symm.trans hc
      exact .fetched _ rfl hnumber hposted htaken cmd hfetched hhead
    | completed c' hc hnumber hposted htaken hfetched hhead =>
      cases hcall.symm.trans hc
      exact .completed _ rfl hnumber hposted htaken hfetched hhead

lemma Stage.finish (h : Stage s) (hring : RingInv s queue) (hcall : s.call = some c)
    (hpoll : s.q.poll = some (status, q)) : Stage (s.finish c status q) ∧ ∃ p,
      s.posted[c.number]? = some p ∧ status = p.status.toNat ∧ s.q.cqVirt s.q.cqHead = p.entry := by
  obtain ⟨a, rest, rfl, ha, hstatus, hq⟩ := hring.poll_eq_some hpoll
  have hlen := hring.posted_length
  rw [List.length_cons] at hlen
  cases h with
  | idle _ hposted htaken => omega
  | submitted c' hc hnumber hposted htaken => omega
  | fetched c' hc hnumber hposted htaken => omega
  | completed c' hc hnumber hposted htaken hfetched hhead =>
    cases hcall.symm.trans hc
    constructor
    · refine .idle rfl hposted ?_ hfetched ?_
      · simp [System.finish, htaken, hnumber]
      · simpa only [System.finish, hq] using hhead
    · have hentry : (s.posted.map Posted.entry)[c.number]? = some a := by
        rw [hring.entries, List.getElem?_append_right (Nat.le_of_eq htaken), htaken, Nat.sub_self]
        rfl
      rw [List.getElem?_map, Option.map_eq_some_iff] at hentry
      obtain ⟨p, hp, rfl⟩ := hentry
      exact ⟨p, hp, hstatus.trans (hring.codes p (List.mem_of_getElem? hp)), ha⟩

lemma nvmeStep_inTime (h : InTimeInv s) (hintime : InTime s e)
    (hstep : nvmeStep hhdm s e = some s') : InTimeInv s' := by
  obtain ⟨queue, hring⟩ := h.ring
  obtain ⟨hcall, rfl | ⟨request, cmd, rfl⟩⟩ | ⟨c, hcall, rfl, ⟨hpoll, rfl⟩ | ⟨status, q, hpoll,
    rfl⟩⟩ |
    ⟨hne, rfl⟩ | ⟨i, call, cmd, status, cdw0, hcmd, hfull, rfl⟩ := nvmeStep_cases hstep
  · exact h
  · exact ⟨⟨queue, hring.submit request cmd⟩, h.stage.submit hcall hring request cmd, h.owner,
      h.own⟩
  · obtain ⟨hstage, hreturned⟩ := h.stage.wait hring hcall hpoll (hintime c hcall)
    have hposted : (s.wait c).posted = s.posted := by
      unfold System.wait
      split <;> rfl
    refine ⟨⟨queue, hring.wait c⟩, hstage, hposted ▸ h.owner, ?_⟩
    rw [hreturned, hposted]
    exact h.own
  · obtain ⟨hstage, p, hp, hstatus, -⟩ := h.stage.finish hring hcall hpoll
    obtain ⟨a, rest, -, -, hring'⟩ := hring.finish (c := c) hpoll
    refine ⟨⟨rest, hring'⟩, hstage, h.owner, fun r hr => ?_⟩
    cases List.mem_append.mp hr with
    | inl hr => exact h.own r hr
    | inr hr =>
      rw [List.mem_singleton] at hr
      subst hr
      exact ⟨p, hp, by rw [hstatus]⟩
  · exact ⟨⟨queue, hring.accept⟩, h.stage.accept hring hne, h.owner, h.own⟩
  · obtain ⟨hstage, hnext⟩ := h.stage.complete hcmd status cdw0
    refine ⟨⟨_, hring.complete i call cmd status cdw0 hfull⟩, hstage, fun j p hp => ?_,
      fun r hr => ?_⟩
    · simp only [System.complete] at hp
      by_cases hj : j < s.posted.length
      · rw [List.getElem?_append_left hj] at hp
        exact h.owner j p hp
      · have hlt := (List.getElem?_eq_some_iff.mp hp).1
        rw [List.length_append, List.length_singleton] at hlt
        have hlast : j = s.posted.length := by omega
        subst hlast
        rw [List.getElem?_concat_length] at hp
        cases hp
        exact hnext
    · obtain ⟨p, hp, hreply⟩ := h.own r hr
      refine ⟨p, ?_, hreply⟩
      have hlt := (List.getElem?_eq_some_iff.mp hp).1
      simpa only [System.complete, List.getElem?_append_left hlt] using hp

end

/-! ## Runs -/

/-- The queue as `nvme_create_queue` leaves it, with a ring that is zero. -/
structure Created (q : NvmeQueue) : Prop where
  made : ∃ mem qid, nvmeCreateQueue mem qid q.qsize = some q
  ring : ∀ i < q.qsize, q.cqVirt i = .zero

section

variable {hhdm : BitVec 64} {q : NvmeQueue} {es : List Event} {s : System} {mem : QueueMemory}
    {qid qsize : Nat}

lemma nvmeCreateQueue_some (hq : nvmeCreateQueue mem qid qsize = some q) :
    q.sqTail = 0 ∧ q.cqHead = 0 ∧ q.phase = 1 ∧ q.qsize = qsize ∧
    ∃ cq, q.cqVirt = zeroed (qsize * sizeofCqe % 2 ^ 32) sizeofCqe .zero cq := by
  unfold nvmeCreateQueue at hq
  split at hq
  · cases hq
  · split at hq
    · cases hq
    · split at hq
      · cases hq
      · have heq := Option.some.inj hq
        rw [← heq]
        exact ⟨rfl, rfl, rfl, rfl, _, rfl⟩

/-- If the size of the ring in bytes does not overflow, all of it is set to
zero. -/
lemma nvmeCreateQueue_created (hsize : qsize * sizeofCqe < 2 ^ 32)
    (hq : nvmeCreateQueue mem qid qsize = some q) : Created q := by
  obtain ⟨-, -, -, rfl, cq, hcq⟩ := nvmeCreateQueue_some hq
  refine ⟨⟨mem, qid, hq⟩, fun i hi => ?_⟩
  rw [hcq, zeroed, Nat.mod_eq_of_lt hsize]
  exact if_pos (Nat.mul_le_mul_right sizeofCqe hi)

lemma Created.fields (h : Created q) : q.sqTail = 0 ∧ q.cqHead = 0 ∧ q.phase = 1 := by
  obtain ⟨mem, qid, hq⟩ := h.made
  obtain ⟨htail, hhead, hphase, -⟩ := nvmeCreateQueue_some hq
  exact ⟨htail, hhead, hphase⟩

lemma Created.inv (h : Created q) (hsize : 2 ≤ q.qsize) : InTimeInv (System.start q) := by
  obtain ⟨htail, hhead, hphase⟩ := h.fields
  refine ⟨⟨[], ?_⟩, .idle rfl rfl rfl rfl (Nat.zero_mod _).symm, by simp [System.start],
    by simp [System.start]⟩
  exact {
    size := hsize
    sqTail := by simp [System.start, htail]
    sqDoorbell := by simp [System.start]
    cqHead := by simp [System.start, hhead]
    phase := by simp [System.start, hphase, lap, phaseWord]
    cqDoorbell := by simp [System.start, hhead]
    cqTail := by simp [System.start]
    ctlPhase := by simp [System.start, lap]
    entries := rfl
    ring := holds_nil fun i hi => by
      simp only [System.start, h.ring i hi]
      rfl
    room := Nat.zero_lt_of_lt hsize
    codes := by simp [System.start] }

lemma nvme_run_inTime (h : Created q) (hsize : 2 ≤ q.qsize)
    (hintime : Along (nvmeStep hhdm) InTime (System.start q) es)
    (hrun : run (nvmeStep hhdm) (System.start q) es = some s) : InTimeInv s :=
  run_preserves InTimeInv (fun _ _ _ hinv hlegal hstep => nvmeStep_inTime hinv hlegal hstep)
    (h.inv hsize) hintime hrun

lemma nvmeStep_qsize {s s' : System} {e : Event} (hstep : nvmeStep hhdm s e = some s') :
    s'.q.qsize = s.q.qsize := by
  obtain ⟨-, rfl | ⟨request, cmd, rfl⟩⟩ | ⟨c, -, -, ⟨-, rfl⟩ | ⟨status, q, hpoll, rfl⟩⟩ |
    ⟨-, rfl⟩ | ⟨i, call, cmd, status, cdw0, -, -, rfl⟩ := nvmeStep_cases hstep
  · rfl
  · rfl
  · unfold System.wait
    split <;> rfl
  · unfold NvmeQueue.poll at hpoll
    simp only at hpoll
    split at hpoll
    · cases hpoll
      rfl
    · cases hpoll
  · rfl
  · rfl

/-- Driver and controller stay in step. `s.calls` is the number of commands
submitted so far. -/
theorem nvme_ring_synchrony (h : Created q) (hsize : 2 ≤ q.qsize)
    (hintime : Along (nvmeStep hhdm) InTime (System.start q) es)
    (hrun : run (nvmeStep hhdm) (System.start q) es = some s) : s.sqDoorbell = s.calls % q.qsize ∧
      (s.call = none → s.taken = s.posted.map Posted.entry ∧ s.taken.length = s.calls ∧
        s.q.cqHead = s.ctl.cqTail ∧ s.q.phase = phaseWord s.ctl.phase) ∧
      ∀ c, s.call = some c → s.calls = c.number + 1 ∧ s.taken.length = c.number ∧
        s.taken = (s.posted.map Posted.entry).take c.number ∧
        (s.q.poll = none ↔ s.posted.length = c.number) ∧
        ∀ status q', s.q.poll = some (status, q') → ∃ p, s.posted[c.number]? = some p ∧
          s.q.cqVirt s.q.cqHead = p.entry ∧ status = p.status.toNat := by
  have hinv := nvme_run_inTime h hsize hintime hrun
  have hq : s.q.qsize = q.qsize := run_keeps (fun s => s.q.qsize = q.qsize)
    (fun _ _ _ heq hstep => (nvmeStep_qsize hstep).trans heq) rfl hrun
  obtain ⟨queue, hring⟩ := hinv.ring
  have hlen := hring.posted_length
  refine ⟨hq ▸ hring.sqDoorbell, fun hcall => ?_, fun c hcall => ?_⟩
  · cases hinv.stage with
    | submitted c hc => cases hcall.symm.trans hc
    | fetched c hc => cases hcall.symm.trans hc
    | completed c hc => cases hcall.symm.trans hc
    | idle _ hposted htaken _ _ =>
      have hempty : queue = [] := List.eq_nil_of_length_eq_zero (by omega)
      subst hempty
      refine ⟨by simpa using hring.entries.symm, htaken, ?_, ?_⟩
      · rw [hring.cqHead, hring.cqTail]
        rfl
      · rw [hring.phase, hring.ctlPhase]
        rfl
  · have hnumber : s.calls = c.number + 1 ∧ s.taken.length = c.number := by
      cases hinv.stage with
      | idle hc => cases hcall.symm.trans hc
      | submitted c' hc hnumber _ htaken =>
        cases hcall.symm.trans hc
        exact ⟨hnumber, htaken⟩
      | fetched c' hc hnumber _ htaken =>
        cases hcall.symm.trans hc
        exact ⟨hnumber, htaken⟩
      | completed c' hc hnumber _ htaken =>
        cases hcall.symm.trans hc
        exact ⟨hnumber, htaken⟩
    obtain ⟨hcalls, htaken⟩ := hnumber
    refine ⟨hcalls, htaken, ?_, ?_, fun status q' hpoll => ?_⟩
    · rw [hring.entries, ← htaken, List.take_left]
    · rw [hring.poll_eq_none, hlen, htaken, ← List.length_eq_zero_iff]
      omega
    · obtain ⟨-, p, hp, hstatus, hentry⟩ := hinv.stage.finish hring hcall hpoll
      exact ⟨p, hp, hentry, hstatus⟩

def freshQueue (qid qsize : Nat) : NvmeQueue :=
  (nvmeCreateQueue ⟨true, some fun _ => .zero, some fun _ => .zero⟩ qid qsize).get rfl

lemma freshQueue_created (qid : Nat) (h : qsize * sizeofCqe < 2 ^ 32) :
    Created (freshQueue qid qsize) :=
  nvmeCreateQueue_created h (Option.some_get _).symm

/-- Two commands on a queue of two entries, so that the second one wraps. -/
theorem nvme_ring_synchrony_two : ∃ s,
    run (nvmeStep 0) (System.start (freshQueue 0 2)) [.call (.admin .zero), .fetch, .post 0 3 0,
        .poll, .call (.admin .zero), .poll, .fetch, .post 0 5 0, .poll] = some s ∧
      s.taken = s.posted.map Posted.entry ∧ s.q.cqHead = s.ctl.cqTail ∧
      s.q.phase = phaseWord s.ctl.phase := by
  refine ⟨_, rfl, ?_⟩
  obtain ⟨-, hidle, -⟩ := @nvme_ring_synchrony 0 (freshQueue 0 2)
    [.call (.admin .zero), .fetch, .post 0 3 0, .poll, .call (.admin .zero), .poll, .fetch,
      .post 0 5 0, .poll] _ (freshQueue_created 0 (by decide)) (by decide) (by decide) rfl
  obtain ⟨htaken, -, hhead, hphase⟩ := hidle rfl
  exact ⟨htaken, hhead, hphase⟩

/-- If no call times out, every call returns the status of its own
command. -/
theorem nvme_status_own (h : Created q) (hsize : 2 ≤ q.qsize)
    (hintime : Along (nvmeStep hhdm) InTime (System.start q) es)
    (hrun : run (nvmeStep hhdm) (System.start q) es = some s) :
    ∀ r ∈ s.returned, ∃ p ∈ s.posted, p.call = r.call ∧
    r.reply = r.request.reply (some p.status.toNat) := by
  have hinv := nvme_run_inTime h hsize hintime hrun
  intro r hr
  obtain ⟨p, hp, hreply⟩ := hinv.own r hr
  exact ⟨p, List.mem_of_getElem? hp, hinv.owner r.call p hp, hreply⟩

/-- A read that finds its completion. -/
theorem nvme_status_own_read : ∃ s,
    run (nvmeStep 0) (System.start (freshQueue 1 256)) [.call (.read 1 0 1 0x1000), .fetch,
        .post 0 0 0, .poll] = some s ∧ ∀ r ∈ s.returned, ∃ p ∈ s.posted, p.call = r.call ∧
        r.reply = r.request.reply (some p.status.toNat) := by
  refine ⟨_, rfl, ?_⟩
  exact @nvme_status_own 0 (freshQueue 1 256) [.call (.read 1 0 1 0x1000), .fetch, .post 0 0 0,
    .poll] _
    (freshQueue_created 1 (by decide)) (by decide) (by decide) rfl

lemma run_polls {c : Call} {k : Nat} (hcall : s.call = some c) (hpoll : s.q.poll = none)
    (hk : c.timeout = k + 1) :
    run (nvmeStep hhdm) s (List.replicate (k + 1) .poll) = some (s.giveUp c) := by
  induction k generalizing s c with
  | zero =>
    have hstep : nvmeStep hhdm s .poll = some (s.giveUp c) := by
      simp [nvmeStep, System.poll, hcall, hpoll, System.wait, hk]
    simp [run, hstep]
  | succ k ih =>
    have hstep : nvmeStep hhdm s .poll =
      some { s with call := some { c with timeout := k + 1 } } := by
      simp [nvmeStep, System.poll, hcall, hpoll, System.wait, hk]
    rw [List.replicate_succ, run, hstep, Option.bind_some]
    exact ih (s := { s with call := some { c with timeout := k + 1 } })
      (c := { c with timeout := k + 1 }) rfl hpoll rfl

/-- The first read times out, and its completion arrives before the second
read. The second one reports success, though the controller has not even
taken its command. -/
theorem late_completion_taken : ∃ s, run (nvmeStep 0) (System.start (freshQueue 1 256))
    ([.call (.read 1 0 1 0x1000)] ++ List.replicate timeoutRounds .poll ++
      [.fetch, .post 0 0 0, .call (.read 1 8 1 0x2000), .poll]) = some s ∧
    ⟨1, .read 1 8 1 0x2000, .inr true⟩ ∈ s.returned ∧ ∀ p ∈ s.posted, p.call ≠ 1 := by
  rw [run_append, run_append]
  have hfirst : run (nvmeStep 0) (System.start (freshQueue 1 256)) [.call (.read 1 0 1 0x1000)] =
      some ((System.start (freshQueue 1 256)).submit (.read 1 0 1 0x1000)
        (blockCmd nvmeIoRead 1 0 1 0x1000)) := rfl
  rw [hfirst, Option.bind_some, show timeoutRounds = 999999 + 1 from rfl,
    run_polls rfl (by decide) rfl, Option.bind_some]
  exact ⟨_, rfl, by decide, by decide⟩

end

end VortexOS.Dev
