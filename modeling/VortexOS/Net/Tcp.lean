/-
VortexOS.Net.Tcp — the TCP table: the state machine of `tcp_handle_packet`,
and `sys_socket_listen`.

The test for SYN and ACK of the state `SYN_SENT` is a test for one of them
(`tcp_transitions_iff`). And no block is in that state or any other, because
everything that changes a state starts from a block that is not `CLOSED`: in
every run from `net_init` on, all of them are `CLOSED`
(`tcp_never_listens`).
-/
import VortexOS.Net.Receive

namespace VortexOS.Net

open Lib

/-! ## Segments -/

/-- The arguments of `tcp_handle_packet`. -/
structure Segment where
  data : Nat → Byte
  len : Nat

namespace Segment

variable (seg : Segment)

def dstPort : BitVec 16 := ntohs (read16 seg.data 2)

def flags : BitVec 16 := ntohs (read16 seg.data 12) &&& 0x1F

def Fin : Prop := seg.flags &&& 0x01 ≠ 0

def Syn : Prop := seg.flags &&& 0x02 ≠ 0

def Ack : Prop := seg.flags &&& 0x10 ≠ 0

end Segment

def tcpStep (s : NetState) (seg : Segment) :
    Option NetState := some (tcpHandlePacket seg.data seg.len s)

/-- The transitions of the standard that a segment can make. -/
def TcpMove (seg : Segment) : TcpState → TcpState → Prop
  | .listen, .synReceived => seg.Syn
  | .synSent, .established => seg.Syn ∧ seg.Ack
  | .established, .closeWait => seg.Fin
  | old, new => new = old

/-- Every block makes a transition of the standard or none, and only one with
the segment's port makes one. -/
structure TransitionOk (s : NetState) (seg : Segment) : Prop where
  move : ∀ i, TcpMove seg (s.gTcpSockets i).state
    ((tcpHandlePacket seg.data seg.len s).gTcpSockets i).state
  port : ∀ i, ((tcpHandlePacket seg.data seg.len s).gTcpSockets i).state ≠ (s.gTcpSockets i).state →
    (s.gTcpSockets i).localPort = seg.dstPort

/-- The block for the segment waits for SYN and ACK, and one of them is
set. -/
def HalfSyn (s : NetState) (seg : Segment) : Prop :=
  sizeofTcpHeader ≤ seg.len ∧ ∃ i, (tcpFindOrAllocSocket seg.dstPort s).1 = some i ∧
    (s.gTcpSockets i).state = .synSent ∧ (seg.Syn ∨ seg.Ack) ∧ ¬ (seg.Syn ∧ seg.Ack)

section

variable {s : NetState} {seg : Segment} {i : Nat} {port : BitVec 16}

/-- Only the port of the block that is taken changes, and it is that of the
segment unless the block is closed. -/
lemma tcpFindOrAllocSocket_spec (port : BitVec 16) (s : NetState) :
    (∀ i, ((tcpFindOrAllocSocket port s).2.gTcpSockets i).state = (s.gTcpSockets i).state) ∧
    ∀ i, (tcpFindOrAllocSocket port s).1 = some i →
    (s.gTcpSockets i).state = .closed ∨ (s.gTcpSockets i).localPort = port := by
  unfold tcpFindOrAllocSocket
  split
  next j hfind =>
    refine ⟨fun _ => rfl, fun i hi => ?_⟩
    cases hi
    have hboth := List.find?_some hfind
    simp only [Bool.and_eq_true, beq_iff_eq] at hboth
    exact Or.inr hboth.2
  · split
    · exact ⟨fun _ => rfl, fun i hi => nomatch hi⟩
    next j hfind =>
      have hclosed : (s.gTcpSockets j).state = .closed := by simpa using List.find?_some hfind
      refine ⟨fun i => ?_, fun i hi => ?_⟩
      · by_cases hij : i = j
        · simp [NetState.modTcp, hij, hclosed]
        · simp [NetState.modTcp, hij]
      · cases hi
        exact Or.inl hclosed

lemma tcpHandlePacket_state (s : NetState) (seg : Segment) (i : Nat) :
    ((tcpHandlePacket seg.data seg.len s).gTcpSockets i).state =
      if sizeofTcpHeader ≤ seg.len ∧ (tcpFindOrAllocSocket seg.dstPort s).1 = some i then
      tcpNext (s.gTcpSockets i).state seg.flags else (s.gTcpSockets i).state := by
  have hstate := (tcpFindOrAllocSocket_spec seg.dstPort s).1 i
  unfold tcpHandlePacket
  by_cases hlen : seg.len < sizeofTcpHeader
  · rw [if_pos hlen, if_neg fun h => Nat.not_le.mpr hlen h.1]
  · rw [if_neg hlen]
    simp only [Nat.not_lt.mp hlen, true_and]
    unfold Segment.dstPort at *
    rcases hfind : tcpFindOrAllocSocket (ntohs (read16 seg.data 2)) s with ⟨_ | j, s1⟩
    · simp only [hfind] at hstate
      simp [hstate]
    · simp only [hfind] at hstate
      by_cases hij : i = j
      · subst hij
        simp [NetState.modTcp, hstate, Segment.flags]
      · simp [NetState.modTcp, hij, Ne.symm hij, hstate]

lemma syn_or_ack : seg.flags &&& 0x12 ≠ 0 ↔ seg.Syn ∨ seg.Ack := by
  have hsplit : seg.flags &&& 0x12 = seg.flags &&& 0x02 ||| seg.flags &&& 0x10 := by
    rw [← BitVec.and_or_distrib_left]
    rfl
  rw [hsplit]
  exact BitVec.or_eq_zero_iff.not.trans not_and_or

/-- The state machine does what it should, unless it takes SYN or ACK for
both. -/
lemma tcpNext_move_iff (state : TcpState) : TcpMove seg state (tcpNext state seg.flags) ↔
      ¬ (state = .synSent ∧ (seg.Syn ∨ seg.Ack) ∧ ¬ (seg.Syn ∧ seg.Ack)) := by
  cases state with
  | listen =>
    by_cases h : seg.Syn
    · rw [show tcpNext .listen seg.flags = .synReceived from if_pos h]
      simpa [TcpMove] using h
    · rw [show tcpNext .listen seg.flags = .listen from if_neg h]
      simp [TcpMove]
  | synSent =>
    by_cases h : seg.Syn ∨ seg.Ack
    · rw [show tcpNext .synSent seg.flags = .established from if_pos (syn_or_ack.mpr h)]
      simp only [TcpMove, h, true_and, not_not]
    · rw [show tcpNext .synSent seg.flags = .synSent from if_neg (mt syn_or_ack.mp h)]
      simp [TcpMove, h]
  | established =>
    by_cases h : seg.Fin
    · rw [show tcpNext .established seg.flags = .closeWait from if_pos h]
      simpa [TcpMove] using h
    · rw [show tcpNext .established seg.flags = .established from if_neg h]
      simp [TcpMove]
  | _ => simp [TcpMove, tcpNext]

lemma tcpMove_self (state : TcpState) : TcpMove seg state state := by
  cases state <;> exact rfl

lemma transitionOk_iff : TransitionOk s seg ↔ ¬ HalfSyn s seg := by
  constructor
  · rintro h ⟨hlen, i, hi, hhalf⟩
    have hmove := h.move i
    rw [tcpHandlePacket_state, if_pos ⟨hlen, hi⟩, tcpNext_move_iff] at hmove
    exact hmove hhalf
  · refine fun h => ⟨fun i => ?_, fun i hne => ?_⟩
    · rw [tcpHandlePacket_state]
      split
      next hi => exact (tcpNext_move_iff _).mpr fun hhalf => h ⟨hi.1, i, hi.2, hhalf⟩
      · exact tcpMove_self _
    · rw [tcpHandlePacket_state] at hne
      split at hne
      next hi =>
        refine ((tcpFindOrAllocSocket_spec _ s).2 i hi.2).resolve_left fun hclosed => ?_
        rw [hclosed] at hne
        exact hne rfl
      · exact absurd rfl hne

end

/-- The transitions are right if and only if no block in `SYN_SENT` gets a
segment with one of SYN and ACK only. -/
theorem tcp_transitions_iff (s : NetState) (segs : List Segment) :
    Along tcpStep TransitionOk s segs ↔ Along tcpStep (fun s seg => ¬ HalfSyn s seg) s segs :=
  ⟨Along.mono fun _ _ => transitionOk_iff.mp, Along.mono fun _ _ => transitionOk_iff.mpr⟩

/-- A block that waits for SYN and ACK, and a segment with ACK for it. -/
theorem tcp_established_by_ack :
    let s : NetState := { NetState.boot with gTcpSockets := fun _ => ⟨.synSent, 0⟩ }
    let seg : Segment := ⟨fun i => if i = 13 then 0x10 else 0, 20⟩
    ¬ seg.Syn ∧ (tcpHandlePacket seg.data seg.len s |>.gTcpSockets 0).state = .established ∧
      ¬ Along tcpStep TransitionOk s [seg] := by
  have hsyn : ¬ Segment.Syn ⟨fun i => if i = 13 then 0x10 else 0, 20⟩ := by
    unfold Segment.Syn
    decide
  refine ⟨hsyn, by decide, fun h => transitionOk_iff.mp h.1 ?_⟩
  exact ⟨Nat.le_refl _, 0, by decide, rfl, Or.inr (by unfold Segment.Ack; decide),
    fun h => absurd h.1 hsyn⟩

/-! ## Listening -/

/-- The stack after socket calls and frames. -/
def netAfter (tx : Nat → Bool) (mac : MacAddr) (ops : List NetOp) : NetState :=
  ops.foldl (fun s op => (netStep tx s op).getD s) (netStart tx mac)

/-- The call succeeds, and then a segment with SYN for the port is
accepted. -/
structure Listens (fd : Int) (port : BitVec 16) (s : NetState) : Prop where
  listen : (sysSocketListen fd s).1 = 0
  accept : ∀ seg : Segment, sizeofTcpHeader ≤ seg.len → seg.dstPort = port → seg.Syn →
    ∃ i < maxTcpSockets, ((sysSocketListen fd s).2.gTcpSockets i).localPort = port ∧
      ((sysSocketListen fd s).2.gTcpSockets i).state = .listen ∧
      ((tcpHandlePacket seg.data seg.len (sysSocketListen fd s).2).gTcpSockets i).state =
        .synReceived

/-- No block is in use. -/
def AllClosed (s : NetState) : Prop := ∀ i, (s.gTcpSockets i).state = .closed

section

variable {tx : Nat → Bool} {s s' : NetState} {fd : Int}

section

variable (h : AllClosed s)
include h

lemma AllClosed.congr (heq : s'.gTcpSockets = s.gTcpSockets) : AllClosed s' :=
  fun i => by rw [heq, h i]

lemma AllClosed.listen (fd : Int) : sysSocketListen fd s = (-1, s) := by
  unfold sysSocketListen
  split
  · rfl
  · rw [if_pos (h _)]

lemma AllClosed.segment (seg : Segment) : AllClosed (tcpHandlePacket seg.data seg.len s) := by
  intro i
  rw [tcpHandlePacket_state, h i]
  exact ite_self _

lemma AllClosed.send (fd : Int) (data : List Byte) : AllClosed (sysSocketSend tx fd data s).2 := by
  unfold sysSocketSend
  split
  · exact h
  next i hfd =>
    have hsend := (ipv4Send_onlySent tx (s.gUdpSockets i).remoteIp ipprotoUdp
      (udpBuf (s.gUdpSockets i).localPort (s.gUdpSockets i).remotePort data) s).gTcpSockets
    simp only
    split
    · exact h
    · split
      · exact h
      · split
        next s1 heq => exact h.congr (by rwa [heq] at hsend)
        next s1 heq => exact h.congr (by rwa [heq] at hsend)

lemma AllClosed.frame (stack data : Nat → Byte) (length : Nat) :
    AllClosed (netReceive tx stack data length s) := by
  obtain ⟨-, -, htcp⟩ | ⟨p, -, ⟨-, heq⟩ | ⟨-, heq⟩ | ⟨-, heq⟩⟩ :=
    netReceive_eq tx stack data length s
  · exact h.congr htcp
  · rw [heq]
    exact h.congr (icmpHandleEcho_onlySent tx _ _ _ s).gTcpSockets
  · rw [heq, udpHandlePacket]
    split
    · exact h
    · split
      · exact h
      · exact h
  · rw [heq]
    exact h.segment ⟨_, _⟩

/-- Nothing opens a block. -/
lemma AllClosed.step (op : NetOp) : AllClosed ((netStep tx s op).getD s) := by
  cases op with
  | create =>
    simp only [netStep, Option.getD_some, sysSocketCreate, udpAllocSocket]
    cases (List.range maxUdpSockets).find? fun i => (s.gUdpSockets i).state = .free <;> exact h
  | bind fd port =>
    simp only [netStep, Option.getD_some, sysSocketBind]
    cases validFd maxUdpSockets fd with
    | none => exact h
    | some i => simp only; split <;> exact h
  | connect fd ip port =>
    simp only [netStep, Option.getD_some, sysSocketConnect]
    cases validFd maxUdpSockets fd with
    | none => exact h
    | some i => simp only; split <;> exact h
  | send fd data => exact h.send fd data
  | recv fd size =>
    simp only [netStep, Option.getD_some, sysSocketRecv]
    cases validFd maxUdpSockets fd with
    | none => exact h
    | some i => simp only; split <;> exact h
  | close fd =>
    simp only [netStep, Option.getD_some, sysSocketClose]
    cases validFd maxUdpSockets fd <;> exact h
  | listen fd =>
    rw [netStep, h.listen fd]
    exact h
  | frame stack data length => exact h.frame stack data length

end

lemma allClosed_netStart (tx : Nat → Bool) (mac : MacAddr) : AllClosed (netStart tx mac) := by
  intro i
  simp only [netStart, netInit, dhcpSendDiscover, dhcpSend, (ipv4Send_onlySent ..).gTcpSockets]
  split <;> rfl

lemma allClosed_netAfter (tx : Nat → Bool) (mac : MacAddr) (ops : List NetOp) :
    AllClosed (netAfter tx mac ops) := by
  have hstart := allClosed_netStart tx mac
  unfold netAfter
  generalize netStart tx mac = s at hstart
  induction ops generalizing s with
  | nil => exact hstart
  | cons op ops ih => exact ih _ (hstart.step op)

end

/-- No descriptor can ever listen. -/
theorem tcp_never_listens (tx : Nat → Bool) (mac : MacAddr) (ops : List NetOp) (fd : Int)
    (port : BitVec 16) : (sysSocketListen fd (netAfter tx mac ops)).1 = -1 ∧
    ¬ Listens fd port (netAfter tx mac ops) := by
  have hlisten := (allClosed_netAfter tx mac ops).listen fd
  refine ⟨by rw [hlisten], fun h => ?_⟩
  have hres := h.listen
  rw [hlisten] at hres
  cases hres

/-- A socket for port 80: create and bind succeed, listen does not. -/
theorem listen_fails : let s := netStart (fun _ => true) nullMac
    (sysSocketCreate s).1 = 0 ∧ (sysSocketBind 0 80 (sysSocketCreate s).2).1 = 0 ∧
      (sysSocketListen 0 (sysSocketBind 0 80 (sysSocketCreate s).2).2).1 = -1 := by
  set_option maxRecDepth 8000 in decide

end VortexOS.Net
