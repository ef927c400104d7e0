/-
VortexOS.Net.SocketTheorems — the peer of a connected socket.

No call for another descriptor and no frame changes the address that
`sys_socket_connect` has stored. The port is another matter:
`udp_handle_packet` stores the source port of every datagram it delivers in
the same field. So the port that `sys_socket_send` sends to is the source
port of the last datagram received, whoever sent it
(`netStep_peer`, `socket_peer_iff`).
-/
import VortexOS.Net.Frames
import VortexOS.Net.Receive

namespace VortexOS.Net

open Lib

def UdpControlBlock.peer (sock : UdpControlBlock) : UdpState × Ipv4 × BitVec 16 :=
  (sock.state, sock.remoteIp, sock.remotePort)

/-- The operation is no connect, bind or close of the descriptor. -/
def LeavesAlone (fd : Int) : NetOp → Prop
  | .bind fd' _ => fd' ≠ fd
  | .connect fd' _ _ => fd' ≠ fd
  | .close fd' => fd' ≠ fd
  | _ => True

/-- The source port of the datagram that the operation delivers to socket
`i`. -/
def sourceOf (i : Nat) (s : NetState) : NetOp → Option (BitVec 16)
  | .frame stack data length =>
    match delivery stack data length s with
    | some (j, datagram) => if j = i then some (ntohs (read16 datagram 0)) else none
    | none => none
  | _ => none

/-- The source port of the last datagram that a run delivers to it. -/
def lastSource (tx : Nat → Bool) (i : Nat) : NetState → List NetOp → Option (BitVec 16)
  | _, [] => none
  | s, op :: ops => (lastSource tx i ((netStep tx s op).getD s) ops).or (sourceOf i s op)

/-- The change of a UDP socket by an operation. -/
inductive UdpChange (s : NetState) : NetOp → Nat → (UdpControlBlock → UdpControlBlock) → Prop
  | create {i : Nat} (hfree : (s.gUdpSockets i).state = .free) :
    UdpChange s .create i fun sock =>
      { sock with state := .bound, localPort := 0, rxPending := false, rxLen := 0 }
  | bind {fd : Int} {i : Nat} {port : BitVec 16} (hfd : validFd maxUdpSockets fd = some i)
    (hopen : (s.gUdpSockets i).state ≠ .free) :
    UdpChange s (.bind fd port) i fun sock => { sock with localPort := port, state := .bound }
  | connect {fd : Int} {i : Nat} {ip : Ipv4} {port : BitVec 16}
      (hfd : validFd maxUdpSockets fd = some i)
    (hopen : (s.gUdpSockets i).state ≠ .free) :
    UdpChange s (.connect fd ip port) i fun sock =>
      { sock with remoteIp := ip, remotePort := port, state := .connected }
  | close {fd : Int} {i : Nat} (hfd : validFd maxUdpSockets fd = some i) :
    UdpChange s (.close fd) i fun sock => { sock with state := .free }
  | recv {fd : Int} {i size : Nat} (hfd : validFd maxUdpSockets fd = some i)
    (hpending : ¬ (s.gUdpSockets i).rxPending = false) :
    UdpChange s (.recv fd size) i fun sock => { sock with rxPending := false, rxLen := 0 }
  | deliver {stack data datagram : Nat → Byte} {length i : Nat}
    (hsome : delivery stack data length s = some (i, datagram)) :
    UdpChange s (.frame stack data length) i (udpDeliver datagram)

section

variable {tx : Nat → Bool} {s s' : NetState} {fd fd' : Int} {i j : Nat} {ip : Ipv4}
    {port : BitVec 16}

lemma validFd_inj {count : Nat} (h : validFd count fd = some i) (h' : validFd count fd' = some i) :
    fd' = fd := by
  unfold validFd at h h'
  split at h
  · cases h
  · split at h'
    · cases h'
    · cases h
      have heq := Option.some.inj h'
      omega

lemma modUdp_of_ne (f : UdpControlBlock → UdpControlBlock) (hne : i ≠ j) :
    (s.modUdp j f).gUdpSockets i = s.gUdpSockets i := by
  simp [NetState.modUdp, hne]

lemma modUdp_self (f : UdpControlBlock → UdpControlBlock) :
    (s.modUdp i f).gUdpSockets i = f (s.gUdpSockets i) := by
  simp [NetState.modUdp]

lemma OnlySent.gUdpSockets (h : OnlySent s s') : s'.gUdpSockets = s.gUdpSockets := by
  obtain ⟨ident, frames, rfl⟩ := h
  rfl

lemma Quiet.gUdpSockets (h : Quiet s s') : s'.gUdpSockets = s.gUdpSockets := by
  obtain ⟨ident, frames, cache, next, tcp, rfl⟩ := h
  rfl

lemma sysSocketSend_gUdpSockets (fd : Int) (data : List Byte) (s : NetState) :
    (sysSocketSend tx fd data s).2.gUdpSockets = s.gUdpSockets := by
  unfold sysSocketSend
  split
  · rfl
  · rename_i i hfd
    have hsend := ipv4Send_onlySent tx (s.gUdpSockets i).remoteIp ipprotoUdp
      (udpBuf (s.gUdpSockets i).localPort (s.gUdpSockets i).remotePort data) s
    simp only
    split
    · rfl
    split
    · rfl
    split
    · rename_i s1 heq
      rw [heq] at hsend
      exact hsend.gUdpSockets
    · rename_i s1 heq
      rw [heq] at hsend
      exact hsend.gUdpSockets

/-- What an operation does to the UDP sockets is a change of one of them, or
nothing. -/
lemma netStep_udp {op : NetOp} (hstep : netStep tx s op = some s') :
    (s'.gUdpSockets = s.gUdpSockets ∧ ∀ i, sourceOf i s op = none) ∨
    ∃ i f, UdpChange s op i f ∧ s'.gUdpSockets = (s.modUdp i f).gUdpSockets := by
  cases op with
  | create =>
    cases hstep
    simp only [sysSocketCreate, udpAllocSocket]
    cases hfind : (List.range maxUdpSockets).find? fun i => (s.gUdpSockets i).state = .free with
    | none => exact Or.inl ⟨rfl, fun _ => rfl⟩
    | some i => exact Or.inr ⟨i, _, .create (by simpa using List.find?_some hfind), rfl⟩
  | bind fd port =>
    cases hstep
    simp only [sysSocketBind]
    cases hfd : validFd maxUdpSockets fd with
    | none => exact Or.inl ⟨rfl, fun _ => rfl⟩
    | some i =>
      by_cases hfree : (s.gUdpSockets i).state = .free
      · exact Or.inl ⟨by simp only [hfree, if_true], fun _ => rfl⟩
      · exact Or.inr ⟨i, _, .bind hfd hfree, by simp only [hfree, if_false]⟩
  | connect fd ip port =>
    cases hstep
    simp only [sysSocketConnect]
    cases hfd : validFd maxUdpSockets fd with
    | none => exact Or.inl ⟨rfl, fun _ => rfl⟩
    | some i =>
      by_cases hfree : (s.gUdpSockets i).state = .free
      · exact Or.inl ⟨by simp only [hfree, if_true], fun _ => rfl⟩
      · exact Or.inr ⟨i, _, .connect hfd hfree, by simp only [hfree, if_false]⟩
  | close fd =>
    cases hstep
    simp only [sysSocketClose]
    cases hfd : validFd maxUdpSockets fd with
    | none => exact Or.inl ⟨rfl, fun _ => rfl⟩
    | some i => exact Or.inr ⟨i, _, .close hfd, rfl⟩
  | send fd data =>
    cases hstep
    exact Or.inl ⟨sysSocketSend_gUdpSockets fd data s, fun _ => rfl⟩
  | recv fd size =>
    cases hstep
    simp only [sysSocketRecv]
    cases hfd : validFd maxUdpSockets fd with
    | none => exact Or.inl ⟨rfl, fun _ => rfl⟩
    | some i =>
      by_cases hpending : (s.gUdpSockets i).rxPending = false
      · exact Or.inl ⟨by simp only [hpending, if_true], fun _ => rfl⟩
      · exact Or.inr ⟨i, _, .recv hfd hpending, by simp only [if_neg hpending]⟩
  | listen fd =>
    cases hstep
    refine Or.inl ⟨?_, fun _ => rfl⟩
    unfold sysSocketListen
    split
    · rfl
    · split <;> rfl
  | frame stack data length =>
    cases hstep
    obtain ⟨hnone, hquiet⟩ | ⟨i, datagram, hsome, heq⟩ := netReceive_cases tx stack data length s
    · exact Or.inl ⟨hquiet.gUdpSockets, fun i => by simp only [sourceOf, hnone]⟩
    · exact Or.inr ⟨i, _, .deliver hsome, by rw [heq]⟩

/-- An operation that leaves the descriptor alone keeps the address. The port
is the source port of what it delivers. -/
lemma netStep_peer (hfd : validFd maxUdpSockets fd = some i)
    (hpeer : (s.gUdpSockets i).peer = (.connected, ip, port)) {op : NetOp} (hop : LeavesAlone fd op)
    (hstep : netStep tx s op = some s') :
    (s'.gUdpSockets i).peer = (.connected, ip, (sourceOf i s op).getD port) := by
  obtain ⟨heq, hsource⟩ | ⟨j, f, hchange, heq⟩ := netStep_udp hstep
  · rw [heq, hsource]
    exact hpeer
  rw [heq]
  by_cases hij : i = j
  · subst hij
    rw [modUdp_self]
    -- only `recv` and a delivery are left: a free socket has no peer
    cases hchange with
    | create hfree => cases hfree.symm.trans (congrArg Prod.fst hpeer)
    | bind hfd' => exact absurd (validFd_inj hfd hfd') hop
    | connect hfd' => exact absurd (validFd_inj hfd hfd') hop
    | close hfd' => exact absurd (validFd_inj hfd hfd') hop
    | recv => exact hpeer
    | deliver hsome =>
      simp only [UdpControlBlock.peer, Prod.mk.injEq] at hpeer ⊢
      simp only [sourceOf, hsome, if_true]
      exact ⟨hpeer.1, hpeer.2.1, rfl⟩
  · have hsource : sourceOf i s op = none := by
      cases hchange with
      | deliver hsome => simp only [sourceOf, hsome, if_neg (Ne.symm hij)]
      | _ => rfl
    rw [modUdp_of_ne f hij, hsource]
    exact hpeer

lemma run_peer (hfd : validFd maxUdpSockets fd = some i)
    (hpeer : (s.gUdpSockets i).peer = (.connected, ip, port)) {ops : List NetOp}
    (hops : ∀ op ∈ ops, LeavesAlone fd op) (hrun : run (netStep tx) s ops = some s') :
    (s'.gUdpSockets i).peer = (.connected, ip, (lastSource tx i s ops).getD port) := by
  induction ops generalizing s port with
  | nil =>
    cases hrun
    exact hpeer
  | cons op ops ih =>
    obtain ⟨s1, hstep, hrest⟩ := Option.bind_eq_some_iff.mp hrun
    have hpeer1 := netStep_peer hfd hpeer (hops op (by simp)) hstep
    have h := ih hpeer1 (fun o ho => hops o (by simp [ho])) hrest
    rw [h, lastSource, hstep, Option.getD_some]
    cases lastSource tx i s1 ops <;> simp

/-- The last frame is a datagram for the address and the port. -/
def SentTo (s s' : NetState) (ip : Ipv4) (port : BitVec 16) : Prop :=
  ∃ frame, s'.sent = s.sent ++ [frame] ∧ read32 (memOf frame) 30 = ip ∧
    ntohs (read16 (memOf frame) 36) = port

/-- After a connect, what `sys_socket_send` sends goes to the peer if and only
if the last datagram received came from the peer's port. -/
theorem socket_peer_iff {tx : Nat → Bool} {fd : Int} {ip : Ipv4} {port : BitVec 16}
    {s0 s1 s s' : NetState} (hconnect : sysSocketConnect fd ip port s0 = (0, s1)) {ops : List NetOp}
    (hops : ∀ op ∈ ops, LeavesAlone fd op) (hrun : run (netStep tx) s1 ops = some s)
    {data : List Byte} {r : Int} (hsend : sysSocketSend tx fd data s = (r, s')) (hok : 0 ≤ r) :
    SentTo s s' ip port ↔ (lastSource tx fd.toNat s1 ops).getD port = port := by
  obtain ⟨hr, i, mac, hfd, hsent, -⟩ := sysSocketSend_sent hsend (by omega)
  rw [udpBuf_eq _ _ (le_udpSize (hr ▸ hok))] at hsent
  have hi : fd.toNat = i := by
    unfold validFd at hfd
    split at hfd
    · cases hfd
    · exact Option.some.inj hfd
  have hpeer1 : (s1.gUdpSockets i).peer = (.connected, ip, port) := by
    unfold sysSocketConnect at hconnect
    rw [hfd] at hconnect
    simp only at hconnect
    split at hconnect
    · cases hconnect
    · cases hconnect
      rw [modUdp_self]
      rfl
  have hpeer := run_peer hfd hpeer1 hops hrun
  simp only [UdpControlBlock.peer, Prod.mk.injEq] at hpeer
  obtain ⟨-, hip, hport⟩ := hpeer
  have hlayout := udpFrame_layout (starts_memOf (ethFrame mac s.gOurMac ethertypeIpv4
    (ipv4Packet (s.gUdpSockets i).remoteIp ipprotoUdp
      (udpDatagram (s.gUdpSockets i).localPort (s.gUdpSockets i).remotePort
        (data.take (udpSize data - 8))) s)))
  rw [hi, ← hport]
  constructor
  · rintro ⟨frame, hframe, -, hdst⟩
    have heq := List.append_cancel_left (hframe.symm.trans hsent)
    rw [(List.cons.inj heq).1, hlayout.dstPort] at hdst
    exact hdst
  · intro heq
    exact ⟨_, hsent, hlayout.dstIp.trans hip, hlayout.dstPort.trans heq⟩

end

def peerMac : MacAddr := ⟨2, 0, 0, 0, 0, 9⟩
def peerIp : Ipv4 := ipFromBytes 10 0 0 9

def peerFrame (type : BitVec 16) (payload : List Byte) : NetOp :=
  let frame := ethFrame gBroadcastMac peerMac type payload
  .frame (fun _ => 0) (memOf frame) frame.length

/-- The peer announces itself, and a socket gets the port 5000. -/
def bindOps : List NetOp :=
  [peerFrame ethertypeArp (arpPacket arpOpReply peerMac (ipToBytes peerIp) nullMac (ipToBytes 0)),
    .create, .bind 0 5000]

/-- A datagram for the socket from a port of the peer. -/
def peerDatagram (port : BitVec 16) : NetOp :=
  peerFrame ethertypeIpv4 (ipv4Packet 0xFFFFFFFF ipprotoUdp (udpDatagram port 5000 [0]) .boot)

/-- The socket is connected to the peer's port 7 and has got a datagram from
there. -/
theorem socket_peer_answers : ∃ s s', run (netStep fun _ => true) (netStart (fun _ => true) nullMac)
      (bindOps ++ [.connect 0 peerIp 7, peerDatagram 7]) = some s ∧
    (s.gUdpSockets 0).rxPending = true ∧
    sysSocketSend (fun _ => true) 0 [1] s = (1, s') ∧ SentTo s s' peerIp 7 := by
  obtain ⟨s0, hrun0⟩ : ∃ s, run (netStep fun _ => true) (netStart (fun _ => true) nullMac) bindOps =
      some s := run_total (fun s op => by cases op <;> exact ⟨_, rfl⟩) _ _
  obtain ⟨s, hrun⟩ : ∃ s, run (netStep fun _ => true) (sysSocketConnect 0 peerIp 7 s0).2
      [peerDatagram 7] = some s := run_total (fun s op => by cases op <;> exact ⟨_, rfl⟩) _ _
  have hresults : (run (netStep fun _ => true) (netStart (fun _ => true) nullMac) bindOps).map
      (fun s => ((sysSocketConnect 0 peerIp 7 s).1,
        lastSource (fun _ => true) 0 (sysSocketConnect 0 peerIp 7 s).2 [peerDatagram 7])) =
        some (0, some 7) := by decide +kernel
  have hlater : (run (netStep fun _ => true) (netStart (fun _ => true) nullMac)
      (bindOps ++ [.connect 0 peerIp 7, peerDatagram 7])).map (fun s =>
        ((s.gUdpSockets 0).rxPending, (sysSocketSend (fun _ => true) 0 [1] s).1)) =
        some (true, 1) := by decide +kernel
  have hall : run (netStep fun _ => true) (netStart (fun _ => true) nullMac)
      (bindOps ++ [.connect 0 peerIp 7, peerDatagram 7]) = some s := by
    rw [run_append, hrun0]
    exact hrun
  rw [hrun0, Option.map_some, Option.some.injEq, Prod.mk.injEq] at hresults
  rw [hall, Option.map_some, Option.some.injEq, Prod.mk.injEq] at hlater
  have hsend : sysSocketSend (fun _ => true) 0 [1] s = (1, _) := Prod.ext hlater.2 rfl
  refine ⟨s, _, hall, hlater.1, hsend, ?_⟩
  refine (@socket_peer_iff (fun _ => true) 0 peerIp 7 s0 _ _ _ (Prod.ext hresults.1 rfl)
    [peerDatagram 7] (by simp [peerDatagram, peerFrame, LeavesAlone]) hrun [1] 1 hsend
    (by decide)).mpr ?_
  rw [show (0 : Int).toNat = 0 from rfl, hresults.2]
  rfl

/-- A datagram to the port 5000 comes from the port 99, and the next one
sent goes there. -/
theorem datagram_changes_peer : (run (netStep fun _ => true) (netStart (fun _ => true) nullMac)
      (bindOps ++ [.connect 0 peerIp 7,
          peerFrame ethertypeIpv4
          (ipv4Packet 0xFFFFFFFF ipprotoUdp (udpDatagram 99 5000 [0]) .boot), .send 0 [1]])).map
      (fun s => s.sent.getLast?.map fun f => (read32 (memOf f) 30, ntohs (read16 (memOf f) 36))) =
    some (some (peerIp, 99)) := by
  decide +kernel

end VortexOS.Net
