/-
VortexOS.Net.DhcpTheorems — the DHCP client.

`dhcpDispatch_cases` says all that a message can do: nothing, an OFFER in
`WAITING_OFFER`, an ACK in `REQUESTING`, or a NAK in any state.

Neither an OFFER nor an ACK is compared with what the client asked for
(`dhcp_binding_iff`, `ack_not_compared`). A NAK changes the state and nothing
else, so that a client that was bound keeps its address
(`dhcp_unbound_iff`). Nothing calls `dhcp_dispatch`, and the client waits
for an offer for ever (`dhcp_never_completes`).
-/
import VortexOS.Net.Receive

namespace VortexOS.Net

open Lib

/-! ## Messages -/

namespace DhcpMsg

variable (m : DhcpMsg)

def xid : BitVec 32 := ntohl (read32 m.data 4)
def yiaddr : Ipv4 := read32 m.data 16
def msgType : Byte := (dhcpOptions m.data m.len).1
def serverId : Ipv4 := (dhcpOptions m.data m.len).2

/-- The message is long enough and has the magic cookie. -/
def IsDhcp : Prop := sizeofDhcpPacket ≤ m.len ∧ ntohl (read32 m.data 236) = dhcpMagicCookie

def IsReply : Prop := m.IsDhcp ∧ m.data 0 = 2

def IsOffer : Prop := m.IsReply ∧ m.msgType = dhcpOffer
def IsAck : Prop := m.IsReply ∧ m.msgType = dhcpAck
def IsNak : Prop := m.IsDhcp ∧ m.msgType = dhcpNak

end DhcpMsg

section

variable (tx : Nat → Bool) {s s' : NetState} {m : DhcpMsg}

/-- The client after an OFFER, before it sends its request. -/
def NetState.offered (s : NetState) (m : DhcpMsg) : NetState :=
  { s with gDhcpServerIp := m.serverId, gDhcpOfferedIp := m.yiaddr, gDhcpState := .requesting }

/-- The client after an ACK. -/
def NetState.acked (s : NetState) (m : DhcpMsg) : NetState :=
  { s with
    gOurIp := m.yiaddr
    gSubnetMask := ipFromBytes 255 255 255 0
    gGatewayIp := ipFromBytes 192 168 1 1
    gDhcpState := .bound
    gNetReady := true }

lemma dhcpHandleOffer_eq (hdhcp : m.IsDhcp) (hoffer : m.msgType = dhcpOffer) (s : NetState) :
    dhcpHandleOffer tx m.data m.len s =
      if m.data 0 = 2 then dhcpSendRequest tx m.serverId m.yiaddr (s.offered m) else s := by
  have htype : (dhcpOptions m.data m.len).1 = dhcpOffer := hoffer
  unfold dhcpHandleOffer
  rw [if_neg (Nat.not_lt.mpr hdhcp.1), if_neg (not_not.mpr hdhcp.2)]
  by_cases hop : m.data 0 = 2
  · rw [if_neg (not_not.mpr hop), if_pos hop]
    simp [htype, dhcpOffer, NetState.offered, DhcpMsg.serverId, DhcpMsg.yiaddr]
  · rw [if_pos hop, if_neg hop]

lemma dhcpHandleAck_eq (hdhcp : m.IsDhcp) (hack : m.msgType = dhcpAck) (s : NetState) :
    dhcpHandleAck m.data m.len s = if m.data 0 = 2 then s.acked m else s := by
  have htype : (dhcpOptions m.data m.len).1 = dhcpAck := hack
  unfold dhcpHandleAck
  rw [if_neg (Nat.not_lt.mpr hdhcp.1), if_neg (not_not.mpr hdhcp.2)]
  by_cases hop : m.data 0 = 2
  · rw [if_neg (not_not.mpr hop), if_pos hop]
    simp [htype, dhcpAck, NetState.acked, DhcpMsg.yiaddr]
  · rw [if_pos hop, if_neg hop]

lemma dhcpDispatch_eq (hdhcp : m.IsDhcp) (s : NetState) : dhcpDispatch tx m.data m.len s =
      if m.msgType = dhcpOffer then if s.gDhcpState = .waitingOffer then
      dhcpHandleOffer tx m.data m.len s else s else if m.msgType = dhcpAck then
      if s.gDhcpState = .requesting then dhcpHandleAck m.data m.len s else s
      else if m.msgType = dhcpNak then { s with gDhcpState := .idle } else s := by
  unfold dhcpDispatch
  rw [if_neg (Nat.not_lt.mpr hdhcp.1), if_neg (not_not.mpr hdhcp.2)]
  unfold DhcpMsg.msgType
  cases dhcpOptions m.data m.len
  rfl

lemma dhcpDispatch_other (hdhcp : ¬ m.IsDhcp) (s : NetState) :
    dhcpDispatch tx m.data m.len s = s := by
  unfold dhcpDispatch
  by_cases hlen : m.len < sizeofDhcpPacket
  · rw [if_pos hlen]
  · rw [if_neg hlen, if_pos fun hmagic => hdhcp ⟨Nat.not_lt.mp hlen, hmagic⟩]

/-- The client has no use for the message. -/
def NetState.Ignores (s : NetState) (m : DhcpMsg) : Prop :=
  ¬ m.IsNak ∧ (s.gDhcpState = .waitingOffer → ¬ m.IsOffer) ∧
    (s.gDhcpState = .requesting → ¬ m.IsAck)

lemma dhcpDispatch_cases (m : DhcpMsg) (s : NetState) :
    (dhcpDispatch tx m.data m.len s = s ∧ s.Ignores m) ∨
    (s.gDhcpState = .waitingOffer ∧ m.IsOffer ∧
      OnlySent (s.offered m) (dhcpDispatch tx m.data m.len s)) ∨
    (s.gDhcpState = .requesting ∧ m.IsAck ∧ dhcpDispatch tx m.data m.len s = s.acked m) ∨
    (m.IsNak ∧ dhcpDispatch tx m.data m.len s = { s with gDhcpState := .idle }) := by
  by_cases hdhcp : m.IsDhcp
  swap
  · exact Or.inl ⟨dhcpDispatch_other tx hdhcp s, fun h => hdhcp h.1, fun _ h => hdhcp h.1.1,
      fun _ h => hdhcp h.1.1⟩
  rw [dhcpDispatch_eq tx hdhcp]
  by_cases hoffer : m.msgType = dhcpOffer
  · have hnak : ¬ m.IsNak := fun h => absurd (hoffer.symm.trans h.2) (by decide)
    have hack : ¬ m.IsAck := fun h => absurd (hoffer.symm.trans h.2) (by decide)
    rw [if_pos hoffer]
    by_cases hstate : s.gDhcpState = .waitingOffer
    · rw [if_pos hstate, dhcpHandleOffer_eq tx hdhcp hoffer]
      by_cases hop : m.data 0 = 2
      · rw [if_pos hop]
        exact Or.inr (Or.inl ⟨hstate, ⟨⟨hdhcp, hop⟩, hoffer⟩, ipv4Send_onlySent tx _ _ _ _⟩)
      · rw [if_neg hop]
        exact Or.inl ⟨rfl, hnak, fun _ h => hop h.1.2, fun _ => hack⟩
    · rw [if_neg hstate]
      exact Or.inl ⟨rfl, hnak, fun h => absurd h hstate, fun _ => hack⟩
  rw [if_neg hoffer]
  by_cases hack : m.msgType = dhcpAck
  · have hnak : ¬ m.IsNak := fun h => absurd (hack.symm.trans h.2) (by decide)
    rw [if_pos hack]
    by_cases hstate : s.gDhcpState = .requesting
    · rw [if_pos hstate, dhcpHandleAck_eq hdhcp hack]
      by_cases hop : m.data 0 = 2
      · rw [if_pos hop]
        exact Or.inr (Or.inr (Or.inl ⟨hstate, ⟨⟨hdhcp, hop⟩, hack⟩, rfl⟩))
      · rw [if_neg hop]
        exact Or.inl ⟨rfl, hnak, fun _ h => hoffer h.2, fun _ h => hop h.1.2⟩
    · rw [if_neg hstate]
      exact Or.inl ⟨rfl, hnak, fun _ h => hoffer h.2, fun h => absurd h hstate⟩
  rw [if_neg hack]
  by_cases hnak : m.msgType = dhcpNak
  · rw [if_pos hnak]
    exact Or.inr (Or.inr (Or.inr ⟨⟨hdhcp, hnak⟩, rfl⟩))
  · rw [if_neg hnak]
    exact Or.inl ⟨rfl, fun h => hnak h.2, fun _ h => hoffer h.2, fun _ h => hack h.2⟩

end

/-! ## `net_init` -/

section

variable (tx : Nat → Bool)

lemma netStart_eq (mac : MacAddr) : (netStart tx mac).gDhcpState = .waitingOffer ∧
    (netStart tx mac).gNetReady = false ∧ (netStart tx mac).gOurIp = 0 := by
  obtain ⟨ident, frames, heq⟩ : OnlySent _ (netStart tx mac) := ipv4Send_onlySent tx _ _ _ _
  rw [heq]
  exact ⟨rfl, rfl, rfl⟩

/-- The transaction id is the last four bytes of the hardware address. -/
lemma netStart_xid (mac : MacAddr) :
    (netStart tx mac).gDhcpXid = mac.a2 ++ mac.a3 ++ mac.a4 ++ mac.a5 := by
  obtain ⟨ident, frames, heq⟩ : OnlySent _ (netStart tx mac) := ipv4Send_onlySent tx _ _ _ _
  rw [heq]

end

/-! ## An address without a binding -/

section

variable (tx : Nat → Bool)

def Unconfigured (s : NetState) : Prop := s.gNetReady = false ∧ s.gOurIp = 0

/-- The message is not a NAK for a client that is bound. -/
def KeepsBinding (s : NetState) (m : DhcpMsg) : Prop := ¬ (s.gDhcpState = .bound ∧ m.IsNak)

/-- The states of a client up to its first NAK. -/
def Unspoiled (s : NetState) : Prop :=
  (s.gDhcpState = .bound ∧ s.gNetReady = true) ∨ (s.gDhcpState ≠ .bound ∧ Unconfigured s)

def Spoiled (s : NetState) : Prop := s.gDhcpState = .idle ∧ s.gNetReady = true

variable {s s' : NetState} {m : DhcpMsg}

lemma dhcpStep_unspoiled (h : Unspoiled s) (hstep : dhcpStep tx s m = some s') :
    (KeepsBinding s m ∧ Unspoiled s') ∨ (¬ KeepsBinding s m ∧ Spoiled s') := by
  cases hstep
  obtain ⟨heq, hnak, -⟩ | ⟨hstate, hoffer, ident, frames, heq⟩ | ⟨hstate, hack, heq⟩ | ⟨hnak,
    heq⟩ :=
    dhcpDispatch_cases tx m s
  · rw [heq]
    exact Or.inl ⟨fun hk => hnak hk.2, h⟩
  · have hne : s.gDhcpState ≠ .bound := by simp [hstate]
    obtain ⟨hbound, -⟩ | ⟨-, hun⟩ := h
    · exact absurd hbound hne
    · rw [heq]
      exact Or.inl ⟨fun hk => hne hk.1, Or.inr ⟨by simp [NetState.offered], hun⟩⟩
  · have hne : s.gDhcpState ≠ .bound := by simp [hstate]
    rw [heq]
    exact Or.inl ⟨fun hk => hne hk.1, Or.inl ⟨rfl, rfl⟩⟩
  · rw [heq]
    obtain ⟨hbound, hready⟩ | ⟨hne, hun⟩ := h
    · exact Or.inr ⟨not_not.mpr ⟨hbound, hnak⟩, rfl, hready⟩
    · exact Or.inl ⟨fun hk => hne hk.1, Or.inr ⟨by simp, hun⟩⟩

/-- There is no way out of `IDLE`. -/
lemma dhcpStep_spoiled (h : Spoiled s) (hstep : dhcpStep tx s m = some s') : Spoiled s' := by
  cases hstep
  obtain ⟨heq, -⟩ | ⟨hstate, -⟩ | ⟨hstate, -⟩ | ⟨-, heq⟩ := dhcpDispatch_cases tx m s
  · rwa [heq]
  · rw [h.1] at hstate
    cases hstate
  · rw [h.1] at hstate
    cases hstate
  · rw [heq]
    exact ⟨rfl, h.2⟩

lemma run_unspoiled (h : Unspoiled s) {ms : List DhcpMsg}
    (hrun : run (dhcpStep tx) s ms = some s') :
    (Along (dhcpStep tx) KeepsBinding s ms ∧ Unspoiled s') ∨
    (¬ Along (dhcpStep tx) KeepsBinding s ms ∧ Spoiled s') := by
  induction ms generalizing s with
  | nil =>
    cases hrun
    exact Or.inl ⟨trivial, h⟩
  | cons m ms ih =>
    obtain ⟨s1, hstep, hrest⟩ := Option.bind_eq_some_iff.mp hrun
    have hnext : ∀ s2, dhcpStep tx s m = some s2 → s2 = s1 := fun s2 h2 =>
      Option.mem_unique h2 hstep
    obtain ⟨hkeep, h1⟩ | ⟨hbreak, h1⟩ := dhcpStep_unspoiled tx h hstep
    · obtain ⟨halong, h'⟩ | ⟨halong, h'⟩ := ih h1 hrest
      · exact Or.inl ⟨⟨hkeep, fun s2 h2 => (hnext s2 h2).symm ▸ halong⟩, h'⟩
      · exact Or.inr ⟨fun hall => halong (hall.2 s1 hstep), h'⟩
    · exact Or.inr ⟨fun hall => hbreak hall.1, run_keeps Spoiled
        (fun _ _ _ hs hst => dhcpStep_spoiled tx hs hst) h1 hrest⟩

/-- A client that is not bound has no address, in every state of every run
in which no NAK has arrived at a client that was bound, and in no other
state. -/
theorem dhcp_unbound_iff (tx : Nat → Bool) (mac : MacAddr) (ms : List DhcpMsg) :
    ∃ s, run (dhcpStep tx) (netStart tx mac) ms = some s ∧
    ((s.gDhcpState ≠ .bound → Unconfigured s) ↔
        Along (dhcpStep tx) KeepsBinding (netStart tx mac) ms) := by
  obtain ⟨hstate, hready, hip⟩ := netStart_eq tx mac
  obtain ⟨s, hrun⟩ : ∃ s, run (dhcpStep tx) (netStart tx mac) ms = some s :=
    run_total (fun _ _ => ⟨_, rfl⟩) ms _
  refine ⟨s, hrun, ?_⟩
  obtain ⟨halong, h⟩ | ⟨halong, h⟩ :=
    run_unspoiled tx (Or.inr ⟨by simp [hstate], hready, hip⟩) hrun
  · simp only [halong, iff_true]
    intro hne
    obtain ⟨hbound, -⟩ | ⟨-, hun⟩ := h
    · exact absurd hbound hne
    · exact hun
  · simp only [halong, iff_false]
    intro hall
    have hne : s.gDhcpState ≠ .bound := by simp [h.1]
    exact absurd (h.2.symm.trans (hall hne).1) (by decide)

end

/-! ## Replies of a server -/

def dhcpReply (xid : BitVec 32) (yiaddr : Ipv4) (options : List Byte) : List Byte :=
  [2, 1, 6, 0] ++ bytes32 (htonl xid) ++ List.replicate 8 0 ++ bytes32 yiaddr ++
    List.replicate 216 0 ++ bytes32 (htonl dhcpMagicCookie) ++ options

def replyOptions (type : Byte) (serverId : Ipv4) : List Byte :=
  [dhcpOptMsgType, 1, type, dhcpOptServerId, 4] ++ bytes32 serverId ++ [dhcpOptEnd]

def replyMsg (xid : BitVec 32) (yiaddr : Ipv4) (type : Byte) (serverId : Ipv4) : DhcpMsg :=
  ⟨memOf (dhcpReply xid yiaddr (replyOptions type serverId)),
    (dhcpReply xid yiaddr (replyOptions type serverId)).length⟩

def exampleMac : MacAddr := ⟨2, 0, 0, 0, 0, 1⟩
def exampleServer : Ipv4 := ipFromBytes 10 0 0 1
def exampleIp : Ipv4 := ipFromBytes 10 0 0 5

/-- OFFER, ACK and NAK: the client goes back to `IDLE` and keeps its
address. -/
theorem nak_keeps_address : (run (dhcpStep fun _ => true) (netStart (fun _ => true) exampleMac)
    [replyMsg 1 exampleIp dhcpOffer exampleServer, replyMsg 1 exampleIp dhcpAck exampleServer,
      replyMsg 1 0 dhcpNak exampleServer]).map
    (fun s => (s.gDhcpState, s.gNetReady, s.gOurIp)) = some (.idle, true, exampleIp) := by
  set_option maxRecDepth 8000 in decide

/-! ## What the client is bound to -/

section

variable (tx : Nat → Bool) {mac : MacAddr} {s s' : NetState} {m o a : DhcpMsg} {ms : List DhcpMsg}

/-- The client accepts the offer `o`, which is one of the messages `ms`. -/
def AcceptedOffer (mac : MacAddr) (ms : List DhcpMsg) (o : DhcpMsg) : Prop :=
  ∃ before after s1, ms = before ++ o :: after ∧
    run (dhcpStep tx) (netStart tx mac) before = some s1 ∧ s1.gDhcpState = .waitingOffer ∧ o.IsOffer

/-- `o` is the first OFFER, and no NAK and no ACK behind it has come. -/
def Requested (ms : List DhcpMsg) (o : DhcpMsg) : Prop :=
  ∃ pre mid, ms = pre ++ o :: mid ∧ (∀ m ∈ pre, ¬ m.IsOffer ∧ ¬ m.IsNak) ∧ o.IsOffer ∧
    ∀ m ∈ mid, ¬ m.IsAck ∧ ¬ m.IsNak

/-- `a` is the first ACK behind the first OFFER, which is `o`, and no NAK
has come before it. -/
def Handshake (ms : List DhcpMsg) (o a : DhcpMsg) : Prop :=
  ∃ before after, ms = before ++ a :: after ∧ Requested before o ∧ a.IsAck

lemma dhcpDispatch_ignored (h : s.Ignores m) : dhcpDispatch tx m.data m.len s = s := by
  obtain ⟨heq, -⟩ | ⟨hstate, hoffer, -⟩ | ⟨hstate, hack, -⟩ | ⟨hnak, -⟩ := dhcpDispatch_cases tx m s
  · exact heq
  · exact absurd hoffer (h.2.1 hstate)
  · exact absurd hack (h.2.2 hstate)
  · exact absurd hnak h.1

lemma run_ignored (h : ∀ m ∈ ms, s.Ignores m) : run (dhcpStep tx) s ms = some s := by
  induction ms with
  | nil => rfl
  | cons m ms ih =>
    have hstep : dhcpStep tx s m = some s :=
      congrArg some (dhcpDispatch_ignored tx (h m (by simp)))
    rw [run, hstep]
    exact ih fun m' hm' => h m' (by simp [hm'])

lemma run_xid (hrun : run (dhcpStep tx) (netStart tx mac) ms = some s) :
    s.gDhcpXid = (netStart tx mac).gDhcpXid := by
  refine run_keeps (fun s => s.gDhcpXid = (netStart tx mac).gDhcpXid) ?_ rfl hrun
  intro s m s' hs hstep
  cases hstep
  obtain ⟨heq, -⟩ | ⟨-, -, ident, frames, heq⟩ | ⟨-, -, heq⟩ | ⟨-, heq⟩ := dhcpDispatch_cases tx m s
  all_goals
    rw [heq]
    exact hs

lemma run_waiting (h : ∀ m ∈ ms, ¬ m.IsOffer ∧ ¬ m.IsNak) :
    run (dhcpStep tx) (netStart tx mac) ms = some (netStart tx mac) := by
  refine run_ignored tx fun m hm => ⟨(h m hm).2, fun _ => (h m hm).1, fun hstate => ?_⟩
  rw [(netStart_eq tx mac).1] at hstate
  cases hstate

lemma Requested.run (h : Requested ms o) (mac) :
    ∃ s, Lib.run (dhcpStep tx) (netStart tx mac) ms = some s ∧ s.gDhcpState = .requesting := by
  obtain ⟨pre, mid, rfl, hpre, hoffer, hmid⟩ := h
  have hwait := (netStart_eq tx mac).1
  obtain ⟨heq, hno⟩ | ⟨-, -, ident, frames, heq⟩ | ⟨hstate, -⟩ | ⟨hnak, -⟩ :=
    dhcpDispatch_cases tx o (netStart tx mac)
  · exact absurd hoffer (hno.2.1 hwait)
  · have hreq : (dhcpDispatch tx o.data o.len (netStart tx mac)).gDhcpState = .requesting := by
      rw [heq]
      rfl
    refine ⟨_, ?_, hreq⟩
    rw [run_append, run_waiting tx hpre, Option.bind_some, run, dhcpStep, Option.bind_some]
    refine run_ignored tx fun m hm => ⟨(hmid m hm).2, fun hstate => ?_, fun _ => (hmid m hm).1⟩
    rw [hreq] at hstate
    cases hstate
  · rw [hwait] at hstate
    cases hstate
  · exact absurd (hoffer.2.symm.trans hnak.2) (by decide)

lemma Requested.acceptedOffer (h : Requested ms o) : AcceptedOffer tx mac ms o := by
  obtain ⟨pre, mid, rfl, hpre, hoffer, -⟩ := h
  exact ⟨pre, mid, _, rfl, run_waiting tx hpre, (netStart_eq tx mac).1, hoffer⟩

/-- The client accepts one offer. -/
lemma Requested.eq_of_accepted (h : Requested ms o) (h' : AcceptedOffer tx mac ms m) : m = o := by
  obtain ⟨pre, mid, rfl, hpre, hoffer, hmid⟩ := h
  obtain ⟨before, after, s1, heq, hrun, hstate, hm⟩ := h'
  obtain ⟨rest, rfl, hrest⟩ | ⟨rest, rfl, hrest⟩ := List.append_eq_append_iff.mp heq
  · cases rest with
    | nil => exact (List.cons.inj hrest).1.symm
    | cons o' rest =>
      -- `o` is one of the messages before `m`, so that the client has made its request
      obtain ⟨rfl, rfl⟩ := List.cons.inj hrest
      obtain ⟨s2, hrun2, hstate2⟩ := Requested.run tx
        ⟨pre, rest, rfl, hpre, hoffer, fun x hx => hmid x (by simp [hx])⟩ mac
      rw [Option.mem_unique hrun hrun2, hstate2] at hstate
      cases hstate
  · cases rest with
    | nil => exact (List.cons.inj hrest).1
    | cons m' rest =>
      obtain ⟨rfl, -⟩ := List.cons.inj hrest
      exact absurd hm (hpre _ (by simp)).1

/-- A client that waits or requests has seen no other messages than these. -/
lemma run_seen (hrun : run (dhcpStep tx) (netStart tx mac) ms = some s) :
    (s.gDhcpState = .waitingOffer → ∀ m ∈ ms, ¬ m.IsOffer ∧ ¬ m.IsNak) ∧
    (s.gDhcpState = .requesting → ∃ o, Requested ms o) := by
  induction ms using List.reverseRecOn generalizing s with
  | nil =>
    have hs : netStart tx mac = s := Option.some.inj hrun
    rw [← hs, (netStart_eq tx mac).1]
    exact ⟨by simp, nofun⟩
  | append_singleton ms m ih =>
    obtain ⟨s1, hrun1, hstep⟩ := run_concat hrun
    obtain ⟨hwait, hreq⟩ := ih hrun1
    cases hstep
    obtain ⟨heq, hnak, hoffer, hack⟩ | ⟨hs1, hoffer, ident, frames, heq⟩ | ⟨-, -, heq⟩ | ⟨-, heq⟩ :=
      dhcpDispatch_cases tx m s1
    · rw [heq]
      refine ⟨fun hstate x hx => ?_, fun hstate => ?_⟩
      · obtain hx | hx := List.mem_append.mp hx
        · exact hwait hstate x hx
        · exact List.mem_singleton.mp hx ▸ ⟨hoffer hstate, hnak⟩
      · obtain ⟨o, pre, mid, rfl, hpre, ho, hmid⟩ := hreq hstate
        refine ⟨o, pre, mid ++ [m], by simp, hpre, ho, fun x hx => ?_⟩
        obtain hx | hx := List.mem_append.mp hx
        · exact hmid x hx
        · exact List.mem_singleton.mp hx ▸ ⟨hack hstate, hnak⟩
    · rw [heq]
      exact ⟨nofun, fun _ => ⟨m, ms, [], rfl, hwait hs1, hoffer, by simp⟩⟩
    · rw [heq]
      exact ⟨nofun, nofun⟩
    · rw [heq]
      exact ⟨nofun, nofun⟩

/-- If `m` makes the client bound, the client had accepted an OFFER of the
address, and `m` is an ACK of it by the same server. -/
def BindsOnlyOffered (mac : MacAddr) (before : List DhcpMsg) (m : DhcpMsg) : Prop :=
  ∀ s s', run (dhcpStep tx) (netStart tx mac) before = some s → dhcpStep tx s m = some s' →
    s.gDhcpState ≠ .bound → s'.gDhcpState = .bound →
    ∃ o, AcceptedOffer tx mac before o ∧ o.xid = s.gDhcpXid ∧ o.yiaddr = s'.gOurIp ∧
      m.IsAck ∧ m.xid = s.gDhcpXid ∧ m.yiaddr = s'.gOurIp ∧ m.serverId = o.serverId

/-- Whenever the client becomes bound, it has accepted an OFFER of the
address, and the ACK is from the same server: so exactly if the first OFFER
and the first ACK behind it, with no NAK before, have the client's id, one
address and one server. -/
theorem dhcp_binding_iff (tx : Nat → Bool) (mac : MacAddr) (ms : List DhcpMsg) :
    (∀ before m after, ms = before ++ m :: after → BindsOnlyOffered tx mac before m) ↔
      ∀ o a, Handshake ms o a →
        o.xid = mac.a2 ++ mac.a3 ++ mac.a4 ++ mac.a5 ∧ a.xid = o.xid ∧
          a.yiaddr = o.yiaddr ∧ a.serverId = o.serverId := by
  constructor
  · rintro hbind o a ⟨before, after, hms, hreq, hack⟩
    obtain ⟨s, hrun, hstate⟩ := hreq.run tx mac
    obtain ⟨-, -, -, hno⟩ | ⟨hwait, -⟩ | ⟨-, -, heq⟩ | ⟨hnak, -⟩ := dhcpDispatch_cases tx a s
    · exact absurd hack (hno hstate)
    · rw [hstate] at hwait
      cases hwait
    · obtain ⟨o', ho', hxid, hip, -, haxid, haip, hserver⟩ :=
        hbind before a after hms s _ hrun (congrArg some heq) (by simp [hstate]) rfl
      obtain rfl := hreq.eq_of_accepted tx ho'
      rw [run_xid tx hrun, netStart_xid] at hxid
      rw [run_xid tx hrun, netStart_xid, ← hxid] at haxid
      exact ⟨hxid, haxid, haip.trans hip.symm, hserver⟩
    · exact absurd (hack.2.symm.trans hnak.2) (by decide)
  · rintro hmatch before m after hms s s' hrun hstep hbefore hafter
    cases hstep
    obtain ⟨heq, -⟩ | ⟨-, -, ident, frames, heq⟩ | ⟨hstate, hack, heq⟩ | ⟨-, heq⟩ :=
      dhcpDispatch_cases tx m s
    · rw [heq] at hafter
      exact absurd hafter hbefore
    · rw [heq] at hafter
      cases hafter
    · obtain ⟨o, hreq⟩ := (run_seen tx hrun).2 hstate
      obtain ⟨hxid, hmxid, hip, hserver⟩ := hmatch o m ⟨before, after, hms, hreq, hack⟩
      rw [heq, run_xid tx hrun, netStart_xid]
      exact ⟨o, hreq.acceptedOffer tx, hxid, hip.symm, hack, hmxid.trans hxid, rfl, hserver⟩
    · rw [heq] at hafter
      cases hafter

/-- Replies with foreign ids: the client asks one server for one address,
and is bound to another one by another server. -/
theorem ack_not_compared : (run (dhcpStep fun _ => true) (netStart (fun _ => true) exampleMac)
      [replyMsg 7 exampleIp dhcpOffer exampleServer,
        replyMsg 9 (ipFromBytes 10 0 0 66) dhcpAck (ipFromBytes 10 0 0 2)]).map
      (fun s => (s.gDhcpState, s.gDhcpXid, s.gDhcpOfferedIp, s.gDhcpServerIp, s.gOurIp)) =
    some (.bound, 1, exampleIp, exampleServer, ipFromBytes 10 0 0 66) := by
  set_option maxRecDepth 8000 in decide

end

/-! ## Frames -/

section

variable (tx : Nat → Bool)

/-- No frame gets to the client. -/
lemma netReceive_dhcp (stack data : Nat → Byte) (length : Nat) (s : NetState) :
    (netReceive tx stack data length s).gDhcpState = s.gDhcpState ∧
    (netReceive tx stack data length s).gNetReady = s.gNetReady ∧
    (netReceive tx stack data length s).gOurIp = s.gOurIp := by
  obtain ⟨-, ident, frames, cache, next, tcp, heq⟩ | ⟨i, datagram, -, heq⟩ :=
    netReceive_cases tx stack data length s
  · rw [heq]
    exact ⟨rfl, rfl, rfl⟩
  · rw [heq]
    exact ⟨rfl, rfl, rfl⟩

/-- The frame is handed to `udp_handle_packet`. -/
def IsUdpFrame (stack data : Nat → Byte) (length : Nat) (s : NetState) : Prop :=
  ∃ p, ipv4Call stack data length s = some p ∧ p.protocol = ipprotoUdp

lemma netReceive_sent {stack data : Nat → Byte} {length : Nat} {s : NetState}
    (h : IsUdpFrame stack data length s) : (netReceive tx stack data length s).sent = s.sent := by
  obtain ⟨p, hcall, hudp⟩ := h
  obtain ⟨hnone, -⟩ | ⟨p', hcall', ⟨hproto, -⟩ | ⟨-, heq⟩ | ⟨hproto, -⟩⟩ :=
    netReceive_eq tx stack data length s
  · cases hcall.symm.trans hnone
  · cases hcall.symm.trans hcall'
    exact absurd (hudp.symm.trans hproto) (by decide)
  · rw [heq, udpHandlePacket]
    split
    · rfl
    · split <;> rfl
  · cases hcall.symm.trans hcall'
    exact absurd (hudp.symm.trans hproto) (by decide)

/-- Whatever the two frames are, the client waits for an offer afterwards and
has no address. If they are datagrams, it has sent nothing. -/
theorem dhcp_never_completes (tx : Nat → Bool) (mac : MacAddr)
    (stack1 offer stack2 ack : Nat → Byte)
    (n1 n2 : Nat) : let s := netStart tx mac
    let s1 := netReceive tx stack1 offer n1 s
    let s2 := netReceive tx stack2 ack n2 s1
    s2.gDhcpState = .waitingOffer ∧ s2.gNetReady = false ∧ s2.gOurIp = 0 ∧
      (IsUdpFrame stack1 offer n1 s → IsUdpFrame stack2 ack n2 s1 → s2.sent = s.sent) := by
  intro s s1 s2
  obtain ⟨hstate, hready, hip⟩ := netStart_eq tx mac
  obtain ⟨hstate1, hready1, hip1⟩ := netReceive_dhcp tx stack1 offer n1 s
  obtain ⟨hstate2, hready2, hip2⟩ := netReceive_dhcp tx stack2 ack n2 s1
  refine ⟨hstate2.trans (hstate1.trans hstate), hready2.trans (hready1.trans hready),
    hip2.trans (hip1.trans hip), fun hoffer hack => ?_⟩
  exact (netReceive_sent tx hack).trans (netReceive_sent tx hoffer)

/-- A reply as a server broadcasts it. -/
def replyFrame (xid : BitVec 32) (yiaddr : Ipv4) (type : Byte) (serverId : Ipv4) : List Byte :=
  ethFrame gBroadcastMac nullMac ethertypeIpv4
    (ipv4Packet 0xFFFFFFFF ipprotoUdp
      (udpDatagram dhcpServerPort dhcpClientPort
        (dhcpReply xid yiaddr (replyOptions type serverId)))
      { NetState.boot with gOurIp := serverId })

/-- The OFFER is accepted as a datagram, and `dhcp_dispatch` would take its
payload; but the client does not see it. -/
theorem offer_not_dispatched : let s := netStart (fun _ => true) exampleMac
    let offer := replyFrame 1 exampleIp dhcpOffer exampleServer
    let ack := replyFrame 1 exampleIp dhcpAck exampleServer
    let s1 := netReceive (fun _ => true) (fun _ => 0) (memOf offer) offer.length s
    let s2 := netReceive (fun _ => true) (fun _ => 0) (memOf ack) ack.length s1
    (ipv4Call (fun _ => 0) (memOf offer) offer.length s).map (fun p => (p.protocol, p.headerLen)) =
        some (ipprotoUdp, 20) ∧
      (dhcpDispatch (fun _ => true) (shift (memOf offer) 42) (offer.length - 42) s).gDhcpState =
        .requesting ∧
      s2.gDhcpState = .waitingOffer ∧ s2.gNetReady = false ∧ s2.sent.length = s.sent.length := by
  set_option maxRecDepth 8000 in decide

end

end VortexOS.Net
