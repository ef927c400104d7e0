/-
VortexOS.Net.Receive — what a received frame can do.

`ipv4Call` is the call of a handler that a frame leads to, and
`netReceive_eq` splits `net_receive` at it. All that a frame changes, apart
from the ARP cache, the TCP table and what is sent, is the UDP socket that a
datagram is delivered to (`netReceive_cases`).

The handlers get the bytes between the header and the total length
(`ipv4_demux_iff`), and the length wraps around if the header is longer
(`short_total_length_accepted`).
-/
import VortexOS.Net.Stack

namespace VortexOS.Net

open Lib

/-! ## What sending changes -/

/-- Frames were sent, and numbers for them used up. -/
def OnlySent (s s' : NetState) :
    Prop := ∃ ident frames, s' = { s with gIpIdent := ident, sent := s.sent ++ frames }

/-- Nothing changed but the ARP cache, the TCP table and what was sent. -/
def Quiet (s s' : NetState) : Prop :=
  ∃ ident frames cache next tcp, s' = { s with
    gIpIdent := ident
    sent := frames
    gArpCache := cache
    gArpCacheNext := next
    gTcpSockets := tcp }

section

variable (tx : Nat → Bool) {s s' s'' : NetState}

lemma OnlySent.refl (s : NetState) : OnlySent s s := ⟨s.gIpIdent, [], by simp⟩

lemma OnlySent.trans (h : OnlySent s s') (h' : OnlySent s' s'') : OnlySent s s'' := by
  obtain ⟨ident, frames, rfl⟩ := h
  obtain ⟨ident', frames', rfl⟩ := h'
  exact ⟨ident', frames ++ frames', by simp⟩

lemma onlySent_ident (s : NetState) (ident : BitVec 16) : OnlySent s { s with gIpIdent := ident } :=
  ⟨ident, [], by simp⟩

lemma OnlySent.quiet (h : OnlySent s s') : Quiet s s' := by
  obtain ⟨ident, frames, rfl⟩ := h
  exact ⟨ident, _, s.gArpCache, s.gArpCacheNext, s.gTcpSockets, rfl⟩

lemma Quiet.refl (s : NetState) : Quiet s s := (OnlySent.refl s).quiet

lemma Quiet.trans (h : Quiet s s') (h' : Quiet s' s'') : Quiet s s'' := by
  obtain ⟨_, _, _, _, _, rfl⟩ := h
  obtain ⟨ident, frames, cache, next, tcp, rfl⟩ := h'
  exact ⟨ident, frames, cache, next, tcp, rfl⟩

lemma ethSend_onlySent (dst : MacAddr) (type : BitVec 16) (payload : List Byte) (s : NetState) :
    OnlySent s (ethSend tx dst type payload s).2 := by
  unfold ethSend ethTransmit
  split
  · exact .refl s
  · exact ⟨s.gIpIdent, _, rfl⟩

lemma arpResolve_onlySent (ip : Ipv4) (s : NetState) : OnlySent s (arpResolve tx ip s).2 := by
  unfold arpResolve
  split
  · exact .refl s
  · exact ethSend_onlySent tx _ _ _ _

lemma ipv4Send_onlySent (dstIp : Ipv4) (protocol : Byte) (payload : List Byte) (s : NetState) :
    OnlySent s (ipv4Send tx dstIp protocol payload s).2 := by
  unfold ipv4Send
  split
  · exact .refl s
  · have hident := onlySent_ident s (s.gIpIdent + 1)
    have hresolve := arpResolve_onlySent tx (nextHop dstIp { s with gIpIdent := s.gIpIdent + 1 })
      { s with gIpIdent := s.gIpIdent + 1 }
    simp only
    split
    · exact hident.trans (ethSend_onlySent tx _ _ _ _)
    · split
      · rename_i s1 heq
        rw [heq] at hresolve
        exact hident.trans hresolve
      · rename_i mac s1 heq
        rw [heq] at hresolve
        exact (hident.trans hresolve).trans (ethSend_onlySent tx _ _ _ _)

lemma icmpHandleEcho_onlySent (data : Nat → Byte) (len : Nat) (srcIp : Ipv4) (s : NetState) :
    OnlySent s (icmpHandleEcho tx data len srcIp s) := by
  unfold icmpHandleEcho
  split
  · exact .refl s
  · split
    · exact .refl s
    · exact ipv4Send_onlySent tx _ _ _ _

lemma arpCacheInsert_quiet (ip : Ipv4) (mac : MacAddr) (s : NetState) :
    Quiet s (arpCacheInsert ip mac s) := by
  unfold arpCacheInsert
  split
  · exact ⟨_, _, _, _, _, rfl⟩
  · exact ⟨_, _, _, _, _, rfl⟩

lemma OnlySent.gTcpSockets (h : OnlySent s s') : s'.gTcpSockets = s.gTcpSockets := by
  obtain ⟨ident, frames, rfl⟩ := h
  rfl

lemma arpCacheInsert_gTcpSockets (ip : Ipv4) (mac : MacAddr) (s : NetState) :
    (arpCacheInsert ip mac s).gTcpSockets = s.gTcpSockets := by
  unfold arpCacheInsert
  split
  · rfl
  · rfl

lemma arpHandlePacket_quiet (data : Nat → Byte) (len : Nat) (s : NetState) :
    Quiet s (arpHandlePacket tx data len s) ∧
    (arpHandlePacket tx data len s).gTcpSockets = s.gTcpSockets := by
  unfold arpHandlePacket
  split
  · exact ⟨.refl s, rfl⟩
  · split
    · exact ⟨.refl s, rfl⟩
    · simp only
      split
      · have hsend := ethSend_onlySent tx (readMac data 8) ethertypeArp
        exact ⟨(arpCacheInsert_quiet _ _ s).trans (hsend _ _).quiet,
          (hsend _ _).gTcpSockets.trans (arpCacheInsert_gTcpSockets _ _ s)⟩
      · exact ⟨arpCacheInsert_quiet _ _ s, arpCacheInsert_gTcpSockets _ _ s⟩

lemma tcpHandlePacket_quiet (data : Nat → Byte) (len : Nat) (s : NetState) :
    Quiet s (tcpHandlePacket data len s) := by
  have hmod : ∀ (s : NetState) i f, Quiet s (s.modTcp i f) := fun s i f => ⟨_, _, _, _, _, rfl⟩
  have hfind : Quiet s (tcpFindOrAllocSocket (ntohs (read16 data 2)) s).2 := by
    unfold tcpFindOrAllocSocket
    split
    · exact .refl s
    · split
      · exact .refl s
      · exact hmod s _ fun tcb => { tcb with state := .closed, localPort := ntohs (read16 data 2) }
  unfold tcpHandlePacket
  split
  · exact .refl s
  · simp only
    split
    · rename_i s1 heq
      rw [heq] at hfind
      exact hfind
    · rename_i i s1 heq
      rw [heq] at hfind
      exact hfind.trans (hmod s1 _ _)

end

/-! ## The call of a handler -/

/-- The call that `ipv4_handle_packet` makes for a frame. -/
def ipv4Call (stack data : Nat → Byte) (length : Nat) (s : NetState) : Option Ipv4Payload :=
  if length < sizeofEthHeader then none
  else if !(readMac data 0).isBroadcast && readMac data 0 ≠ s.gOurMac then none
  else if ntohs (read16 data 12) = ethertypeArp then none
  else if ntohs (read16 data 12) = ethertypeIpv4 then
    (ipv4Accept stack (shift data sizeofEthHeader) (length - sizeofEthHeader) s).filter fun p =>
      p.protocol = ipprotoIcmp ∨ p.protocol = ipprotoUdp ∨ p.protocol = ipprotoTcp
  else none

section

variable (tx : Nat → Bool) {s : NetState} {stack data : Nat → Byte} {length : Nat} {p : Ipv4Payload}

/-- A frame is for a handler of an IPv4 payload, or it changes no UDP
socket. -/
lemma netReceive_eq (stack data : Nat → Byte) (length : Nat) (s : NetState) :
    ipv4Call stack data length s = none ∧ (Quiet s (netReceive tx stack data length s) ∧
      (netReceive tx stack data length s).gTcpSockets = s.gTcpSockets) ∨
    ∃ p, ipv4Call stack data length s = some p ∧
    (p.protocol = ipprotoIcmp ∧ netReceive tx stack data length s =
      icmpHandleEcho tx (shift (shift data sizeofEthHeader) p.headerLen) p.payloadLen p.srcIp s ∨
      p.protocol = ipprotoUdp ∧ netReceive tx stack data length s =
      udpHandlePacket (shift (shift data sizeofEthHeader) p.headerLen) p.payloadLen s ∨
      p.protocol = ipprotoTcp ∧ netReceive tx stack data length s =
      tcpHandlePacket (shift (shift data sizeofEthHeader) p.headerLen) p.payloadLen s) := by
  unfold netReceive ipv4Call
  by_cases hlen : length < sizeofEthHeader
  · simp only [hlen, if_true]
    exact Or.inl ⟨trivial, .refl s, trivial⟩
  simp only [hlen, if_false]
  by_cases hdst : (!(readMac data 0).isBroadcast && decide (readMac data 0 ≠ s.gOurMac)) = true
  · simp only [hdst, if_true]
    exact Or.inl ⟨trivial, .refl s, trivial⟩
  simp only [hdst]
  by_cases harp : ntohs (read16 data 12) = ethertypeArp
  · simp only [harp, if_true]
    exact Or.inl ⟨rfl, arpHandlePacket_quiet tx _ _ s⟩
  simp only [harp, if_false]
  by_cases hip : ntohs (read16 data 12) = ethertypeIpv4
  · simp only [hip, if_true, ipv4HandlePacket]
    cases haccept : ipv4Accept stack (shift data sizeofEthHeader) (length - sizeofEthHeader) s with
    | none => exact Or.inl ⟨rfl, .refl s, rfl⟩
    | some p =>
      by_cases hicmp : p.protocol = ipprotoIcmp
      · exact Or.inr ⟨p, by simp [hicmp], Or.inl ⟨hicmp, by simp [hicmp]⟩⟩
      · by_cases hudp : p.protocol = ipprotoUdp
        · exact Or.inr ⟨p, by simp [hudp], Or.inr (Or.inl ⟨hudp,
            by simp [hudp, ipprotoUdp, ipprotoIcmp]⟩)⟩
        · by_cases htcp : p.protocol = ipprotoTcp
          · exact Or.inr ⟨p, by simp [htcp],
              Or.inr (Or.inr ⟨htcp, by simp [htcp, ipprotoUdp, ipprotoIcmp, ipprotoTcp]⟩)⟩
          · simp only [hicmp, hudp, htcp, if_false]
            exact Or.inl ⟨by simp [hicmp, hudp, htcp], .refl s, rfl⟩
  · simp only [hip, if_false]
    exact Or.inl ⟨rfl, .refl s, rfl⟩

/-- The socket that a frame is delivered to, and the datagram. -/
def delivery (stack data : Nat → Byte) (length : Nat) (s : NetState) :
    Option (Nat × (Nat → Byte)) :=
  (ipv4Call stack data length s).bind fun p =>
    let datagram := shift (shift data sizeofEthHeader) p.headerLen
    if p.protocol = ipprotoUdp ∧ sizeofUdpHeader ≤ p.payloadLen then
      (udpFindSocket (ntohs (read16 datagram 2)) s).map fun i => (i, datagram)
    else none

lemma netReceive_cases (stack data : Nat → Byte) (length : Nat) (s : NetState) :
    delivery stack data length s = none ∧ Quiet s (netReceive tx stack data length s) ∨
    ∃ i datagram, delivery stack data length s = some (i, datagram) ∧
    netReceive tx stack data length s = s.modUdp i (udpDeliver datagram) := by
  obtain ⟨hcall, hquiet⟩ | ⟨p, hcall, ⟨hproto, heq⟩ | ⟨hproto, heq⟩ | ⟨hproto, heq⟩⟩ :=
    netReceive_eq tx stack data length s
  · exact Or.inl ⟨by simp [delivery, hcall], hquiet.1⟩
  · refine Or.inl ⟨by simp [delivery, hcall, hproto, ipprotoIcmp, ipprotoUdp], ?_⟩
    rw [heq]
    exact (icmpHandleEcho_onlySent tx _ _ _ s).quiet
  · rw [heq, udpHandlePacket]
    simp only [delivery, hcall, hproto, Option.bind_some, true_and]
    by_cases hshort : p.payloadLen < sizeofUdpHeader
    · rw [if_pos hshort, if_neg (Nat.not_le.mpr hshort)]
      exact Or.inl ⟨rfl, .refl s⟩
    · rw [if_neg hshort, if_pos (Nat.not_lt.mp hshort)]
      split
      · rename_i hfind
        exact Or.inl ⟨by rw [hfind]; rfl, .refl s⟩
      · rename_i i hfind
        exact Or.inr ⟨i, _, by rw [hfind]; rfl, rfl⟩
  · refine Or.inl ⟨by simp [delivery, hcall, hproto, ipprotoTcp, ipprotoUdp], ?_⟩
    rw [heq]
    exact tcpHandlePacket_quiet _ _ s

/-! ## The payload is inside of the frame -/

def headerLength (data : Nat → Byte) : Nat := (data sizeofEthHeader &&& 0x0F).toNat * 4
def totalLength (data : Nat → Byte) : Nat := (ntohs (read16 (shift data sizeofEthHeader) 2)).toNat

/-- The payload is what the packet has from its header up to its total
length, and inside of the frame. -/
structure Inside (data : Nat → Byte) (length : Nat) (p : Ipv4Payload) : Prop where
  start : p.headerLen = headerLength data
  stop : p.headerLen + p.payloadLen = totalLength data
  bound : sizeofEthHeader + p.headerLen + p.payloadLen ≤ length

def LengthsAgree (data : Nat → Byte) (length : Nat) : Prop :=
  headerLength data ≤ totalLength data ∧ totalLength data ≤ length - sizeofEthHeader

/-- The checks that are made for a frame before a handler is called. -/
structure Checked (stack data : Nat → Byte) (length : Nat) (s : NetState) : Prop where
  size : sizeofEthHeader + sizeofIpv4Header ≤ length
  mac : (readMac data 0).isBroadcast = true ∨ readMac data 0 = s.gOurMac
  type : ntohs (read16 data 12) = ethertypeIpv4
  cksum : ipChecksum (hdrCopy stack (shift data sizeofEthHeader)) (headerLength data) =
    read16 (shift data sizeofEthHeader) 10
  header : sizeofIpv4Header ≤ headerLength data
  total : totalLength data ≤ length - sizeofEthHeader
  dstIp : read32 (shift data sizeofEthHeader) 16 = s.gOurIp ∨
    read32 (shift data sizeofEthHeader) 16 = 0xFFFFFFFF ∨
    read32 (shift data sizeofEthHeader) 16 = (s.gOurIp ||| ~~~ s.gSubnetMask)
  protocol : shift data sizeofEthHeader 9 = ipprotoIcmp ∨
    shift data sizeofEthHeader 9 = ipprotoUdp ∨
    shift data sizeofEthHeader 9 = ipprotoTcp

def payloadOf (data : Nat → Byte) : Ipv4Payload :=
  ⟨shift data sizeofEthHeader 9, read32 (shift data sizeofEthHeader) 12, headerLength data,
    subSize (totalLength data) (headerLength data)⟩

lemma ipv4Call_of_checked (h : Checked stack data length s) :
    ipv4Call stack data length s = some (payloadOf data) := by
  have hlen : ¬ length < sizeofEthHeader := by
    have := h.size
    omega
  have hmac : ¬ (!(readMac data 0).isBroadcast && decide (readMac data 0 ≠ s.gOurMac)) = true := by
    obtain hb | ho := h.mac
    · simp [hb]
    · simp [ho]
  have haccept : ipv4Accept stack (shift data sizeofEthHeader) (length - sizeofEthHeader) s =
      some (payloadOf data) := by
    have hsize : ¬ length - sizeofEthHeader < sizeofIpv4Header := by
      have := h.size
      omega
    have hdst : ¬ (read32 (shift data sizeofEthHeader) 16 ≠ s.gOurIp ∧
        read32 (shift data sizeofEthHeader) 16 ≠ 0xFFFFFFFF ∧
        read32 (shift data sizeofEthHeader) 16 ≠ (s.gOurIp ||| ~~~ s.gSubnetMask)) := by
      rintro ⟨hne, hne', hne''⟩
      exact h.dstIp.elim hne fun h => h.elim hne' hne''
    have hheader : (shift data sizeofEthHeader 0 &&& 0x0F).toNat * 4 = headerLength data := rfl
    have htotal : (ntohs (read16 (shift data sizeofEthHeader) 2)).toNat = totalLength data := rfl
    unfold ipv4Accept
    rw [if_neg hsize, hheader, htotal]
    simp only
    rw [if_neg (not_not.mpr h.cksum), if_neg (Nat.not_lt.mpr h.header),
      if_neg (Nat.not_lt.mpr h.total), if_neg hdst]
    rfl
  have hproto : (payloadOf data).protocol = ipprotoIcmp ∨ (payloadOf data).protocol = ipprotoUdp ∨
      (payloadOf data).protocol = ipprotoTcp := h.protocol
  unfold ipv4Call
  rw [if_neg hlen, if_neg hmac, h.type, if_neg (by decide), if_pos rfl, haccept, Option.filter_some,
    if_pos (decide_eq_true hproto)]

lemma checked_of_ipv4Call (h : ipv4Call stack data length s = some p) :
    Checked stack data length s := by
  unfold ipv4Call at h
  split at h
  · cases h
  rename_i hlen
  split at h
  · cases h
  rename_i hmac
  split at h
  · cases h
  split at h
  swap
  · cases h
  rename_i htype
  obtain ⟨haccept, hproto⟩ := Option.filter_eq_some_iff.mp h
  unfold ipv4Accept at haccept
  simp only at haccept
  split at haccept
  · cases haccept
  rename_i hsize
  split at haccept
  · cases haccept
  rename_i hcksum
  split at haccept
  · cases haccept
  rename_i hheader
  split at haccept
  · cases haccept
  rename_i htotal
  split at haccept
  · cases haccept
  rename_i hdst
  cases haccept
  exact {
    size := by omega
    mac := by simpa [or_iff_not_imp_left] using hmac
    type := htype
    cksum := not_not.mp hcksum
    header := Nat.not_lt.mp hheader
    total := Nat.not_lt.mp htotal
    dstIp := by simpa only [not_and_or, not_not] using hdst
    protocol := by simpa using hproto }

/-- A handler is called if and only if the checks pass, and then for the
payload of the packet. -/
lemma ipv4Call_eq_some_iff :
    ipv4Call stack data length s = some p ↔ Checked stack data length s ∧ p = payloadOf data := by
  constructor
  · intro h
    have hchecked := checked_of_ipv4Call h
    exact ⟨hchecked, Option.some.inj (h.symm.trans (ipv4Call_of_checked hchecked))⟩
  · rintro ⟨hchecked, rfl⟩
    exact ipv4Call_of_checked hchecked

lemma inside_payloadOf (h : Checked stack data length s)
    (hle : headerLength data ≤ totalLength data) : Inside data length (payloadOf data) := by
  have htotal : totalLength data < 2 ^ 16 := (ntohs (read16 (shift data sizeofEthHeader) 2)).isLt
  have hsub : (payloadOf data).payloadLen = totalLength data - headerLength data :=
    subSize_of_le hle (Nat.lt_of_lt_of_le htotal (by decide))
  have hheader : (payloadOf data).headerLen = headerLength data := rfl
  have hsize := h.size
  have hbound := h.total
  exact ⟨hheader, by omega, by omega⟩

/-- The handlers get the payload, and packets whose lengths do not agree are
dropped, if and only if a frame that passes the checks has no header longer
than its packet. -/
theorem ipv4_demux_iff (stack data : Nat → Byte) (length : Nat) (s : NetState) :
    (∀ p, ipv4Call stack data length s = some p → Inside data length p ∧ LengthsAgree data length) ↔
      (Checked stack data length s → headerLength data ≤ totalLength data) := by
  constructor
  · intro hall hchecked
    exact (hall _ (ipv4Call_of_checked hchecked)).2.1
  · intro hle p hcall
    obtain ⟨hchecked, rfl⟩ := ipv4Call_eq_some_iff.mp hcall
    exact ⟨inside_payloadOf hchecked (hle hchecked), hle hchecked, hchecked.total⟩

/-- A broadcast UDP packet whose total length is zero. -/
def shortPacket : List Byte :=
  gBroadcastMac.bytes ++ nullMac.bytes ++ [0x08, 0x00] ++
    [0x45, 0, 0, 0, 0, 0, 0x40, 0, 64, 17, 0x3A, 0xEE, 0, 0, 0, 0, 0xFF, 0xFF, 0xFF, 0xFF]

/-- The frame has 34 bytes, and the handler is called for almost all of
memory. -/
theorem short_total_length_accepted : shortPacket.length = 34 ∧
    ipv4Call (fun _ => 0) (memOf shortPacket) shortPacket.length
      (netStart (fun _ => true) nullMac) =
      some ⟨ipprotoUdp, 0, 20, 2 ^ 64 - 20⟩ := by
  decide +kernel

end

end VortexOS.Net
