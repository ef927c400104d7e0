/-
VortexOS.Net.Frames — the frames that the stack sends.

A frame is the concatenation of its headers. `UdpLayout` is what a receiver
reads in memory that starts with a UDP frame, at the offsets at which the
source reads it (`udpFrame_layout`). A call of `sys_socket_send` that
succeeds has handed one such frame to `eth_transmit`
(`sysSocketSend_sent`).
-/
import VortexOS.Net.Stack

namespace VortexOS.Net

open Lib

/-! ## Bytes -/

lemma starts_memOf (l : List Byte) : Starts (memOf l) 0 l := by
  intro i b hb
  simp [memOf, hb]

lemma starts_shift {data : Nat → Byte} {o k : Nat} {l : List Byte} :
    Starts (shift data o) k l ↔ Starts data (o + k) l := by
  simp only [Starts, shift, Nat.add_assoc]

lemma ipToBytes_eq (ip : Ipv4) : ipToBytes ip = bytes32 ip := by
  have hswap : ntohl ip = ip.extractLsb' 0 8 ++ ip.extractLsb' 8 8 ++ ip.extractLsb' 16 8 ++
      ip.extractLsb' 24 8 := rfl
  obtain ⟨h0, h1, h2, h3⟩ := extract_append32 (ip.extractLsb' 0 8) (ip.extractLsb' 8 8)
    (ip.extractLsb' 16 8) (ip.extractLsb' 24 8)
  simp only [ipToBytes]
  rw [hswap, h0, h1, h2, h3]
  rfl

lemma readMac_of_starts {data : Nat → Byte} {o : Nat} {mac : MacAddr}
    (h : Starts data o mac.bytes) : readMac data o = mac := by
  simp only [MacAddr.bytes, starts_cons, starts_nil, and_true] at h
  obtain ⟨h0, h1, h2, h3, h4, h5⟩ := h
  rw [readMac, h0, h1, h2, h3, h4, h5]

@[simp] lemma MacAddr.bytes_length (mac : MacAddr) : mac.bytes.length = 6 := rfl

@[simp] lemma ipv4Header_length (ident totalLen cksum : BitVec 16) (protocol : Byte)
    (srcIp dstIp : Ipv4) : (ipv4Header ident totalLen cksum protocol srcIp dstIp).length = 20 := rfl

@[simp] lemma udpDatagram_length (srcPort dstPort : BitVec 16) (payload : List Byte) :
    (udpDatagram srcPort dstPort payload).length = 8 + payload.length := by
  simp [udpDatagram]
  omega

@[simp] lemma udpBuf_length (srcPort dstPort : BitVec 16) (data : List Byte) :
    (udpBuf srcPort dstPort data).length = udpSize data := by
  rw [udpBuf, List.length_take, udpDatagram_length]
  exact Nat.min_eq_left (Nat.mod_le _ _)

/-- Unless the size has wrapped to less than a header, `udp_buf` holds a
datagram. -/
lemma udpBuf_eq (srcPort dstPort : BitVec 16) {data : List Byte} (h : 8 ≤ udpSize data) :
    udpBuf srcPort dstPort data = udpDatagram srcPort dstPort (data.take (udpSize data - 8)) := by
  have hlen : (data.take (udpSize data - 8)).length = udpSize data - 8 := by
    have hle : udpSize data ≤ 8 + data.length := Nat.mod_le _ _
    rw [List.length_take]
    exact Nat.min_eq_left (by omega)
  have hfield : BitVec.ofNat 16 (sizeofUdpHeader + (udpSize data - 8)) =
      BitVec.ofNat 16 (sizeofUdpHeader + data.length) := by
    apply BitVec.eq_of_toNat_eq
    simp only [BitVec.toNat_ofNat, udpSize, sizeofUdpHeader] at h ⊢
    omega
  rw [udpBuf, udpDatagram, udpDatagram, hlen, hfield, List.take_append]
  simp [List.take_of_length_le, h]

/-- A call with a wrapped size returns a negative number. -/
lemma le_udpSize {data : List Byte} (h : 0 ≤ (BitVec.ofNat 32 data.length).toInt) :
    8 ≤ udpSize data := by
  rw [BitVec.toInt_eq_toNat_cond, BitVec.toNat_ofNat] at h
  unfold udpSize sizeofUdpHeader
  split at h <;> omega

@[simp] lemma ipv4Packet_length (dstIp : Ipv4) (protocol : Byte) (payload : List Byte)
    (s : NetState) : (ipv4Packet dstIp protocol payload s).length = 20 + payload.length := by
  simp [ipv4Packet]

@[simp] lemma ethFrame_length (dst src : MacAddr) (type : BitVec 16) (payload : List Byte) :
    (ethFrame dst src type payload).length = 14 + payload.length := by
  simp [ethFrame]
  omega

/-! ## Layout -/

/-- What a receiver reads in a UDP frame. -/
structure UdpLayout (data : Nat → Byte) (dst : MacAddr) (totalLen cksum : BitVec 16) (dstIp : Ipv4)
    (srcPort dstPort : BitVec 16) (header payload : List Byte) : Prop where
  dst : readMac data 0 = dst
  type : ntohs (read16 data 12) = ethertypeIpv4
  verIhl : data 14 = 0x45
  totalLen : ntohs (read16 data 16) = totalLen
  protocol : data 23 = ipprotoUdp
  cksum : read16 data 24 = cksum
  dstIp : read32 data 30 = dstIp
  srcPort : ntohs (read16 data 34) = srcPort
  dstPort : ntohs (read16 data 36) = dstPort
  length : ntohs (read16 data 38) = BitVec.ofNat 16 (8 + payload.length)
  header : Starts data 14 header
  payload : Starts data 42 payload

lemma udpFrame_layout {data : Nat → Byte} {dst src : MacAddr} {ident totalLen cksum : BitVec 16}
    {srcIp dstIp : Ipv4} {srcPort dstPort : BitVec 16} {payload : List Byte}
    (h : Starts data 0 (ethFrame dst src ethertypeIpv4 (ipv4Header ident totalLen cksum ipprotoUdp
      srcIp dstIp ++ udpDatagram srcPort dstPort payload))) :
    UdpLayout data dst totalLen cksum dstIp srcPort dstPort
      (ipv4Header ident totalLen cksum ipprotoUdp srcIp dstIp) payload := by
  simp only [ethFrame, starts_append, List.length_append, MacAddr.bytes_length, bytes16_length,
    ipv4Header_length, Nat.zero_add, Nat.reduceAdd] at h
  obtain ⟨⟨⟨hdst, -⟩, htype⟩, hheader, hudp⟩ := h
  have hip := hheader
  simp only [ipv4Header, starts_append, starts_cons, starts_nil, List.length_append,
    List.length_cons, List.length_nil, bytes16_length, ipToBytes_eq, bytes32_length, Nat.reduceAdd,
      and_true] at hip
  obtain ⟨⟨⟨⟨⟨⟨⟨⟨hver, -⟩, htotal⟩, -⟩, -⟩, -, hproto⟩, hcksum⟩, -⟩, hdstIp⟩ := hip
  simp only [udpDatagram, starts_append, List.length_append, bytes16_length, Nat.reduceAdd] at hudp
  obtain ⟨⟨⟨⟨hsrcPort, hdstPort⟩, hlen⟩, -⟩, hpayload⟩ := hudp
  exact {
    dst := readMac_of_starts hdst
    type := by rw [htype.reads16]; exact swap16_swap16 _
    verIhl := hver
    totalLen := by rw [htotal.reads16]; exact swap16_swap16 _
    protocol := hproto
    cksum := hcksum.reads16
    dstIp := hdstIp.reads32
    srcPort := by rw [hsrcPort.reads16]; exact swap16_swap16 _
    dstPort := by rw [hdstPort.reads16]; exact swap16_swap16 _
    length := by rw [hlen.reads16]; exact swap16_swap16 _
    header := hheader
    payload := hpayload }

/-! ## What a call sends -/

section

variable {tx : Nat → Bool} {s s' : NetState} {payload : List Byte}

lemma ethSend_true {dst : MacAddr} {type : BitVec 16}
    (h : ethSend tx dst type payload s = (true, s')) :
    s'.sent = s.sent ++ [ethFrame dst s.gOurMac type payload] := by
  unfold ethSend ethTransmit at h
  split at h
  · cases h
  · exact (congrArg NetState.sent (Prod.mk.inj h).2).symm

lemma ipv4Send_true {dstIp : Ipv4} {protocol : Byte}
    (h : ipv4Send tx dstIp protocol payload s = (true, s')) : ∃ mac, s'.sent =
      s.sent ++ [ethFrame mac s.gOurMac ethertypeIpv4 (ipv4Packet dstIp protocol payload s)] ∧
    (mac = gBroadcastMac ∨ arpCacheLookup (nextHop dstIp s) s = some mac) := by
  unfold ipv4Send at h
  split at h
  · cases h
  simp only at h
  split at h
  · have hsent := ethSend_true h
    exact ⟨gBroadcastMac, hsent, Or.inl rfl⟩
  · have hhop : nextHop dstIp { s with gIpIdent := s.gIpIdent + 1 } = nextHop dstIp s := rfl
    have hcache : arpCacheLookup (nextHop dstIp s) { s with gIpIdent := s.gIpIdent + 1 } =
        arpCacheLookup (nextHop dstIp s) s := rfl
    rw [arpResolve, hhop, hcache] at h
    cases hlookup : arpCacheLookup (nextHop dstIp s) s with
    | none => simp [hlookup] at h
    | some mac =>
      simp only [hlookup] at h
      have hsent := ethSend_true h
      exact ⟨mac, hsent, Or.inr rfl⟩

def route (dstIp : Ipv4) (s : NetState) : Option MacAddr :=
  if dstIp = 0xFFFFFFFF then some gBroadcastMac else arpCacheLookup (nextHop dstIp s) s

def arpRequestFrame (targetIp : Ipv4) (s : NetState) : List Byte :=
  ethFrame gBroadcastMac s.gOurMac ethertypeArp
    (arpPacket arpOpRequest s.gOurMac (ipToBytes s.gOurIp) nullMac (ipToBytes targetIp))

/-- What `ipv4_send` sends: nothing if the packet is too large for its
buffer, else the packet, or a request for the address of the next hop. -/
def ipv4Frames (dstIp : Ipv4) (protocol : Byte) (payload : List Byte) (s : NetState) :
    List (List Byte) :=
  if payload.length > 1500 then []
  else
    match route dstIp s with
    | some mac => [ethFrame mac s.gOurMac ethertypeIpv4 (ipv4Packet dstIp protocol payload s)]
    | none => [arpRequestFrame (nextHop dstIp s) s]

@[simp] lemma arpPacket_length (oper : BitVec 16) (sha : MacAddr) (spa : List Byte) (tha : MacAddr)
    (tpa : List Byte) : (arpPacket oper sha spa tha tpa).length = 20 + spa.length + tpa.length := by
  simp [arpPacket]
  omega

@[simp] lemma ipToBytes_length (ip : Ipv4) : (ipToBytes ip).length = 4 := rfl

lemma ethSend_sent (dst : MacAddr) (type : BitVec 16) (hsize : payload.length ≤ 1564)
    (s : NetState) :
    (ethSend tx dst type payload s).2.sent = s.sent ++ [ethFrame dst s.gOurMac type payload] := by
  have hbuf : ¬ sizeofEthHeader + payload.length > sizeofEthBuf := by
    unfold sizeofEthHeader sizeofEthBuf
    omega
  rw [ethSend, if_neg hbuf, ethTransmit]

lemma ipv4Send_sent (dstIp : Ipv4) (protocol : Byte) (payload : List Byte) (s : NetState) :
    (ipv4Send tx dstIp protocol payload s).2.sent =
      s.sent ++ ipv4Frames dstIp protocol payload s := by
  have hbuf : sizeofIpv4Header + payload.length > sizeofIpBuf ↔ payload.length > 1500 := by
    unfold sizeofIpBuf
    omega
  unfold ipv4Send ipv4Frames
  by_cases hsize : payload.length > 1500
  · rw [if_pos hsize, if_pos (hbuf.mpr hsize), List.append_nil]
  · rw [if_neg hsize, if_neg (mt hbuf.mp hsize)]
    have hpacket : (ipv4Packet dstIp protocol payload s).length ≤ 1564 := by
      rw [ipv4Packet_length]
      omega
    have hhop : nextHop dstIp { s with gIpIdent := s.gIpIdent + 1 } = nextHop dstIp s := rfl
    have hcache : arpCacheLookup (nextHop dstIp s) { s with gIpIdent := s.gIpIdent + 1 } =
        arpCacheLookup (nextHop dstIp s) s := rfl
    unfold route
    by_cases hbroadcast : dstIp = 0xFFFFFFFF
    · simp only [if_pos hbroadcast, ethSend_sent _ _ hpacket]
    · simp only [if_neg hbroadcast, arpResolve, hhop, hcache]
      cases arpCacheLookup (nextHop dstIp s) s with
      | some mac => simp only [ethSend_sent _ _ hpacket]
      | none =>
        have hrequest : (arpPacket arpOpRequest s.gOurMac (ipToBytes s.gOurIp) nullMac
            (ipToBytes (nextHop dstIp s))).length ≤ 1564 := by simp
        simp only [arpSendRequest, ethSend_sent _ _ hrequest, arpRequestFrame]

lemma sysSocketSend_sent {fd r : Int} {data : List Byte} (h : sysSocketSend tx fd data s = (r, s'))
    (hok : r ≠ -1) : r = (BitVec.ofNat 32 data.length).toInt ∧
    ∃ i mac, validFd maxUdpSockets fd = some i ∧
      s'.sent = s.sent ++ [ethFrame mac s.gOurMac ethertypeIpv4
        (ipv4Packet (s.gUdpSockets i).remoteIp ipprotoUdp
          (udpBuf (s.gUdpSockets i).localPort (s.gUdpSockets i).remotePort data) s)] ∧
      (mac = gBroadcastMac ∨
        arpCacheLookup (nextHop (s.gUdpSockets i).remoteIp s) s = some mac) := by
  unfold sysSocketSend at h
  split at h
  · cases h
    exact absurd rfl hok
  · rename_i i hfd
    simp only at h
    split at h
    · cases h
      exact absurd rfl hok
    split at h
    · cases h
      exact absurd rfl hok
    split at h
    · cases h
      exact absurd rfl hok
    · rename_i s1 hsend
      cases h
      obtain ⟨mac, hsent, hmac⟩ := ipv4Send_true hsend
      exact ⟨rfl, i, mac, hfd, hsent, hmac⟩

end

end VortexOS.Net
