/-
VortexOS.Net.UdpRoundTrip — what one host sends, another one receives.

The sender builds a UDP header, an IPv4 header with its checksum and an
Ethernet header around the payload. The receiver reads the fields back
(`udpFrame_layout`), computes the same checksum from the same bytes
(`hdrCopy_eq`), and so delivers the payload to the socket with the
destination port (`udp_roundtrip`).
-/
import VortexOS.Net.SocketTheorems

namespace VortexOS.Net

open Function Lib

/-! ## The checksum -/

lemma ipChecksum_congr {data data' : Nat → Byte} {len : Nat} (h : ∀ i < len, data i = data' i) :
    ipChecksum data len = ipChecksum data' len := by
  have hsum : sumWords data (len / 2) = sumWords data' (len / 2) := by
    refine List.foldl_ext _ _ 0 fun sum i hi => ?_
    have hlt : i < len / 2 := List.mem_range.mp hi
    simp only [read16]
    rw [h (2 * i) (by omega), h (2 * i + 1) (by omega)]
  unfold ipChecksum
  rw [hsum]
  by_cases hodd : len % 2 = 1
  · rw [h (len - 1) (by omega)]
  · simp only [hodd, if_false]

/-- The copy of a header, with the checksum set to zero, has the bytes over
which the sender computed it. -/
lemma hdrCopy_eq {stack data : Nat → Byte} {ident totalLen cksum : BitVec 16} {protocol : Byte}
    {srcIp dstIp : Ipv4} (h : Starts data 0 (ipv4Header ident totalLen cksum protocol srcIp dstIp))
    {i : Nat} (hi : i < 20) :
    hdrCopy stack data i = memOf (ipv4Header ident totalLen 0 protocol srcIp dstIp) i := by
  unfold hdrCopy
  by_cases hcksum : i = 10 ∨ i = 11
  · rw [if_pos hcksum]
    obtain rfl | rfl := hcksum <;> rfl
  · rw [if_neg hcksum, if_pos (show i < sizeofIpv4Header from hi)]
    have hsame : (ipv4Header ident totalLen cksum protocol srcIp dstIp)[i]? =
        (ipv4Header ident totalLen 0 protocol srcIp dstIp)[i]? := by
      interval_cases i <;> first | rfl | exact absurd (by decide) hcksum
    have hlen : i < (ipv4Header ident totalLen 0 protocol srcIp dstIp).length := hi
    have hget := List.getElem?_eq_getElem hlen
    have hdata := h i _ (hsame.trans hget)
    rw [Nat.zero_add] at hdata
    rw [hdata, memOf, List.getD_eq_getElem?_getD, hget, Option.getD_some]

/-! ## The receiver -/

section

variable {stack data : Nat → Byte} {dst : MacAddr} {ident totalLen cksum : BitVec 16}
    {srcIp dstIp : Ipv4}
  {srcPort dstPort : BitVec 16} {payload : List Byte} {b : NetState}

lemma checked_udp (h : UdpLayout data dst totalLen cksum dstIp srcPort dstPort
      (ipv4Header ident totalLen cksum ipprotoUdp srcIp dstIp) payload)
    (htotal : totalLen = BitVec.ofNat 16 (28 + payload.length))
    (hcksum : cksum = ipChecksum (memOf (ipv4Header ident totalLen 0 ipprotoUdp srcIp dstIp)) 20)
    (hsize : payload.length ≤ 1492) (hmac : dst = gBroadcastMac ∨ dst = b.gOurMac)
    (hdst : dstIp = b.gOurIp) : Checked stack data (42 + payload.length) b ∧
    payloadOf data = ⟨ipprotoUdp, read32 data 26, 20, 8 + payload.length⟩ := by
  have hheader : headerLength data = 20 := by
    rw [headerLength, show data sizeofEthHeader = 0x45 from h.verIhl]
    rfl
  have hread : totalLength data = 28 + payload.length := by
    rw [totalLength, show ntohs (read16 (shift data sizeofEthHeader) 2) = totalLen from h.totalLen,
      htotal, BitVec.toNat_ofNat]
    omega
  constructor
  · exact {
      size := by simp only [sizeofEthHeader, sizeofIpv4Header]; omega
      mac := by
        rw [h.dst]
        obtain rfl | rfl := hmac
        · exact Or.inl rfl
        · exact Or.inr rfl
      type := h.type
      cksum := by
        rw [hheader, show read16 (shift data sizeofEthHeader) 10 = cksum from h.cksum, hcksum]
        exact ipChecksum_congr fun i hi => hdrCopy_eq (starts_shift.mpr h.header) hi
      header := hheader.ge
      total := by simp only [hread, sizeofEthHeader]; omega
      dstIp := Or.inl (h.dstIp.trans hdst)
      protocol := Or.inr (Or.inl h.protocol) }
  · have hsub : subSize (28 + payload.length) 20 = 8 + payload.length := by
      rw [subSize_of_le (by omega) (by omega)]
      omega
    rw [payloadOf, hheader, hread, hsub,
      show shift data sizeofEthHeader 9 = ipprotoUdp from h.protocol]
    rfl

lemma udpFindSocket_eq {j : Nat} {port : BitVec 16} (hj : j < maxUdpSockets)
    (hopen : (b.gUdpSockets j).state ≠ .free) (hport : (b.gUdpSockets j).localPort = port)
    (hone : ∀ k < maxUdpSockets, (b.gUdpSockets k).state ≠ .free →
      (b.gUdpSockets k).localPort = port → k = j) : udpFindSocket port b = some j := by
  unfold udpFindSocket
  cases hfind : (List.range maxUdpSockets).find? fun i =>
      (b.gUdpSockets i).state ≠ .free && (b.gUdpSockets i).localPort == port with
  | none =>
    have hall := List.find?_eq_none.mp hfind j (List.mem_range.mpr hj)
    simp [hopen, hport] at hall
  | some k =>
    have hk := List.find?_some hfind
    simp only [Bool.and_eq_true, decide_eq_true_eq, beq_iff_eq] at hk
    rw [hone k (List.mem_range.mp (List.mem_of_find?_eq_some hfind)) hk.1 hk.2]

lemma udpDeliver_eq {header : List Byte}
    (h : UdpLayout data dst totalLen cksum dstIp srcPort dstPort header payload)
    (hsize : payload.length ≤ 1492) (sock : UdpControlBlock) :
    (udpDeliver (shift (shift data 14) 20) sock).rxPending = true ∧
    (udpDeliver (shift (shift data 14) 20) sock).rxLen = payload.length ∧
    slice (udpDeliver (shift (shift data 14) 20) sock).rxData payload.length = payload := by
  have hlen : (ntohs (read16 (shift (shift data 14) 20) 4)).toNat = 8 + payload.length := by
    rw [show read16 (shift (shift data 14) 20) 4 = read16 data 38 from rfl, h.length,
      BitVec.toNat_ofNat]
    omega
  have hsub : subSize (8 + payload.length) sizeofUdpHeader = payload.length := by
    rw [sizeofUdpHeader, subSize_of_le (Nat.le_add_right 8 _) (by omega), Nat.add_sub_cancel_left]
  have hroom : ¬ payload.length > sizeofRxData := by
    unfold sizeofRxData
    omega
  simp only [udpDeliver, hlen, hsub, if_neg hroom, true_and]
  refine List.ext_getElem? fun i => ?_
  rw [slice, List.getElem?_map]
  by_cases hi : i < payload.length
  · have hdata := h.payload i _ (List.getElem?_eq_getElem hi)
    rw [List.getElem?_range hi, Option.map_some, if_pos hi, List.getElem?_eq_getElem hi]
    rw [← hdata]
    simp only [shift, sizeofUdpHeader, ← Nat.add_assoc]
  · rw [List.getElem?_eq_none (by simpa using hi), List.getElem?_eq_none (by simpa using hi)]
    rfl

lemma delivery_udp {j : Nat} (h : UdpLayout data dst totalLen cksum dstIp srcPort dstPort
      (ipv4Header ident totalLen cksum ipprotoUdp srcIp dstIp) payload)
    (htotal : totalLen = BitVec.ofNat 16 (28 + payload.length))
    (hcksum : cksum = ipChecksum (memOf (ipv4Header ident totalLen 0 ipprotoUdp srcIp dstIp)) 20)
    (hsize : payload.length ≤ 1492) (hmac : dst = gBroadcastMac ∨ dst = b.gOurMac)
    (hdst : dstIp = b.gOurIp) (hfind : udpFindSocket dstPort b = some j) :
    delivery stack data (42 + payload.length) b = some (j, shift (shift data 14) 20) := by
  obtain ⟨hchecked, hpayload⟩ :=
    @checked_udp stack data dst ident totalLen cksum srcIp dstIp srcPort dstPort
    payload b h htotal hcksum hsize hmac hdst
  have hudp : sizeofUdpHeader ≤ 8 + payload.length := Nat.le_add_right 8 _
  rw [delivery, ipv4Call_of_checked hchecked, hpayload]
  simp only [Option.bind_some, hudp, and_self, if_true]
  rw [show ntohs (read16 (shift (shift data sizeofEthHeader) 20) 2) = dstPort from h.dstPort, hfind]
  rfl

end

/-! ## Round trip -/

/-- The payload of a datagram that host `a` sends to host `b` arrives in the
socket of `b` that is bound to its port, and nowhere else. -/
theorem udp_roundtrip {tx tx' : Nat → Bool} {a a' b : NetState} {fd r : Int} {payload : List Byte}
    {i j : Nat}
    (hsize : payload.length ≤ 1492) (hfd : validFd maxUdpSockets fd = some i)
    (hip : (a.gUdpSockets i).remoteIp = b.gOurIp)
    (harp : arpCacheLookup b.gOurIp a = some b.gOurMac)
    (hsubnet : ntohl b.gOurIp &&& ntohl a.gSubnetMask = ntohl a.gOurIp &&& ntohl a.gSubnetMask)
    (hj : j < maxUdpSockets) (hopen : (b.gUdpSockets j).state ≠ .free)
    (hport : (b.gUdpSockets j).localPort = (a.gUdpSockets i).remotePort)
    (hone : ∀ k < maxUdpSockets, (b.gUdpSockets k).state ≠ .free →
      (b.gUdpSockets k).localPort = (a.gUdpSockets i).remotePort → k = j)
    (hsend : sysSocketSend tx fd payload a = (r, a')) (hok : r ≠ -1) :
    ∃ frame, a'.sent = a.sent ++ [frame] ∧ ∀ stack data, Starts data 0 frame →
      let b' := netReceive tx' stack data frame.length b
    (b'.gUdpSockets j).rxPending = true ∧ (b'.gUdpSockets j).rxLen = payload.length ∧
      slice (b'.gUdpSockets j).rxData payload.length = payload ∧
      (∀ k, k ≠ j → b'.gUdpSockets k = b.gUdpSockets k) ∧ b'.gTcpSockets = b.gTcpSockets := by
  obtain ⟨-, i', mac, hfd', hsent, hmac⟩ := sysSocketSend_sent hsend hok
  cases hfd.symm.trans hfd'
  have hudp : udpSize payload = 8 + payload.length :=
    Nat.mod_eq_of_lt (by unfold sizeofUdpHeader; omega)
  rw [udpBuf_eq _ _ (by omega), hudp, Nat.add_sub_cancel_left, List.take_length] at hsent
  rw [hip] at hsent hmac
  have hhop : nextHop b.gOurIp a = b.gOurIp := by
    unfold nextHop
    rw [if_neg fun hne => hne.1 hsubnet]
  rw [hhop, harp, Option.some.injEq] at hmac
  refine ⟨_, hsent, fun stack data hdata => ?_⟩
  have hlayout := udpFrame_layout hdata
  have htotal : BitVec.ofNat 16 (sizeofIpv4Header +
      (udpDatagram (a.gUdpSockets i).localPort (a.gUdpSockets i).remotePort payload).length) =
      BitVec.ofNat 16 (28 + payload.length) := by
    rw [udpDatagram_length, sizeofIpv4Header, ← Nat.add_assoc]
  have hdelivery := @delivery_udp stack data _ _ _ _ _ _ _ _ _ b j hlayout htotal rfl hsize
    (hmac.imp_right Eq.symm) rfl (udpFindSocket_eq hj hopen hport hone)
  have hlen : (ethFrame mac a.gOurMac ethertypeIpv4 (ipv4Packet b.gOurIp ipprotoUdp
      (udpDatagram (a.gUdpSockets i).localPort (a.gUdpSockets i).remotePort payload) a)).length =
      42 + payload.length := by
    rw [ethFrame_length, ipv4Packet_length, udpDatagram_length]
    omega
  simp only [hlen]
  obtain ⟨hnone, -⟩ | ⟨j', datagram, hsome, heq⟩ :=
    netReceive_cases tx' stack data (42 + payload.length) b
  · rw [hdelivery] at hnone
    cases hnone
  · rw [hdelivery, Option.some.injEq, Prod.mk.injEq] at hsome
    obtain ⟨rfl, rfl⟩ := hsome
    obtain ⟨hpending, hrxLen, hrxData⟩ := udpDeliver_eq hlayout hsize (b.gUdpSockets j)
    rw [heq, modUdp_self]
    exact ⟨hpending, hrxLen, hrxData, fun k hk => modUdp_of_ne _ hk, rfl⟩

/-- The host 10.0.0.1 with a socket that is connected to the peer's port 7. -/
def senderHost : NetState :=
  { NetState.boot with
    gOurMac := ⟨2, 0, 0, 0, 0, 1⟩
    gOurIp := ipFromBytes 10 0 0 1
    gSubnetMask := ipFromBytes 255 255 255 0
    gArpCache := update NetState.boot.gArpCache 0 ⟨peerIp, peerMac, true⟩
    gUdpSockets := update NetState.boot.gUdpSockets 0
      ⟨.connected, 5000, peerIp, 7, fun _ => 0, 0, false⟩ }

/-- The peer, with a socket on port 7. -/
def receiverHost : NetState :=
  { NetState.boot with
    gOurMac := peerMac
    gOurIp := peerIp
    gUdpSockets := update NetState.boot.gUdpSockets 3 ⟨.bound, 7, 0, 0, fun _ => 0, 0, false⟩ }

theorem udp_roundtrip_three : ∃ frame,
    (sysSocketSend (fun _ => true) 0 [1, 2, 3] senderHost).2.sent = [frame] ∧
      slice ((netReceive (fun _ => true) (fun _ => 0) (memOf frame) frame.length
        receiverHost).gUdpSockets 3).rxData 3 = [1, 2, 3] := by
  have hsend : sysSocketSend (fun _ => true) 0 [1, 2, 3] senderHost =
      (3, (sysSocketSend (fun _ => true) 0 [1, 2, 3] senderHost).2) := Prod.ext (by decide) rfl
  obtain ⟨frame, hsent, hreceive⟩ :=
    @udp_roundtrip (fun _ => true) (fun _ => true) senderHost _ receiverHost 0 3
    [1, 2, 3] 0 3 (by decide) rfl rfl (by decide) (by decide) (by decide) (by decide)
    (by decide) (by decide) hsend (by decide)
  exact ⟨frame, hsent, (hreceive _ _ (starts_memOf frame)).2.2.1⟩

end VortexOS.Net
