/-
VortexOS.Net.Mtu — the sizes of the frames that are sent.

Each layer has a limit of its own: 2048 bytes of data for a UDP datagram,
1500 bytes of payload for `ipv4_send`, 64 + 1514 bytes for `eth_send`. The
limit of `ipv4_send` leaves out its header. So 1473 to 1492 bytes of data
pass all checks and make frames of more than 1514 bytes (`mtu_iff`). Data of
1493 bytes or more is refused, but for the last eight sizes of `size_t`,
whose sum with the header wraps: a part of the header is sent.

An echo request that is too large for one frame is not refused, but
answered with its first 512 bytes.
-/
import VortexOS.Net.Checksums
import VortexOS.Net.DhcpOptions

namespace VortexOS.Net

open Lib

inductive SendCall where
  | socketSend (fd : Int) (data : List Byte)
  | netSend (data : List Byte)
  | dhcpDiscover
  | dhcpRequest (serverIp requestedIp : Ipv4)
  | echo (data : Nat → Byte) (len : Nat) (srcIp : Ipv4)

namespace SendCall

def run (tx : Nat → Bool) (s : NetState) : SendCall → NetState
  | socketSend fd data => (sysSocketSend tx fd data s).2
  | netSend data => Net.netSend tx data s
  | dhcpDiscover => dhcpSendDiscover tx s
  | dhcpRequest serverIp requestedIp => dhcpSendRequest tx serverIp requestedIp s
  | echo data len srcIp => icmpHandleEcho tx data len srcIp s

def frames (tx : Nat → Bool) (s : NetState) (c : SendCall) : List (List Byte) :=
  (c.run tx s).sent.drop s.sent.length

/-- The size of the IPv4 packet that is asked for. -/
def packetLen : SendCall → Nat
  | socketSend _ data => 20 + 8 + data.length
  | netSend data => 20 + 8 + data.length
  | dhcpDiscover => 20 + 8 + 240 + 4
  | dhcpRequest _ _ => 20 + 8 + 240 + 16
  | echo _ len _ => 20 + len

def netDst (s : NetState) : Ipv4 := if s.gGatewayIp ≠ 0 then s.gGatewayIp else 0xFFFFFFFF

/-- A frame that is larger than the MTU goes out. -/
def Oversized (s : NetState) : SendCall → Prop
  | socketSend fd data =>
    ∃ i, validFd maxUdpSockets fd = some i ∧ (s.gUdpSockets i).state = .connected ∧
      1480 < udpSize data ∧ udpSize data ≤ 1500 ∧ route (s.gUdpSockets i).remoteIp s ≠ none
  | netSend data => 1480 < udpSize data ∧ udpSize data ≤ 1500 ∧ route (netDst s) s ≠ none
  | _ => False

/-- Something goes out for a request that is too large for one frame. -/
def NotRefused (s : NetState) : SendCall → Prop
  | socketSend fd data =>
    ∃ i, validFd maxUdpSockets fd = some i ∧ (s.gUdpSockets i).state = .connected ∧
      1472 < data.length ∧ udpSize data ≤ 1500
  | netSend data => 1472 < data.length ∧ udpSize data ≤ 1500
  | echo data len _ => data 0 = icmpEchoRequest ∧ 1480 < len
  | _ => False

end SendCall

/-- A frame within the MTU of Ethernet, whose total length is right if it is
an IPv4 packet. -/
structure FrameOk (frame : List Byte) : Prop where
  size : frame.length ≤ 1514
  total : ntohs (read16 (memOf frame) 12) = ethertypeIpv4 →
    (ntohs (read16 (memOf frame) 16)).toNat ≤ 1500 ∧
      (ntohs (read16 (memOf frame) 16)).toNat = frame.length - 14

section

variable {s : NetState} {dstIp : Ipv4} {protocol : Byte} {payload : List Byte}

lemma ethFrame_totalLength (dst src : MacAddr) (dstIp : Ipv4) (protocol : Byte)
    (payload : List Byte) (s : NetState) :
    ntohs (read16 (memOf (ethFrame dst src ethertypeIpv4 (ipv4Packet dstIp protocol payload s))) 16)
      = BitVec.ofNat 16 (20 + payload.length) := by
  generalize hframe : ethFrame dst src ethertypeIpv4 (ipv4Packet dstIp protocol payload s) = frame
  have hstarts := starts_memOf frame
  nth_rewrite 2 [← hframe] at hstarts
  simp only [ethFrame, ipv4Packet, ipv4Header, starts_append, List.length_append,
    MacAddr.bytes_length, bytes16_length, List.length_cons, List.length_nil, Nat.zero_add,
      Nat.reduceAdd] at hstarts
  obtain ⟨-, ⟨⟨⟨⟨⟨⟨⟨⟨-, htotal⟩, -⟩, -⟩, -⟩, -⟩, -⟩, -⟩, -⟩⟩ := hstarts
  rw [htotal.reads16]
  exact swap16_swap16 _

/-- `ipv4_send` keeps to the MTU unless its packet has 1501 to 1520 bytes and
goes out. -/
lemma ipv4Frames_ok_iff : (∀ frame ∈ ipv4Frames dstIp protocol payload s, FrameOk frame) ↔
      ¬ (1480 < payload.length ∧ payload.length ≤ 1500 ∧ route dstIp s ≠ none) := by
  unfold ipv4Frames
  by_cases hlarge : payload.length > 1500
  · rw [if_pos hlarge]
    exact iff_of_true (by simp) (by omega)
  rw [if_neg hlarge]
  cases route dstIp s with
  | none =>
    simp only [List.forall_mem_singleton, ne_eq, not_true_eq_false, and_false, not_false_eq_true,
      iff_true]
    refine ⟨by simp [arpRequestFrame], fun htype => ?_⟩
    rw [arpRequestFrame, ethFrame_type] at htype
    exact absurd htype (by decide)
  | some mac =>
    rw [List.forall_mem_singleton]
    constructor
    · rintro hok ⟨hsize, -⟩
      have hlength := hok.size
      rw [ethFrame_length, ipv4Packet_length] at hlength
      omega
    · intro hsmall
      have hle : payload.length ≤ 1480 := by
        by_contra hgt
        exact hsmall ⟨by omega, by omega, by simp⟩
      refine ⟨by simp; omega, fun _ => ?_⟩
      rw [ethFrame_totalLength, ethFrame_length, ipv4Packet_length, BitVec.toNat_ofNat]
      omega

lemma ipv4Frames_eq_nil : ipv4Frames dstIp protocol payload s = [] ↔ 1500 < payload.length := by
  unfold ipv4Frames
  by_cases hlarge : payload.length > 1500
  · rw [if_pos hlarge]
    exact iff_of_true rfl hlarge
  · rw [if_neg hlarge]
    cases route dstIp s <;> simp <;> omega

end

/-! ## The calls -/

namespace SendCall

def handed (s : NetState) : SendCall → Option (Ipv4 × Byte × List Byte)
  | socketSend fd data =>
    (validFd maxUdpSockets fd).bind fun i =>
      let sock := s.gUdpSockets i
      if sock.state ≠ .connected ∨ udpSize data > sizeofUdpBuf then none
      else some (sock.remoteIp, ipprotoUdp, udpBuf sock.localPort sock.remotePort data)
  | netSend data =>
    if data.length = 0 ∨ udpSize data > sizeofUdpBuf then none
    else some (netDst s, ipprotoUdp, udpBuf 12345 69 data)
  | dhcpDiscover =>
    some (0xFFFFFFFF, ipprotoUdp, udpDatagram dhcpClientPort dhcpServerPort
      (dhcpPacket s ++ [dhcpOptMsgType, 1, Net.dhcpDiscover, dhcpOptEnd]))
  | dhcpRequest serverIp requestedIp =>
    some (0xFFFFFFFF, ipprotoUdp, udpDatagram dhcpClientPort dhcpServerPort (dhcpPacket s ++
      ([dhcpOptMsgType, 1, Net.dhcpRequest] ++ [dhcpOptServerId, 4] ++ bytes32 serverIp ++
        [dhcpOptReqIp, 4] ++ bytes32 requestedIp ++ [dhcpOptEnd])))
  | echo data len srcIp =>
    if len < sizeofIcmpHeader ∨ data 0 ≠ icmpEchoRequest then none
    else some (srcIp, ipprotoIcmp, echoMessage data (min len 512))

variable {tx : Nat → Bool} {s : NetState}

lemma run_sent (c : SendCall) :
    (c.run tx s).sent = s.sent ++ ((c.handed s).elim [] fun p => ipv4Frames p.1 p.2.1 p.2.2 s) := by
  cases c with
  | socketSend fd data =>
    simp only [run, sysSocketSend, handed]
    cases validFd maxUdpSockets fd with
    | none => simp
    | some i =>
      simp only [Option.bind_some]
      by_cases hstate : (s.gUdpSockets i).state ≠ .connected
      · simp [hstate]
      by_cases hlarge : udpSize data > sizeofUdpBuf
      · simp only [hstate, hlarge, if_false, if_true, or_true, Option.elim_none, List.append_nil]
      · simp only [hstate, hlarge, if_false, or_false, Option.elim_some]
        rw [← ipv4Send_sent]
        rcases ipv4Send tx (s.gUdpSockets i).remoteIp ipprotoUdp _ s with ⟨_ | _, s'⟩
        · rfl
        · rfl
  | netSend data =>
    simp only [run, Net.netSend, handed]
    by_cases hempty : data.length = 0
    · simp [hempty]
    by_cases hlarge : udpSize data > sizeofUdpBuf
    · simp only [hempty, hlarge, if_false, if_true, or_true, Option.elim_none, List.append_nil]
    · simp only [hempty, hlarge, if_false, or_false, Option.elim_some]
      exact ipv4Send_sent _ _ _ _
  | dhcpDiscover =>
    have hpacket : dhcpPacket { s with gDhcpState := .waitingOffer } = dhcpPacket s := rfl
    have hframes : ∀ payload, ipv4Frames 0xFFFFFFFF ipprotoUdp payload
      { s with gDhcpState := .waitingOffer } =
        ipv4Frames 0xFFFFFFFF ipprotoUdp payload s := fun _ => rfl
    simp only [run, dhcpSendDiscover, dhcpSend, ipv4Send_sent, hpacket, hframes, handed,
      Option.elim_some]
  | dhcpRequest serverIp requestedIp =>
    simp only [run, dhcpSendRequest, dhcpSend, ipv4Send_sent, handed, Option.elim_some]
  | echo data len srcIp =>
    simp only [run, handed]
    by_cases hshort : len < sizeofIcmpHeader
    · simp only [icmpHandleEcho, hshort, if_true, true_or, Option.elim_none, List.append_nil]
    by_cases htype : data 0 ≠ icmpEchoRequest
    · rw [if_pos (Or.inr htype), icmpHandleEcho, if_neg hshort, if_pos htype]
      exact (List.append_nil _).symm
    · simp only [hshort, htype, or_false, if_false, Option.elim_some]
      rw [icmpHandleEcho_eq (Nat.not_lt.mp hshort) (not_not.mp htype), ipv4Send_sent]

lemma frames_eq (c : SendCall) :
    c.frames tx s = (c.handed s).elim [] fun p => ipv4Frames p.1 p.2.1 p.2.2 s := by
  rw [frames, run_sent, List.drop_left]

end SendCall

/-- What becomes of the buffer of a UDP sender. The two limits are for the
size as it is computed, which is small again if it has wrapped. -/
lemma udpFrames_iff (dstIp : Ipv4) (srcPort dstPort : BitVec 16) (data : List Byte) (s : NetState) :
    let frames := (if udpSize data > sizeofUdpBuf then none
      else some (dstIp, ipprotoUdp, udpBuf srcPort dstPort data)).elim [] fun p =>
        ipv4Frames p.1 p.2.1 p.2.2 s
    ((∀ frame ∈ frames, FrameOk frame) ↔
        ¬ (1480 < udpSize data ∧ udpSize data ≤ 1500 ∧ route dstIp s ≠ none)) ∧
      ((1500 < 20 + 8 + data.length → frames = []) ↔
        ¬ (1472 < data.length ∧ udpSize data ≤ 1500)) := by
  intro frames
  by_cases hlarge : udpSize data > sizeofUdpBuf
  · have hbeyond : 1500 < udpSize data := by
      unfold sizeofUdpBuf sizeofUdpHeader at hlarge
      omega
    have hnil : frames = [] := by simp only [frames, if_pos hlarge, Option.elim_none]
    rw [hnil]
    exact ⟨iff_of_true (by simp) (by omega), iff_of_true (fun _ => rfl) (by omega)⟩
  · simp only [frames, if_neg hlarge, Option.elim_some]
    rw [ipv4Frames_ok_iff, ipv4Frames_eq_nil, udpBuf_length]
    exact ⟨Iff.rfl, by omega⟩

/-- What a call sends keeps to the MTU exactly if it is not `Oversized`, and a
request that is too large is refused exactly if it is not `NotRefused`. -/
theorem mtu_iff (tx : Nat → Bool) (s : NetState) (c : SendCall) :
    ((∀ frame ∈ c.frames tx s, FrameOk frame) ↔ ¬ c.Oversized s) ∧
      ((1500 < c.packetLen → c.frames tx s = []) ↔ ¬ c.NotRefused s) := by
  rw [SendCall.frames_eq]
  cases c with
  | socketSend fd data =>
    simp only [SendCall.handed, SendCall.Oversized, SendCall.NotRefused, SendCall.packetLen]
    cases hfd : validFd maxUdpSockets fd with
    | none => simp
    | some i =>
      simp only [Option.bind_some, Option.some.injEq, exists_eq_left']
      by_cases hstate : (s.gUdpSockets i).state ≠ .connected
      · simp [hstate]
      simp only [not_not.mp hstate, ne_eq, not_true_eq_false, false_or, true_and]
      exact udpFrames_iff _ _ _ _ _
  | netSend data =>
    simp only [SendCall.handed, SendCall.Oversized, SendCall.NotRefused, SendCall.packetLen]
    by_cases hempty : data.length = 0
    · have hudp : udpSize data = 8 := by rw [udpSize, hempty]; rfl
      simp [hempty, hudp]
    simp only [hempty, false_or]
    exact udpFrames_iff _ _ _ _ _
  | dhcpDiscover | dhcpRequest =>
    simp only [SendCall.handed, SendCall.Oversized, SendCall.NotRefused, SendCall.packetLen,
      Option.elim_some, ipv4Frames_ok_iff, udpDatagram_length, List.length_append,
        dhcpPacket_length]
    simp
  | echo data len srcIp =>
    simp only [SendCall.handed, SendCall.Oversized, SendCall.NotRefused, SendCall.packetLen]
    by_cases hshort : len < sizeofIcmpHeader
    · have : len < 8 := hshort
      simp only [hshort, true_or, if_true, Option.elim_none, List.not_mem_nil, false_imp_iff,
        implies_true, not_false_eq_true, true_iff, true_and]
      omega
    by_cases htype : data 0 = icmpEchoRequest
    · simp only [hshort, htype, ne_eq, not_true_eq_false, or_self, if_false, Option.elim_some,
        ipv4Frames_ok_iff, ipv4Frames_eq_nil, echoMessage_length, true_and]
      have : min len 512 ≤ 512 := Nat.min_le_right len 512
      exact ⟨iff_of_true (by omega) not_false, by omega⟩
    · simp [htype]

/-- `net_send` of 1473 bytes after boot is broadcast in a frame of 1515 bytes. -/
theorem large_netSend_sent : ∃ frame,
    (SendCall.netSend (List.replicate 1473 0)).frames (fun _ => true) .boot =
    [frame] ∧ frame.length = 1515 := by
  generalize hdata : List.replicate 1473 (0 : Byte) = data
  have hlength : data.length = 1473 := by rw [← hdata, List.length_replicate]
  have hudp : udpSize data = 1481 := by rw [udpSize, hlength]; rfl
  have hpassed : ¬ (data.length = 0 ∨ udpSize data > sizeofUdpBuf) := by
    rw [hlength, hudp]
    decide
  have hsize : ¬ (udpBuf 12345 69 data).length > 1500 := by
    rw [udpBuf_length, hudp]
    decide
  have hdst : SendCall.netDst .boot = 0xFFFFFFFF := rfl
  rw [SendCall.frames_eq, SendCall.handed, if_neg hpassed, Option.elim_some, ipv4Frames,
    if_neg hsize, hdst, route, if_pos rfl]
  refine ⟨_, rfl, ?_⟩
  rw [ethFrame_length, ipv4Packet_length, udpBuf_length, hudp]

end VortexOS.Net
