/-
VortexOS.Net.Stack — the network stack of `kernel/net.cpp`.

`NetState` has the globals, and with `sent` the frames that were handed to
`eth_transmit`, oldest first. `tx n` is what `eth_transmit` returns for
frame `n`. The functions are those of the source in its order, without the
messages to the serial port and `udp_checksum`, which nothing calls.

`ipv4_handle_packet` computes the checksum over a copy of the 20 bytes of
`Ipv4Header`, but over as many bytes as the header claims to have. `stack`
is what it finds behind the copy. `size_t` subtractions wrap (`subSize`).
-/
import VortexOS.Lib.Run
import VortexOS.Net.Packet

namespace VortexOS.Net

open Function Lib

/-! ## Static state -/

structure ArpEntry where
  ip : Ipv4
  mac : MacAddr
  valid : Bool
  deriving DecidableEq, Repr

inductive UdpState where
  | free | bound | connected
  deriving DecidableEq, Repr

structure UdpControlBlock where
  state : UdpState
  localPort : BitVec 16
  remoteIp : Ipv4
  remotePort : BitVec 16
  rxData : Nat → Byte
  rxLen : Nat
  rxPending : Bool

def sizeofRxData : Nat := 2048

inductive TcpState where
  | closed | listen | synSent | synReceived | established | finWait1 | finWait2 | closeWait
  | closing | lastAck | timeWait
  deriving DecidableEq, Repr

structure TcpControlBlock where
  state : TcpState
  localPort : BitVec 16
  deriving DecidableEq, Repr

inductive DhcpClientState where
  | idle | discovering | waitingOffer | requesting | bound
  deriving DecidableEq, Repr

structure NetState where
  gOurMac : MacAddr
  gOurIp : Ipv4
  gSubnetMask : Ipv4
  gGatewayIp : Ipv4
  gNetReady : Bool
  gIpIdent : BitVec 16
  gArpCache : Nat → ArpEntry
  gArpCacheNext : Nat
  gUdpSockets : Nat → UdpControlBlock
  gTcpSockets : Nat → TcpControlBlock
  gDhcpState : DhcpClientState
  gDhcpXid : BitVec 32
  gDhcpServerIp : Ipv4
  gDhcpOfferedIp : Ipv4
  sent : List (List Byte)

def nullMac : MacAddr := ⟨0, 0, 0, 0, 0, 0⟩
def gBroadcastMac : MacAddr := ⟨0xFF, 0xFF, 0xFF, 0xFF, 0xFF, 0xFF⟩

/-- The globals before `net_init`. -/
def NetState.boot : NetState where
  gOurMac := nullMac
  gOurIp := 0
  gSubnetMask := 0
  gGatewayIp := 0
  gNetReady := false
  gIpIdent := 0
  gArpCache := fun _ => ⟨0, nullMac, false⟩
  gArpCacheNext := 0
  gUdpSockets := fun _ => ⟨.free, 0, 0, 0, fun _ => 0, 0, false⟩
  gTcpSockets := fun _ => ⟨.closed, 0⟩
  gDhcpState := .idle
  gDhcpXid := 0
  gDhcpServerIp := 0
  gDhcpOfferedIp := 0
  sent := []

def NetState.modUdp (s : NetState) (i : Nat) (f : UdpControlBlock → UdpControlBlock) : NetState :=
  { s with gUdpSockets := update s.gUdpSockets i (f (s.gUdpSockets i)) }

def NetState.modTcp (s : NetState) (i : Nat) (f : TcpControlBlock → TcpControlBlock) : NetState :=
  { s with gTcpSockets := update s.gTcpSockets i (f (s.gTcpSockets i)) }

/-! ## ARP cache -/

def arpCacheFind (ip : Ipv4) (s : NetState) : Option Nat :=
  (List.range arpCacheSize).find? fun i => (s.gArpCache i).valid && (s.gArpCache i).ip == ip

def arpCacheInsert (ip : Ipv4) (mac : MacAddr) (s : NetState) : NetState :=
  match arpCacheFind ip s with
  | some i => { s with gArpCache := update s.gArpCache i { s.gArpCache i with mac := mac } }
  | none =>
    { s with
      gArpCache := update s.gArpCache s.gArpCacheNext ⟨ip, mac, true⟩
      gArpCacheNext := (s.gArpCacheNext + 1) % arpCacheSize }

def arpCacheLookup (ip : Ipv4) (s : NetState) : Option MacAddr :=
  (arpCacheFind ip s).map fun i => (s.gArpCache i).mac

section

variable (tx : Nat → Bool)

/-! ## Ethernet -/

def ethTransmit (frame : List Byte) (s : NetState) : Bool × NetState :=
  (tx s.sent.length, { s with sent := s.sent ++ [frame] })

def ethFrame (dst src : MacAddr) (type : BitVec 16) (payload : List Byte) : List Byte :=
  dst.bytes ++ src.bytes ++ bytes16 (htons type) ++ payload

def sizeofEthBuf : Nat := 64 + 1514

def ethSend (dst : MacAddr) (type : BitVec 16) (payload : List Byte) (s : NetState) :
    Bool × NetState :=
  if sizeofEthHeader + payload.length > sizeofEthBuf then (false, s)
  else ethTransmit tx (ethFrame dst s.gOurMac type payload) s

/-! ## ARP -/

def arpPacket (oper : BitVec 16) (sha : MacAddr) (spa : List Byte) (tha : MacAddr)
    (tpa : List Byte) :
    List Byte :=
  bytes16 (htons arpHtypeEth) ++ bytes16 (htons arpPtypeIp) ++ [arpHlenEth, arpPlenIp] ++
    bytes16 (htons oper) ++ sha.bytes ++ spa ++ tha.bytes ++ tpa

def arpSendRequest (targetIp : Ipv4) (s : NetState) : NetState :=
  (ethSend tx gBroadcastMac ethertypeArp
    (arpPacket arpOpRequest s.gOurMac (ipToBytes s.gOurIp) nullMac (ipToBytes targetIp)) s).2

def arpHandlePacket (data : Nat → Byte) (len : Nat) (s : NetState) : NetState :=
  if len < sizeofArpPacket then s
  else if ntohs (read16 data 0) ≠ arpHtypeEth ∨ ntohs (read16 data 2) ≠ arpPtypeIp then s
  else
    let sha := readMac data 8
    let senderIp := read32 data 14
    let s := arpCacheInsert senderIp sha s
    let targetIp := read32 data 24
    if ntohs (read16 data 6) = arpOpRequest ∧ targetIp = s.gOurIp then
      (ethSend tx sha ethertypeArp
        (arpPacket arpOpReply s.gOurMac (ipToBytes s.gOurIp) sha (slice (shift data 14) 4)) s).2
    else s

def arpResolve (ip : Ipv4) (s : NetState) : Option MacAddr × NetState :=
  match arpCacheLookup ip s with
  | some mac => (some mac, s)
  | none => (none, arpSendRequest tx ip s)

/-! ## IPv4 -/

def ipv4Header (ident totalLen cksum : BitVec 16) (protocol : Byte) (srcIp dstIp : Ipv4) :
    List Byte :=
  [0x45, 0] ++ bytes16 (htons totalLen) ++ bytes16 (htons ident) ++ bytes16 (htons 0x4000) ++
    [64, protocol] ++ bytes16 cksum ++ ipToBytes srcIp ++ ipToBytes dstIp

def sizeofIpBuf : Nat := sizeofIpv4Header + 1500

def ipv4Packet (dstIp : Ipv4) (protocol : Byte) (payload : List Byte) (s : NetState) : List Byte :=
  let totalLen := BitVec.ofNat 16 (sizeofIpv4Header + payload.length)
  let cksum := ipChecksum (memOf (ipv4Header s.gIpIdent totalLen 0 protocol s.gOurIp dstIp))
    sizeofIpv4Header
  ipv4Header s.gIpIdent totalLen cksum protocol s.gOurIp dstIp ++ payload

def nextHop (dstIp : Ipv4) (s : NetState) : Ipv4 :=
  if ntohl dstIp &&& ntohl s.gSubnetMask ≠ ntohl s.gOurIp &&& ntohl s.gSubnetMask ∧
    s.gGatewayIp ≠ 0 then
    s.gGatewayIp
  else dstIp

def ipv4Send (dstIp : Ipv4) (protocol : Byte) (payload : List Byte) (s : NetState) :
    Bool × NetState :=
  if sizeofIpv4Header + payload.length > sizeofIpBuf then (false, s)
  else
    let packet := ipv4Packet dstIp protocol payload s
    let s := { s with gIpIdent := s.gIpIdent + 1 }
    if dstIp = 0xFFFFFFFF then ethSend tx gBroadcastMac ethertypeIpv4 packet s
    else
      match arpResolve tx (nextHop dstIp s) s with
      | (none, s) => (false, s)
      | (some mac, s) => ethSend tx mac ethertypeIpv4 packet s

/-! ## ICMP -/

def sizeofReplyBuf : Nat := 512

/-- The type and the checksum of an ICMP message are replaced. -/
def icmpPatch (type : Byte) (cksum : BitVec 16) (msg : List Byte) : List Byte :=
  ((msg.set 0 type).set 2 (cksum.extractLsb' 0 8)).set 3 (cksum.extractLsb' 8 8)

def icmpHandleEcho (data : Nat → Byte) (len : Nat) (srcIp : Ipv4) (s : NetState) : NetState :=
  if len < sizeofIcmpHeader then s
  else if data 0 ≠ icmpEchoRequest then s
  else
    let replyLen := if len < sizeofReplyBuf then len else sizeofReplyBuf
    let reply := icmpPatch icmpEchoReply 0 (slice data replyLen)
    let cksum := ipChecksum (memOf reply) replyLen
    (ipv4Send tx srcIp ipprotoIcmp (icmpPatch icmpEchoReply cksum reply) s).2

/-! ## UDP -/

def udpFindSocket (port : BitVec 16) (s : NetState) : Option Nat :=
  (List.range maxUdpSockets).find? fun i =>
    (s.gUdpSockets i).state ≠ .free && (s.gUdpSockets i).localPort == port

def udpAllocSocket (s : NetState) : Option Nat × NetState :=
  match (List.range maxUdpSockets).find? fun i => (s.gUdpSockets i).state = .free with
  | none => (none, s)
  | some i =>
    (some i, s.modUdp i fun sock =>
      { sock with state := .bound, localPort := 0, rxPending := false, rxLen := 0 })

/-- What `udp_handle_packet` stores in the socket it has found. -/
def udpDeliver (data : Nat → Byte) (sock : UdpControlBlock) : UdpControlBlock :=
  let udpLen := (ntohs (read16 data 4)).toNat
  let payloadLen := subSize udpLen sizeofUdpHeader
  let payloadLen := if payloadLen > sizeofRxData then sizeofRxData else payloadLen
  { sock with
    rxData := fun i => if i < payloadLen then shift data sizeofUdpHeader i else sock.rxData i
    rxLen := payloadLen
    rxPending := true
    remotePort := ntohs (read16 data 0) }

def udpHandlePacket (data : Nat → Byte) (len : Nat) (s : NetState) : NetState :=
  if len < sizeofUdpHeader then s
  else
    match udpFindSocket (ntohs (read16 data 2)) s with
    | none => s
    | some i => s.modUdp i (udpDeliver data)

def udpDatagram (srcPort dstPort : BitVec 16) (payload : List Byte) : List Byte :=
  bytes16 (htons srcPort) ++ bytes16 (htons dstPort) ++
    bytes16 (htons (BitVec.ofNat 16 (sizeofUdpHeader + payload.length))) ++ bytes16 0 ++ payload

/-! ## TCP -/

def tcpFindOrAllocSocket (port : BitVec 16) (s : NetState) : Option Nat × NetState :=
  match (List.range maxTcpSockets).find? fun i =>
      (s.gTcpSockets i).state ≠ .closed && (s.gTcpSockets i).localPort == port with
  | some i => (some i, s)
  | none =>
    match (List.range maxTcpSockets).find? fun i => (s.gTcpSockets i).state = .closed with
    | none => (none, s)
    | some i => (some i, s.modTcp i fun tcb => { tcb with state := .closed, localPort := port })

def tcpNext (state : TcpState) (flags : BitVec 16) : TcpState :=
  match state with
  | .listen => if flags &&& 0x02 ≠ 0 then .synReceived else .listen
  | .synSent => if flags &&& 0x12 ≠ 0 then .established else .synSent
  | .established => if flags &&& 0x01 ≠ 0 then .closeWait else .established
  | state => state

def tcpHandlePacket (data : Nat → Byte) (len : Nat) (s : NetState) : NetState :=
  if len < sizeofTcpHeader then s
  else
    let flags := ntohs (read16 data 12) &&& 0x1F
    match tcpFindOrAllocSocket (ntohs (read16 data 2)) s with
    | (none, s) => s
    | (some i, s) => s.modTcp i fun tcb => { tcb with state := tcpNext tcb.state flags }

/-! ## `ipv4_handle_packet` -/

/-- The arguments of the call of a handler: the payload is at `headerLen`. -/
structure Ipv4Payload where
  protocol : Byte
  srcIp : Ipv4
  headerLen : Nat
  payloadLen : Nat
  deriving DecidableEq, Repr

def hdrCopy (stack data : Nat → Byte) (i : Nat) : Byte :=
  if i = 10 ∨ i = 11 then 0 else if i < sizeofIpv4Header then data i else stack i

def ipv4Accept (stack data : Nat → Byte) (len : Nat) (s : NetState) : Option Ipv4Payload :=
  if len < sizeofIpv4Header then none
  else
    let headerLen := (data 0 &&& 0x0F).toNat * 4
    if ipChecksum (hdrCopy stack data) headerLen ≠ read16 data 10 then none
    else if headerLen < sizeofIpv4Header then none
    else
      let totalLen := (ntohs (read16 data 2)).toNat
      if totalLen > len then none
      else
        let dstIp := read32 data 16
        if dstIp ≠ s.gOurIp ∧ dstIp ≠ 0xFFFFFFFF ∧ dstIp ≠ (s.gOurIp ||| ~~~ s.gSubnetMask) then
          none
        else some ⟨data 9, read32 data 12, headerLen, subSize totalLen headerLen⟩

def ipv4HandlePacket (stack data : Nat → Byte) (len : Nat) (s : NetState) : NetState :=
  match ipv4Accept stack data len s with
  | none => s
  | some p =>
    if p.protocol = ipprotoIcmp then
      icmpHandleEcho tx (shift data p.headerLen) p.payloadLen p.srcIp s
    else if p.protocol = ipprotoUdp then udpHandlePacket (shift data p.headerLen) p.payloadLen s
    else if p.protocol = ipprotoTcp then tcpHandlePacket (shift data p.headerLen) p.payloadLen s
    else s

/-! ## DHCP -/

/-- The fields of `DhcpPacket` as both senders fill them in. -/
def dhcpPacket (s : NetState) : List Byte :=
  [1, 1, 6, 0] ++ bytes32 (htonl s.gDhcpXid) ++ bytes16 0 ++ bytes16 (htons 0x8000) ++
    List.replicate 16 0 ++ s.gOurMac.bytes ++ List.replicate 10 0 ++ List.replicate 64 0 ++
    List.replicate 128 0 ++ bytes32 (htonl dhcpMagicCookie)

def dhcpSend (options : List Byte) (s : NetState) : NetState :=
  (ipv4Send tx 0xFFFFFFFF ipprotoUdp
    (udpDatagram dhcpClientPort dhcpServerPort (dhcpPacket s ++ options)) s).2

def dhcpSendDiscover (s : NetState) : NetState :=
  dhcpSend tx [dhcpOptMsgType, 1, dhcpDiscover, dhcpOptEnd] { s with gDhcpState := .waitingOffer }

def dhcpSendRequest (serverIp requestedIp : Ipv4) (s : NetState) : NetState :=
  dhcpSend tx ([dhcpOptMsgType, 1, dhcpRequest] ++ [dhcpOptServerId, 4] ++ bytes32 serverIp ++
    [dhcpOptReqIp, 4] ++ bytes32 requestedIp ++ [dhcpOptEnd]) s

/-- The loop of `dhcp_parse_options`, from position `opt` on. Every round
takes a byte at least, so that `len` rounds are enough. -/
def parseOptions (data : Nat → Byte) (len : Nat) : Nat → Nat → Byte × Ipv4 → Byte × Ipv4
  | 0, _, acc => acc
  | n + 1, opt, (msgType, serverId) =>
    if opt < len then
      if data opt = dhcpOptEnd then (msgType, serverId)
      else if data opt = dhcpOptPad then parseOptions data len n (opt + 1) (msgType, serverId)
      else
        let tag := data opt
        let olen := (data (opt + 1)).toNat
        let opt := opt + 2
        if opt + olen > len then (msgType, serverId)
        else
          parseOptions data len n (opt + olen)
            (if tag = dhcpOptMsgType ∧ olen ≥ 1 then (data opt, serverId)
            else if tag = dhcpOptServerId ∧ olen ≥ 4 then (msgType, read32 data opt)
            else (msgType, serverId))
    else (msgType, serverId)

/-- The message type and the server id. The result of the function is
whether the type is not zero. -/
def dhcpParseOptions (data : Nat → Byte) (len : Nat) :
    Byte × Ipv4 := parseOptions data len len 0 (0, 0)

def dhcpOptions (data : Nat → Byte) (len : Nat) : Byte × Ipv4 :=
  dhcpParseOptions (shift data sizeofDhcpPacket) (len - sizeofDhcpPacket)

def dhcpHandleOffer (data : Nat → Byte) (len : Nat) (s : NetState) : NetState :=
  if len < sizeofDhcpPacket then s
  else if ntohl (read32 data 236) ≠ dhcpMagicCookie then s
  else if data 0 ≠ 2 then s
  else
    let (msgType, serverId) := dhcpOptions data len
    if msgType = 0 then s
    else if msgType ≠ dhcpOffer then s
    else
      let offeredIp := read32 data 16
      dhcpSendRequest tx serverId offeredIp
        { s with gDhcpServerIp := serverId, gDhcpOfferedIp := offeredIp, gDhcpState := .requesting }

def dhcpHandleAck (data : Nat → Byte) (len : Nat) (s : NetState) : NetState :=
  if len < sizeofDhcpPacket then s
  else if ntohl (read32 data 236) ≠ dhcpMagicCookie then s
  else if data 0 ≠ 2 then s
  else
    let (msgType, _) := dhcpOptions data len
    if msgType = 0 then s
    else if msgType ≠ dhcpAck then s
    else
      { s with
        gOurIp := read32 data 16
        gSubnetMask := ipFromBytes 255 255 255 0
        gGatewayIp := ipFromBytes 192 168 1 1
        gDhcpState := .bound
        gNetReady := true }

def dhcpDispatch (data : Nat → Byte) (len : Nat) (s : NetState) : NetState :=
  if len < sizeofDhcpPacket then s
  else if ntohl (read32 data 236) ≠ dhcpMagicCookie then s
  else
    let (msgType, _) := dhcpOptions data len
    if msgType = dhcpOffer then
      if s.gDhcpState = .waitingOffer then dhcpHandleOffer tx data len s else s
    else if msgType = dhcpAck then
      if s.gDhcpState = .requesting then dhcpHandleAck data len s else s
    else if msgType = dhcpNak then { s with gDhcpState := .idle }
    else s

/-! ## Public API -/

/-- `mac` is what `eth_get_mac` returns. -/
def netInit (mac : MacAddr) (s : NetState) : NetState :=
  dhcpSendDiscover tx
    { s with
      gOurMac := mac
      gArpCache := fun i =>
        if i < arpCacheSize then { s.gArpCache i with valid := false } else s.gArpCache i
      gUdpSockets := fun i =>
        if i < maxUdpSockets then { s.gUdpSockets i with state := .free } else s.gUdpSockets i
      gTcpSockets := fun i =>
        if i < maxTcpSockets then { s.gTcpSockets i with state := .closed } else s.gTcpSockets i
      gDhcpXid := mac.a2 ++ mac.a3 ++ mac.a4 ++ mac.a5
      gDhcpState := .discovering }

/-- The state in which frames arrive first. -/
def netStart (mac : MacAddr) : NetState := netInit tx mac .boot

def netReceive (stack data : Nat → Byte) (length : Nat) (s : NetState) : NetState :=
  if length < sizeofEthHeader then s
  else
    let dst := readMac data 0
    if !dst.isBroadcast && dst ≠ s.gOurMac then s
    else
      let type := ntohs (read16 data 12)
      let payload := shift data sizeofEthHeader
      let payloadLen := length - sizeofEthHeader
      if type = ethertypeArp then arpHandlePacket tx payload payloadLen s
      else if type = ethertypeIpv4 then ipv4HandlePacket tx stack payload payloadLen s
      else s

def sizeofUdpBuf : Nat := sizeofUdpHeader + 2048

/-- `sizeof(UdpHeader) + size`, which wraps for the last eight sizes. -/
def udpSize (data : List Byte) : Nat := (sizeofUdpHeader + data.length) % 2 ^ 64

/-- The bytes of `udp_buf` that are handed to `ipv4_send`. If the size has
wrapped, the data runs over the buffer; what it overwrites there is not
modelled. -/
def udpBuf (srcPort dstPort : BitVec 16) (data : List Byte) : List Byte :=
  (udpDatagram srcPort dstPort data).take (udpSize data)

def netSend (data : List Byte) (s : NetState) : NetState :=
  if data.length = 0 then s
  else if udpSize data > sizeofUdpBuf then s
  else
    let dst := if s.gGatewayIp ≠ 0 then s.gGatewayIp else 0xFFFFFFFF
    (ipv4Send tx dst ipprotoUdp (udpBuf 12345 69 data) s).2

/-! ## Socket calls -/

def validFd (count : Nat) (fd : Int) :
    Option Nat := if fd < 0 ∨ fd ≥ count then none else some fd.toNat

def sysSocketCreate (s : NetState) : Int × NetState :=
  match udpAllocSocket s with
  | (none, s) => (-1, s)
  | (some i, s) => (i, s)

def sysSocketBind (fd : Int) (port : BitVec 16) (s : NetState) : Int × NetState :=
  match validFd maxUdpSockets fd with
  | none => (-1, s)
  | some i =>
    if (s.gUdpSockets i).state = .free then (-1, s)
    else (0, s.modUdp i fun sock => { sock with localPort := port, state := .bound })

def sysSocketConnect (fd : Int) (remoteIp : Ipv4) (remotePort : BitVec 16) (s : NetState) :
    Int × NetState :=
  match validFd maxUdpSockets fd with
  | none => (-1, s)
  | some i =>
    if (s.gUdpSockets i).state = .free then (-1, s)
    else
      (0, s.modUdp i fun sock =>
        { sock with remoteIp := remoteIp, remotePort := remotePort, state := .connected })

def sysSocketSend (fd : Int) (data : List Byte) (s : NetState) : Int × NetState :=
  match validFd maxUdpSockets fd with
  | none => (-1, s)
  | some i =>
    let sock := s.gUdpSockets i
    if sock.state ≠ .connected then (-1, s)
    else if udpSize data > sizeofUdpBuf then (-1, s)
    else
      match ipv4Send tx sock.remoteIp ipprotoUdp (udpBuf sock.localPort sock.remotePort data) s with
      | (false, s) => (-1, s)
      | (true, s) => ((BitVec.ofNat 32 data.length).toInt, s)

/-- The bytes that are copied to the caller come with the result. -/
def sysSocketRecv (fd : Int) (size : Nat) (s : NetState) : Int × List Byte × NetState :=
  match validFd maxUdpSockets fd with
  | none => (-1, [], s)
  | some i =>
    let sock := s.gUdpSockets i
    if sock.rxPending = false then (0, [], s)
    else
      let copy := if size < sock.rxLen then size else sock.rxLen
      (copy, slice sock.rxData copy, s.modUdp i
        fun sock => { sock with rxPending := false, rxLen := 0 })

def sysSocketClose (fd : Int) (s : NetState) : Int × NetState :=
  match validFd maxUdpSockets fd with
  | none => (-1, s)
  | some i => (0, s.modUdp i fun sock => { sock with state := .free })

def sysSocketListen (fd : Int) (s : NetState) : Int × NetState :=
  match validFd maxTcpSockets fd with
  | none => (-1, s)
  | some i =>
    if (s.gTcpSockets i).state = .closed then (-1, s)
    else (0, s.modTcp i fun tcb => { tcb with state := .listen })

/-! ## Runs -/

inductive NetOp where
  | create
  | bind (fd : Int) (port : BitVec 16)
  | connect (fd : Int) (remoteIp : Ipv4) (remotePort : BitVec 16)
  | send (fd : Int) (data : List Byte)
  | recv (fd : Int) (size : Nat)
  | close (fd : Int)
  | listen (fd : Int)
  | frame (stack data : Nat → Byte) (length : Nat)

def netStep (s : NetState) : NetOp → Option NetState
  | .create => some (sysSocketCreate s).2
  | .bind fd port => some (sysSocketBind fd port s).2
  | .connect fd remoteIp remotePort => some (sysSocketConnect fd remoteIp remotePort s).2
  | .send fd data => some (sysSocketSend tx fd data s).2
  | .recv fd size => some (sysSocketRecv fd size s).2.2
  | .close fd => some (sysSocketClose fd s).2
  | .listen fd => some (sysSocketListen fd s).2
  | .frame stack data length => some (netReceive tx stack data length s)

/-- A message for `dhcp_dispatch`. -/
structure DhcpMsg where
  data : Nat → Byte
  len : Nat

def dhcpStep (s : NetState) (m : DhcpMsg) : Option NetState := some (dhcpDispatch tx m.data m.len s)

end

end VortexOS.Net
