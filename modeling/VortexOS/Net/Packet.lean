/-
VortexOS.Net.Packet — addresses, headers and the checksum of `kernel/net.cpp`.

A packet that is received is memory with a length: `data : Nat → Byte` is
what a pointer points to, and reading behind the length reads whatever is
there. A packet that is sent is the list of its bytes.

The machine is little-endian. `uint16_t` and `uint32_t` fields are read and
stored as they stand in memory, and `ntohs`, `htons`, `ntohl` and `htonl`
swap their bytes, as in the source. An `ipv4_t` is in network byte order.
-/
import VortexOS.Lib.Wire

namespace VortexOS.Net

open Lib

abbrev Byte := BitVec 8

abbrev Ipv4 := BitVec 32

def ntohs : BitVec 16 → BitVec 16 := swap16
def htons : BitVec 16 → BitVec 16 := swap16
def ntohl : BitVec 32 → BitVec 32 := swap32
def htonl : BitVec 32 → BitVec 32 := swap32

def shift (data : Nat → Byte) (o : Nat) (i : Nat) : Byte := data (o + i)

def slice (data : Nat → Byte) (len : Nat) : List Byte := (List.range len).map data

def memOf (l : List Byte) (i : Nat) : Byte := l.getD i 0

def subSize (a b : Nat) : Nat := (a + 2 ^ 64 - b) % 2 ^ 64

lemma subSize_of_le {a b : Nat} (h : b ≤ a) (ha : a < 2 ^ 64) : subSize a b = a - b := by
  unfold subSize
  omega

/-! ## Addresses -/

structure MacAddr where
  a0 : Byte
  a1 : Byte
  a2 : Byte
  a3 : Byte
  a4 : Byte
  a5 : Byte
  deriving DecidableEq, Repr

namespace MacAddr

def isBroadcast (m : MacAddr) : Bool :=
  m.a0 == 0xFF && m.a1 == 0xFF && m.a2 == 0xFF && m.a3 == 0xFF && m.a4 == 0xFF && m.a5 == 0xFF

def bytes (m : MacAddr) : List Byte := [m.a0, m.a1, m.a2, m.a3, m.a4, m.a5]

end MacAddr

def readMac (data : Nat → Byte) (o : Nat) : MacAddr :=
  ⟨data o, data (o + 1), data (o + 2), data (o + 3), data (o + 4), data (o + 5)⟩

def ipFromBytes (a b c d : Byte) : Ipv4 := htonl (a ++ b ++ c ++ d)

def ipToBytes (ip : Ipv4) : List Byte :=
  let n := ntohl ip
  [n.extractLsb' 24 8, n.extractLsb' 16 8, n.extractLsb' 8 8, n.extractLsb' 0 8]

/-! ## Protocol constants -/

def ethertypeArp : BitVec 16 := 0x0806
def ethertypeIpv4 : BitVec 16 := 0x0800

def arpHtypeEth : BitVec 16 := 0x0001
def arpPtypeIp : BitVec 16 := 0x0800
def arpHlenEth : Byte := 6
def arpPlenIp : Byte := 4
def arpOpRequest : BitVec 16 := 0x0001
def arpOpReply : BitVec 16 := 0x0002

def ipprotoIcmp : Byte := 1
def ipprotoTcp : Byte := 6
def ipprotoUdp : Byte := 17

def icmpEchoReply : Byte := 0
def icmpEchoRequest : Byte := 8

def maxUdpSockets : Nat := 16
def maxTcpSockets : Nat := 16
def arpCacheSize : Nat := 16

def dhcpServerPort : BitVec 16 := 67
def dhcpClientPort : BitVec 16 := 68
def dhcpMagicCookie : BitVec 32 := 0x63825363

def dhcpOptPad : Byte := 0
def dhcpOptMsgType : Byte := 53
def dhcpOptServerId : Byte := 54
def dhcpOptReqIp : Byte := 50
def dhcpOptEnd : Byte := 255

def dhcpDiscover : Byte := 1
def dhcpOffer : Byte := 2
def dhcpRequest : Byte := 3
def dhcpAck : Byte := 5
def dhcpNak : Byte := 6

def sizeofEthHeader : Nat := 14
def sizeofArpPacket : Nat := 28
def sizeofIpv4Header : Nat := 20
def sizeofIcmpHeader : Nat := 8
def sizeofUdpHeader : Nat := 8
def sizeofTcpHeader : Nat := 20
def sizeofDhcpPacket : Nat := 240

/-! ## `ip_checksum` -/

/-- The loop over the 16-bit words, in a `uint32_t`. -/
def sumWords (data : Nat → Byte) (words : Nat) : Nat :=
  (List.range words).foldl (fun sum i => (sum + (ntohs (read16 data (2 * i))).toNat) % 2 ^ 32) 0

/-- `while (sum >> 16)`, which ends after two rounds (`foldSum_lt`). -/
def foldSum : Nat → Nat → Nat
  | 0, sum => sum
  | n + 1, sum => if sum / 2 ^ 16 ≠ 0 then foldSum n (sum % 2 ^ 16 + sum / 2 ^ 16) else sum

lemma foldSum_lt {sum : Nat} (h : sum < 2 ^ 32) : foldSum 2 sum < 2 ^ 16 := by
  unfold foldSum
  split
  · unfold foldSum
    split
    · simp only [foldSum]
      omega
    · omega
  · omega

def ipChecksum (data : Nat → Byte) (len : Nat) : BitVec 16 :=
  let sum := sumWords data (len / 2)
  let sum := if len % 2 = 1 then (sum + (data (len - 1)).toNat * 2 ^ 8) % 2 ^ 32 else sum
  let sum := foldSum 2 sum
  htons (~~~ BitVec.ofNat 16 sum)

end VortexOS.Net
