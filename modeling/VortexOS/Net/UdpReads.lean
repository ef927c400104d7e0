/-
VortexOS.Net.UdpReads — what `udp_handle_packet` reads and stores.

`Reads.udpHandlePacket` is the function with a log of the offsets at which it
reads the datagram (`Reads.result_udpHandlePacket`).

The length field is compared with nothing. A length below 8 wraps in the
subtraction and is then cut to 2048, and one beyond the datagram is taken as
it is (`udp_delivery_iff`).
-/
import VortexOS.Lib.Logged
import VortexOS.Net.SocketTheorems

namespace VortexOS.Net

open Lib

namespace Reads

open Logged (quiet)

def half (data : Nat → Byte) (o : Nat) :
    Logged Nat (BitVec 16) := ⟨[o, o + 1], some (read16 data o)⟩

def copy (data : Nat → Byte) (o n : Nat) : Logged Nat (Nat → Byte) :=
  ⟨(List.range n).map (o + ·), some (shift data o)⟩

def udpHandlePacket (data : Nat → Byte) (len : Nat) (s : NetState) : Logged Nat NetState :=
  if len < sizeofUdpHeader then quiet (some s)
  else
    (half data 2).bind fun dstPort =>
      (half data 0).bind fun srcPort =>
        (half data 4).bind fun udpLen =>
          match udpFindSocket (ntohs dstPort) s with
          | none => quiet (some s)
          | some i =>
            let payloadLen := subSize (ntohs udpLen).toNat sizeofUdpHeader
            let payloadLen := if payloadLen > sizeofRxData then sizeofRxData else payloadLen
            (copy data sizeofUdpHeader payloadLen).map fun payload =>
              s.modUdp i fun sock =>
                { sock with
                  rxData := fun j => if j < payloadLen then payload j else sock.rxData j
                  rxLen := payloadLen
                  rxPending := true
                  remotePort := ntohs srcPort }

lemma result_udpHandlePacket (data : Nat → Byte) (len : Nat) (s : NetState) :
    (udpHandlePacket data len s).result = some (Net.udpHandlePacket data len s) := by
  unfold udpHandlePacket Net.udpHandlePacket
  split
  · rfl
  · simp only [Logged.result_bind, half, Option.bind_some]
    cases udpFindSocket (ntohs (read16 data 2)) s with
    | none => rfl
    | some i => rfl

end Reads

def udpLength (data : Nat → Byte) : Nat := (ntohs (read16 data 4)).toNat

/-- The socket that `udp_find_socket` finds for a datagram. -/
def udpTarget (data : Nat → Byte) (s : NetState) :
    Option Nat := udpFindSocket (ntohs (read16 data 2)) s

/-- The payload, if there is one, goes to the socket, and nothing else happens
or is read. -/
structure DeliversPayload (data : Nat → Byte) (len : Nat) (s : NetState) : Prop where
  delivered : 8 ≤ udpLength data → udpLength data ≤ len → ∀ i, udpTarget data s = some i →
    let sock := (udpHandlePacket data len s).gUdpSockets i
    sock.rxLen = min (udpLength data - 8) 2048 ∧ (∀ j < sock.rxLen, sock.rxData j = data (8 + j)) ∧
      ∀ k ≠ i, (udpHandlePacket data len s).gUdpSockets k = s.gUdpSockets k
  unchanged : ¬ (8 ≤ udpLength data ∧ udpLength data ≤ len ∧ udpTarget data s ≠ none) →
    (udpHandlePacket data len s).gUdpSockets = s.gUdpSockets
  reads : (Reads.udpHandlePacket data len s).All (· < len)

section

variable {data : Nat → Byte} {len i : Nat} {s : NetState}

lemma udpHandlePacket_some (hlen : ¬ len < sizeofUdpHeader) (hi : udpTarget data s = some i) :
    udpHandlePacket data len s = s.modUdp i (udpDeliver data) := by
  rw [udpHandlePacket, if_neg hlen, show udpFindSocket _ s = some i from hi]

lemma udpHandlePacket_none (h : len < 8 ∨ udpTarget data s = none) :
    udpHandlePacket data len s = s := by
  unfold udpHandlePacket
  split
  · rfl
  · rename_i hlen
    rw [show udpFindSocket _ s = none from h.resolve_left hlen]

lemma payloadLen_eq (hlow : 8 ≤ udpLength data) :
    (if subSize (ntohs (read16 data 4)).toNat sizeofUdpHeader > sizeofRxData then sizeofRxData else
      subSize (ntohs (read16 data 4)).toNat sizeofUdpHeader) = min (udpLength data - 8) 2048 := by
  have hsize : udpLength data < 2 ^ 64 := Nat.lt_of_lt_of_le (BitVec.isLt _) (by decide)
  have hsub : subSize (ntohs (read16 data 4)).toNat sizeofUdpHeader = udpLength data - 8 :=
    subSize_of_le hlow hsize
  rw [hsub]
  unfold sizeofRxData
  split <;> omega

/-- What is read: the header and, if there is a socket, what is copied. -/
lemma reads_inside (hhigh : len < 8 ∨ (8 ≤ udpLength data ∧ udpLength data ≤ len)) :
    (Reads.udpHandlePacket data len s).All (· < len) := by
  unfold Reads.udpHandlePacket
  by_cases hlen : len < sizeofUdpHeader
  · rw [if_pos hlen]
    exact Logged.all_quiet _
  obtain ⟨hlow, hhigh⟩ := hhigh.resolve_left hlen
  have hhalf : ∀ o, o + 2 ≤ 8 → (Reads.half data o).All (· < len) := by
    intro o ho b hb
    simp only [Reads.half, List.mem_cons, List.not_mem_nil, or_false] at hb
    omega
  rw [if_neg hlen]
  refine (Logged.all_bind ..).mpr ⟨hhalf 2 (by omega), fun dstPort _ => ?_⟩
  refine (Logged.all_bind ..).mpr ⟨hhalf 0 (by omega), fun srcPort _ => ?_⟩
  refine (Logged.all_bind ..).mpr ⟨hhalf 4 (by omega), fun udpLen hlength => ?_⟩
  cases udpFindSocket (ntohs dstPort) s with
  | none => exact Logged.all_quiet _
  | some i =>
    cases hlength
    intro b hb
    simp only [Reads.copy, Logged.map, List.mem_map, List.mem_range, payloadLen_eq hlow] at hb
    obtain ⟨j, hj, rfl⟩ := hb
    unfold sizeofUdpHeader
    omega

/-- A state with an open socket for the datagram that has received nothing. -/
def waiting (data : Nat → Byte) : NetState :=
  NetState.boot.modUdp 0 fun sock =>
    { sock with state := .bound, localPort := ntohs (read16 data 2) }

lemma udpTarget_waiting (data : Nat → Byte) : udpTarget data (waiting data) = some 0 := by
  simp [udpTarget, udpFindSocket, waiting, NetState.modUdp, maxUdpSockets, List.range_succ]

/-- Whatever sockets there are, exactly the payload is delivered if and only
if there is no header or its length field is right. -/
theorem udp_delivery_iff (data : Nat → Byte) (len : Nat) :
    (∀ s, DeliversPayload data len s) ↔ len < 8 ∨ (8 ≤ udpLength data ∧ udpLength data ≤ len) := by
  constructor
  · intro h
    by_contra hbad
    -- the socket has received something
    have hsame := (h (waiting data)).unchanged (by omega)
    rw [udpHandlePacket_some (fun hlen => hbad (Or.inl hlen)) (udpTarget_waiting data)] at hsame
    have hpending := congrArg UdpControlBlock.rxPending (congrFun hsame 0)
    rw [modUdp_self] at hpending
    cases hpending
  · intro hcond s
    refine ⟨fun hlow hhigh i hi => ?_, fun hnot => ?_, reads_inside hcond⟩
    · rw [udpHandlePacket_some (Nat.not_lt.mpr (Nat.le_trans hlow hhigh)) hi]
      simp only [modUdp_self, udpDeliver, payloadLen_eq hlow]
      exact ⟨trivial, fun j hj => if_pos hj, fun k hk => modUdp_of_ne _ hk⟩
    · have hnone : len < 8 ∨ udpTarget data s = none := by
        by_contra hsome
        rw [not_or] at hsome
        obtain ⟨hlow, hhigh⟩ := hcond.resolve_left hsome.1
        exact hnot ⟨hlow, hhigh, hsome.2⟩
      rw [udpHandlePacket_none hnone]

def longHeader (o : Nat) : Byte := if o = 5 then 9 else 0

/-- The byte behind it is read and delivered. -/
theorem length_beyond_delivered :
    8 ∈ (Reads.udpHandlePacket longHeader 8 (waiting longHeader)).log ∧
    ((udpHandlePacket longHeader 8 (waiting longHeader)).gUdpSockets 0).rxLen = 1 := by
  decide

end

end VortexOS.Net
