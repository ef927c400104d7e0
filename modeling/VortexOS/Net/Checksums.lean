/-
VortexOS.Net.Checksums — the checksums of IPv4 headers and ICMP messages.

`ip_checksum` computes the internet checksum of its bytes
(`ipChecksum_eq`), for lengths for which its `uint32_t` does not overflow.

`ipv4_handle_packet` verifies a header on a copy of 20 bytes, over the
length that the packet names. With options the words behind the copy are
added, which are not the packet's. The test says what it is to say for
headers of 20 bytes (`header_checksum_iff`).

`icmp_handle_echo` has a buffer of 512 bytes for the reply; longer requests
are cut off (`echo_reply_iff`).
-/
import VortexOS.Lib.OnesSum
import VortexOS.Net.Frames

namespace VortexOS.Net

open Lib

/-! ## `ip_checksum` -/

section

variable {data : Nat → Byte}

lemma slice_congr {data data' : Nat → Byte} {n : Nat} (h : ∀ i < n, data i = data' i) :
    slice data n = slice data' n :=
  List.map_congr_left fun i hi => h i (List.mem_range.mp hi)

lemma slice_succ (data : Nat → Byte) (n : Nat) : slice data (n + 1) = slice data n ++ [data n] := by
  simp [slice, List.range_succ]

lemma slice_add (data : Nat → Byte) (n m : Nat) :
    slice data (n + m) = slice data n ++ slice (shift data n) m := by
  induction m with
  | zero => simp [slice]
  | succ m ih => rw [← Nat.add_assoc, slice_succ, ih, slice_succ, List.append_assoc, shift]

@[simp] lemma slice_length (data : Nat → Byte) (n : Nat) :
    (slice data n).length = n := by simp [slice]

lemma toNat_append8 (a b : Byte) : (a ++ b).toNat = a.toNat * 256 + b.toNat := by
  rw [BitVec.toNat_append, ← Nat.shiftLeft_add_eq_or_of_lt b.isLt, Nat.shiftLeft_eq]

lemma ntohs_read16 (data : Nat → Byte) (o : Nat) : ntohs (read16 data o) = data o ++ data (o + 1) :=
  swap16_append _ _

lemma words_slice_even (data : Nat → Byte) (n : Nat) : words (slice data (2 * (n + 1))) =
    words (slice data (2 * n)) ++ [(ntohs (read16 data (2 * n))).toNat] := by
  have hslice : slice data (2 * (n + 1)) = slice data (2 * n) ++ [data (2 * n),
    data (2 * n + 1)] := by
    rw [Nat.mul_add, slice_succ, slice_succ, List.append_assoc]
    rfl
  rw [hslice, words_append (by simp), ntohs_read16, toNat_append8]
  rfl

lemma sumWords_eq (data : Nat → Byte) {n : Nat} (hn : n ≤ 2 ^ 15) :
    sumWords data n = (words (slice data (2 * n))).sum ∧ sumWords data n ≤ 65535 * n := by
  induction n with
  | zero => exact ⟨rfl, Nat.le_refl _⟩
  | succ n ih =>
    obtain ⟨hsum, hle⟩ := ih (by omega)
    have hword := (ntohs (read16 data (2 * n))).isLt
    have hstep : sumWords data (n + 1) =
      (sumWords data n + (ntohs (read16 data (2 * n))).toNat) % 2 ^ 32 := by
      simp [sumWords, List.range_succ]
    rw [hstep, words_slice_even, List.sum_append, List.sum_singleton, ← hsum]
    omega

lemma residue_foldSum (n sum : Nat) : residue (foldSum n sum) = residue sum := by
  induction n generalizing sum with
  | zero => rfl
  | succ n ih =>
    rw [foldSum]
    split
    · exact (ih _).trans (residue_fold sum)
    · rfl

lemma foldSum_eq {sum : Nat} (h : sum < 2 ^ 32) : foldSum 2 sum = residue sum := by
  rw [← residue_foldSum 2 sum, residue_of_lt (foldSum_lt h)]

lemma ipChecksum_eq {len : Nat} (hlen : len ≤ 2 ^ 16) :
    ipChecksum data len = htons (checksum (slice data len)) := by
  obtain ⟨hsum, hle⟩ := sumWords_eq data (n := len / 2) (by omega)
  rw [ipChecksum, checksum_eq]
  by_cases hodd : len % 2 = 1
  · have hbyte := (data (len - 1)).isLt
    have hslice : slice data len = slice data (2 * (len / 2)) ++ [data (len - 1)] := by
      obtain ⟨k, rfl⟩ : ∃ k, len = 2 * k + 1 := ⟨len / 2, by omega⟩
      rw [slice_succ, show (2 * k + 1) / 2 = k by omega]
      rfl
    rw [if_pos hodd, hslice, words_append (by simp), List.sum_append, ← hsum]
    simp only [words, List.sum_singleton]
    rw [Nat.mod_eq_of_lt (by omega)]
    exact congrArg (fun n => htons (~~~BitVec.ofNat 16 n)) (foldSum_eq (by omega))
  · rw [if_neg hodd, foldSum_eq (by omega), hsum, show 2 * (len / 2) = len by omega]

lemma foldSum_add {n sum : Nat} (h : foldSum n sum < 2 ^ 16) (m : Nat) :
    foldSum (n + m) sum = foldSum n sum := by
  induction n generalizing sum with
  | zero =>
    cases m with
    | zero => rfl
    | succ m =>
      rw [foldSum] at h
      rw [Nat.zero_add, foldSum, foldSum, if_neg (by omega)]
  | succ n ih =>
    rw [Nat.add_right_comm, foldSum, foldSum]
    rw [foldSum] at h
    split at h
    next hne => rw [if_pos hne, if_pos hne, ih h]
    next hz => rw [if_neg hz, if_neg hz]

/-- A checksum in place of two zeros makes the sum 0xFFFF. -/
lemma onesSum_patched {a : List Byte} (ha : a.length % 2 = 0) (b : List Byte) :
    let c := htons (checksum (a ++ 0 :: 0 :: b))
    onesSum (words (a ++ c.extractLsb' 0 8 :: c.extractLsb' 8 8 :: b)) = 0xFFFF := by
  intro c
  have hfield : (c.extractLsb' 0 8).toNat * 256 + (c.extractLsb' 8 8).toNat =
    (checksum (a ++ 0 :: 0 :: b)).toNat := by
    rw [← toNat_append8]
    exact congrArg BitVec.toNat (swap16_swap16 _)
  have hlt := residue_lt ((words a).sum + (words b).sum)
  rw [onesSum_eq (words_lt _), words_append ha, words, hfield, checksum_eq, words_append ha,
    List.sum_append, List.sum_append, words, List.sum_cons, List.sum_cons]
  have hzero : (0 : Byte).toNat * 256 + (0 : Byte).toNat = 0 := rfl
  rw [hzero, Nat.zero_add, BitVec.toNat_not, BitVec.toNat_ofNat, Nat.mod_eq_of_lt hlt,
    Nat.add_left_comm, Nat.add_comm]
  exact residue_complement _

/-- The two bytes at `o` take a value, the low byte first. -/
def store16 (data : Nat → Byte) (o : Nat) (c : BitVec 16) : Nat → Byte := fun i =>
  if i = o then c.extractLsb' 0 8 else if i = o + 1 then c.extractLsb' 8 8 else data i

lemma slice_split (data : Nat → Byte) (o k : Nat) : slice data (o + (2 + k)) =
      slice data o ++ data o :: data (o + 1) :: slice (shift data (o + 2)) k := by
  rw [slice_add, slice_add]
  have hshift : shift (shift data o) 2 = shift data (o + 2) := by
    funext i
    simp only [shift, Nat.add_assoc]
  rw [hshift]
  rfl

lemma slice_store16 (data : Nat → Byte) (o k : Nat) (c : BitVec 16) :
    slice (store16 data o c) (o + (2 + k)) =
      slice data o ++ c.extractLsb' 0 8 :: c.extractLsb' 8 8 :: slice (shift data (o + 2)) k := by
  rw [slice_split]
  congr 1
  · apply slice_congr
    intro i hi
    simp only [store16]
    rw [if_neg (by omega), if_neg (by omega)]
  · simp only [store16, Nat.succ_ne_self, if_true, if_false]
    congr 2
    apply slice_congr
    intro i hi
    simp only [store16, shift]
    rw [if_neg (by omega), if_neg (by omega)]

/-- The 32-bit loop computes the sum of the words, the folding loop ends
after two rounds, the value stored where the data has zeros makes the sum
0xFFFF, and only the words and not their order matter. -/
theorem ip_checksum_internet (data : Nat → Byte) (n : Nat) (hn : n ≤ 65535) :
    (∀ k ≤ n / 2, sumWords data k = (words (slice data (2 * k))).sum) ∧
    (words (slice data n)).sum < 2 ^ 32 ∧
    (∀ sum < 2 ^ 32, foldSum 2 sum < 2 ^ 16 ∧ ∀ m, foldSum (2 + m) sum = foldSum 2 sum) ∧
    (∀ o, o % 2 = 0 → o + 2 ≤ n → data o = 0 → data (o + 1) = 0 →
      onesSum (words (slice (store16 data o (ipChecksum data n)) n)) = 0xFFFF) ∧
    ∀ data', (words (slice data' n)).Perm (words (slice data n)) →
    ipChecksum data' n = ipChecksum data n := by
  have heq : ∀ data, ipChecksum data n = htons (checksum (slice data n)) :=
    fun data => ipChecksum_eq (by omega)
  refine ⟨fun k hk => (sumWords_eq data (by omega)).1, ?_, fun sum hsum =>
    ⟨foldSum_lt hsum, fun m => ?_⟩, fun o ho hle h0 h1 => ?_, fun data' hperm => ?_⟩
  · have hsum := List.sum_le_card_nsmul _ 65535 fun w hw =>
      Nat.le_of_lt_succ (words_lt (slice data n) w hw)
    rw [words_length, slice_length, smul_eq_mul] at hsum
    omega
  · exact foldSum_add (foldSum_lt hsum) m
  · obtain ⟨k, rfl⟩ := Nat.exists_eq_add_of_le hle
    rw [Nat.add_assoc] at heq ⊢
    rw [slice_store16, heq, slice_split, h0, h1]
    exact onesSum_patched (by simp [ho]) _
  · rw [heq, heq, checksum_eq, checksum_eq, hperm.sum_eq]

theorem ip_checksum_odd : onesSum (words (slice (store16 (memOf [0, 0, 0x12]) 0
    (ipChecksum (memOf [0, 0, 0x12]) 3)) 3)) = 0xFFFF :=
  (ip_checksum_internet (memOf [0, 0, 0x12]) 3 (by decide)).2.2.2.1 0 rfl (by decide) rfl rfl

end

/-! ## Received headers -/

/-- The header of a packet with zeros for its checksum. -/
def headerBytes (data : Nat → Byte) (n : Nat) : List Byte :=
  slice (fun i => if i = 10 ∨ i = 11 then 0 else data i) n

/-- The test that `ipv4_handle_packet` makes. -/
def PassesChecksum (stack data : Nat → Byte) : Prop :=
  ipChecksum (hdrCopy stack data) ((data 0 &&& 0x0F).toNat * 4) = read16 data 10

instance (stack data : Nat → Byte) : Decidable (PassesChecksum stack data) :=
  inferInstanceAs (Decidable (_ = _))

section

variable {stack data : Nat → Byte}

lemma passesChecksum_iff : PassesChecksum stack data ↔
      checksum (slice (hdrCopy stack data) ((data 0 &&& 0x0F).toNat * 4)) =
      ntohs (read16 data 10) := by
  have hnibble := (data 0 &&& 0x0F).isLt
  rw [PassesChecksum, ipChecksum_eq (by omega)]
  constructor
  · intro h
    rw [← h]
    exact (swap16_swap16 _).symm
  · intro h
    rw [h]
    exact swap16_swap16 _

lemma slice_hdrCopy (stack data : Nat → Byte) (k : Nat) :
    slice (hdrCopy stack data) (20 + k) = headerBytes data 20 ++ slice (shift stack 20) k := by
  have hsize : sizeofIpv4Header = 20 := rfl
  have hcopy : slice (hdrCopy stack data) 20 = headerBytes data 20 := by
    apply slice_congr
    intro i hi
    simp only [hdrCopy, hsize, hi, if_true]
  have hstack : slice (shift (hdrCopy stack data) 20) k = slice (shift stack 20) k := by
    apply slice_congr
    intro i _
    rw [shift, hdrCopy, if_neg (by omega), if_neg (by omega), shift]
  rw [slice_add, hcopy, hstack]

lemma headerBytes_ne_zero (h : data 0 ≠ 0) {n : Nat} (hn : n ≠ 0) :
    (words (headerBytes data n)).sum ≠ 0 := by
  rw [Ne, sum_words_eq_zero]
  intro hall
  refine h (hall _ (List.mem_map.mpr ⟨0, List.mem_range.mpr (by omega), ?_⟩))
  simp

lemma checksum_ne {l : List Byte} (h : (words l).sum ≠ 0) : checksum l ≠ 0xFFFF := by
  have hlt := residue_lt (words l).sum
  have hne : residue (words l).sum ≠ 0 := mt residue_eq_zero.mp h
  rw [checksum_eq]
  intro heq
  have hnat := congrArg BitVec.toNat heq
  rw [BitVec.toNat_not, BitVec.toNat_ofNat, Nat.mod_eq_of_lt hlt] at hnat
  simp at hnat
  omega

/-- The words behind the copy can give the header any other checksum. -/
lemma exists_stack (hne : data 0 ≠ 0) {k : Nat} (hk : 2 ≤ k) {c : BitVec 16} (hc : c ≠ 0xFFFF) :
    ∃ stack, checksum (slice (hdrCopy stack data) (20 + k)) = c := by
  have ht : (~~~ c).toNat ≠ 0 := by
    intro hzero
    have hnot : ~~~ c = 0 := BitVec.eq_of_toNat_eq hzero
    exact hc (by rw [← BitVec.not_not (b := c), hnot]; rfl)
  obtain ⟨w, hw, hres⟩ :=
    exists_residue (headerBytes_ne_zero hne (by decide : (20 : Nat) ≠ 0)) ht (~~~ c).isLt
  obtain ⟨m, rfl⟩ : ∃ m, k = 2 + m := ⟨k - 2, by omega⟩
  let stack : Nat → Byte := fun i =>
    if i = 20 then BitVec.ofNat 8 (w / 256) else if i = 21 then BitVec.ofNat 8 w else 0
  have hword : words (slice (shift stack 20) 2) = [w] := by
    have hbytes : slice (shift stack 20) 2 = [BitVec.ofNat 8 (w / 256), BitVec.ofNat 8 w] := rfl
    rw [hbytes, words, words, BitVec.toNat_ofNat, BitVec.toNat_ofNat]
    congr 1
    omega
  have hrest : (words (slice (shift (shift stack 20) 2) m)).sum = 0 := by
    rw [sum_words_eq_zero]
    intro b hb
    obtain ⟨i, -, rfl⟩ := List.mem_map.mp hb
    simp only [shift, stack]
    rw [if_neg (by omega), if_neg (by omega)]
    rfl
  refine ⟨stack, ?_⟩
  rw [checksum_eq, slice_hdrCopy, words_append (by simp [headerBytes]), slice_add,
    words_append (by simp), hword,
    List.sum_append, List.sum_append, hrest, List.sum_singleton, Nat.add_zero, hres,
    BitVec.ofNat_toNat, BitVec.setWidth_eq, BitVec.not_not]

/-- The test is the comparison of the checksum with that of the packet's own
header, whatever the stack holds, if and only if the header has no options or
the checksum is 0xFFFF. -/
theorem header_checksum_iff {data : Nat → Byte} (hihl : 5 ≤ (data 0 &&& 0x0F).toNat) :
    (∀ stack, PassesChecksum stack data ↔
        ntohs (read16 data 10) = checksum (headerBytes data ((data 0 &&& 0x0F).toNat * 4))) ↔
      (data 0 &&& 0x0F).toNat = 5 ∨ ntohs (read16 data 10) = 0xFFFF := by
  have hfirst : data 0 ≠ 0 := by
    intro hzero
    rw [hzero] at hihl
    exact absurd hihl (by decide)
  have hown := checksum_ne (headerBytes_ne_zero hfirst (n := (data 0 &&& 0x0F).toNat * 4)
    (by omega))
  simp only [passesChecksum_iff]
  generalize (data 0 &&& 0x0F).toNat = ihl at *
  generalize ntohs (read16 data 10) = field at *
  constructor
  · intro h
    by_contra hnot
    obtain ⟨hlong, hfield⟩ := not_or.mp hnot
    obtain ⟨k, hk⟩ : ∃ k, ihl * 4 = 20 + k := ⟨ihl * 4 - 20, by omega⟩
    by_cases hright : field = checksum (headerBytes data (ihl * 4))
    · -- another checksum over the same packet
      obtain ⟨c, hc, hne⟩ : ∃ c : BitVec 16, c ≠ 0xFFFF ∧ c ≠ field := by
        by_cases hzero : field = 0
        · exact ⟨1, by decide, by rw [hzero]; decide⟩
        · exact ⟨0, by decide, Ne.symm hzero⟩
      obtain ⟨stack, hstack⟩ := exists_stack hfirst (k := k) (by omega) hc
      rw [← hk] at hstack
      exact hne (hstack.symm.trans ((h stack).mpr hright))
    · obtain ⟨stack, hstack⟩ := exists_stack hfirst (k := k) (by omega) hfield
      rw [← hk] at hstack
      exact hright ((h stack).mp hstack)
  · rintro (hshort | hfield) stack
    · have hslice := slice_hdrCopy stack data 0
      rw [hshort, show 5 * 4 = 20 + 0 from rfl, hslice]
      simp [slice, eq_comm]
    · -- neither of the two has this checksum
      obtain ⟨k, hk⟩ : ∃ k, ihl * 4 = 20 + k := ⟨ihl * 4 - 20, by omega⟩
      have hcopy : checksum (slice (hdrCopy stack data) (ihl * 4)) ≠ 0xFFFF := by
        apply checksum_ne
        rw [hk, slice_hdrCopy, words_append (by simp [headerBytes]), List.sum_append]
        have := headerBytes_ne_zero hfirst (n := 20) (by decide)
        omega
      rw [hfield]
      exact iff_of_false hcopy hown.symm

/-- A header of 24 bytes with its own checksum. -/
def optionHeader : List Byte :=
  [0x46, 0, 0, 24, 0, 0, 0x40, 0, 64, 17, 0x91, 0xCE, 10, 0, 0, 1, 10, 0, 0, 2, 0x94, 0x04, 0, 0]

def plainHeader : List Byte :=
  [0x45, 0, 0, 20, 0, 0, 0x40, 0, 64, 17, 0x26, 0xD7, 10, 0, 0, 1, 10, 0, 0, 2]

theorem header_checksum_plain : 5 ≤ (memOf plainHeader 0 &&& 0x0F).toNat ∧
    ∀ stack, PassesChecksum stack (memOf plainHeader) ↔
      ntohs (read16 (memOf plainHeader) 10) = checksum (headerBytes (memOf plainHeader) 20) := by
  have hihl : 5 ≤ (memOf plainHeader 0 &&& 0x0F).toNat := by decide
  exact ⟨hihl, (header_checksum_iff hihl).mpr (Or.inl (by decide))⟩

/-- The option is not in the sum, so that the packet is dropped. -/
theorem option_header_dropped :
    ntohs (read16 (memOf optionHeader) 10) = checksum (headerBytes (memOf optionHeader) 24) ∧
      ¬ PassesChecksum (fun _ => 0) (memOf optionHeader) := by
  decide

end

/-! ## Echo replies -/

/-- What an echo reply is to be: all of the request from the identifier on,
with the type of a reply, and with the sum 0xFFFF. -/
structure EchoReply (data : Nat → Byte) (len : Nat) (msg : List Byte) : Prop where
  type : msg[0]? = some icmpEchoReply
  length : msg.length = len
  rest : ∀ i < len, 4 ≤ i → msg[i]? = some (data i)
  sum : onesSum (words msg) = 0xFFFF

/-- The message that `icmp_handle_echo` builds. -/
def echoMessage (data : Nat → Byte) (replyLen : Nat) : List Byte :=
  let reply := icmpPatch icmpEchoReply 0 (slice data replyLen)
  icmpPatch icmpEchoReply (ipChecksum (memOf reply) replyLen) reply

section

variable {tx : Nat → Bool} {data : Nat → Byte} {len : Nat} {srcIp : Ipv4} {s : NetState}

lemma icmpHandleEcho_eq (hlen : 8 ≤ len) (hreq : data 0 = icmpEchoRequest) :
    icmpHandleEcho tx data len srcIp s =
      (ipv4Send tx srcIp ipprotoIcmp (echoMessage data (min len 512)) s).2 := by
  have hmin : (if len < sizeofReplyBuf then len else sizeofReplyBuf) = min len 512 := by
    unfold sizeofReplyBuf
    split <;> omega
  have hsize : ¬ len < sizeofIcmpHeader := by
    unfold sizeofIcmpHeader
    omega
  rw [icmpHandleEcho, if_neg hsize, if_neg (not_not.mpr hreq)]
  simp only [hmin]
  rfl

lemma slice_memOf (l : List Byte) : slice (memOf l) l.length = l := by
  apply List.ext_getElem
  · simp
  · intro i hi hi'
    simp [slice, memOf, hi']

lemma echoMessage_eq (data : Nat → Byte) {n : Nat} (hn : n ≤ 508) :
    let c := htons (checksum (icmpEchoReply :: data 1 :: 0 :: 0 :: slice (shift data 4) n))
    echoMessage data (4 + n) =
      icmpEchoReply :: data 1 :: c.extractLsb' 0 8 :: c.extractLsb' 8 8 ::
        slice (shift data 4) n := by
  have hslice : slice data (4 + n) =
    data 0 :: data 1 :: data 2 :: data 3 :: slice (shift data 4) n :=
    slice_add data 4 n
  have hreply : icmpPatch icmpEchoReply 0 (slice data (4 + n)) =
      icmpEchoReply :: data 1 :: 0 :: 0 :: slice (shift data 4) n := by
    rw [hslice]
    rfl
  have hcksum : ipChecksum (memOf (icmpEchoReply :: data 1 :: 0 :: 0 :: slice (shift data 4) n))
    (4 + n) =
      htons (checksum (icmpEchoReply :: data 1 :: 0 :: 0 :: slice (shift data 4) n)) := by
    have hlength : (icmpEchoReply :: data 1 :: 0 :: 0 :: slice (shift data 4) n).length =
      4 + n := by
      simp
      omega
    rw [ipChecksum_eq (by omega), ← hlength, slice_memOf]
  intro c
  rw [echoMessage, hreply, hcksum]
  rfl

lemma onesSum_echoMessage (data : Nat → Byte) {n : Nat} (hn : n ≤ 508) :
    onesSum (words (echoMessage data (4 + n))) = 0xFFFF := by
  rw [echoMessage_eq data hn]
  exact @onesSum_patched [icmpEchoReply, data 1] (by simp) (slice (shift data 4) n)

lemma echoReply_echoMessage (hlen : 8 ≤ len) (hmax : len ≤ 512) :
    EchoReply data len (echoMessage data len) := by
  obtain ⟨n, rfl⟩ : ∃ n, len = 4 + n := ⟨len - 4, by omega⟩
  have hmsg := echoMessage_eq data (n := n) (by omega)
  refine ⟨?_, ?_, fun i hi hge => ?_, onesSum_echoMessage data (by omega)⟩
  · rw [hmsg]
    rfl
  · rw [hmsg]
    simp
    omega
  · obtain ⟨j, rfl⟩ : ∃ j, i = 4 + j := ⟨i - 4, by omega⟩
    have hj : j < n := by omega
    rw [hmsg, Nat.add_comm 4 j]
    simp [slice, shift, hj, Nat.add_comm 4 j]

lemma echoMessage_length (data : Nat → Byte) (n : Nat) : (echoMessage data n).length = n := by
  simp [echoMessage, icmpPatch]

lemma ethFrame_type (dst src : MacAddr) (type : BitVec 16) (payload : List Byte) :
    ntohs (read16 (memOf (ethFrame dst src type payload)) 12) = type := by
  have hstarts := starts_memOf (ethFrame dst src type payload)
  simp only [ethFrame, starts_append, List.length_append, MacAddr.bytes_length, Nat.zero_add,
    Nat.reduceAdd] at hstarts
  rw [← ethFrame] at hstarts
  rw [hstarts.1.2.reads16]
  exact swap16_swap16 type

lemma drop_ethFrame (dst src : MacAddr) (dstIp : Ipv4) (protocol : Byte) (payload : List Byte)
    (s : NetState) :
    (ethFrame dst src ethertypeIpv4 (ipv4Packet dstIp protocol payload s)).drop 34 = payload := by
  simp only [ethFrame, ipv4Packet, ← List.append_assoc]
  exact List.drop_left' (by simp)

/-- For an echo request, all that is handed to `eth_send` in an IPv4 packet is
a reply with the whole request, if and only if the request has 512 bytes at
most, or no address to send the reply to is known. -/
theorem echo_reply_iff (tx : Nat → Bool) {data : Nat → Byte} {len : Nat} (srcIp : Ipv4)
    (s : NetState) (hlen : 8 ≤ len) (hreq : data 0 = icmpEchoRequest) :
    (∀ frame ∈ (icmpHandleEcho tx data len srcIp s).sent.drop s.sent.length,
        ntohs (read16 (memOf frame) 12) = ethertypeIpv4 → EchoReply data len (frame.drop 34)) ↔
      len ≤ 512 ∨ route srcIp s = none := by
  have hsize : ¬ (echoMessage data (min len 512)).length > 1500 := by
    rw [echoMessage_length]
    omega
  rw [icmpHandleEcho_eq hlen hreq, ipv4Send_sent, List.drop_left, ipv4Frames, if_neg hsize]
  cases route srcIp s with
  | none =>
    simp only [List.forall_mem_singleton, arpRequestFrame, ethFrame_type, or_true, iff_true]
    intro htype
    exact absurd htype (by decide)
  | some mac =>
    simp only [List.forall_mem_singleton, ethFrame_type, true_imp_iff, drop_ethFrame, reduceCtorEq,
      or_false]
    constructor
    · intro h
      have hlength := h.length
      rw [echoMessage_length] at hlength
      omega
    · intro hmax
      rw [Nat.min_eq_left hmax]
      exact echoReply_echoMessage hlen hmax

def pingData : Nat → Byte := fun i => if i = 0 then icmpEchoRequest else 0

theorem echo_reply_eight : pingData 0 = icmpEchoRequest ∧
    ∀ frame ∈
      (icmpHandleEcho (fun _ => true) pingData 8 0xFFFFFFFF .boot).sent.drop
        NetState.boot.sent.length,
      ntohs (read16 (memOf frame) 12) = ethertypeIpv4 → EchoReply pingData 8 (frame.drop 34) :=
  ⟨rfl, (echo_reply_iff _ _ _ (by decide) rfl).mpr (Or.inl (by decide))⟩

/-- A request of 513 bytes is answered with 512. -/
theorem long_echo_cut :
    ∃ frame, (icmpHandleEcho (fun _ => true) pingData 513 0xFFFFFFFF .boot).sent = [frame] ∧
    ntohs (read16 (memOf frame) 12) = ethertypeIpv4 ∧ (frame.drop 34).length = 512 := by
  have hsize : ¬ (echoMessage pingData (min 513 512)).length > 1500 := by
    rw [echoMessage_length]
    decide
  rw [icmpHandleEcho_eq (by decide) rfl, ipv4Send_sent, ipv4Frames, if_neg hsize, route, if_pos rfl]
  exact ⟨_, rfl, ethFrame_type _ _ _ _, by rw [drop_ethFrame, echoMessage_length]; rfl⟩

end

end VortexOS.Net
