/-
VortexOS.Net.DhcpOptions — what `dhcp_parse_options` reads and returns.

`Reads.dhcpParseOptions` logs the offsets at which it reads its data.
Forgetting the log gives `dhcpParseOptions` back
(`Reads.result_dhcpParseOptions`).

The loop compares its position with the end of the data before it reads a
tag, and not again before it reads the length behind the tag
(`options_inside_iff`). What was encoded as a list of options is decoded,
whatever the values look like (`dhcp_options_decode`).
-/
import VortexOS.Lib.Logged
import VortexOS.Net.Frames
import VortexOS.Net.Receive

namespace VortexOS.Net

open Lib

/-! ## The function with its log -/

namespace Reads

open Logged (quiet)

def byte (data : Nat → Byte) (o : Nat) : Logged Nat Byte := ⟨[o], some (data o)⟩

def word (data : Nat → Byte) (o : Nat) :
    Logged Nat Ipv4 := ⟨[o, o + 1, o + 2, o + 3], some (read32 data o)⟩

/-- What is taken from the value at `opt` of an option. -/
def takeValue (data : Nat → Byte) (tag : Byte) (olen opt : Nat) (acc : Byte × Ipv4) :
    Logged Nat (Byte × Ipv4) :=
  if tag = dhcpOptMsgType ∧ olen ≥ 1 then (byte data opt).map fun b => (b, acc.2)
  else if tag = dhcpOptServerId ∧ olen ≥ 4 then (word data opt).map fun w => (acc.1, w)
  else quiet (some acc)

/-- The loop; without a result if it does not end in `rounds` rounds. -/
def parseOptions (data : Nat → Byte) (len : Nat) :
    Nat → Nat → Byte × Ipv4 → Logged Nat (Byte × Ipv4)
  | 0, _, _ => quiet none
  | rounds + 1, opt, acc =>
    if opt < len then
      (byte data opt).bind fun tag =>
        if tag = dhcpOptEnd then quiet (some acc)
        else if tag = dhcpOptPad then parseOptions data len rounds (opt + 1) acc
        else
          (byte data (opt + 1)).bind fun olen =>
            if opt + 2 + olen.toNat > len then quiet (some acc)
            else
              (takeValue data tag olen.toNat (opt + 2) acc).bind fun acc =>
                parseOptions data len rounds (opt + 2 + olen.toNat) acc
    else quiet (some acc)

def dhcpParseOptions (data : Nat → Byte) (len rounds : Nat) : Logged Nat (Bool × Byte × Ipv4) :=
  (parseOptions data len rounds 0 (0, 0)).map fun acc => (decide (acc.1 ≠ 0), acc)

end Reads

/-! ## Rounds -/

section

variable {data : Nat → Byte} {len : Nat}

/-- What the value of an option changes. -/
def takeValue (data : Nat → Byte) (tag : Byte) (olen opt : Nat) (acc : Byte × Ipv4) : Byte × Ipv4 :=
  if tag = dhcpOptMsgType ∧ olen ≥ 1 then (data opt, acc.2)
  else if tag = dhcpOptServerId ∧ olen ≥ 4 then (acc.1, read32 data opt)
  else acc

/-- The loop from `opt` on, with rounds enough. -/
def parseFrom (data : Nat → Byte) (len opt : Nat) (acc : Byte × Ipv4) : Byte × Ipv4 :=
  parseOptions data len (len - opt) opt acc

lemma parseOptions_rounds {n m opt : Nat} (hn : len ≤ opt + n) (hm : len ≤ opt + m)
    (acc : Byte × Ipv4) : parseOptions data len n opt acc = parseOptions data len m opt acc := by
  induction n generalizing m opt acc with
  | zero =>
    cases m with
    | zero => rfl
    | succ m => rw [parseOptions, parseOptions, if_neg (by omega)]
  | succ n ih =>
    cases m with
    | zero => rw [parseOptions, parseOptions, if_neg (by omega)]
    | succ m =>
      rw [parseOptions, parseOptions]
      have hnext : ∀ o acc, opt < o →
        parseOptions data len n o acc = parseOptions data len m o acc :=
        fun o acc ho => ih (by omega) (by omega) acc
      rw [hnext _ _ (Nat.lt_succ_self opt)]
      simp only
      rw [hnext (opt + 2 + (data (opt + 1)).toNat) _ (by omega)]

lemma parseOptions_eq_parseFrom {n opt : Nat} (hn : len ≤ opt + n) (acc : Byte × Ipv4) :
    parseOptions data len n opt acc = parseFrom data len opt acc :=
  parseOptions_rounds hn (by omega) acc

variable {opt : Nat} {acc : Byte × Ipv4}

lemma parseFrom_end (h : len ≤ opt ∨ data opt = dhcpOptEnd) : parseFrom data len opt acc = acc := by
  rw [← parseOptions_eq_parseFrom (n := len + 1) (by omega), parseOptions]
  rcases h with hlen | hend
  · rw [if_neg (by omega)]
  · simp [hend]

lemma parseFrom_pad (hlt : opt < len) (hpad : data opt = dhcpOptPad) :
    parseFrom data len opt acc = parseFrom data len (opt + 1) acc := by
  have hne : dhcpOptPad ≠ dhcpOptEnd := by decide
  rw [← parseOptions_eq_parseFrom (n := len + 1) (by omega), parseOptions]
  simp only [if_pos hlt, hpad, if_neg hne, if_true]
  exact parseOptions_eq_parseFrom (by omega) acc

lemma parseFrom_option (hlt : opt < len) (hend : data opt ≠ dhcpOptEnd)
    (hpad : data opt ≠ dhcpOptPad) :
    parseFrom data len opt acc = if opt + 2 + (data (opt + 1)).toNat > len then acc
      else parseFrom data len (opt + 2 + (data (opt + 1)).toNat)
        (takeValue data (data opt) (data (opt + 1)).toNat (opt + 2) acc) := by
  rw [← parseOptions_eq_parseFrom (n := len + 1) (by omega), parseOptions]
  simp only [if_pos hlt, if_neg hend, if_neg hpad]
  split
  · rfl
  · exact parseOptions_eq_parseFrom (by omega) _

lemma result_takeValue (tag : Byte) (olen opt : Nat) (acc : Byte × Ipv4) :
    (Reads.takeValue data tag olen opt acc).result = some (takeValue data tag olen opt acc) := by
  unfold Reads.takeValue takeValue
  split
  · rfl
  · split
    · rfl
    · rfl

lemma result_parseOptions {rounds : Nat} (hopt : opt ≤ len) (hrounds : len < opt + rounds) :
    (Reads.parseOptions data len rounds opt acc).result = some (parseFrom data len opt acc) := by
  induction rounds generalizing opt acc with
  | zero => omega
  | succ rounds ih =>
    rw [Reads.parseOptions]
    by_cases hlt : opt < len
    · simp only [if_pos hlt, Reads.byte, Logged.result_bind, Option.bind_some]
      by_cases hend : data opt = dhcpOptEnd
      · rw [parseFrom_end (Or.inr hend), if_pos hend]
        rfl
      by_cases hpad : data opt = dhcpOptPad
      · rw [parseFrom_pad hlt hpad, if_neg hend, if_pos hpad]
        exact ih (by omega) (by omega)
      rw [parseFrom_option hlt hend hpad, if_neg hend, if_neg hpad]
      by_cases hover : opt + 2 + (data (opt + 1)).toNat > len
      · simp only [Logged.result_bind, Option.bind_some, if_pos hover]
        rfl
      · simp only [Logged.result_bind, Option.bind_some, if_neg hover, result_takeValue]
        exact ih (by omega) (by omega)
    · rw [if_neg hlt, parseFrom_end (Or.inl (by omega))]
      rfl

lemma Reads.result_dhcpParseOptions {rounds : Nat} (hrounds : len < rounds) :
    (Reads.dhcpParseOptions data len rounds).result =
      some (decide ((Net.dhcpParseOptions data len).1 ≠ 0), Net.dhcpParseOptions data len) := by
  have hall : Net.dhcpParseOptions data len = parseFrom data len 0 (0, 0) := rfl
  rw [Reads.dhcpParseOptions, Logged.result_map, result_parseOptions (by omega) (by omega), hall]
  rfl

end

/-! ## The bytes that are read -/

/-- The loop goes on from one position to the next. -/
inductive NextRound (data : Nat → Byte) (len : Nat) : Nat → Nat → Prop
  | pad {o : Nat} (hlt : o < len) (hpad : data o = dhcpOptPad) : NextRound data len o (o + 1)
  | option {o : Nat} (hlt : o < len) (hend : data o ≠ dhcpOptEnd) (hpad : data o ≠ dhcpOptPad)
    (hfits : o + 2 + (data (o + 1)).toNat ≤ len) :
      NextRound data len o (o + 2 + (data (o + 1)).toNat)

/-- From `opt` on, the loop gets to no option whose tag is the last byte. -/
def TagsInside (data : Nat → Byte) (len opt : Nat) : Prop :=
  ∀ o, Relation.ReflTransGen (NextRound data len) opt o → o + 1 = len →
    data o = dhcpOptEnd ∨ data o = dhcpOptPad

section

variable {data : Nat → Byte} {len opt : Nat} {acc : Byte × Ipv4}

lemma tagsInside_iff : TagsInside data len opt ↔
    (opt + 1 = len → data opt = dhcpOptEnd ∨ data opt = dhcpOptPad) ∧
      ∀ o, NextRound data len opt o → TagsInside data len o := by
  constructor
  · intro h
    exact ⟨h opt .refl, fun o hnext o' hreach => h o' (.head hnext hreach)⟩
  · rintro ⟨hfirst, hrest⟩ o hreach
    rcases Relation.ReflTransGen.cases_head hreach with rfl | ⟨o', hnext, hreach'⟩
    · exact hfirst
    · exact hrest o' hnext o hreach'

lemma tagsInside_end (h : len ≤ opt ∨ data opt = dhcpOptEnd) : TagsInside data len opt := by
  rw [tagsInside_iff]
  constructor
  · intro hlast
    exact h.elim (fun hle => absurd hlast (by omega)) Or.inl
  · intro o hnext
    cases hnext with
    | pad hlt hpad =>
      have hend : data opt = dhcpOptEnd := h.resolve_left (by omega)
      exact absurd (hend.symm.trans hpad) (by decide)
    | option hlt hend hpad hfits => exact absurd (h.resolve_left (by omega)) hend

lemma tagsInside_pad (hlt : opt < len) (hpad : data opt = dhcpOptPad) :
    TagsInside data len opt ↔ TagsInside data len (opt + 1) := by
  rw [tagsInside_iff]
  constructor
  · intro h
    exact h.2 _ (.pad hlt hpad)
  · intro h
    refine ⟨fun _ => Or.inr hpad, fun o hnext => ?_⟩
    cases hnext with
    | pad hlt hpad => exact h
    | option hlt hend hpad' hfits => exact absurd hpad hpad'

lemma tagsInside_option (hlt : opt < len) (hend : data opt ≠ dhcpOptEnd)
    (hpad : data opt ≠ dhcpOptPad) :
    TagsInside data len opt ↔ opt + 1 < len ∧ (opt + 2 + (data (opt + 1)).toNat ≤ len →
      TagsInside data len (opt + 2 + (data (opt + 1)).toNat)) := by
  rw [tagsInside_iff]
  constructor
  · rintro ⟨hlast, hrest⟩
    have hne : opt + 1 ≠ len := fun heq => (hlast heq).elim hend hpad
    exact ⟨by omega, fun hfits => hrest _ (.option hlt hend hpad hfits)⟩
  · rintro ⟨hinside, hrest⟩
    refine ⟨fun heq => absurd heq (by omega), fun o hnext => ?_⟩
    cases hnext with
    | pad hlt hpad' => exact absurd hpad' hpad
    | option hlt hend hpad hfits => exact hrest hfits

lemma all_takeValue {tag : Byte} {olen : Nat} (hfits : opt + olen ≤ len) :
    (Reads.takeValue data tag olen opt acc).All (· < len) := by
  unfold Reads.takeValue
  split
  · simp [Logged.All, Logged.map, Reads.byte]
    omega
  · split
    · simp [Logged.All, Logged.map, Reads.word]
      omega
    · exact Logged.all_quiet _

lemma all_parseOptions {rounds : Nat} (hopt : opt ≤ len) (hrounds : len < opt + rounds) :
    (Reads.parseOptions data len rounds opt acc).All (· < len) ↔ TagsInside data len opt := by
  have hbyte : ∀ o, (Reads.byte data o).All (· < len) ↔ o < len := by
    intro o
    simp [Logged.All, Reads.byte]
  have hresult : ∀ o, (Reads.byte data o).result = some (data o) := fun _ => rfl
  induction rounds generalizing opt acc with
  | zero => omega
  | succ rounds ih =>
    rw [Reads.parseOptions]
    by_cases hlt : opt < len
    · rw [if_pos hlt]
      simp only [Logged.all_bind, hbyte, hresult, Option.some.injEq, forall_eq', hlt, true_and]
      by_cases hend : data opt = dhcpOptEnd
      · rw [if_pos hend]
        exact iff_of_true (Logged.all_quiet _) (tagsInside_end (Or.inr hend))
      by_cases hpad : data opt = dhcpOptPad
      · rw [if_neg hend, if_pos hpad, tagsInside_pad hlt hpad]
        exact ih (by omega) (by omega)
      rw [if_neg hend, if_neg hpad, tagsInside_option hlt hend hpad]
      simp only [Logged.all_bind, hbyte, hresult, Option.some.injEq, forall_eq']
      apply and_congr_right
      intro hinside
      by_cases hover : opt + 2 + (data (opt + 1)).toNat > len
      · rw [if_pos hover]
        exact iff_of_true (Logged.all_quiet _) fun hfits => absurd hfits (by omega)
      · rw [if_neg hover]
        have hfits : opt + 2 + (data (opt + 1)).toNat ≤ len := by omega
        simp only [Logged.all_bind, all_takeValue hfits, result_takeValue, Option.some.injEq,
          forall_eq', true_and, hfits, true_imp_iff]
        exact ih hfits (by omega)
    · rw [if_neg hlt]
      exact iff_of_true (Logged.all_quiet _) (tagsInside_end (Or.inl (by omega)))

/-- `dhcp_parse_options` returns after `len + 1` rounds at most, and reads
inside of its data if and only if it gets to no option whose tag is the last
byte. -/
theorem options_inside_iff (data : Nat → Byte) {len rounds : Nat} (hrounds : len < rounds) :
    (∃ r, (Reads.dhcpParseOptions data len rounds).result = some r) ∧
      ((Reads.dhcpParseOptions data len rounds).All (· < len) ↔ TagsInside data len 0) := by
  constructor
  · exact ⟨_, Reads.result_dhcpParseOptions hrounds⟩
  · rw [Reads.dhcpParseOptions, Logged.all_map]
    exact all_parseOptions (Nat.zero_le _) (by omega)

/-- A message type and the end. -/
theorem options_inside_offer :
    TagsInside (memOf [dhcpOptMsgType, 1, dhcpOffer, dhcpOptEnd]) 4 0 := by
  have hreads : (Reads.dhcpParseOptions (memOf [dhcpOptMsgType, 1, dhcpOffer,
    dhcpOptEnd]) 4 5).All (· < 4) := by
    unfold Logged.All
    decide
  exact (options_inside_iff _ (by decide)).2.mp hreads

/-- One byte of data, a tag: two bytes are read. -/
theorem last_tag_reads_past :
    (Reads.dhcpParseOptions (memOf [dhcpOptMsgType]) 1 2).log = [0, 1] := by
  decide

end

/-! ## Encoded options -/

/-- An option that is neither PAD nor END. -/
structure DhcpOption where
  tag : Byte
  value : List Byte
  tag_ne_pad : tag ≠ dhcpOptPad
  tag_ne_end : tag ≠ dhcpOptEnd
  length_le : value.length ≤ 255

def DhcpOption.bytes (o : DhcpOption) :
    List Byte := o.tag :: BitVec.ofNat 8 o.value.length :: o.value

/-- The options in their order, each with a number of PAD bytes before it. -/
def encodeOptions (options : List (Nat × DhcpOption)) : List Byte :=
  options.flatMap fun p => List.replicate p.1 dhcpOptPad ++ p.2.bytes

/-- The value of the last option with this tag and `n` bytes at least. -/
def lastValue (tag : Byte) (n : Nat) (options : List (Nat × DhcpOption)) : Option (List Byte) :=
  (options.reverse.find? fun p => p.2.tag = tag ∧ n ≤ p.2.value.length).map (·.2.value)

/-- The type and the server that a list of options names. -/
def namedType (options : List (Nat × DhcpOption)) : Byte :=
  ((lastValue dhcpOptMsgType 1 options).bind (·.head?)).getD 0

def namedServer (options : List (Nat × DhcpOption)) : Ipv4 :=
  ((lastValue dhcpOptServerId 4 options).map fun value => read32 (memOf value) 0).getD 0

section

variable {data : Nat → Byte} {len opt : Nat} {acc : Byte × Ipv4}

def takeOption (acc : Byte × Ipv4) (p : Nat × DhcpOption) : Byte × Ipv4 :=
  if p.2.tag = dhcpOptMsgType ∧ p.2.value.length ≥ 1 then (memOf p.2.value 0, acc.2)
  else if p.2.tag = dhcpOptServerId ∧ p.2.value.length ≥ 4 then (acc.1, read32 (memOf p.2.value) 0)
  else acc

lemma parseFrom_pads {n : Nat} (hdata : Starts data opt (List.replicate n dhcpOptPad))
    (hlen : opt + n ≤ len) : parseFrom data len opt acc = parseFrom data len (opt + n) acc := by
  induction n generalizing opt with
  | zero => rfl
  | succ n ih =>
    rw [List.replicate_succ, starts_cons] at hdata
    rw [parseFrom_pad (by omega) hdata.1, ih hdata.2 (by omega), Nat.add_right_comm, Nat.add_assoc]

lemma takeValue_eq {o : Nat} {value : List Byte} (hdata : Starts data o value) (tag : Byte) :
    takeValue data tag value.length o acc = if tag = dhcpOptMsgType ∧ value.length ≥ 1 then
      (memOf value 0, acc.2) else if tag = dhcpOptServerId ∧ value.length ≥ 4 then
      (acc.1, read32 (memOf value) 0) else acc := by
  have hbyte : ∀ i < value.length, data (o + i) = memOf value i := by
    intro i hi
    rw [hdata i _ (List.getElem?_eq_getElem hi)]
    simp [memOf, hi]
  unfold takeValue
  split
  · rename_i htype
    rw [← hbyte 0 (by omega)]
    rfl
  · split
    · rename_i hserver
      simp only [read32, Nat.zero_add]
      rw [hbyte 3 (by omega), hbyte 2 (by omega), hbyte 1 (by omega), ← hbyte 0 (by omega)]
      rfl
    · rfl

lemma parseFrom_bytes (p : Nat × DhcpOption) (hdata : Starts data opt p.2.bytes)
    (hlen : opt + p.2.bytes.length ≤ len) : parseFrom data len opt acc =
      parseFrom data len (opt + p.2.bytes.length) (takeOption acc p) := by
  have hlength : p.2.bytes.length = 2 + p.2.value.length := by
    simp [DhcpOption.bytes]
    omega
  rw [DhcpOption.bytes, starts_cons, starts_cons] at hdata
  obtain ⟨htag, holen, hvalue⟩ := hdata
  have hvalueLen : (data (opt + 1)).toNat = p.2.value.length := by
    have hle := p.2.length_le
    rw [holen, BitVec.toNat_ofNat]
    omega
  rw [hlength] at hlen
  have hpad := p.2.tag_ne_pad
  have hend := p.2.tag_ne_end
  rw [← htag] at hpad hend
  rw [parseFrom_option (by omega) hend hpad, if_neg (by omega), hvalueLen, takeValue_eq hvalue,
    htag, hlength, Nat.add_assoc]
  rfl

lemma parseFrom_encode (options : List (Nat × DhcpOption))
    (hdata : Starts data opt (encodeOptions options))
    (hlen : opt + (encodeOptions options).length ≤ len) : parseFrom data len opt acc =
      parseFrom data len (opt + (encodeOptions options).length) (options.foldl takeOption acc) := by
  induction options generalizing opt acc with
  | nil => rfl
  | cons p options ih =>
    have hcons : encodeOptions (p :: options) =
        List.replicate p.1 dhcpOptPad ++ p.2.bytes ++ encodeOptions options := rfl
    rw [hcons, starts_append, starts_append, List.length_append, List.length_replicate] at hdata
    rw [hcons, List.length_append, List.length_append, List.length_replicate] at hlen ⊢
    obtain ⟨⟨hpads, hbytes⟩, hrest⟩ := hdata
    rw [parseFrom_pads hpads (by omega), parseFrom_bytes p hbytes (by omega), Nat.add_assoc opt,
      ih hrest (by omega), List.foldl_cons, Nat.add_assoc opt]

lemma lastValue_concat (tag : Byte) (n : Nat) (options : List (Nat × DhcpOption))
    (p : Nat × DhcpOption) : lastValue tag n (options ++ [p]) =
      if p.2.tag = tag ∧ n ≤ p.2.value.length then some p.2.value else lastValue tag n options := by
  simp only [lastValue, List.reverse_append, List.reverse_singleton, List.singleton_append,
    List.find?_cons]
  by_cases hp : p.2.tag = tag ∧ n ≤ p.2.value.length <;> simp [hp]

/-- The last option that counts decides. -/
lemma foldl_takeOption (options : List (Nat × DhcpOption)) :
    options.foldl takeOption (0, 0) = (namedType options, namedServer options) := by
  induction options using List.reverseRecOn with
  | nil => rfl
  | append_singleton options p ih =>
    rw [List.foldl_append, ih, List.foldl_cons, List.foldl_nil]
    simp only [takeOption, namedType, namedServer, lastValue_concat]
    have hother : dhcpOptMsgType ≠ dhcpOptServerId := by decide
    by_cases htype : p.2.tag = dhcpOptMsgType ∧ 1 ≤ p.2.value.length
    · have hhead : p.2.value.head?.getD 0 = memOf p.2.value 0 := by
        rw [List.head?_eq_getElem?]
        rfl
      have hserver : ¬ (p.2.tag = dhcpOptServerId ∧ 4 ≤ p.2.value.length) :=
        fun h => hother (htype.1.symm.trans h.1)
      rw [if_pos htype, if_pos htype, if_neg hserver, Option.bind_some, hhead]
    · rw [if_neg htype, if_neg htype]
      by_cases hserver : p.2.tag = dhcpOptServerId ∧ 4 ≤ p.2.value.length
      · rw [if_pos hserver, if_pos hserver]
        rfl
      · rw [if_neg hserver, if_neg hserver]

lemma parse_encoded {options : List (Nat × DhcpOption)} {n : Nat} {tail : List Byte}
    (hdata : Starts data 0 (encodeOptions options ++ List.replicate n dhcpOptPad ++ tail))
    (hlen : len = (encodeOptions options ++ List.replicate n dhcpOptPad ++ tail).length)
    (htail : tail = [] ∨ tail.head? = some dhcpOptEnd) :
    dhcpParseOptions data len = (namedType options, namedServer options) := by
  have hfrom : dhcpParseOptions data len = parseFrom data len 0 (0, 0) := rfl
  rw [List.length_append, List.length_append, List.length_replicate] at hlen
  rw [starts_append, starts_append, List.length_append, List.length_replicate] at hdata
  obtain ⟨⟨hoptions, hpads⟩, hrest⟩ := hdata
  rw [hfrom, parseFrom_encode options hoptions (by omega), parseFrom_pads hpads (by omega),
    foldl_takeOption, parseFrom_end]
  rcases htail with rfl | hend
  · exact Or.inl (by simp at hlen; omega)
  · obtain ⟨rest, rfl⟩ := List.head?_eq_some_iff.mp hend
    rw [starts_cons, ← Nat.add_assoc] at hrest
    exact Or.inr hrest.1

def requestOptions (serverIp requestedIp : Ipv4) : List (Nat × DhcpOption) :=
  [(0, ⟨dhcpOptMsgType, [dhcpRequest], by decide, by decide, by decide⟩),
    (0, ⟨dhcpOptServerId, bytes32 serverIp, by decide, by decide, by simp⟩),
    (0, ⟨dhcpOptReqIp, bytes32 requestedIp, by decide, by decide, by simp⟩)]

lemma namedType_request (serverIp requestedIp : Ipv4) :
    namedType (requestOptions serverIp requestedIp) = dhcpRequest := rfl

lemma namedServer_request (serverIp requestedIp : Ipv4) :
    namedServer (requestOptions serverIp requestedIp) = serverIp :=
  (starts_memOf (bytes32 serverIp)).reads32

@[simp] lemma dhcpPacket_length (s : NetState) : (dhcpPacket s).length = 240 := by
  simp only [dhcpPacket, List.length_append, List.length_replicate, List.length_cons,
    List.length_nil, bytes32_length, bytes16_length, MacAddr.bytes_length]

/-- What the DHCP senders send has the options at offset 282. -/
lemma dhcpSend_sent (tx : Nat → Bool) {options : List Byte} (hsize : options.length ≤ 64)
    (s : NetState) : ∃ headers, headers.length = 282 ∧
    (dhcpSend tx options s).sent = s.sent ++ [headers ++ options] := by
  have hfits : ¬ (udpDatagram dhcpClientPort dhcpServerPort (dhcpPacket s ++ options)).length >
    1500 := by
    rw [udpDatagram_length, List.length_append, dhcpPacket_length]
    omega
  rw [dhcpSend, ipv4Send_sent, ipv4Frames, if_neg hfits, route, if_pos rfl]
  simp only [ethFrame, ipv4Packet, udpDatagram, ← List.append_assoc]
  refine ⟨_, ?_, rfl⟩
  simp

lemma request_parsed (tx : Nat → Bool) (serverIp requestedIp : Ipv4) (s : NetState) :
    ∃ frame, (dhcpSendRequest tx serverIp requestedIp s).sent = s.sent ++ [frame] ∧
    ∀ data, Starts data 0 frame →
    dhcpParseOptions (shift data 282) (frame.length - 282) = (dhcpRequest, serverIp) := by
  have hoptions : [dhcpOptMsgType, 1, dhcpRequest] ++ [dhcpOptServerId, 4] ++ bytes32 serverIp ++
      [dhcpOptReqIp, 4] ++ bytes32 requestedIp ++ [dhcpOptEnd] =
        encodeOptions (requestOptions serverIp requestedIp) ++ List.replicate 0 dhcpOptPad ++
          [dhcpOptEnd] := rfl
  have hsize : (encodeOptions (requestOptions serverIp requestedIp) ++
      List.replicate 0 dhcpOptPad ++ [dhcpOptEnd]).length ≤ 64 := Nat.le_of_ble_eq_true rfl
  obtain ⟨headers, hheaders, hsent⟩ := dhcpSend_sent tx hsize s
  refine ⟨_, by rw [dhcpSendRequest, hoptions, hsent], fun data hdata => ?_⟩
  rw [starts_append, Nat.zero_add, hheaders] at hdata
  have hparsed := parse_encoded (starts_shift.mpr hdata.2) rfl (Or.inr rfl)
  rw [List.length_append, hheaders, Nat.add_sub_cancel_left, hparsed, namedType_request,
    namedServer_request]

/-- Encoded options are decoded: the type and the server are those of the
last options that name them. The options of a REQUEST name it and the
server. -/
theorem dhcp_options_decode :
    (∀ (data : Nat → Byte) (options : List (Nat × DhcpOption)) (n : Nat) (tail : List Byte)
      (len rounds : Nat),
      Starts data 0 (encodeOptions options ++ List.replicate n dhcpOptPad ++ tail) →
      len = (encodeOptions options ++ List.replicate n dhcpOptPad ++ tail).length →
      (tail = [] ∨ tail.head? = some dhcpOptEnd) → len < rounds →
      (Reads.dhcpParseOptions data len rounds).result =
        some (decide (namedType options ≠ 0), namedType options, namedServer options)) ∧
    ∀ (tx : Nat → Bool) (serverIp requestedIp : Ipv4) (s : NetState),
      ∃ frame, (dhcpSendRequest tx serverIp requestedIp s).sent = s.sent ++ [frame] ∧
        ∀ data, Starts data 0 frame → ∀ rounds > frame.length - 282,
          (Reads.dhcpParseOptions (shift data 282) (frame.length - 282) rounds).result =
            some (true, dhcpRequest, serverIp) := by
  constructor
  · intro data options n tail len rounds hdata hlen htail hrounds
    rw [Reads.result_dhcpParseOptions hrounds, parse_encoded hdata hlen htail]
  · intro tx serverIp requestedIp s
    obtain ⟨frame, hsent, hparsed⟩ := request_parsed tx serverIp requestedIp s
    refine ⟨frame, hsent, fun data hdata rounds hrounds => ?_⟩
    rw [Reads.result_dhcpParseOptions hrounds, hparsed data hdata]
    rfl

/-- A PAD byte, the type of an OFFER and END. -/
theorem dhcp_options_decode_offer :
    (Reads.dhcpParseOptions (memOf [dhcpOptPad, dhcpOptMsgType, 1, dhcpOffer,
      dhcpOptEnd]) 5 6).result =
      some (true, dhcpOffer, 0) :=
  dhcp_options_decode.1 _ [(1, ⟨dhcpOptMsgType, [dhcpOffer], by decide, by decide, by decide⟩)] 0
    [dhcpOptEnd] 5 6 (starts_memOf _) rfl (Or.inr rfl) (by decide)

end

end VortexOS.Net
