/-
VortexOS.Net.ArpCache — the ARP cache as a map with a history.

`arp_cache_insert` keeps its entries in a ring of 16 slots. A hit changes
the MAC in place and does not move the ring; a miss takes the place of the
oldest miss. So the entries are those of the last 16 misses
(`VortexOS.Lib.SlotRing`). `misses` is defined along the run: an address
that was evicted and comes back is a miss again.
-/
import VortexOS.Lib.SlotRing
import VortexOS.Net.Receive

namespace VortexOS.Net

open Function Lib

/-! ## Runs of inserts -/

def NetState.Cached (s : NetState) (ip : Ipv4) : Prop :=
  ∃ i < arpCacheSize, (s.gArpCache i).valid = true ∧ (s.gArpCache i).ip = ip

instance (s : NetState) (ip : Ipv4) : Decidable (s.Cached ip) :=
  inferInstanceAs (Decidable (∃ i < arpCacheSize,
    (s.gArpCache i).valid = true ∧ (s.gArpCache i).ip = ip))

def insertAll (inserts : List (Ipv4 × MacAddr)) (s : NetState) : NetState :=
  inserts.foldl (fun s p => arpCacheInsert p.1 p.2 s) s

/-- The addresses that were not cached when they were inserted. -/
def misses : NetState → List (Ipv4 × MacAddr) → List Ipv4
  | _, [] => []
  | s, p :: inserts =>
    (if s.Cached p.1 then [] else [p.1]) ++ misses (arpCacheInsert p.1 p.2 s) inserts

def lastMac (ip : Ipv4) (inserts : List (Ipv4 × MacAddr)) : Option MacAddr :=
  (inserts.reverse.find? fun p => p.1 = ip).map (·.2)

/-! ## One insert -/

def ArpEntry.held (e : ArpEntry) :
    Option (Ipv4 × MacAddr) := if e.valid then some (e.ip, e.mac) else none

section

variable {s : NetState} {ip : Ipv4} {mac : MacAddr} {i : Nat} {missed : List Ipv4}
  {history : List (Ipv4 × MacAddr)}

lemma held_eq_some {e : ArpEntry} {p : Ipv4 × MacAddr} :
    e.held = some p ↔ e.valid = true ∧ e.ip = p.1 ∧ e.mac = p.2 := by
  unfold ArpEntry.held
  split <;> simp_all [Prod.ext_iff]

lemma arpCacheFind_none (h : arpCacheFind ip s = none) : ¬ s.Cached ip := by
  rintro ⟨i, hi, hvalid, hip⟩
  have hnot := List.find?_eq_none.mp h i (List.mem_range.mpr hi)
  simp [hvalid, hip] at hnot

lemma arpCacheFind_some (h : arpCacheFind ip s = some i) :
    i < arpCacheSize ∧ (s.gArpCache i).valid = true ∧ (s.gArpCache i).ip = ip := by
  have hfound := List.find?_some h
  rw [Bool.and_eq_true, beq_iff_eq] at hfound
  exact ⟨List.mem_range.mp (List.mem_of_find?_eq_some h), hfound⟩

/-- What the cache holds after the inserts of `history`, of which those of
`missed` were misses. -/
def CacheHolds (s : NetState) (missed : List Ipv4) (history : List (Ipv4 × MacAddr)) : Prop :=
  ∃ recent : List (Ipv4 × MacAddr),
    Ring arpCacheSize (fun i => (s.gArpCache i).held) s.gArpCacheNext recent ∧
      recent.map (·.1) = missed.reverse.take arpCacheSize ∧ (recent.map (·.1)).Nodup ∧
      ∀ p ∈ recent, lastMac p.1 history = some p.2

lemma cached_iff {recent : List (Ipv4 × MacAddr)}
    (h : Ring arpCacheSize (fun i => (s.gArpCache i).held) s.gArpCacheNext recent) :
    s.Cached ip ↔ ip ∈ recent.map (·.1) := by
  simp only [List.mem_map, ← h.mem_iff, held_eq_some]
  constructor
  · rintro ⟨i, hi, hvalid, hip⟩
    exact ⟨(ip, (s.gArpCache i).mac), ⟨i, hi, hvalid, hip, rfl⟩, rfl⟩
  · rintro ⟨p, ⟨i, hi, hvalid, hip, -⟩, rfl⟩
    exact ⟨i, hi, hvalid, hip⟩

lemma lastMac_concat (ip : Ipv4) (history : List (Ipv4 × MacAddr)) (p : Ipv4 × MacAddr) :
    lastMac ip (history ++ [p]) = if p.1 = ip then some p.2 else lastMac ip history := by
  simp only [lastMac, List.reverse_append, List.reverse_singleton, List.singleton_append,
    List.find?_cons]
  by_cases hip : p.1 = ip <;> simp [hip]

lemma CacheHolds.miss (h : CacheHolds s missed history) (hfind : arpCacheFind ip s = none) :
    CacheHolds (arpCacheInsert ip mac s) (missed ++ [ip]) (history ++ [(ip, mac)]) := by
  obtain ⟨recent, hring, hkeys, hnodup, hmac⟩ := h
  have hnew : ip ∉ recent.map (·.1) := mt (cached_iff hring).mpr (arpCacheFind_none hfind)
  have hslots : (fun i => ((arpCacheInsert ip mac s).gArpCache i).held) =
      update (fun i => (s.gArpCache i).held) s.gArpCacheNext (some (ip, mac)) := by
    funext i
    rw [arpCacheInsert, hfind]
    by_cases hi : i = s.gArpCacheNext <;> simp [update_apply, hi, ArpEntry.held]
  have hnext : (arpCacheInsert ip mac s).gArpCacheNext = (s.gArpCacheNext + 1) % arpCacheSize := by
    rw [arpCacheInsert, hfind]
  refine ⟨((ip, mac) :: recent).take arpCacheSize, ?_, ?_, ?_, fun p hp => ?_⟩
  · rw [hslots, hnext]
    exact hring.push (ip, mac)
  · rw [List.map_take, List.map_cons, hkeys, List.reverse_append, List.reverse_singleton,
      List.singleton_append]
    simp only [arpCacheSize, List.take_succ_cons, List.take_take, Nat.min_def]
    rfl
  · rw [List.map_take]
    exact ((List.nodup_cons.mpr ⟨hnew, hnodup⟩).sublist (List.take_sublist _ _))
  · rw [lastMac_concat]
    rcases List.mem_cons.mp (List.mem_of_mem_take hp) with rfl | hold
    · exact if_pos rfl
    · have hne : ip ≠ p.1 := fun heq => hnew (heq ▸ List.mem_map_of_mem hold)
      rw [if_neg hne, hmac p hold]

lemma CacheHolds.hit (h : CacheHolds s missed history) (hfind : arpCacheFind ip s = some i) :
    CacheHolds (arpCacheInsert ip mac s) missed (history ++ [(ip, mac)]) := by
  obtain ⟨recent, hring, hkeys, hnodup, hmac⟩ := h
  obtain ⟨hi, hvalid, hip⟩ := arpCacheFind_some hfind
  have hheld : (s.gArpCache i).held = some (ip, (s.gArpCache i).mac) :=
    held_eq_some.mpr ⟨hvalid, hip, rfl⟩
  let change : Ipv4 × MacAddr → Ipv4 × MacAddr := fun p => if p.1 = ip then (ip, mac) else p
  have hkey : ∀ p, (change p).1 = p.1 := by
    intro p
    by_cases hp : p.1 = ip <;> simp [change, hp]
  have hmap : (recent.map change).map (·.1) = recent.map (·.1) := by
    rw [List.map_map]
    exact List.map_congr_left fun p _ => hkey p
  have hslots : ∀ j < arpCacheSize, ((arpCacheInsert ip mac s).gArpCache j).held =
      (s.gArpCache j).held.map change := by
    intro j hj
    rw [arpCacheInsert, hfind]
    by_cases hji : j = i
    · subst hji
      simp [ArpEntry.held, hvalid, hip, change]
    · -- the address is in no other slot
      simp only [update_of_ne hji]
      cases hother : (s.gArpCache j).held with
      | none => rfl
      | some p =>
        have hne : p.1 ≠ ip := fun heq => hji (hring.slot_inj hnodup hj hi hother hheld heq)
        simp [change, hne]
  refine ⟨recent.map change, ?_, hmap.trans hkeys, by rwa [hmap], fun p hp => ?_⟩
  · have hnext : (arpCacheInsert ip mac s).gArpCacheNext = s.gArpCacheNext := by
      rw [arpCacheInsert, hfind]
    rw [hnext]
    exact (hring.map change).congr hslots
  · obtain ⟨p, hold, rfl⟩ := List.mem_map.mp hp
    rw [lastMac_concat, hkey]
    by_cases hp : p.1 = ip
    · simp [change, hp]
    · rw [if_neg (Ne.symm hp), hmac p hold]
      simp [change, hp]

end

/-! ## Runs -/

section

variable {s : NetState} {missed : List Ipv4} {history : List (Ipv4 × MacAddr)}

lemma CacheHolds.insertAll (h : CacheHolds s missed history) (inserts : List (Ipv4 × MacAddr)) :
    CacheHolds (insertAll inserts s) (missed ++ misses s inserts) (history ++ inserts) := by
  induction inserts generalizing s missed history with
  | nil => simpa [Net.insertAll, misses] using h
  | cons p inserts ih =>
    cases hfind : arpCacheFind p.1 s with
    | none =>
      have hone : CacheHolds (arpCacheInsert p.1 p.2 s) (missed ++ [p.1]) (history ++ [p]) :=
        h.miss hfind
      have hrest := ih hone
      simpa [Net.insertAll, misses, arpCacheFind_none hfind] using hrest
    | some i =>
      obtain ⟨hi, hvalid, hip⟩ := arpCacheFind_some hfind
      have hcached : s.Cached p.1 := ⟨i, hi, hvalid, hip⟩
      have hone : CacheHolds (arpCacheInsert p.1 p.2 s) missed (history ++ [p]) := h.hit hfind
      have hrest := ih hone
      simpa [Net.insertAll, misses, hcached] using hrest

lemma OnlySent.arpCache {s s' : NetState} (h : OnlySent s s') :
    s'.gArpCache = s.gArpCache ∧ s'.gArpCacheNext = s.gArpCacheNext := by
  obtain ⟨ident, frames, rfl⟩ := h
  exact ⟨rfl, rfl⟩

lemma netInit_arpCache (tx : Nat → Bool) (mac : MacAddr) (s : NetState) :
    (∀ i < arpCacheSize, ((netInit tx mac s).gArpCache i).valid = false) ∧
    (netInit tx mac s).gArpCacheNext = s.gArpCacheNext := by
  have hsend := fun payload s => (ipv4Send_onlySent tx 0xFFFFFFFF ipprotoUdp payload s).arpCache
  simp only [netInit, dhcpSendDiscover, dhcpSend, hsend]
  exact ⟨fun i hi => by rw [if_pos hi], trivial⟩

lemma cacheHolds_netInit (tx : Nat → Bool) (mac : MacAddr)
    (hnext : s.gArpCacheNext < arpCacheSize) : CacheHolds (netInit tx mac s) [] [] := by
  obtain ⟨hvalid, hindex⟩ := netInit_arpCache tx mac s
  rw [← hindex] at hnext
  refine ⟨[], .empty hnext fun i hi => ?_, by simp, by simp, by simp⟩
  rw [ArpEntry.held, hvalid i hi]
  rfl

/-- After any inserts from `net_init` on, no two valid entries have one
address, the addresses are those of the last 16 misses, and a lookup finds
the MAC of the last insert for the address if it is one of them. -/
theorem arp_cache_fifo (tx : Nat → Bool) (mac : MacAddr) {s0 s : NetState} {missed : List Ipv4}
    (inserts : List (Ipv4 × MacAddr)) (hnext : s0.gArpCacheNext < arpCacheSize)
    (hs : insertAll inserts (netInit tx mac s0) = s)
    (hmissed : misses (netInit tx mac s0) inserts = missed) :
    (∀ i < arpCacheSize, ∀ j < arpCacheSize, (s.gArpCache i).valid = true →
      (s.gArpCache j).valid = true →
        (s.gArpCache i).ip = (s.gArpCache j).ip → i = j) ∧
      (∀ ip, s.Cached ip ↔ ip ∈ missed.rtake (min arpCacheSize missed.length)) ∧
      ∀ ip, ((arpCacheLookup ip s).isSome ↔ s.Cached ip) ∧
        ∀ m, arpCacheLookup ip s = some m → lastMac ip inserts = some m := by
  have hholds := (cacheHolds_netInit tx mac hnext).insertAll inserts
  rw [hs, hmissed, List.nil_append, List.nil_append] at hholds
  obtain ⟨recent, hring, hkeys, hnodup, hmac⟩ := hholds
  refine ⟨fun i hi j hj hvi hvj hip => ?_, fun ip => ?_, fun ip => ⟨?_, fun m hlookup => ?_⟩⟩
  · have hi' := held_eq_some (p := ((s.gArpCache i).ip, (s.gArpCache i).mac)).mpr ⟨hvi, rfl, rfl⟩
    have hj' := held_eq_some (p := ((s.gArpCache j).ip, (s.gArpCache j).mac)).mpr ⟨hvj, rfl, rfl⟩
    exact hring.slot_inj hnodup hi hj hi' hj' hip
  · have htake : missed.reverse.take arpCacheSize =
      missed.reverse.take (min arpCacheSize missed.length) := by
      rw [← List.length_reverse, ← List.take_eq_take_min]
    rw [cached_iff hring, hkeys, List.rtake_eq_reverse_take_reverse, List.mem_reverse, htake]
  · rw [arpCacheLookup, Option.isSome_map]
    cases hfind : arpCacheFind ip s with
    | none => simpa using arpCacheFind_none hfind
    | some i =>
      obtain ⟨hi, hvalid, hip⟩ := arpCacheFind_some hfind
      exact iff_of_true rfl ⟨i, hi, hvalid, hip⟩
  · obtain ⟨i, hfind, rfl⟩ := Option.map_eq_some_iff.mp hlookup
    obtain ⟨hi, hvalid, hip⟩ := arpCacheFind_some hfind
    exact hmac (ip, _) (hring.mem_iff.mp ⟨i, hi, held_eq_some.mpr ⟨hvalid, hip, rfl⟩⟩)

/-- Three inserts, the last one a hit, of which two addresses are left. -/
theorem arp_cache_fifo_three :
    let inserts := [(0x0A000001, gBroadcastMac), (0x0A000002, gBroadcastMac), (0x0A000001, nullMac)]
    let s := insertAll inserts (netStart (fun _ => true) nullMac)
    misses (netStart (fun _ => true) nullMac) inserts = [0x0A000001, 0x0A000002] ∧
      (∀ ip, s.Cached ip ↔ ip ∈ [0x0A000001#32, 0x0A000002#32].rtake 2) ∧
      ∀ m, arpCacheLookup 0x0A000001 s = some m → lastMac 0x0A000001 inserts = some m := by
  have hmissed : misses (netStart (fun _ => true) nullMac)
      [(0x0A000001, gBroadcastMac), (0x0A000002, gBroadcastMac), (0x0A000001, nullMac)] =
        [0x0A000001, 0x0A000002] := by decide +kernel
  have hnext : NetState.boot.gArpCacheNext < arpCacheSize := by decide
  have hfifo := arp_cache_fifo (fun _ => true) nullMac _ hnext rfl hmissed
  exact ⟨hmissed, hfifo.2.1, (hfifo.2.2 0x0A000001).2⟩

end

end VortexOS.Net
