/-
VortexOS.Net.Ports — which socket the datagrams for a port go to.

`sys_socket_bind` compares the port with nothing, a new socket counts as
bound to port 0, and `udp_find_socket` takes the first socket with the port.
`Books` are what a caller knows from the results of the calls, and along
every run the table of sockets agrees with them (`portsAfter_ok`).
-/
import VortexOS.Net.SocketTheorems

namespace VortexOS.Net

open Function

/-- For every open socket, the port of the bind in effect, if there is one. -/
abbrev Books := Nat → Option (Option (BitVec 16))

/-- What the result of a call says. -/
def Books.after (h : Books) (s : NetState) : NetOp → Books
  | .create =>
    match validFd maxUdpSockets (sysSocketCreate s).1 with
    | some i => update h i (some none)
    | none => h
  | .bind fd port =>
    if (sysSocketBind fd port s).1 = 0 then update h fd.toNat (some (some port)) else h
  | .close fd => if (sysSocketClose fd s).1 = 0 then update h fd.toNat none else h
  | _ => h

def portStep (tx : Nat → Bool) (st : NetState × Books) (op : NetOp) : NetState × Books :=
  ((netStep tx st.1 op).getD st.1, st.2.after st.1 op)

/-- The sockets and the books after the calls `ops` from `net_init` on. -/
def portsAfter (tx : Nat → Bool) (mac : MacAddr) (ops : List NetOp) : NetState × Books :=
  ops.foldl (portStep tx) (netStart tx mac, fun _ => none)

/-- A port belongs to one socket. -/
structure PortsOwned (s : NetState) (h : Books) : Prop where
  distinct : ∀ i < maxUdpSockets, ∀ j < maxUdpSockets, (s.gUdpSockets i).state ≠ .free →
    (s.gUdpSockets j).state ≠ .free → (s.gUdpSockets i).localPort = (s.gUdpSockets j).localPort →
    (s.gUdpSockets i).localPort ≠ 0 → i = j
  unbound : ∀ port i, udpFindSocket port s = some i → h i ≠ some none
  owner : ∀ port i, udpFindSocket port s = some i ↔ h i = some (some port)

/-- No two sockets are bound to one port, and a socket without a bind comes
after one that is bound to port 0. -/
structure PortsApart (h : Books) : Prop where
  bound : ∀ i j port, h i = some (some port) → h j = some (some port) → i = j
  unbound : ∀ i, h i = some none → ∃ j < i, h j = some (some 0)

/-! ## The table and the books -/

def UdpControlBlock.openPort (sock : UdpControlBlock) : Option (BitVec 16) :=
  if sock.state = .free then none else some sock.localPort

structure BooksOk (s : NetState) (h : Books) : Prop where
  port : ∀ i, (s.gUdpSockets i).openPort = (h i).map (·.getD 0)
  inside : ∀ i, h i ≠ none → i < maxUdpSockets

section

variable {tx : Nat → Bool} {s s' : NetState} {h : Books} {i : Nat} {port : BitVec 16} {fd : Int}

lemma validFd_eq (hfd : validFd maxUdpSockets fd = some i) : fd.toNat = i ∧ i < maxUdpSockets := by
  unfold validFd at hfd
  split at hfd
  · cases hfd
  · cases hfd
    exact ⟨rfl, by omega⟩

lemma BooksOk.update (hok : BooksOk s h) (hi : i < maxUdpSockets)
    {f : UdpControlBlock → UdpControlBlock} {b : Option (Option (BitVec 16))}
    (hb : (f (s.gUdpSockets i)).openPort = b.map (·.getD 0))
    (hs : s'.gUdpSockets = (s.modUdp i f).gUdpSockets) : BooksOk s' (update h i b) := by
  constructor
  · intro j
    rw [hs]
    by_cases hj : j = i
    · subst hj
      rw [modUdp_self, update_self, hb]
    · rw [modUdp_of_ne f hj, update_of_ne hj, hok.port]
  · intro j hne
    by_cases hj : j = i
    · rw [hj]
      exact hi
    · rw [update_of_ne hj] at hne
      exact hok.inside j hne

lemma BooksOk.same (hok : BooksOk s h)
    (hs : ∀ i, (s'.gUdpSockets i).openPort = (s.gUdpSockets i).openPort) : BooksOk s' h :=
  ⟨fun i => (hs i).trans (hok.port i), hok.inside⟩

lemma UdpChange.openPort {op : NetOp} {f : UdpControlBlock → UdpControlBlock}
    (hchange : UdpChange s op i f)
    (hop : op ≠ .create ∧ (∀ fd port, op ≠ .bind fd port) ∧ ∀ fd, op ≠ .close fd) :
    (f (s.gUdpSockets i)).openPort = (s.gUdpSockets i).openPort := by
  cases hchange with
  | create => exact absurd rfl hop.1
  | bind => exact absurd rfl (hop.2.1 _ _)
  | close => exact absurd rfl (hop.2.2 _)
  | connect _ hopen => simp [UdpControlBlock.openPort, hopen]
  | recv => rfl
  | deliver => rfl

lemma BooksOk.step (hok : BooksOk s h) (op : NetOp) :
    BooksOk (portStep tx (s, h) op).1 (portStep tx (s, h) op).2 := by
  have hstep : netStep tx s op = some (portStep tx (s, h) op).1 := by cases op <;> rfl
  cases op with
  | create =>
    simp only [portStep, netStep, Books.after, sysSocketCreate, udpAllocSocket, Option.getD_some]
    cases hfind : (List.range maxUdpSockets).find? fun i => (s.gUdpSockets i).state = .free with
    | none => exact hok
    | some i =>
      have hi := List.mem_range.mp (List.mem_of_find?_eq_some hfind)
      have hfd : validFd maxUdpSockets i = some i := if_neg (by omega)
      simp only [hfd]
      exact hok.update hi rfl rfl
  | bind fd port =>
    simp only [portStep, netStep, Books.after, Option.getD_some]
    cases hfd : validFd maxUdpSockets fd with
    | none =>
      have hcall : sysSocketBind fd port s = (-1, s) := by rw [sysSocketBind, hfd]
      rw [hcall]
      exact hok
    | some i =>
      obtain ⟨hi, hlt⟩ := validFd_eq hfd
      by_cases hfree : (s.gUdpSockets i).state = .free
      · have hcall : sysSocketBind fd port s = (-1, s) := by
          simp only [sysSocketBind, hfd, hfree, if_true]
        rw [hcall]
        exact hok
      · have hcall : sysSocketBind fd port s =
            (0, s.modUdp i fun sock => { sock with localPort := port, state := .bound }) := by
          simp only [sysSocketBind, hfd, hfree, if_false]
        rw [hcall, if_pos rfl, hi]
        exact hok.update hlt rfl rfl
  | close fd =>
    simp only [portStep, netStep, Books.after, Option.getD_some]
    cases hfd : validFd maxUdpSockets fd with
    | none =>
      have hcall : sysSocketClose fd s = (-1, s) := by rw [sysSocketClose, hfd]
      rw [hcall]
      exact hok
    | some i =>
      obtain ⟨hi, hlt⟩ := validFd_eq hfd
      have hcall : sysSocketClose fd s = (0, s.modUdp i
          fun sock => { sock with state := .free }) := by
        rw [sysSocketClose, hfd]
      rw [hcall, if_pos rfl, hi]
      exact hok.update hlt rfl rfl
  | _ =>
    refine hok.same fun j => ?_
    obtain ⟨heq, -⟩ | ⟨i, f, hchange, heq⟩ := netStep_udp hstep
    · rw [heq]
    · rw [heq]
      by_cases hj : j = i
      · subst hj
        rw [modUdp_self]
        exact hchange.openPort (by simp)
      · rw [modUdp_of_ne f hj]

lemma netStart_gUdpSockets (tx : Nat → Bool) (mac : MacAddr) (i : Nat) :
    ((netStart tx mac).gUdpSockets i).state = .free := by
  simp only [netStart, netInit, dhcpSendDiscover, dhcpSend, (ipv4Send_onlySent ..).gUdpSockets]
  split <;> rfl

lemma portsAfter_ok (tx : Nat → Bool) (mac : MacAddr) (ops : List NetOp) :
    BooksOk (portsAfter tx mac ops).1 (portsAfter tx mac ops).2 := by
  induction ops using List.reverseRecOn with
  | nil =>
    refine ⟨fun i => ?_, fun i hne => absurd rfl hne⟩
    rw [portsAfter, List.foldl_nil, UdpControlBlock.openPort,
      if_pos (netStart_gUdpSockets tx mac i)]
    rfl
  | append_singleton ops op ih =>
    rw [portsAfter, List.foldl_append]
    exact ih.step op

lemma BooksOk.found_iff (hok : BooksOk s h) : udpFindSocket port s = some i ↔
      (h i).map (·.getD 0) = some port ∧ ∀ j < i, (h j).map (·.getD 0) ≠ some port := by
  have hhas : ∀ j, ((s.gUdpSockets j).state ≠ .free && (s.gUdpSockets j).localPort == port) = true ↔
      (h j).map (·.getD 0) = some port := by
    intro j
    rw [← hok.port j, UdpControlBlock.openPort]
    by_cases hfree : (s.gUdpSockets j).state = .free
    · simp [hfree]
    · simp [hfree]
  rw [udpFindSocket, List.find?_range_eq_some, hhas]
  simp only [Bool.not_eq_eq_eq_not, Bool.not_true, ← Bool.not_eq_true, hhas, List.mem_range]
  refine and_congr_right fun hi => and_iff_right (hok.inside i fun hnone => ?_)
  rw [hnone] at hi
  cases hi

lemma BooksOk.exists_found (hok : BooksOk s h) (hi : (h i).map (·.getD 0) = some port) :
    ∃ j ≤ i, udpFindSocket port s = some j := by
  classical
  have hex : ∃ j, (h j).map (·.getD 0) = some port := ⟨i, hi⟩
  exact ⟨Nat.find hex, Nat.find_le hi, hok.found_iff.mpr ⟨Nat.find_spec hex,
    fun j hj => Nat.find_min hex hj⟩⟩

lemma BooksOk.owned_iff (hok : BooksOk s h) : PortsOwned s h ↔ PortsApart h := by
  constructor
  · intro howned
    constructor
    · intro i j port hi hj
      exact Option.some.inj (((howned.owner port i).mpr hi).symm.trans
        ((howned.owner port j).mpr hj))
    · intro i hi
      obtain ⟨j, hle, hj⟩ := hok.exists_found (show (h i).map (·.getD 0) = some 0 by rw [hi]; rfl)
      have hbound := (howned.owner 0 j).mp hj
      refine ⟨j, Nat.lt_of_le_of_ne hle fun heq => ?_, hbound⟩
      rw [heq, hi] at hbound
      cases hbound
  · intro hapart
    have hunbound : ∀ port i, udpFindSocket port s = some i → h i ≠ some none := by
      intro port i hi hnone
      obtain ⟨hport, hfirst⟩ := hok.found_iff.mp hi
      obtain ⟨j, hj, hbound⟩ := hapart.unbound i hnone
      refine hfirst j hj ?_
      rw [hbound, ← hport, hnone]
      rfl
    have howner : ∀ port i, udpFindSocket port s = some i → h i = some (some port) := by
      intro port i hi
      have hport := (hok.found_iff.mp hi).1
      have hne := hunbound port i hi
      rcases hb : h i with _ | _ | q
      · simp [hb] at hport
      · exact absurd hb hne
      · simpa [hb] using hport
    refine ⟨?_, hunbound, fun port i => ⟨howner port i, fun hi => ?_⟩⟩
    · intro i _ j _ hi hj heq hne
      have hbound : ∀ k, (s.gUdpSockets k).state ≠ .free → (s.gUdpSockets k).localPort ≠ 0 →
          h k = some (some (s.gUdpSockets k).localPort) := by
        intro k hopen hne
        have hport := hok.port k
        rw [UdpControlBlock.openPort, if_neg hopen] at hport
        rcases hb : h k with _ | _ | q
        · simp [hb] at hport
        · simp [hb] at hport
          exact absurd hport hne
        · simpa [hb] using hport.symm
      exact hapart.bound i j _ (hbound i hi hne) (heq ▸ hbound j hj (heq ▸ hne))
    · obtain ⟨j, -, hj⟩ := hok.exists_found (show (h i).map (·.getD 0) = some port by rw [hi]; rfl)
      rw [hj, hapart.bound i j port hi (howner port j hj)]

end

/-- After any calls, a port belongs to one socket exactly if the binds in
effect are apart. -/
theorem ports_owned_iff (tx : Nat → Bool) (mac : MacAddr) (ops : List NetOp) :
    PortsOwned (portsAfter tx mac ops).1 (portsAfter tx mac ops).2 ↔
      PortsApart (portsAfter tx mac ops).2 :=
  (portsAfter_ok tx mac ops).owned_iff

def sharedPort : List NetOp := [.create, .create, .bind 0 80, .bind 1 80]

/-- Both binds succeed, and the datagrams go to the first socket. -/
theorem port_shared : ∃ s h, portsAfter (fun _ => true) nullMac sharedPort = (s, h) ∧
    h 0 = some (some 80) ∧ h 1 = some (some 80) ∧ udpFindSocket 80 s = some 0 ∧
    (s.gUdpSockets 0).localPort = 80 ∧ (s.gUdpSockets 1).localPort = 80 := by
  refine ⟨_, _, rfl, ?_⟩
  set_option maxRecDepth 8000 in decide

end VortexOS.Net
