/-
VortexOS.Fs.DevConsole — writes to `/dev/console`, `kernel/vfs.cpp`, and the
serial port, `arch/x86_64/serial.cpp`.

`dev_console_write` returns the size, and passes the buffer on to
`serial_write`, which takes a string that ends with a zero. Either that zero
is in the buffer, and what follows it is not sent, or bytes behind the
buffer are read. No write with a size above 0 sends its bytes and reads
nothing else (`console_write_iff`).

The same byte is read up to three times in a round, which is logged once.
The transmitter is taken to get empty.
-/
import VortexOS.Fs.Vfs
import VortexOS.Lib.Logged
import VortexOS.Lib.Word

namespace VortexOS.Fs

open Lib

/-! ## The serial port -/

inductive SerialEvent where
  | read (addr : Nat)
  | send (ch : Byte)
  deriving DecidableEq, Repr

def newline : Byte := 0x0A
def carriageReturn : Byte := 0x0D

def serialPutchar (ch : Byte) : Logged SerialEvent Unit := ⟨[.send ch], some ()⟩

def readChar (mem : Nat → Byte) (str : Nat) :
    Logged SerialEvent Byte := ⟨[.read str], some (mem str)⟩

/-- The loop of `serial_write`. If it has gone around the address space
without a zero, it does not end. -/
def serialWriteLoop (mem : Nat → Byte) : Nat → Nat → Logged SerialEvent Unit
  | 0, _ => .quiet none
  | n + 1, str =>
    (readChar mem str).bind fun ch =>
      if ch = 0 then .quiet (some ())
      else
        (if ch = newline then serialPutchar carriageReturn else .quiet (some ())).bind fun _ =>
          (serialPutchar ch).bind fun _ => serialWriteLoop mem n (add64 str 1)

def serialWrite (mem : Nat → Byte) (str : Nat) : Logged SerialEvent Unit :=
  if str = 0 then .quiet (some ()) else serialWriteLoop mem (2 ^ 64) str

/-- `dev_console_write`. The node and the offset are not used. -/
def devConsoleWrite (mem : Nat → Byte) (size buffer : Nat) : Logged SerialEvent Nat :=
  if buffer = 0 ∨ size = 0 then .quiet (some 0)
  else (serialWrite mem buffer).map fun _ => size

/-! ## What is sent -/

def sentAs (ch : Byte) : List Byte := if ch = newline then [carriageReturn, ch] else [ch]

def SerialEvent.byte : SerialEvent → Option Byte
  | .read _ => none
  | .send ch => some ch

def sentBytes (log : List SerialEvent) : List Byte := log.filterMap SerialEvent.byte

lemma sentBytes_round (a : Nat) (bs : List Byte) (log : List SerialEvent) :
    sentBytes (.read a :: bs.map .send ++ log) = bs ++ sentBytes log := by
  have hbs : (bs.map SerialEvent.send).filterMap SerialEvent.byte = bs := by
    rw [List.filterMap_map]
    exact List.filterMap_some
  simp only [sentBytes, List.cons_append, List.filterMap_cons, SerialEvent.byte,
    List.filterMap_append, hbs]

section

variable {mem : Nat → Byte} {n str : Nat}

lemma serialWriteLoop_succ (mem : Nat → Byte) (n str : Nat) : serialWriteLoop mem (n + 1) str =
    if mem str = 0 then ⟨[.read str], some ()⟩
    else ⟨.read str :: (sentAs (mem str)).map .send ++ (serialWriteLoop mem n (add64 str 1)).log,
      (serialWriteLoop mem n (add64 str 1)).result⟩ := by
  rw [serialWriteLoop]
  simp only [readChar, Logged.bind]
  by_cases hzero : mem str = 0
  · rw [if_pos hzero, if_pos hzero]
    rfl
  · rw [if_neg hzero, if_neg hzero]
    by_cases hline : mem str = newline
    · simp [hline, sentAs, serialPutchar]
    · simp [hline, sentAs, serialPutchar, Logged.quiet]

/-- The loop ends at a zero, which it has read, and has sent what is before
it. -/
lemma serialWriteLoop_returns (hstr : str < 2 ^ 64)
    (h : (serialWriteLoop mem n str).result = some ()) :
    ∃ k < n, mem (add64 str k) = 0 ∧ .read (add64 str k) ∈ (serialWriteLoop mem n str).log ∧
    sentBytes (serialWriteLoop mem n str).log =
      ((List.range k).map fun i => mem (add64 str i)).flatMap sentAs := by
  have hfirst : add64 str 0 = str := add64_of_lt hstr
  induction n generalizing str with
  | zero => cases h
  | succ n ih =>
    rw [serialWriteLoop_succ] at h ⊢
    by_cases hzero : mem str = 0
    · rw [if_pos hzero]
      exact ⟨0, Nat.succ_pos n, by rw [hfirst, hzero], by simp [hfirst], rfl⟩
    · rw [if_neg hzero] at h ⊢
      have hnext := add64_lt str 1
      obtain ⟨k, hk, hend, hread, hsent⟩ := ih hnext h (add64_of_lt hnext)
      have hadd : ∀ i, add64 (add64 str 1) i = add64 str (i + 1) := fun i => by
        rw [add64_add64, Nat.add_comm 1]
      simp only [hadd] at hend hread hsent
      refine ⟨k + 1, Nat.succ_lt_succ hk, hend, List.mem_append_right _ hread, ?_⟩
      rw [sentBytes_round, hsent, List.range_succ_eq_map, List.map_cons, List.flatMap_cons, hfirst,
        List.map_map]
      rfl

end

/-! ## Exact writes -/

/-- A call for `n` bytes at `b` has returned `n`, has read these bytes only,
and has sent them. -/
structure WritesExactly (mem : Nat → Byte) (b n : Nat) (w : Logged SerialEvent Nat) : Prop where
  returns : w.result = some n
  reads : ∀ a, .read a ∈ w.log → b ≤ a ∧ a < b + n
  sent : sentBytes w.log = ((List.range n).map fun i => mem (b + i)).flatMap sentAs

lemma length_sent_lt (f : Nat → Byte) {k n : Nat} (h : k < n) :
    (((List.range k).map f).flatMap sentAs).length <
      (((List.range n).map f).flatMap sentAs).length := by
  have hpos : ∀ ch, 0 < (sentAs ch).length := fun ch => by
    unfold sentAs
    split <;> simp
  have hstep : ∀ m, (((List.range (m + 1)).map f).flatMap sentAs).length =
      (((List.range m).map f).flatMap sentAs).length + (sentAs (f m)).length := fun m => by
    simp [List.range_succ]
  induction n with
  | zero => omega
  | succ n ih =>
    have hlast := hpos (f n)
    rw [hstep]
    cases Nat.lt_or_eq_of_le (Nat.le_of_lt_succ h) with
    | inl hlt => exact Nat.lt_of_lt_of_le (ih hlt) (Nat.le_add_right _ _)
    | inr heq =>
      subst heq
      omega

/-- For every buffer, whatever is in it and around it. -/
theorem console_write_iff (mem : Nat → Byte) {b n : Nat} (hb : b ≠ 0) (hend : b + n ≤ 2 ^ 64) :
    WritesExactly mem b n (devConsoleWrite mem n b) ↔ n = 0 := by
  constructor
  · intro h
    by_contra hn
    have hcall : devConsoleWrite mem n b = (serialWriteLoop mem (2 ^ 64) b).map fun _ => n := by
      rw [devConsoleWrite, if_neg (not_or.mpr ⟨hb, hn⟩), serialWrite, if_neg hb]
    rw [hcall] at h
    obtain ⟨u, hu, -⟩ := Option.map_eq_some_iff.mp h.returns
    obtain ⟨k, hk, -, hread, hsent⟩ := serialWriteLoop_returns (by omega) hu
    -- the zero is in the buffer, so that not all of it is sent
    have hin := h.reads _ hread
    have hlt : k < n := by
      unfold add64 at hin
      omega
    have hsame : ((List.range k).map fun i => mem (add64 b i)) = (List.range k).map fun i =>
        mem (b + i) :=
      List.map_congr_left fun i hi => by
        have hik := List.mem_range.mp hi
        rw [add64_of_lt (by omega)]
    have hlen := length_sent_lt (fun i => mem (b + i)) hlt
    rw [← hsame, ← hsent, ← h.sent] at hlen
    exact Nat.lt_irrefl _ hlen
  · rintro rfl
    rw [devConsoleWrite, if_pos (Or.inr rfl)]
    exact ⟨rfl, fun a ha => (by cases ha), rfl⟩

/-- Nothing is sent, and nothing is read. -/
theorem console_write_empty : WritesExactly (fun _ => 0x61) 0x1000 0
    (devConsoleWrite (fun _ => 0x61) 0 0x1000) :=
  (console_write_iff (fun _ => 0x61) (by decide) (by decide)).mpr rfl

def abcMem : Nat → Byte := fun a =>
  if a = 0x1000 then 0x61 else if a = 0x1001 then 0x62 else if a = 0x1002 then 0x63 else 0

/-- A write of two bytes sends three. -/
theorem console_write_past : (devConsoleWrite abcMem 2 0x1000).result = some 2 ∧
    (devConsoleWrite abcMem 2 0x1000).log =
      [.read 0x1000, .send 0x61, .read 0x1001, .send 0x62, .read 0x1002, .send 0x63, .read 0x1003] ∧
    ¬ WritesExactly abcMem 0x1000 2 (devConsoleWrite abcMem 2 0x1000) := by
  have hlog : (devConsoleWrite abcMem 2 0x1000).log =
      [.read 0x1000, .send 0x61, .read 0x1001, .send 0x62, .read 0x1002, .send 0x63,
        .read 0x1003] := by
    decide
  refine ⟨by decide, hlog, fun h => ?_⟩
  have hread := h.reads 0x1002 (by rw [hlog]; decide)
  omega

end VortexOS.Fs
