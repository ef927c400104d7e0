/-
VortexOS.Proc.UserPointers — which addresses `write` and `execve` load from.

No function compares an address with `USER_ADDR_MAX`, so a call stays below
it exactly when the program's pointers do (`userPointers_iff`): the buffer
of `write`, and of `execve` the path, both arrays up to their null pointers
and every string up to the byte behind its end, which the copy loop reads
too.
-/
import VortexOS.Mm.KernelHalf
import VortexOS.Proc.ExecTheorems
import VortexOS.Proc.SyscallLogs

namespace VortexOS.Proc

open Lib Mm Sched Arch

/-- A load is from an address of user space. -/
def Event.Low : Event → Prop
  | .load va => va ≤ userAddrMax
  | .out _ => True

/-! ## Which addresses these are -/

variable (upper : Upper) (k : Kernel)

/-- The first `n` bytes from `va` on, as far as they can be read. -/
def BytesLow (va n : Nat) : Prop :=
  ∀ i < n, (∀ j < i, ∃ c, k.peek upper (add64 va j) = some c) → add64 va i ≤ userAddrMax

/-- The string at `va` with its end, or its first `n` bytes, as far as they
can be read. -/
def StringLow (va n : Nat) : Prop :=
  ∀ i < n, (∀ j < i, ∃ c, k.peek upper (add64 va j) = some c ∧ c ≠ 0) → add64 va i ≤ userAddrMax

/-- The words of an array with the null word at its end. -/
def ArrayLow (array : Nat) : Prop :=
  ∀ i < loopBound, (∀ j < i, ∃ p, k.peekWord upper (add64 array (8 * j)) = some p ∧ p ≠ 0) →
    BytesLow upper k (add64 array (8 * i)) 8

/-- The bytes of a string that are copied to `sp`. `len` counts the end of
the string, so one byte is behind it. -/
def CopyLow (str sp len : Nat) : Prop :=
  Along (fun k j => (k.peek upper (add64 str j)).bind fun c => k.poke (add64 sp j) c)
    (fun _ j => add64 str j ≤ userAddrMax) k (List.range (len + 1))

/-- String `i` of an array, when `sp` is `st.1`. -/
structure PushLow (array : Nat) (st : Nat × Kernel) (i : Nat) : Prop where
  word : BytesLow upper st.2 (add64 array (8 * i)) 8
  string : ∀ str, st.2.peekWord upper (add64 array (8 * i)) = some str →
    StringLow upper st.2 str loopBound
  copy : ∀ str len, st.2.peekWord upper (add64 array (8 * i)) = some str →
    lengthLoop upper st.2 str loopBound 0 = some len →
      CopyLow upper st.2 str (sub64 st.1 (len + 1) - sub64 st.1 (len + 1) % 16) len

/-- The two arrays and their strings. A string is read after the strings
before it have been stored. -/
structure ArgumentsLow (argv envp : Nat) : Prop where
  argvArray : argv ≠ 0 → ArrayLow upper k argv
  envpArray : ∀ argc, countStrings upper k argv = some argc → envp ≠ 0 → ArrayLow upper k envp
  argvStrings : ∀ argc envc, countStrings upper k argv = some argc →
    countStrings upper k envp = some envc →
    Along (pushString upper argv stackBase) (PushLow upper argv) (stackBase, k) (List.range argc)
  envpStrings : ∀ argc envc st, countStrings upper k argv = some argc →
    countStrings upper k envp = some envc → pushStrings upper argv argc stackBase k = some st →
      Along (pushString upper envp st.1) (PushLow upper envp) st (List.range envc)

variable {upper k}

namespace Logs

open Logged (quiet)

@[simp] lemma all_peek (va : Nat) : (peek upper k va).All Event.Low ↔ va ≤ userAddrMax := by
  simp [peek, Logged.All, Event.Low]

@[simp] lemma all_out (c : BitVec 8) : (out c).All Event.Low := by
  simp [out, Logged.All, Event.Low]

lemma all_peekWord (va : Nat) : (peekWord upper k va).All Event.Low ↔ BytesLow upper k va 8 := by
  have hbyte : ∀ (v i : Nat), ((peek upper k (add64 va i)).map fun b => v + b.toNat * 256 ^ i).All
      Event.Low ↔ add64 va i ≤ userAddrMax := by
    intro v i
    simp
  have hread : ∀ (v i : Nat), (∃ v', ((peek upper k (add64 va i)).map fun b =>
      v + b.toNat * 256 ^ i).result = some v') ↔ ∃ c, k.peek upper (add64 va i) = some c := by
    intro v i
    simp
  rw [peekWord, List.range_eq_range', Logged.all_range hbyte hread]
  simp [Logged.Reaching, BytesLow]

/-- `add64 va m` is where the loop is after `m` bytes. -/
lemma all_peekString (echo : Bool) (va m n : Nat) :
    (peekString upper k echo (add64 va m) n).All Event.Low ↔
    Logged.Reaching (fun j => ∃ c, k.peek upper (add64 va j) = some c ∧ c ≠ 0)
      (fun i => add64 va i ≤ userAddrMax) m n := by
  induction n generalizing m with
  | zero => simp [peekString]
  | succ n ih =>
    have hnext : add64 (add64 va m) 1 = add64 va (m + 1) := add64_add64 va m 1
    have hecho : ∀ c, (if echo then out c else quiet (some ())).All Event.Low := by
      intro c
      cases echo <;> simp
    have hresult : ∀ c, (if echo then out c else quiet (some ())).result = some () := by
      intro c
      cases echo <;> rfl
    rw [peekString, Logged.all_bind, all_peek, Logged.reaching_succ]
    refine and_congr_right fun _ => ?_
    constructor
    · rintro h ⟨c, hc, hne⟩
      have hrest := h c hc
      rw [if_neg hne, Logged.all_bind, Logged.all_map, hnext, ih] at hrest
      exact hrest.2 () (hresult c)
    · intro h c hc
      by_cases hzero : c = 0
      · rw [if_pos hzero]
        exact Logged.all_quiet _
      · rw [if_neg hzero, Logged.all_bind, Logged.all_map, hnext, ih]
        exact ⟨hecho c, fun _ _ => h ⟨c, hc, hzero⟩⟩

lemma all_path (echo : Bool) (path : BitVec 64) (n : Nat) :
    (peekString upper k echo path.toNat n).All Event.Low ↔ StringLow upper k path.toNat n := by
  have hpath : add64 path.toNat 0 = path.toNat := Nat.mod_eq_of_lt path.isLt
  nth_rewrite 1 [← hpath]
  rw [all_peekString]
  simp [Logged.Reaching, StringLow]

lemma all_countStrings (array : Nat) :
    (countStrings upper k array).All Event.Low ↔ (array ≠ 0 → ArrayLow upper k array) := by
  unfold countStrings
  split
  · rename_i h
    simp [h]
  · rename_i h
    rw [Logged.all_scan]
    simp [h, ArrayLow, Logged.Reaching, all_peekWord]

lemma all_lengthLoop (str : Nat) :
    (lengthLoop upper k str).All Event.Low ↔ StringLow upper k str loopBound := by
  rw [lengthLoop, Logged.all_map, Logged.all_scan]
  simp [StringLow, Logged.Reaching]

lemma all_copyString (str sp len : Nat) (k : Kernel) :
    (copyString upper str sp len k).All Event.Low ↔ CopyLow upper k str sp len := by
  rw [copyString, Logged.all_run]
  simp [CopyLow, Logged.all_bind]

lemma all_pushString (array ptrs : Nat) (st : Nat × Kernel) (i : Nat) :
    (pushString upper array ptrs st i).All Event.Low ↔ PushLow upper array st i := by
  simp only [pushString, Logged.all_bind, Logged.all_quiet, all_peekWord, all_lengthLoop,
    all_copyString, result_peekWord, result_lengthLoop, implies_true, and_true]
  constructor
  · rintro ⟨hword, hrest⟩
    exact ⟨hword, fun str hstr => (hrest str hstr).1, fun str len hstr => (hrest str hstr).2 len⟩
  · rintro ⟨hword, hstring, hcopy⟩
    exact ⟨hword, fun str hstr => ⟨hstring str hstr, fun len => hcopy str len hstr⟩⟩

lemma all_pushStrings (array count sp : Nat) (k : Kernel) :
    (pushStrings upper array count sp k).All Event.Low ↔
      Along (Proc.pushString upper array sp) (PushLow upper array) (sp, k) (List.range count) := by
  simp only [pushStrings, Logged.all_run, all_pushString, result_pushString]

lemma all_setupUserStack (argv envp : Nat) (k : Kernel) :
    (setupUserStack upper stackBase argv envp k).All Event.Low ↔
      ArgumentsLow upper k argv envp := by
  simp only [setupUserStack, Logged.all_bind, Logged.all_quiet, all_countStrings, all_pushStrings,
    result_countStrings, result_pushStrings, implies_true, and_true]
  constructor
  · rintro ⟨hargv, hrest⟩
    exact ⟨hargv, fun argc hargc => (hrest argc hargc).1,
      fun argc envc hargc henvc => ((hrest argc hargc).2 envc henvc).1,
      fun argc envc st hargc henvc => ((hrest argc hargc).2 envc henvc).2 st⟩
  · rintro ⟨hargv, henvp, hargs, henv⟩
    exact ⟨hargv, fun argc hargc => ⟨henvp argc hargc, fun envc henvc =>
      ⟨hargs argc envc hargc henvc, fun st => henv argc envc st hargc henvc⟩⟩⟩

end Logs

/-! ## The state in which `setup_user_stack` is called -/

def enterStack (proc newAs : Nat) (k : Kernel) : Option Kernel :=
  let k := k.modProc proc fun p => { p with addrSpace := newAs }
  match forSlots (mapStackPage newAs) (List.range 4) k.kmem with
  | some (true, s) => some (k.setKmem s)
  | _ => none

def replaceStack (proc elfData : Nat) (elf : Image) (k : Kernel) : Option Kernel :=
  match vmmCreateAddressSpace k.cr3 k.kmem with
  | none => none
  | some (newAs, s) =>
    if newAs = 0 then none
    else
      let k := vmmSwitchAddressSpace newAs (k.setKmem s)
      match elfLoad elf (k.procs proc).addrSpace k.kmem with
      | none => none
      | some (entry, s) =>
        if entry = 0 then none else enterStack proc newAs (k.setKmem (kfree elfData s))

def fileStack (proc : Nat) (node : Option FileNode) (k : Kernel) : Option Kernel :=
  match node with
  | none => none
  | some node =>
    if node.isFile = false then none
    else if node.size = 0 ∨ node.size > 1024 * 1024 then none
    else
      match kmalloc node.size k.kmem with
      | none => none
      | some (elfData, s) =>
        if elfData = 0 then none
        else if node.bytesRead ≠ node.size then none
        else replaceStack proc elfData node.image (k.setKmem s)

namespace Logs

open Logged (quiet)

variable {P : Event → Prop} {frame : InterruptFrame}

lemma all_enterProgram (proc newAs entry : Nat) (k : Kernel) :
    (enterProgram upper frame proc newAs entry k).All P ↔ ∀ k1, enterStack proc newAs k = some k1 →
    (setupUserStack upper stackBase frame.rsi.toNat frame.rdx.toNat k1).All P := by
  unfold enterProgram enterStack
  simp only
  rcases forSlots (mapStackPage newAs) (List.range 4) _ with _ | ⟨_ | _, s⟩ <;> simp

lemma all_replaceProgram (proc elfData : Nat) (elf : Image) (k : Kernel) :
    (replaceProgram upper frame proc elfData elf k).All P ↔ ∀ k1, replaceStack proc elfData elf k =
      some k1 → (setupUserStack upper stackBase frame.rsi.toNat frame.rdx.toNat k1).All P := by
  unfold replaceProgram replaceStack
  rcases vmmCreateAddressSpace k.cr3 k.kmem with _ | ⟨newAs, s⟩
  · simp
  · by_cases hnew : newAs = 0
    · simp [hnew]
    · simp only [if_neg hnew]
      rcases elfLoad elf _ _ with _ | ⟨entry, s⟩
      · simp
      · by_cases hentry : entry = 0
        · simp [hentry]
        · simp only [if_neg hentry, all_enterProgram]

lemma all_execFile (proc : Nat) (node : Option FileNode) (k : Kernel) :
    (execFile upper frame proc node k).All P ↔ ∀ k1, fileStack proc node k = some k1 →
    (setupUserStack upper stackBase frame.rsi.toNat frame.rdx.toNat k1).All P := by
  unfold execFile fileStack
  cases node with
  | none => simp
  | some node =>
    by_cases hfile : node.isFile = false
    · simp [hfile]
    · by_cases hsize : node.size = 0 ∨ node.size > 1024 * 1024
      · simp only [if_neg hfile, if_pos hsize]
        simp
      · simp only [if_neg hfile, if_neg hsize]
        rcases kmalloc node.size k.kmem with _ | ⟨elfData, s⟩
        · simp
        · by_cases hdata : elfData = 0
          · simp [hdata]
          · by_cases hread : node.bytesRead ≠ node.size
            · simp [hdata, hread]
            · simp only [if_neg hdata, if_neg hread, all_replaceProgram]

end Logs

/-! ## The system calls -/

/-- The path, which is read for the message and again for `vfs_open`, and
the arguments. -/
structure ExecLow (upper : Upper) (vfs : Vfs) (frame : InterruptFrame) (k : Kernel) : Prop where
  message : frame.rdi.toNat ≠ 0 → StringLow upper k frame.rdi.toNat 64
  path : ∀ message proc, frame.rdi.toNat ≠ 0 →
    k.peekString upper frame.rdi.toNat 64 = some message →
    procCurrent k = some proc → StringLow upper k frame.rdi.toNat 255
  arguments : ∀ message proc path k1, frame.rdi.toNat ≠ 0 →
    k.peekString upper frame.rdi.toNat 64 = some message → procCurrent k = some proc →
      k.peekString upper frame.rdi.toNat 255 = some path → fileStack proc (vfs path) k = some k1 →
        ArgumentsLow upper k1 frame.rsi.toNat frame.rdx.toNat

/-- Nothing that the call reads for the program is above `USER_ADDR_MAX`. -/
def PointersLow (upper : Upper) (vfs : Vfs) (frame : InterruptFrame) (k : Kernel) : Prop :=
  match frame.rax.toNat with
  | 1 =>
    (frame.rdi.toNat = 1 ∨ frame.rdi.toNat = 2) →
      ∀ i < frame.rdx.toNat, add64 frame.rsi.toNat i ≤ userAddrMax
  | 59 => ExecLow upper vfs frame k
  | _ => True

/-- The addresses the call needs: the bytes that `write` is to write, and
what `execve` follows. -/
def Needs (upper : Upper) (vfs : Vfs) (frame : InterruptFrame) (k : Kernel) (va : Nat) : Prop :=
  match frame.rax.toNat with
  | 1 =>
    (frame.rdi.toNat = 1 ∨ frame.rdi.toNat = 2) ∧
      ∃ i < frame.rdx.toNat, va = add64 frame.rsi.toNat i
  | 59 => .load va ∈ (Logs.syscallHandler upper vfs frame k).log
  | _ => False

/-- The call loads from addresses up to `USER_ADDR_MAX` only, and when it
needs another one it returns an error, a negative number, and sends nothing
to the serial port. -/
structure PointersChecked (upper : Upper) (vfs : Vfs) (frame : InterruptFrame) (k : Kernel) :
    Prop where
  low : (Logs.syscallHandler upper vfs frame k).All Event.Low
  rejects : ∀ va, Needs upper vfs frame k va → userAddrMax < va →
    (∀ c, .out c ∉ (Logs.syscallHandler upper vfs frame k).log) ∧
      ∃ rax k', syscallHandler upper vfs frame k = some (.returned rax k') ∧ 2 ^ 63 ≤ rax

namespace Logs

open Logged (quiet)

variable {frame : InterruptFrame} {vfs : Vfs}

lemma all_sysExecveImpl :
    (sysExecveImpl upper vfs frame k).All Event.Low ↔ ExecLow upper vfs frame k := by
  unfold sysExecveImpl
  by_cases hpath : frame.rdi.toNat = 0
  · refine iff_of_true ?_ ⟨fun h => absurd hpath h, fun _ _ h => absurd hpath h,
      fun _ _ _ _ h => absurd hpath h⟩
    simp only [if_pos hpath, Logged.all_bind, Logged.all_quiet, true_and]
    intro _ _
    cases procCurrent k <;> exact Logged.all_quiet _
  · simp only [if_neg hpath, Logged.all_bind, all_path, result_peekString]
    constructor
    · rintro ⟨hmessage, hrest⟩
      refine ⟨fun _ => hmessage, fun message proc _ hread hproc => ?_,
        fun message proc path k1 _ hread hproc hfile hstack => ?_⟩
      · have h := hrest message hread
        simp only [hproc, Logged.all_bind, all_path] at h
        exact h.1
      · have h := hrest message hread
        simp only [hproc, Logged.all_bind, result_peekString, all_execFile] at h
        exact (all_setupUserStack _ _ k1).mp (h.2 path hfile k1 hstack)
    · rintro ⟨hmessage, hread255, harguments⟩
      refine ⟨hmessage hpath, fun message hread => ?_⟩
      cases hproc : procCurrent k with
      | none => exact Logged.all_quiet _
      | some proc =>
        simp only [Logged.all_bind, all_path, result_peekString, all_execFile]
        exact ⟨hread255 message proc hpath hread hproc, fun path hfile k1 hstack =>
          (all_setupUserStack _ _ k1).mpr
            (harguments message proc path k1 hpath hread hproc hfile hstack)⟩

lemma all_sysWrite {fd buf count : Nat}
    (h : (fd = 1 ∨ fd = 2) → ∀ i < count, add64 buf i ≤ userAddrMax) :
    (sysWrite upper fd buf count k).All Event.Low := by
  unfold sysWrite
  split
  · rename_i hfd
    have hbytes : ∀ i ∈ List.range count, add64 buf i ≤ userAddrMax := fun i hi =>
      h hfd i (List.mem_range.mp hi)
    rw [Logged.all_run]
    refine (Along.of_forall hbytes).mono fun n i hi => ?_
    simp [Logged.all_bind, hi]
  · exact Logged.all_quiet _

lemma sysWrite_outputs {fd buf count n : Nat} (hfd : fd = 1 ∨ fd = 2) (hcount : 0 < count)
    (hcall : Proc.sysWrite upper fd buf count k = some n) :
    ∃ c, Event.out c ∈ (sysWrite upper fd buf count k).log := by
  by_contra hnone
  have hquiet : (sysWrite upper fd buf count k).All fun e => ∀ c, e ≠ .out c := by
    rintro e he c rfl
    exact hnone ⟨c, he⟩
  obtain ⟨m, rfl⟩ : ∃ m, count = m + 1 := ⟨count - 1, by omega⟩
  rw [sysWrite, if_pos hfd, List.range_succ_eq_map, Logged.run, Logged.all_bind,
    Logged.all_bind] at hquiet
  rw [Proc.sysWrite, if_pos hfd, List.range_succ_eq_map, run] at hcall
  cases hpeek : k.peek upper (add64 buf 0) with
  | none =>
    rw [hpeek] at hcall
    cases hcall
  | some c =>
    have hout := hquiet.1.2 c hpeek (.out c) (by simp [out, Logged.map])
    exact hout c rfl

lemma syscallHandler_write (hrax : frame.rax.toNat = 1) :
    syscallHandler upper vfs frame k =
      (sysWrite upper frame.rdi.toNat frame.rsi.toNat frame.rdx.toNat k).map (.returned · k) := by
  rw [syscallHandler, hrax]
  rfl

lemma all_syscallHandler_execve (hrax : frame.rax.toNat = 59) :
    (syscallHandler upper vfs frame k).All Event.Low ↔ ExecLow upper vfs frame k := by
  rw [syscallHandler, hrax]
  exact all_sysExecveImpl

lemma all_syscallHandler (h : PointersLow upper vfs frame k) :
    (syscallHandler upper vfs frame k).All Event.Low := by
  unfold PointersLow at h
  split at h
  · rename_i hrax
    rw [syscallHandler_write hrax, Logged.all_map]
    exact all_sysWrite h
  · rename_i hrax
    exact (all_syscallHandler_execve hrax).mpr h
  · rename_i hwrite hexecve
    unfold syscallHandler
    split
    · contradiction
    · contradiction
    · exact Logged.all_quiet _

end Logs

/-- What a call needs is low if its pointers are. -/
lemma Needs.low {upper : Upper} {vfs : Vfs} {frame : InterruptFrame} {k : Kernel} {va : Nat}
    (hneeds : Needs upper vfs frame k va) (h : PointersLow upper vfs frame k) :
    va ≤ userAddrMax := by
  have hall := Logs.all_syscallHandler h
  unfold Needs at hneeds
  unfold PointersLow at h
  split at hneeds
  · rename_i hrax
    rw [hrax] at h
    obtain ⟨hfd, i, hi, rfl⟩ := hneeds
    exact h hfd i hi
  · exact hall _ hneeds
  · exact hneeds.elim

/-- A `write` that rejects what it may not read has nothing to reject. -/
lemma PointersChecked.write {upper : Upper} {vfs : Vfs} {frame : InterruptFrame} {k : Kernel}
    (h : PointersChecked upper vfs frame k) (hrax : frame.rax.toNat = 1)
    (hfd : frame.rdi.toNat = 1 ∨ frame.rdi.toNat = 2) {i : Nat} (hi : i < frame.rdx.toNat) :
    add64 frame.rsi.toNat i ≤ userAddrMax := by
  by_contra hhigh
  have hneeds : Needs upper vfs frame k (add64 frame.rsi.toNat i) := by
    rw [Needs, hrax]
    exact ⟨hfd, i, hi, rfl⟩
  obtain ⟨hquiet, rax, k', hcall, _⟩ := h.rejects _ hneeds (by omega)
  rw [← Logs.result_syscallHandler, Logs.syscallHandler_write hrax, Logged.result_map,
    Logs.result_sysWrite] at hcall
  obtain ⟨n, hn, _⟩ := Option.map_eq_some_iff.mp hcall
  obtain ⟨c, hc⟩ := Logs.sysWrite_outputs hfd (by omega) hn
  rw [Logs.syscallHandler_write hrax] at hquiet
  exact hquiet c hc

lemma peekString_isSome {n va : Nat} (hva : va < 2 ^ 64)
    (h : ∀ j < n, ∃ c, k.peek upper (add64 va j) = some c ∧ c ≠ 0) :
    ∃ str, k.peekString upper va n = some str := by
  induction n generalizing va with
  | zero => exact ⟨[], rfl⟩
  | succ n ih =>
    obtain ⟨c, hc, hne⟩ := h 0 (Nat.succ_pos n)
    rw [show add64 va 0 = va from Nat.mod_eq_of_lt hva] at hc
    obtain ⟨str, hstr⟩ := ih (Nat.mod_lt (va + 1) (by decide)) fun j hj => by
      rw [← add64, add64_add64, Nat.add_comm 1 j]
      exact h (j + 1) (by omega)
    refine ⟨c :: str, ?_⟩
    rw [Kernel.peekString, hc]
    simp only [if_neg hne]
    rw [add64, hstr]
    rfl

/-- Null pointers lead nowhere. -/
lemma argumentsLow_null (upper : Upper) (k : Kernel) : ArgumentsLow upper k 0 0 := by
  have hcount : ∀ {n}, countStrings upper k 0 = some n → n = 0 := fun hn =>
    (Option.some.inj ((countStrings_zero upper k).symm.trans hn)).symm
  refine ⟨fun h => absurd rfl h, fun _ _ h => absurd rfl h, fun argc _ hn _ => ?_,
    fun _ envc _ _ hn _ => ?_⟩
  all_goals
    rw [hcount hn]
    trivial

/-- Of a call without arguments only the path matters, as it is before the
call. -/
lemma execLow_path {vfs : Vfs} {frame : InterruptFrame} {proc : Nat}
    (hproc : procCurrent k = some proc) (hpath : frame.rdi.toNat ≠ 0) (hargv : frame.rsi = 0)
    (henvp : frame.rdx = 0) :
    ExecLow upper vfs frame k ↔ StringLow upper k frame.rdi.toNat 255 := by
  constructor
  · intro h i hi hread
    by_cases h64 : i < 64
    · exact h.message hpath i h64 hread
    · -- the bytes before have been read for the message
      obtain ⟨message, hmessage⟩ := peekString_isSome frame.rdi.isLt
        fun j (hj : j < 64) => hread j (by omega)
      exact h.path message proc hpath hmessage hproc i hi hread
  · intro h
    refine ⟨fun _ i hi => h i (by omega), fun _ _ _ _ _ => h, fun _ _ _ k1 _ _ _ _ _ => ?_⟩
    rw [hargv, henvp]
    exact argumentsLow_null upper k1

/-- The program's pointers are checked exactly if they need no check. For an
`execve` of a process without arguments that is a matter of the path. -/
theorem userPointers_iff (upper : Upper) (vfs : Vfs) (frame : InterruptFrame) (k : Kernel) :
    (PointersChecked upper vfs frame k ↔ PointersLow upper vfs frame k) ∧
    (frame.rax = 59 → frame.rdi ≠ 0 → frame.rsi = 0 → frame.rdx = 0 → (procCurrent k).isSome →
      (PointersLow upper vfs frame k ↔ StringLow upper k frame.rdi.toNat 255)) := by
  refine ⟨⟨fun h => ?_, fun h => ?_⟩, fun hrax hrdi hargv henvp hsome => ?_⟩
  · unfold PointersLow
    split
    · rename_i hrax
      exact fun hfd i hi => h.write hrax hfd hi
    · rename_i hrax
      exact (Logs.all_syscallHandler_execve hrax).mp h.low
    · trivial
  · refine ⟨Logs.all_syscallHandler h, fun va hneeds hhigh => ?_⟩
    have hlow := hneeds.low h
    omega
  · obtain ⟨proc, hproc⟩ := Option.isSome_iff_exists.mp hsome
    rw [PointersLow, hrax]
    exact execLow_path hproc (fun h0 => hrdi (BitVec.eq_of_toNat_eq h0)) hargv henvp

def writeFrame : InterruptFrame :=
  { zeroProcess.forkFrame with rax := 1, rdi := 1, rsi := 0xFFFF800000000000, rdx := 1 }

/-- A byte of the kernel goes to the serial port, and the call succeeds. -/
theorem kernel_byte_written :
    (Logs.syscallHandler (fun _ _ => some 0x41) (fun _ => none) writeFrame
      (bootKernel forkStart fun _ => 0)).log = [.load 0xFFFF800000000000, .out 0x41] ∧
    syscallHandler (fun _ _ => some 0x41) (fun _ => none) writeFrame
      (bootKernel forkStart fun _ => 0) = some (.returned 1 (bootKernel forkStart fun _ => 0)) ∧
    ¬ PointersChecked (fun _ _ => some 0x41) (fun _ => none) writeFrame
      (bootKernel forkStart fun _ => 0) := by
  have hlog : (Logs.syscallHandler (fun _ _ => some 0x41) (fun _ => none) writeFrame
      (bootKernel forkStart fun _ => 0)).log = [.load 0xFFFF800000000000, .out 0x41] := rfl
  refine ⟨hlog, rfl, fun h => ?_⟩
  have hlow : 0xFFFF800000000000 ≤ userAddrMax :=
    h.low (.load 0xFFFF800000000000) (by rw [hlog]; exact List.mem_cons_self)
  exact absurd hlow (by decide)

end VortexOS.Proc
