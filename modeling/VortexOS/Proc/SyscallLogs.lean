/-
VortexOS.Proc.SyscallLogs — what `write` and `execve` load for the program.

The functions of namespace `Logs` are those of `VortexOS.Proc.Exec` with a
log: every byte they load through a pointer of the program, and every byte
of such memory they send to the serial port. Forgetting the log gives the
functions back (`Logs.result_syscallHandler`). The loads that put the
address arrays on the new stack go through pointers of the kernel's own and
are not logged.
-/
import VortexOS.Lib.Logged
import VortexOS.Proc.Exec

namespace VortexOS.Proc

open Lib Mm Sched Arch

/-- A load through a pointer of the program, or a byte on the serial port. -/
inductive Event where
  | load (va : Nat)
  | out (c : BitVec 8)
  deriving DecidableEq

/-! ## The calls with their logs -/

namespace Logs

open Logged (quiet)

def peek (upper : Upper) (k : Kernel) (va : Nat) : Logged Event (BitVec 8) :=
  ⟨[.load va], k.peek upper va⟩

def out (c : BitVec 8) : Logged Event Unit := ⟨[.out c], some ()⟩

def peekWord (upper : Upper) (k : Kernel) (va : Nat) : Logged Event Nat :=
  Logged.run (fun v i => (peek upper k (add64 va i)).map
    fun b => v + b.toNat * 256 ^ i) 0 (List.range 8)

/-- With `echo` the bytes go to the serial port, too. -/
def peekString (upper : Upper) (k : Kernel) (echo : Bool) :
    Nat → Nat → Logged Event (List (BitVec 8))
  | _, 0 => quiet (some [])
  | va, n + 1 =>
    (peek upper k va).bind fun c =>
      if c = 0 then quiet (some [])
      else
        (if echo then out c else quiet (some ())).bind fun _ =>
          (peekString upper k echo (add64 va 1) n).map (c :: ·)

def countStrings (upper : Upper) (k : Kernel) (array : Nat) : Logged Event Nat :=
  if array = 0 then quiet (some 0)
  else Logged.scan (fun n => peekWord upper k (add64 array (8 * n))) (· ≠ 0) loopBound 0

def lengthLoop (upper : Upper) (k : Kernel) (str : Nat) : Logged Event Nat :=
  (Logged.scan (fun len => peek upper k (add64 str len)) (· ≠ 0) loopBound 0).map (· + 1)

def copyString (upper : Upper) (str sp len : Nat) (k : Kernel) : Logged Event Kernel :=
  Logged.run (fun k j => (peek upper k (add64 str j)).bind fun c => quiet (k.poke (add64 sp j) c)) k
    (List.range (len + 1))

def pushString (upper : Upper) (array ptrs : Nat) (st : Nat × Kernel) (i : Nat) :
    Logged Event (Nat × Kernel) :=
  (peekWord upper st.2 (add64 array (8 * i))).bind fun str =>
    (lengthLoop upper st.2 str).bind fun len =>
      let sp := sub64 st.1 (len + 1)
      let sp := sp - sp % 16
      (copyString upper str sp len st.2).bind fun k =>
        quiet ((k.pokeWord (add64 ptrs (8 * i)) sp).bind fun k => some (sp, k))

def pushStrings (upper : Upper) (array count sp : Nat) (k : Kernel) : Logged Event (Nat × Kernel) :=
  Logged.run (pushString upper array sp) (sp, k) (List.range count)

def setupUserStack (upper : Upper) (stackTop argv envp : Nat) (k : Kernel) :
    Logged Event (Nat × Kernel) :=
  (countStrings upper k argv).bind fun argc =>
    (countStrings upper k envp).bind fun envc =>
      (pushStrings upper argv argc stackTop k).bind fun st =>
        (pushStrings upper envp envc st.1 st.2).bind fun st' => quiet do
          let st' ← pushArray upper st.1 envc st'
          let st' ← pushArray upper stackTop argc st'
          let st' ← pushWord st'.1 st'
          pushWord argc st'

def enterProgram (upper : Upper) (frame : InterruptFrame) (proc newAs entry : Nat) (k : Kernel) :
    Logged Event ExecEnd :=
  let k := k.modProc proc fun p => { p with addrSpace := newAs }
  match forSlots (mapStackPage newAs) (List.range 4) k.kmem with
  | none => quiet none
  | some (false, s) => quiet (some (.returned (k.setKmem s)))
  | some (true, s) =>
    (setupUserStack upper stackBase frame.rsi.toNat frame.rdx.toNat (k.setKmem s)).map fun (sp,
      k) =>
      .started (execveFrame frame (BitVec.ofNat 64 entry) (BitVec.ofNat 64 sp)) k

def replaceProgram (upper : Upper) (frame : InterruptFrame) (proc elfData : Nat) (elf : Image)
    (k : Kernel) : Logged Event ExecEnd :=
  match vmmCreateAddressSpace k.cr3 k.kmem with
  | none => quiet none
  | some (newAs, s) =>
    if newAs = 0 then quiet (some (.returned (k.setKmem (kfree elfData s))))
    else
      let k := vmmSwitchAddressSpace newAs (k.setKmem s)
      match elfLoad elf (k.procs proc).addrSpace k.kmem with
      | none => quiet none
      | some (entry, s) =>
        let k := k.setKmem (kfree elfData s)
        if entry = 0 then quiet (some (.returned k))
          else enterProgram upper frame proc newAs entry k

def execFile (upper : Upper) (frame : InterruptFrame) (proc : Nat) (node : Option FileNode)
    (k : Kernel) : Logged Event ExecEnd :=
  match node with
  | none => quiet (some (.returned k))
  | some node =>
    if node.isFile = false then quiet (some (.returned k))
    else if node.size = 0 ∨ node.size > 1024 * 1024 then quiet (some (.returned k))
    else
      match kmalloc node.size k.kmem with
      | none => quiet none
      | some (elfData, s) =>
        let k := k.setKmem s
        if elfData = 0 then quiet (some (.returned k))
        else if node.bytesRead ≠ node.size then
          quiet (some (.returned (k.setKmem (kfree elfData k.kmem))))
        else replaceProgram upper frame proc elfData node.image k

def sysExecveImpl (upper : Upper) (vfs : Vfs) (frame : InterruptFrame) (k : Kernel) :
    Logged Event ExecEnd :=
  let path := frame.rdi.toNat
  (if path = 0 then quiet (some []) else peekString upper k true path 64).bind fun _ =>
    match procCurrent k with
    | none => quiet none
    | some proc =>
      if path = 0 then quiet (some (.returned k))
      else
        (peekString upper k false path 255).bind fun kernelPath =>
          execFile upper frame proc (vfs kernelPath) k

def sysWrite (upper : Upper) (fd buf count : Nat) (k : Kernel) : Logged Event Nat :=
  if fd = 1 ∨ fd = 2 then
    Logged.run (fun n i => (peek upper k (add64 buf i)).bind fun c => (out c).map fun _ => n) count
      (List.range count)
  else quiet (some count)

/-- No other call follows a pointer of the program. -/
def syscallHandler (upper : Upper) (vfs : Vfs) (frame : InterruptFrame) (k : Kernel) :
    Logged Event SyscallEnd :=
  match frame.rax.toNat with
  | 1 =>
    (sysWrite upper frame.rdi.toNat frame.rsi.toNat frame.rdx.toNat k).map fun n => .returned n k
  | 59 =>
    (sysExecveImpl upper vfs frame k).map fun
      | .returned k => .returned 0 k
      | .started frame k => .entered frame k
  | _ => quiet (Proc.syscallHandler upper vfs frame k)

/-! ## Forgetting the log -/

variable {upper : Upper} {k : Kernel}

@[simp] lemma result_peek (va : Nat) : (peek upper k va).result = k.peek upper va := rfl

@[simp] lemma result_peekWord (va : Nat) : (peekWord upper k va).result = k.peekWord upper va := by
  rw [peekWord, Logged.result_run]
  rfl

@[simp] lemma result_peekString (echo : Bool) (va n : Nat) :
    (peekString upper k echo va n).result = k.peekString upper va n := by
  induction n generalizing va with
  | zero => rfl
  | succ n ih =>
    have hecho : ∀ c, (if echo then out c else quiet (some ())).result = some () := by
      intro c
      cases echo <;> rfl
    rw [peekString, Logged.result_bind, Kernel.peekString, result_peek]
    cases k.peek upper va with
    | none => rfl
    | some c =>
      by_cases hc : c = 0
      · simp [hc]
      · simp only [Option.bind_some, if_neg hc, Logged.result_bind, hecho, Logged.result_map, ih]

lemma result_countLoop (array fuel n : Nat) :
    (Logged.scan (fun n => peekWord upper k (add64 array (8 * n))) (· ≠ 0) fuel n).result =
      countLoop upper k array fuel n := by
  induction fuel generalizing n with
  | zero => rfl
  | succ fuel ih =>
    rw [Logged.scan, Logged.result_bind, countLoop, result_peekWord]
    cases k.peekWord upper (add64 array (8 * n)) with
    | none => rfl
    | some p =>
      by_cases hp : p = 0
      · simp [hp]
      · simp only [Option.bind_some, ne_eq, hp, not_false_eq_true, decide_true, if_true]
        exact ih (n + 1)

@[simp] lemma result_countStrings (array : Nat) :
    (countStrings upper k array).result = Proc.countStrings upper k array := by
  unfold countStrings Proc.countStrings
  split
  · rfl
  · exact result_countLoop array loopBound 0

lemma result_lengthScan (str fuel len : Nat) :
    (Logged.scan (fun len => peek upper k (add64 str len)) (· ≠ 0) fuel len).result.map (· + 1) =
      Proc.lengthLoop upper k str fuel len := by
  induction fuel generalizing len with
  | zero => rfl
  | succ fuel ih =>
    rw [Logged.scan, Logged.result_bind, Proc.lengthLoop, result_peek]
    cases k.peek upper (add64 str len) with
    | none => rfl
    | some c =>
      by_cases hc : c = 0
      · simp [hc]
      · simp only [Option.bind_some, ne_eq, hc, not_false_eq_true, decide_true, if_true]
        exact ih (len + 1)

@[simp] lemma result_lengthLoop (str : Nat) :
    (lengthLoop upper k str).result = Proc.lengthLoop upper k str loopBound 0 :=
  result_lengthScan str loopBound 0

@[simp] lemma result_copyString (str sp len : Nat) (k : Kernel) :
    (copyString upper str sp len k).result = Proc.copyString upper str sp len k := by
  simp only [copyString, Logged.result_run, Logged.result_bind, Logged.result_quiet, result_peek]
  rfl

@[simp] lemma result_pushString (array ptrs : Nat) (st : Nat × Kernel) (i : Nat) :
    (pushString upper array ptrs st i).result = Proc.pushString upper array ptrs st i := by
  simp only [pushString, Logged.result_bind, Logged.result_quiet, result_peekWord,
    result_lengthLoop, result_copyString]
  rfl

@[simp] lemma result_pushStrings (array count sp : Nat) (k : Kernel) :
    (pushStrings upper array count sp k).result = Proc.pushStrings upper array count sp k := by
  simp only [pushStrings, Logged.result_run, result_pushString]
  rfl

@[simp] lemma result_setupUserStack (top argv envp : Nat) (k : Kernel) :
    (setupUserStack upper top argv envp k).result = Proc.setupUserStack upper top argv envp k := by
  simp only [setupUserStack, Logged.result_bind, Logged.result_quiet, result_countStrings,
    result_pushStrings]
  rfl

lemma result_enterProgram (frame : InterruptFrame) (proc newAs entry : Nat) (k : Kernel) :
    (enterProgram upper frame proc newAs entry k).result =
      Proc.enterProgram upper frame proc newAs entry k := by
  unfold enterProgram Proc.enterProgram
  simp only
  rcases forSlots (mapStackPage newAs) (List.range 4) _ with _ | ⟨_ | _, s⟩
  · rfl
  · rfl
  · simp

lemma result_replaceProgram (frame : InterruptFrame) (proc elfData : Nat) (elf : Image)
    (k : Kernel) : (replaceProgram upper frame proc elfData elf k).result =
      Proc.replaceProgram upper frame proc elfData elf k := by
  unfold replaceProgram Proc.replaceProgram
  rcases vmmCreateAddressSpace k.cr3 k.kmem with _ | ⟨newAs, s⟩
  · rfl
  · simp only [apply_ite Logged.result]
    rcases elfLoad elf _ _ with _ | ⟨entry, s⟩
    · rfl
    · simp only [apply_ite Logged.result, result_enterProgram, Logged.result_quiet]

lemma result_execFile (frame : InterruptFrame) (proc : Nat) (node : Option FileNode) (k : Kernel) :
    (execFile upper frame proc node k).result = Proc.execFile upper frame proc node k := by
  cases node with
  | none => rfl
  | some node =>
    unfold execFile Proc.execFile
    simp only [apply_ite Logged.result, Logged.result_quiet]
    rcases kmalloc node.size k.kmem with _ | ⟨elfData, s⟩
    · rfl
    · simp only [apply_ite Logged.result, result_replaceProgram, Logged.result_quiet]

lemma result_sysExecveImpl (vfs : Vfs) (frame : InterruptFrame) (k : Kernel) :
    (sysExecveImpl upper vfs frame k).result = Proc.sysExecveImpl upper vfs frame k := by
  unfold sysExecveImpl Proc.sysExecveImpl
  simp only [Logged.result_bind]
  by_cases hpath : frame.rdi.toNat = 0
  · simp only [if_pos hpath, Logged.result_quiet, Option.bind_some]
    cases procCurrent k <;> rfl
  · simp only [if_neg hpath, result_peekString]
    cases k.peekString upper frame.rdi.toNat 64 with
    | none => rfl
    | some _ =>
      simp only [Option.bind_some]
      cases procCurrent k with
      | none => rfl
      | some proc =>
        simp only [Logged.result_bind, result_peekString, result_execFile]
        cases k.peekString upper frame.rdi.toNat 255 <;> rfl

lemma result_sysWrite (fd buf count : Nat) (k : Kernel) :
    (sysWrite upper fd buf count k).result = Proc.sysWrite upper fd buf count k := by
  unfold sysWrite Proc.sysWrite
  split
  · rw [Logged.result_run]
    congr
    funext n i
    rw [Logged.result_bind, result_peek, Option.map_eq_bind]
    rfl
  · rfl

lemma result_syscallHandler (vfs : Vfs) (frame : InterruptFrame) (k : Kernel) :
    (syscallHandler upper vfs frame k).result = Proc.syscallHandler upper vfs frame k := by
  unfold syscallHandler
  split
  · rename_i hrax
    rw [Logged.result_map, result_sysWrite, Proc.syscallHandler, hrax]
    rfl
  · rename_i hrax
    rw [Logged.result_map, result_sysExecveImpl, Proc.syscallHandler, hrax]
    rfl
  · rfl

end Logs

end VortexOS.Proc
