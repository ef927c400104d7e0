/-
VortexOS.Dev.Nvme — the queue pairs of `kernel/nvme.cpp`, with the controller.

`nvme_admin_cmd`, `nvme_read_blocks` and `nvme_write_blocks` put a command
into the submission queue, ring the doorbell, and look at one cell of the
completion queue until its phase bit is the expected one or `timeout` has
run down. A call is one `call` step and one `poll` for each round of the
loop, and between these the controller takes its own steps: it takes entries
in order up to the doorbell (`fetch`) and completes the commands that it has
in any order and with any status (`post`).

Indices are below `qsize`, a `uint32_t`, so that `tail + 1` does not
overflow. The record of what happened (`calls`, `slots`, `posted`, `taken`,
`returned`) is read by no step.
-/
import VortexOS.Lib.Run

namespace VortexOS.Dev

open Function Lib

/-! ## Entries -/

structure NvmeCmd where
  opcode : BitVec 8
  flags : BitVec 8
  commandId : BitVec 16
  nsid : BitVec 32
  cdw2 : BitVec 32
  cdw3 : BitVec 32
  mptr : BitVec 64
  prp1 : BitVec 64
  prp2 : BitVec 64
  cdw10 : BitVec 32
  cdw11 : BitVec 32
  cdw12 : BitVec 32
  cdw13 : BitVec 32
  cdw14 : BitVec 32
  cdw15 : BitVec 32
  deriving DecidableEq, Repr

def NvmeCmd.zero : NvmeCmd := ⟨0, 0, 0, 0, 0, 0, 0, 0, 0, 0, 0, 0, 0, 0, 0⟩

structure NvmeCqe where
  cdw0 : BitVec 32
  reserved : BitVec 32
  sqHead : BitVec 16
  sqId : BitVec 16
  commandId : BitVec 16
  status : BitVec 16
  deriving DecidableEq, Repr

def NvmeCqe.zero : NvmeCqe := ⟨0, 0, 0, 0, 0, 0⟩

def sizeofCmd : Nat := 64
def sizeofCqe : Nat := 16

/-! ## Queues -/

structure NvmeQueue where
  sqVirt : Nat → NvmeCmd
  cqVirt : Nat → NvmeCqe
  sqTail : Nat
  cqHead : Nat
  qid : Nat
  qsize : Nat
  phase : BitVec 16

/-- What `nvme_create_queue` gets from the allocators: whether there is
memory for the record, and what is in the pages for the two queues. -/
structure QueueMemory where
  record : Bool
  sq : Option (Nat → NvmeCmd)
  cq : Option (Nat → NvmeCqe)

/-- The loops that set `bytes` bytes to zero, for entries of `size` bytes. -/
def zeroed {α : Type} (bytes size : Nat) (zero : α) (old : Nat → α) (i : Nat) : α :=
  if (i + 1) * size ≤ bytes then zero else old i

def nvmeCreateQueue (mem : QueueMemory) (qid qsize : Nat) : Option NvmeQueue :=
  if mem.record = false then none
  else
    let sqSizeBytes := qsize * sizeofCmd % 2 ^ 32
    match mem.sq with
    | none => none
    | some sq =>
      let cqSizeBytes := qsize * sizeofCqe % 2 ^ 32
      match mem.cq with
      | none => none
      | some cq =>
        some {
          sqVirt := zeroed sqSizeBytes sizeofCmd .zero sq
          cqVirt := zeroed cqSizeBytes sizeofCqe .zero cq
          sqTail := 0
          cqHead := 0
          qid := qid
          qsize := qsize
          phase := 1 }

def NvmeQueue.submit (q : NvmeQueue) (cmd : NvmeCmd) : NvmeQueue :=
  { q with
    sqVirt := update q.sqVirt q.sqTail cmd
    sqTail := (q.sqTail + 1) % q.qsize }

def NvmeCqe.code (cqe : NvmeCqe) : Nat := (cqe.status >>> 1 &&& 0x7FFF#16).toNat

/-- One round of the loop: the status, if the phase bit is the expected
one. -/
def NvmeQueue.poll (q : NvmeQueue) : Option (Nat × NvmeQueue) :=
  let cqe := q.cqVirt q.cqHead
  if cqe.status &&& 1#16 = q.phase then
    let cqHead := (q.cqHead + 1) % q.qsize
    some (cqe.code, { q with
      cqHead := cqHead
      phase := if cqHead = 0 then q.phase ^^^ 1#16 else q.phase })
  else none

/-! ## Calls -/

def nvmeIoWrite : BitVec 8 := 0x01
def nvmeIoRead : BitVec 8 := 0x02

def blockCmd (opcode : BitVec 8) (nsid : BitVec 32) (lba : BitVec 64) (count : BitVec 32)
    (bufPhys : BitVec 64) : NvmeCmd :=
  { NvmeCmd.zero with
    opcode := opcode
    nsid := nsid
    cdw10 := (lba &&& 0xFFFFFFFF#64).setWidth 32
    cdw11 := (lba >>> 32).setWidth 32
    cdw12 := count - 1
    prp1 := bufPhys
    prp2 := 0 }

/-- A call of `nvme_admin_cmd`, `nvme_read_blocks` or `nvme_write_blocks`. -/
inductive Request where
  | admin (cmd : NvmeCmd)
  | read (nsid : BitVec 32) (lba : BitVec 64) (count : BitVec 32) (buffer : BitVec 64)
  | write (nsid : BitVec 32) (lba : BitVec 64) (count : BitVec 32) (buffer : BitVec 64)
  deriving DecidableEq, Repr

/-- The command that the call submits. Without a queue (`kAdminQ` or `kIoQ`
is null) and with a null buffer it returns at once, with -1 or `false`. -/
def Request.cmd (hhdm : BitVec 64) (queue : Option NvmeQueue) : Request → Option NvmeCmd
  | .admin cmd => if queue.isNone then none else some cmd
  | .read nsid lba count buffer =>
    if queue.isNone ∨ buffer = 0 then none
    else some (blockCmd nvmeIoRead nsid lba count (buffer - hhdm))
  | .write nsid lba count buffer =>
    if queue.isNone ∨ buffer = 0 then none
    else some (blockCmd nvmeIoWrite nsid lba count (buffer - hhdm))

/-- What the call returns, for the status that the loop found or for a
timeout. -/
def Request.reply : Request → Option Nat → Int ⊕ Bool
  | .admin _, some status => .inl status
  | .admin _, none => .inl (-2)
  | .read .., status => .inr (status == some 0)
  | .write .., status => .inr (status == some 0)

def timeoutRounds : Nat := 1000000

/-! ## Driver and controller -/

/-- The call that is running, with the rounds it has left. -/
structure Call where
  number : Nat
  request : Request
  timeout : Nat
  deriving DecidableEq, Repr

/-- `fetched` has the commands that are not completed yet, each with the
number of the call that submitted it. -/
structure Controller where
  sqHead : Nat
  fetched : List (Nat × NvmeCmd)
  cqTail : Nat
  phase : Bool
  deriving Repr

/-- A completion: the call whose command it is for, and the status that the
controller produced. -/
structure Posted where
  call : Nat
  status : BitVec 15
  entry : NvmeCqe
  deriving DecidableEq, Repr

structure Return where
  call : Nat
  request : Request
  reply : Int ⊕ Bool
  deriving DecidableEq, Repr

structure System where
  q : NvmeQueue
  sqDoorbell : Nat
  cqDoorbell : Nat
  call : Option Call
  ctl : Controller
  /-- the number of commands submitted so far -/
  calls : Nat
  /-- the call that wrote a submission queue entry last -/
  slots : Nat → Nat
  posted : List Posted
  taken : List NvmeCqe
  returned : List Return

/-- After the queue was created and the controller told of it. -/
def System.start (q : NvmeQueue) : System where
  q := q
  sqDoorbell := 0
  cqDoorbell := 0
  call := none
  ctl := ⟨0, [], 0, true⟩
  calls := 0
  slots := fun _ => 0
  posted := []
  taken := []
  returned := []

inductive Event where
  | call (request : Request)
  | poll
  | fetch
  | post (i : Nat) (status : BitVec 15) (cdw0 : BitVec 32)
  deriving DecidableEq, Repr

/-- The command is in the queue and the doorbell rung. -/
def System.submit (s : System) (request : Request) (cmd : NvmeCmd) : System :=
  { s with
    q := s.q.submit cmd
    sqDoorbell := (s.q.submit cmd).sqTail
    call := some ⟨s.calls, request, timeoutRounds⟩
    calls := s.calls + 1
    slots := update s.slots s.q.sqTail s.calls }

def System.begin (s : System) (hhdm : BitVec 64) (request : Request) : Option System :=
  match s.call, request.cmd hhdm (some s.q) with
  | some _, _ => none
  | none, none => some s
  | none, some cmd => some (s.submit request cmd)

/-- The call takes the completion at the head and returns. -/
def System.finish (s : System) (c : Call) (status : Nat) (q : NvmeQueue) : System :=
  { s with
    q := q
    cqDoorbell := q.cqHead
    call := none
    taken := s.taken ++ [s.q.cqVirt s.q.cqHead]
    returned := s.returned ++ [⟨c.number, c.request, c.request.reply (some status)⟩] }

def System.giveUp (s : System) (c : Call) : System :=
  { s with
    call := none
    returned := s.returned ++ [⟨c.number, c.request, c.request.reply none⟩] }

/-- A round without a completion. The last one ends the call. -/
def System.wait (s : System) (c : Call) : System :=
  if c.timeout ≤ 1 then s.giveUp c else { s with call := some { c with timeout := c.timeout - 1 } }

def System.poll (s : System) : Option System :=
  match s.call, s.q.poll with
  | none, _ => none
  | some c, some (status, q) => some (s.finish c status q)
  | some c, none => some (s.wait c)

def System.accept (s : System) : System :=
  { s with
    ctl := { s.ctl with
      sqHead := (s.ctl.sqHead + 1) % s.q.qsize
      fetched := s.ctl.fetched ++ [(s.slots s.ctl.sqHead, s.q.sqVirt s.ctl.sqHead)] } }

def System.fetch (s : System) : Option System :=
  if s.ctl.sqHead = s.sqDoorbell then none else some s.accept

def System.entry (s : System) (cmd : NvmeCmd) (status : BitVec 15) (cdw0 : BitVec 32) :
    NvmeCqe where
  cdw0 := cdw0
  reserved := 0
  sqHead := BitVec.ofNat 16 s.ctl.sqHead
  sqId := BitVec.ofNat 16 s.q.qid
  commandId := cmd.commandId
  status := status ++ BitVec.ofBool s.ctl.phase

def System.nextTail (s : System) : Nat := (s.ctl.cqTail + 1) % s.q.qsize

/-- The controller completes the `i`-th command that it has. -/
def System.complete (s : System) (i call : Nat) (cmd : NvmeCmd) (status : BitVec 15)
    (cdw0 : BitVec 32) : System :=
  { s with
    q := { s.q with cqVirt := update s.q.cqVirt s.ctl.cqTail (s.entry cmd status cdw0) }
    ctl := { s.ctl with
      fetched := s.ctl.fetched.eraseIdx i
      cqTail := s.nextTail
      phase := if s.nextTail = 0 then !s.ctl.phase else s.ctl.phase }
    posted := s.posted ++ [⟨call, status, s.entry cmd status cdw0⟩] }

def System.post (s : System) (i : Nat) (status : BitVec 15) (cdw0 : BitVec 32) : Option System :=
  match s.ctl.fetched[i]? with
  | none => none
  | some (call, cmd) =>
    if s.nextTail = s.cqDoorbell then none else some (s.complete i call cmd status cdw0)

/-- `none` means that the event is not possible in this state. -/
def nvmeStep (hhdm : BitVec 64) (s : System) : Event → Option System
  | .call request => s.begin hhdm request
  | .poll => s.poll
  | .fetch => s.fetch
  | .post i status cdw0 => s.post i status cdw0

/-- The controller has completed everything before a call begins its last
round. -/
def InTime (s : System) : Event → Prop
  | .poll => ∀ c ∈ s.call, c.timeout ≤ 1 → s.posted.length = s.calls
  | _ => True

instance (s : System) : ∀ e, Decidable (InTime s e)
  | .poll => inferInstanceAs (Decidable (∀ c ∈ s.call, c.timeout ≤ 1 → s.posted.length = s.calls))
  | .call _ => isTrue trivial
  | .fetch => isTrue trivial
  | .post _ _ _ => isTrue trivial

end VortexOS.Dev
