/-
VortexOS.Fs.Tmpfs — files of the tmpfs, `kernel/vfs.cpp`, as byte strings.

A file has at most one page, which the first write allocates and nothing
clears. `private_data` is `none` for a null pointer. What `pmm_alloc_page`
returns is an argument of the write: a physical address, zero if there is no
page. The caller's buffer is apart from the file's page; `none` is a null
pointer.

In the specification a write pads the bytes with zeros up to the offset and
puts the new ones over them, and a read cuts a piece out
(`tmpfs_refines_bytes`).
-/
import VortexOS.Fs.Vfs
import VortexOS.Lib.Memory
import VortexOS.Lib.Wire
import VortexOS.Mm.Pmm

namespace VortexOS.Fs

open Lib
open Mm (pageSize)

/-! ## Reading and writing -/

structure FileState where
  node : VfsNode
  mem : Nat → Byte

/-- `tmpfs_file_read`: what it stores to the buffer, if that is not null.
The result is the number of these bytes. -/
def tmpfsFileRead (offset size : Nat) (buffer : Bool) (s : FileState) : List Byte :=
  if buffer = false ∨ offset ≥ s.node.size then []
  else
    let available := s.node.size - offset
    let toRead := if size < available then size else available
    let src := add64 (s.node.privateData.getD 0) offset
    (List.range toRead).map fun i => s.mem (add64 src i)

/-- The page of the file, allocated if it has none. -/
def filePage (hhdm page : Nat) (node : VfsNode) : Option Nat :=
  match node.privateData with
  | some data => some data
  | none => if page = 0 then none else some (add64 page hhdm)

def tmpfsFileWrite (hhdm page offset size : Nat) (buffer : Option (Nat → Byte)) (s : FileState) :
    Nat × FileState :=
  match buffer with
  | none => (0, s)
  | some src =>
    match filePage hhdm page s.node with
    | none => (0, s)
    | some data =>
      let past := add64 offset size > pageSize
      let stop := if past then pageSize else add64 offset size
      let size := if past then (if offset < pageSize then pageSize - offset else 0) else size
      let mem :=
        if offset > s.node.size then
          storeLoop data (fun _ => 0) (offset - s.node.size) s.node.size s.mem
        else s.mem
      let mem := storeLoop (add64 data offset) src size 0 mem
      let newSize := if stop > s.node.size then stop else s.node.size
      (size, ⟨{ s.node with privateData := some data, size := newSize }, mem⟩)

/-! ## Calls -/

/-- What `pmm_alloc_page` may return: nothing, or a page that the direct map
at `hhdm` covers. -/
structure PageResult (hhdm : Nat) where
  raw : Nat
  mapped : raw ≠ 0 → raw + hhdm + pageSize ≤ 2 ^ 64

/-- The calls on a file. `elsewhere` is what others do to memory, the file's
page apart. -/
inductive FileCall (hhdm : Nat) where
  | read (offset size : Nat) (buffer : Bool)
  | write (offset size : Nat) (buffer : Option (Nat → Byte)) (page : PageResult hhdm)
  | elsewhere (mem : Nat → Byte)

def InPage (node : VfsNode) (a : Nat) : Prop :=
  ∃ data ∈ node.privateData, data ≤ a ∧ a < data + pageSize

instance (node : VfsNode) (a : Nat) : Decidable (InPage node a) :=
  decidable_of_iff (node.privateData.any fun data => decide (data ≤ a ∧ a < data + pageSize)) (by
    cases h : node.privateData <;> simp [InPage, h])

/-- A call returns a number and the bytes it has stored to the buffer. -/
def fileStep {hhdm : Nat} (s : FileState) : FileCall hhdm → Option ((Nat × List Byte) × FileState)
  | .read offset size buffer =>
    let out := tmpfsFileRead offset size buffer s
    some ((out.length, out), s)
  | .write offset size buffer page =>
    let r := tmpfsFileWrite hhdm page.raw offset size buffer s
    some ((r.1, []), r.2)
  | .elsewhere mem => some ((0, []),
    { s with mem := fun a => if InPage s.node a then s.mem a else mem a })

/-! ## Byte strings -/

/-- `F` up to `offset`, with zeros where it is shorter, then `bytes`, then
the rest of `F`. -/
def overlay (F : List Byte) (offset : Nat) (bytes : List Byte) : List Byte :=
  (F.take offset ++ List.replicate (offset - F.length) 0) ++ bytes ++ F.drop (offset + bytes.length)

/-- The bytes of a file, and whether it has a page. -/
structure TmpFile where
  bytes : List Byte
  hasPage : Bool

namespace TmpFile

def empty : TmpFile := ⟨[], false⟩

def stored (offset size : Nat) (src : Nat → Byte) : List Byte :=
  (List.range (min size (pageSize - offset))).map src

def step {hhdm : Nat} (f : TmpFile) : FileCall hhdm → (Nat × List Byte) × TmpFile
  | .read _ _ false => ((0, []), f)
  | .read offset size true =>
    let out := (f.bytes.drop offset).take size
    ((out.length, out), f)
  | .write _ _ none _ => ((0, []), f)
  | .write offset size (some src) page =>
    if f.hasPage = false ∧ page.raw = 0 then ((0, []), f)
    else
      ((min size (pageSize - offset), []), ⟨overlay f.bytes offset (stored offset size src), true⟩)
  | .elsewhere _ => ((0, []), f)

end TmpFile

def WriteInRange {hhdm : Nat} : FileCall hhdm → Prop
  | .write offset size _ _ => offset < pageSize ∧ offset + size < 2 ^ 64
  | _ => True

lemma overlay_length (F : List Byte) (offset : Nat) (bytes : List Byte) :
    (overlay F offset bytes).length = max F.length (offset + bytes.length) := by
  simp only [overlay, List.length_append, List.length_take, List.length_replicate, List.length_drop]
  omega

/-! ## The refinement -/

/-- The file's page holds `f`. -/
structure Holds (s : FileState) (f : TmpFile) : Prop where
  size : s.node.size = f.bytes.length
  room : f.bytes.length ≤ pageSize
  page : f.hasPage = s.node.privateData.isSome
  mapped : ∀ data ∈ s.node.privateData, data + pageSize ≤ 2 ^ 64 ∧ Starts s.mem data f.bytes
  empty : s.node.privateData = none → f.bytes = []

section

variable {s : FileState} {f : TmpFile} {hhdm : Nat}

lemma Holds.fresh (name : List Byte) (mem : Nat → Byte) : Holds ⟨newNode name .file, mem⟩ .empty :=
  ⟨rfl, Nat.zero_le _, rfl, fun _ h => (by cases h), fun _ => rfl⟩

lemma Holds.read (h : Holds s f) (offset size : Nat) :
    tmpfsFileRead offset size true s = (f.bytes.drop offset).take size := by
  rw [tmpfsFileRead]
  by_cases hend : offset ≥ s.node.size
  · rw [if_pos (Or.inr hend), List.drop_eq_nil_of_le (by rw [← h.size]; exact hend), List.take_nil]
  · rw [if_neg (by simpa using hend)]
    have hlt : offset < f.bytes.length := by
      rw [← h.size]
      omega
    obtain ⟨data, hdata⟩ : ∃ data, s.node.privateData = some data := by
      cases hnull : s.node.privateData with
      | some data => exact ⟨data, rfl⟩
      | none => simp [h.empty hnull] at hlt
    obtain ⟨hmapped, hbytes⟩ := h.mapped data hdata
    have hroom : f.bytes.length ≤ pageSize := h.room
    have hsize := h.size
    refine List.ext_getElem ?_ fun i hi hi' => ?_
    · simp only [List.length_map, List.length_range, List.length_take, List.length_drop]
      split <;> omega
    · simp only [List.length_take, List.length_drop] at hi'
      simp only [List.getElem_map, List.getElem_range, List.getElem_take, List.getElem_drop, hdata,
        Option.getD_some]
      have hin : offset + i < f.bytes.length := by omega
      have hsrc : add64 data offset = data + offset := add64_of_lt (by omega)
      rw [hsrc, add64_of_lt (by omega), Nat.add_assoc]
      exact hbytes _ _ (List.getElem?_eq_getElem hin)

/-- The bytes from `data` on after the two loops of a write. -/
lemma starts_overlay {data offset n : Nat} {F : List Byte} {src m : Nat → Byte}
    (hdata : data + pageSize ≤ 2 ^ 64) (hF : F.length ≤ pageSize) (hn : offset + n ≤ pageSize)
    (hold : Starts m data F) : Starts (storeLoop (data + offset) src n 0
      (if offset > F.length then storeLoop data (fun _ => 0) (offset - F.length) F.length m else m))
      data (overlay F offset ((List.range n).map src)) := by
  have hpad : ∀ i, (if offset > F.length then
      storeLoop data (fun _ => 0) (offset - F.length) F.length m else m) (data + i) =
        if F.length ≤ i ∧ i < offset then 0 else m (data + i) := by
    intro i
    by_cases hgap : offset > F.length
    · rw [if_pos hgap, storeLoop_apply (by omega)]
      by_cases hi : F.length ≤ i ∧ i < offset
      · rw [if_pos hi, if_pos (by omega)]
      · rw [if_neg hi, if_neg (by omega)]
    · rw [if_neg hgap, if_neg (by omega)]
  have hnew : ∀ i, storeLoop (data + offset) src n 0 (if offset > F.length then
      storeLoop data (fun _ => 0) (offset - F.length) F.length m else m) (data + i) =
        if offset ≤ i ∧ i < offset + n then src (i - offset)
        else if F.length ≤ i ∧ i < offset then 0 else m (data + i) := by
    intro i
    rw [storeLoop_apply (by omega), hpad]
    by_cases hi : offset ≤ i ∧ i < offset + n
    · rw [if_pos hi, if_pos (by omega), show data + i - (data + offset) = i - offset by omega]
    · rw [if_neg hi, if_neg (by omega)]
  -- the four pieces of the new string, one after the other
  rw [overlay, starts_append, starts_append, starts_append]
  refine ⟨⟨⟨fun i b hb => ?_, fun i b hb => ?_⟩, fun i b hb => ?_⟩, fun i b hb => ?_⟩
  · rw [List.getElem?_take] at hb
    obtain ⟨hi, hb⟩ := Option.ite_none_right_eq_some.mp hb
    have hlt := (List.getElem?_eq_some_iff.mp hb).1
    rw [hnew, if_neg (by omega), if_neg (by omega)]
    exact hold i b hb
  · rw [List.getElem?_replicate] at hb
    obtain ⟨hi, hb⟩ := Option.ite_none_right_eq_some.mp hb
    simp only [List.length_take]
    rw [Nat.add_assoc, hnew, if_neg (by omega), if_pos (by omega), Option.some.inj hb]
  · obtain ⟨hi, hb⟩ := List.getElem?_eq_some_iff.mp hb
    simp only [List.length_map, List.length_range] at hi
    simp only [List.getElem_map, List.getElem_range] at hb
    simp only [List.length_append, List.length_take, List.length_replicate]
    rw [Nat.add_assoc, hnew, if_pos (by omega), ← hb]
    congr 1
    omega
  · rw [List.getElem?_drop] at hb
    have hlt := (List.getElem?_eq_some_iff.mp hb).1
    simp only [List.length_append, List.length_take, List.length_replicate, List.length_map,
      List.length_range] at hlt hb ⊢
    rw [Nat.add_assoc, hnew, if_neg (by omega), if_neg (by omega)]
    refine hold _ b ?_
    rw [← hb]
    congr 1
    omega

lemma Holds.write (h : Holds s f) {offset size page data : Nat} (src : Nat → Byte)
    (hoffset : offset < pageSize) (hend : offset + size < 2 ^ 64)
    (hpage : filePage hhdm page s.node = some data) (hmapped : data + pageSize ≤ 2 ^ 64)
    (hold : Starts s.mem data f.bytes) :
    ∃ s', tmpfsFileWrite hhdm page offset size (some src) s = (min size (pageSize - offset), s') ∧
    Holds s' ⟨overlay f.bytes offset (TmpFile.stored offset size src), true⟩ := by
  have hroom := h.room
  have hsize : (if add64 offset size > pageSize then
      (if offset < pageSize then
        pageSize - offset else 0) else size) = min size (pageSize - offset) := by
    rw [add64_of_lt hend, if_pos hoffset]
    split <;> omega
  have hlen : (overlay f.bytes offset (TmpFile.stored offset size src)).length =
      max f.bytes.length (offset + min size (pageSize - offset)) := by
    rw [overlay_length, TmpFile.stored, List.length_map, List.length_range]
  have hstop : (if (if add64 offset size > pageSize then
    pageSize else add64 offset size) > s.node.size
      then (if add64 offset size > pageSize then
        pageSize else add64 offset size) else s.node.size) =
      max f.bytes.length (offset + min size (pageSize - offset)) := by
    rw [add64_of_lt hend, h.size]
    split <;> split <;> omega
  simp only [tmpfsFileWrite, hpage, hsize, hstop,
    add64_of_lt (show data + offset < 2 ^ 64 by omega)]
  have hroom' : (overlay f.bytes offset (TmpFile.stored offset size src)).length ≤ pageSize := by
    rw [hlen]
    omega
  refine ⟨_, rfl, hlen.symm, hroom', rfl, fun d hd => ?_, fun hnull => by cases hnull⟩
  cases hd
  rw [h.size]
  exact ⟨hmapped, starts_overlay hmapped hroom (by omega) hold⟩

lemma Holds.step (h : Holds s f) {call : FileCall hhdm} (hrange : WriteInRange call) :
    ∃ s', fileStep s call = some ((f.step call).1, s') ∧ Holds s' (f.step call).2 := by
  cases call with
  | read offset size buffer =>
    refine ⟨s, ?_, ?_⟩
    · cases buffer with
      | false => rfl
      | true => simp only [fileStep, h.read, TmpFile.step]
    · cases buffer <;> exact h
  | elsewhere mem =>
    refine ⟨_, rfl, h.size, h.room, h.page, fun data hdata => ?_, h.empty⟩
    obtain ⟨hmapped, hbytes⟩ := h.mapped data hdata
    refine ⟨hmapped, fun i b (hb : f.bytes[i]? = some b) => ?_⟩
    have hi := (List.getElem?_eq_some_iff.mp hb).1
    have hroom : f.bytes.length ≤ pageSize := h.room
    have hin : InPage s.node (data + i) := ⟨data, hdata, by omega, by omega⟩
    simp only [if_pos hin]
    exact hbytes i b hb
  | write offset size buffer page =>
    obtain ⟨hoffset, hend⟩ := hrange
    cases buffer with
    | none => exact ⟨s, rfl, h⟩
    | some src =>
      cases hdata : s.node.privateData with
      | some data =>
        have hhas : f.hasPage = true := by rw [h.page, hdata, Option.isSome_some]
        obtain ⟨hmapped, hbytes⟩ := h.mapped data hdata
        have hpage : filePage hhdm page.raw s.node = some data := by rw [filePage, hdata]
        obtain ⟨s', hcall, h'⟩ := h.write src hoffset hend hpage hmapped hbytes
        refine ⟨s', ?_, ?_⟩
        · simp [fileStep, hcall, TmpFile.step, hhas]
        · simpa [TmpFile.step, hhas] using h'
      | none =>
        have hhas : f.hasPage = false := by rw [h.page, hdata, Option.isSome_none]
        by_cases hraw : page.raw = 0
        · -- no page, and none to get
          refine ⟨s, ?_, ?_⟩
          · simp [fileStep, tmpfsFileWrite, filePage, hdata, hraw, TmpFile.step, hhas]
          · simpa [TmpFile.step, hhas, hraw] using h
        · have hmapped := page.mapped hraw
          have hpos : 0 < pageSize := by decide
          have hpage : filePage hhdm page.raw s.node = some (page.raw + hhdm) := by
            rw [filePage, hdata]
            simp only [if_neg hraw]
            rw [add64_of_lt (by omega)]
          have hnil : Starts s.mem (page.raw + hhdm) f.bytes := by
            rw [h.empty hdata]
            exact starts_nil
          obtain ⟨s', hcall, h'⟩ := h.write src hoffset hend hpage hmapped hnil
          refine ⟨s', ?_, ?_⟩
          · simp [fileStep, hcall, TmpFile.step, hraw]
          · simpa [TmpFile.step, hraw] using h'

end

/-- A new file behaves as a byte string, whatever is in memory: all calls
return what the specification returns, and its string has at most 4096
bytes. -/
theorem tmpfs_refines_bytes {hhdm : Nat} (name : List Byte) (mem : Nat → Byte)
    (calls : List (FileCall hhdm)) (hrange : ∀ call ∈ calls, WriteInRange call) :
    ∃ results f s, specTrace TmpFile.step .empty calls = (results, f) ∧
      trace fileStep ⟨newNode name .file, mem⟩ calls = some (results, s) ∧
      s.node.size = f.bytes.length ∧ f.bytes.length ≤ pageSize := by
  have hstep : ∀ s f (call : FileCall hhdm), Holds s f → WriteInRange call →
      ∃ s', fileStep s call = some ((f.step call).1, s') ∧ Holds s' (f.step call).2 :=
    fun s f call h hp => h.step hp
  obtain ⟨s, htrace, h⟩ := trace_refines Holds hstep (Holds.fresh name mem)
    (Permitted.of_forall hrange)
  exact ⟨_, _, s, rfl, htrace, h.size, h.room⟩

/-- A write that fails, one behind the end, and a read of all. -/
def sampleCalls : List (FileCall 0) :=
  [.write 0 1 (some fun _ => 5) ⟨0, fun h => absurd rfl h⟩,
    .write 2 1 (some fun _ => 7) ⟨pageSize, fun _ => by decide⟩,
    .read 0 10 true]

/-- The gap reads as zeros in a memory full of ones. -/
theorem tmpfs_refines_bytes_sample : ∃ f s,
    specTrace TmpFile.step .empty sampleCalls = ([(0, []), (1, []), (3, [0, 0, 7])], f) ∧
    trace fileStep ⟨newNode dev .file, fun _ => 0xFF⟩ sampleCalls =
      some ([(0, []), (1, []), (3, [0, 0, 7])], s) ∧
    s.node.size = f.bytes.length ∧ f.bytes.length ≤ pageSize := by
  have hrange : ∀ call ∈ sampleCalls, WriteInRange call := by
    intro call hcall
    simp only [sampleCalls, List.mem_cons, List.not_mem_nil, or_false] at hcall
    rcases hcall with rfl | rfl | rfl
    · exact ⟨by decide, by decide⟩
    · exact ⟨by decide, by decide⟩
    · trivial
  obtain ⟨results, f, s, hspec, htrace, hsize⟩ :=
    tmpfs_refines_bytes dev (fun _ => 0xFF) sampleCalls hrange
  have hresults : (specTrace TmpFile.step .empty sampleCalls).1 =
      [(0, []), (1, []), (3, [0, 0, 7])] := by decide
  rw [hspec] at hresults
  obtain rfl : results = [(0, []), (1, []), (3, [0, 0, 7])] := hresults
  exact ⟨f, s, hspec, htrace, hsize⟩

end VortexOS.Fs
