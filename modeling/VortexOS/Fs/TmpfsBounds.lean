/-
VortexOS.Fs.TmpfsBounds — writes to a tmpfs file that begin behind its page,
or whose end wraps around.

`tmpfs_file_write` clips the end of a write to the page, and sets the size
of the file to it. It does not clip the offset, up to which it stores zeros,
and it takes the end modulo `2 ^ 64`. A write that begins where the page
ends stores nothing behind it, but makes the file as long as the page and
returns 0. Only for a file that is full such a write does no harm
(`tmpfs_write_beyond_iff`).
-/
import VortexOS.Fs.Tmpfs

namespace VortexOS.Fs

open Lib
open Mm (pageSize)

/-! ## Files -/

/-- What holds for a file after any calls. -/
structure FileOk (node : VfsNode) : Prop where
  room : node.size ≤ pageSize
  mapped : ∀ data ∈ node.privateData, data + pageSize ≤ 2 ^ 64
  empty : node.privateData = none → node.size = 0

section

variable {hhdm : Nat} {s : FileState} {node : VfsNode}

lemma FileOk.fresh (name : List Byte) : FileOk (newNode name .file) :=
  ⟨Nat.zero_le _, fun _ h => (by cases h), fun _ => rfl⟩

lemma FileOk.filePage_mapped (h : FileOk node) {page : PageResult hhdm} {data : Nat}
    (hpage : filePage hhdm page.raw node = some data) : data + pageSize ≤ 2 ^ 64 := by
  unfold filePage at hpage
  split at hpage
  · rename_i old hold
    cases hpage
    exact h.mapped _ hold
  · split at hpage
    · cases hpage
    · rename_i hraw
      cases hpage
      have hpos : 0 < pageSize := by decide
      have hmapped := page.mapped hraw
      rw [add64_of_lt (by omega)]
      exact hmapped

lemma FileOk.write (h : FileOk s.node) (offset size : Nat) (buffer : Option (Nat → Byte))
    (page : PageResult hhdm) :
    FileOk (tmpfsFileWrite hhdm page.raw offset size buffer s).2.node := by
  cases buffer with
  | none => exact h
  | some src =>
    unfold tmpfsFileWrite
    cases hpage : filePage hhdm page.raw s.node with
    | none => simpa [hpage] using h
    | some data =>
      refine ⟨?_, fun d hd => ?_, fun hnull => by cases hnull⟩
      · have hroom := h.room
        simp only
        split <;> split <;> omega
      · cases hd
        exact h.filePage_mapped hpage

lemma FileOk.trace (h : FileOk s.node) {calls : List (FileCall hhdm)}
    {results : List (Nat × List Byte)} {s' : FileState}
    (htrace : trace fileStep s calls = some (results, s')) : FileOk s'.node := by
  refine trace_invariant (fun s => FileOk s.node) (fun s call r s' h hstep => ?_) h htrace
  cases call with
  | read offset size buffer =>
    cases hstep
    exact h
  | elsewhere mem =>
    cases hstep
    exact h
  | write offset size buffer page =>
    cases hstep
    exact h.write offset size buffer page

end

/-! ## Writes behind the page -/

def FileState.contents (s : FileState) : List Byte := tmpfsFileRead 0 s.node.size true s

/-- A call of `tmpfs_file_write` has changed no byte outside the file's page
and, if it returned 0, neither the size nor the bytes of the file. -/
structure Harmless (s : FileState) (r : Nat × FileState) : Prop where
  outside : ∀ a, ¬ InPage r.2.node a → r.2.mem a = s.mem a
  kept : r.1 = 0 → r.2.node.size = s.node.size ∧ r.2.contents = s.contents

section

variable {hhdm page offset size data : Nat} {s : FileState} {src : Nat → Byte}

lemma Harmless.refl (s : FileState) : Harmless s (0, s) := ⟨fun _ _ => rfl, fun _ => ⟨rfl, rfl⟩⟩

lemma write_at_end (src : Nat → Byte) (hroom : s.node.size ≤ pageSize)
    (hpage : filePage hhdm page s.node = some data) (hend : pageSize + size < 2 ^ 64) :
    (tmpfsFileWrite hhdm page pageSize size (some src) s).1 = 0 ∧
    (tmpfsFileWrite hhdm page pageSize size (some src) s).2.node.size = pageSize := by
  simp only [tmpfsFileWrite, hpage, add64_of_lt hend, Nat.lt_irrefl, if_false]
  constructor
  · split
    · rfl
    · omega
  · split <;> split <;> omega

lemma write_full (h : FileOk s.node) (hfull : s.node.size = pageSize)
    (hend : pageSize + size < 2 ^ 64) :
    tmpfsFileWrite hhdm page pageSize size (some src) s = (0, s) := by
  cases hdata : s.node.privateData with
  | none =>
    have hempty := h.empty hdata
    rw [hfull] at hempty
    cases hempty
  | some data =>
    have hpage : filePage hhdm page s.node = some data := by rw [filePage, hdata]
    have hnone : (if pageSize + size > pageSize then 0 else size) = 0 := by
      split <;> omega
    have hstop : (if pageSize + size > pageSize then pageSize else pageSize + size) = pageSize := by
      split <;> omega
    simp only [tmpfsFileWrite, hpage, add64_of_lt hend, hfull, Nat.lt_irrefl, gt_iff_lt, if_false]
    rw [hnone, hstop]
    simp [storeLoop, ← hfull, ← hdata]

/-- A byte behind the page is cleared, if the offset is there, or if the end
wraps around and the buffer has zeros. -/
lemma write_behind (h : FileOk s.node) (hpage : filePage hhdm page s.node = some data)
    (hoffset : offset < 2 ^ 64) (hsize : size < 2 ^ 64)
    (hbehind : pageSize < offset ∨ 2 ^ 64 ≤ offset + size) :
    (tmpfsFileWrite hhdm page offset size (some fun _ => 0) s).2.mem (add64 data pageSize) = 0 := by
  have hroom := h.room
  simp only [tmpfsFileWrite, hpage]
  by_cases hgap : pageSize < offset
  · -- by the zeros up to the offset
    have hfill : offset > s.node.size := by omega
    rw [if_pos hfill]
    exact storeLoop_const (storeLoop_hit s.mem (by omega) (by omega) (by omega))
  · -- the end has wrapped around to before the offset, and is not clipped
    have hpast : ¬ add64 offset size > pageSize := by
      unfold add64
      omega
    have haddr : add64 data pageSize = add64 (add64 data offset) (pageSize - offset) := by
      rw [add64_add64, Nat.add_sub_cancel' (by omega)]
    have hpos : pageSize < 2 ^ 64 := by decide
    rw [if_neg hpast, haddr]
    exact storeLoop_hit _ (by omega) (by omega) (by omega)

lemma not_inPage_end {node : VfsNode} (hdata : node.privateData = some data) :
    ¬ InPage node (add64 data pageSize) := by
  rintro ⟨d, hd, hle, hlt⟩
  rw [hdata] at hd
  cases hd
  simp only [add64, pageSize] at *
  omega

end

/-- Whatever calls were made on a file, for every write to it that begins
behind the page or whose end wraps around: it does no harm, whatever bytes
there are in memory and in the buffer, if and only if the file has no page
and gets none, or it is full and the write begins where it ends. -/
theorem tmpfs_write_beyond_iff {hhdm : Nat} {name : List Byte} {mem : Nat → Byte}
    {calls : List (FileCall hhdm)} {results : List (Nat × List Byte)} {s : FileState}
    (htrace : trace fileStep ⟨newNode name .file, mem⟩ calls = some (results, s))
    (page : PageResult hhdm) {offset size : Nat} (hoffset : offset < 2 ^ 64) (hsize : size < 2 ^ 64)
    (hbeyond : pageSize ≤ offset ∨ 2 ^ 64 ≤ offset + size) :
    (∀ mem, Harmless ⟨s.node, mem⟩ (tmpfsFileWrite hhdm page.raw offset size none ⟨s.node, mem⟩)) ∧
    ((∀ mem src,
      Harmless ⟨s.node, mem⟩ (tmpfsFileWrite hhdm page.raw offset size (some src) ⟨s.node, mem⟩)) ↔
      filePage hhdm page.raw s.node = none ∨
        s.node.size = pageSize ∧ offset = pageSize ∧ offset + size < 2 ^ 64) := by
  have hok : FileOk s.node := (FileOk.fresh name).trace htrace
  have hroom := hok.room
  refine ⟨fun mem => .refl _, fun hall => ?_, fun hcond mem src => ?_⟩
  · cases hpage : filePage hhdm page.raw s.node with
    | none => exact Or.inl rfl
    | some data =>
      refine Or.inr ?_
      by_cases hbehind : pageSize < offset ∨ 2 ^ 64 ≤ offset + size
      · -- ones behind the page, and zeros in the buffer
        have hclear := write_behind (s := ⟨s.node, fun _ => 1⟩) hok hpage hoffset hsize hbehind
        have hsame := (hall (fun _ => 1) fun _ => 0).outside (add64 data pageSize)
          (not_inPage_end (by simp [tmpfsFileWrite, hpage]))
        have hne : (0 : Byte) ≠ 1 := by decide
        exact absurd (hclear.symm.trans hsame) hne
      · obtain rfl : offset = pageSize := by omega
        have hend : pageSize + size < 2 ^ 64 := by omega
        obtain ⟨hzero, hfull⟩ := write_at_end (s := ⟨s.node, fun _ => 1⟩)
          (fun _ => 0) hroom hpage hend
        have hkept := ((hall (fun _ => 1) fun _ => 0).kept hzero).1
        exact ⟨hkept.symm.trans hfull, rfl, hend⟩
  · cases hcond with
    | inl hnone =>
      have hcall : tmpfsFileWrite hhdm page.raw offset size (some src) ⟨s.node, mem⟩ =
          (0, ⟨s.node, mem⟩) := by simp only [tmpfsFileWrite, hnone]
      rw [hcall]
      exact .refl _
    | inr hfull =>
      obtain ⟨hlen, rfl, hend⟩ := hfull
      rw [write_full (s := ⟨s.node, mem⟩) hok hlen hend]
      exact .refl _

def freshFile : FileState := ⟨newNode dev .file, fun _ => 0xFF⟩

def fullFile : FileState := (tmpfsFileWrite 0 pageSize 4095 1 (some fun _ => 7) freshFile).2

lemma trace_fullFile : trace fileStep freshFile
    [(.write 4095 1 (some fun _ => 7) ⟨pageSize, fun _ => by decide⟩ : FileCall 0)] =
      some ([(1, [])], fullFile) := rfl

/-- A write behind its last byte does nothing to it. -/
theorem tmpfs_write_beyond_full : fullFile.node.size = pageSize ∧ ∀ mem src,
    Harmless ⟨fullFile.node, mem⟩ (tmpfsFileWrite 0 0 4096 5 (some src) ⟨fullFile.node, mem⟩) := by
  have hsize : fullFile.node.size = pageSize := by decide
  have hiff := tmpfs_write_beyond_iff trace_fullFile ⟨0, fun h => absurd rfl h⟩
    (show 4096 < 2 ^ 64 by decide) (show 5 < 2 ^ 64 by decide) (Or.inl (by decide))
  exact ⟨hsize, hiff.2.mpr (Or.inr ⟨hsize, rfl, by decide⟩)⟩

/-- The page of the new file is at `0x1000`. A write of one byte at offset
4097 returns 0, clears the first byte of the page at `0x2000`, and the file
has 4096 bytes. -/
theorem tmpfs_write_clears_next :
    (tmpfsFileWrite 0 0x1000 4097 1 (some fun _ => 0) freshFile).1 = 0 ∧
    ¬ InPage (tmpfsFileWrite 0 0x1000 4097 1 (some fun _ => 0) freshFile).2.node 0x2000 ∧
    freshFile.mem 0x2000 = 0xFF ∧
    (tmpfsFileWrite 0 0x1000 4097 1 (some fun _ => 0) freshFile).2.mem 0x2000 = 0 ∧
    freshFile.node.size = 0 ∧
    (tmpfsFileWrite 0 0x1000 4097 1 (some fun _ => 0) freshFile).2.node.size = 4096 ∧
    ¬ Harmless freshFile (tmpfsFileWrite 0 0x1000 4097 1 (some fun _ => 0) freshFile) := by
  have hpage : filePage 0 0x1000 freshFile.node = some 0x1000 := rfl
  have haddr : add64 0x1000 pageSize = 0x2000 := by decide
  have hclear := write_behind (s := freshFile) (FileOk.fresh dev) hpage
    (show 4097 < 2 ^ 64 by decide) (show 1 < 2 ^ 64 by decide) (Or.inl (by decide))
  rw [haddr] at hclear
  have hout : ¬ InPage (tmpfsFileWrite 0 0x1000 4097 1
      (some fun _ => 0) freshFile).2.node 0x2000 := by
    decide
  refine ⟨by decide, hout, rfl, hclear, rfl, by decide, fun hharmless => ?_⟩
  have hne : (0 : Byte) ≠ 0xFF := by decide
  exact hne (hclear.symm.trans (hharmless.outside 0x2000 hout))

end VortexOS.Fs
