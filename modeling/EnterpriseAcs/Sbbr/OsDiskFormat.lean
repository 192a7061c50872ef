import EnterpriseAcs.Acpi.Madt
import EnterpriseAcs.Library.EarlyReturn
import EnterpriseAcs.Library.WhileLoop
import EnterpriseAcs.Sbbr.ResetShutdown

/-!
# The OS disk format test

The test looks on each block device for a GPT with an EFI system partition. The size of an entry
is taken from the disk as it is. An entry is looked at in the buffer of its block, and what lies
behind the buffer is looked at with it when the entry is not in the block as a whole.

* `scanTable_total`: the scan of a table whose entries are not larger than a block.
* `bbTestOsDiskFormatTest_robust_iff`: when the test ends, with no division by zero and nothing
  read behind a buffer.
-/

namespace EnterpriseAcs.Sbbr

open Acpi EarlyReturn
open WhileLoop (toNat_next)

/-! ## The devices -/

/-- A handle: what `OpenProtocol` and `AllocatePool` return for it, its blocks, and what lies
behind the buffer when the header is read. Beyond the size of a block the contents are ignored. -/
structure BlockIo where
  openProtocol : EfiStatus
  allocatePool : EfiStatus
  blockSize : BitVec 32
  readBlocks : BitVec 64 → EfiStatus × Memory
  behindHeader : Memory

namespace BlockIo

variable (d : BlockIo)

/-- The memory from the buffer on, with a block read into the buffer. -/
def buffer (lba : BitVec 64) (behind : Memory) : Memory :=
  fun i => if i < d.blockSize.toNat then (d.readBlocks lba).2 i else behind i

end BlockIo

/-- `n` bytes of memory. -/
def bytesAt (mem : Memory) (addr n : Nat) : List (BitVec 8) :=
  (List.range n).map fun k => mem (addr + k)

/-- `GPT_HEADER_LBA`, `GPT_SIGNATURE` and the size of an `EFI_GUID`. -/
def gptHeaderLba : BitVec 64 := 1
def gptSignature : List (BitVec 8) := [0x45, 0x46, 0x49, 0x20, 0x50, 0x41, 0x52, 0x54]
def guidSize : Nat := 16

/-- `GPT_EFI_PARTITION_GUID` in memory. -/
def gptEfiPartitionGuid : List (BitVec 8) :=
  [0x28, 0x73, 0x2A, 0xC1, 0x1F, 0xF8, 0xD2, 0x11, 0xBA, 0x4B, 0x00, 0xA0, 0xC9, 0x3E, 0xC9, 0x3B]

/-- The end of the signature in the header, and that of `SizeOfPartitionEntry`. -/
def gptSignatureSize : Nat := 8
def gptFieldsSize : Nat := 88

namespace BlockIo

variable (d : BlockIo)

def header : Memory := d.buffer gptHeaderLba d.behindHeader

def hasSignature : Bool := bytesAt d.header 0 gptSignatureSize == gptSignature

def partitionEntryLba : BitVec 64 := read64 d.header 72
def numberOfPartitionEntries : BitVec 32 := read32 d.header 80
def sizeOfPartitionEntry : BitVec 32 := read32 d.header 84

/-- Only used with a size that is not zero. -/
def partitionEntriesPerLba : BitVec 32 := d.blockSize / d.sizeOfPartitionEntry

end BlockIo

/-! ## The test -/

/-- How the test ends: with a status, the assertion if there is one, and whether something behind
a buffer has been read; or at a division by zero. -/
inductive TestEnd
  | returned (status : EfiStatus) (recorded : Option AssertionType) (beyond : Bool)
  | dividesByZero
  deriving DecidableEq, Repr

/-- `GptPartitionsInThisLbaCount` and `GptPartitionEntryCount`. -/
structure BlockScan where
  inThisLba : BitVec 32
  entryCount : BitVec 32
  beyond : Bool

/-- The loop over the entries of one block, which is in the buffer. -/
def blockTest (d : BlockIo) (s : BlockScan) : Bool :=
  decide (s.inThisLba < d.partitionEntriesPerLba ∧ s.entryCount < d.numberOfPartitionEntries)

def blockRound (d : BlockIo) (buffer : Memory) (s : BlockScan) : Code TestEnd BlockScan :=
  let offset := ((s.entryCount % d.partitionEntriesPerLba) * d.sizeOfPartitionEntry).toNat
  let beyond := s.beyond || decide (d.blockSize.toNat < offset + guidSize)
  if bytesAt buffer offset guidSize = gptEfiPartitionGuid then
    ret (.returned efiSuccess (some .passed) beyond)
  else pure { inThisLba := s.inThisLba + 1, entryCount := s.entryCount + 1, beyond := beyond }

def blockLoop (d : BlockIo) (buffer : Memory) : BlockScan → Code TestEnd BlockScan :=
  loop (blockTest d) (blockRound d buffer)

/-- `PartitionEntryLba` and `GptPartitionEntryCount`. -/
structure TableScan where
  lba : BitVec 64
  entryCount : BitVec 32
  beyond : Bool

/-- The loop over the blocks of the table. -/
def tableTest (d : BlockIo) (s : TableScan) : Bool :=
  decide (s.entryCount < d.numberOfPartitionEntries)

def tableRound (d : BlockIo) (behind : BitVec 64 → Memory) (s : TableScan) :
    Code TestEnd TableScan :=
  let status := (d.readBlocks s.lba).1
  if efiError status then ret (.returned status none s.beyond)
  else do
    let t ← blockLoop d (d.buffer s.lba (behind s.lba))
      { inThisLba := 0, entryCount := s.entryCount, beyond := s.beyond }
    pure { lba := s.lba + 1, entryCount := t.entryCount, beyond := t.beyond }

def tableLoop (d : BlockIo) (behind : BitVec 64 → Memory) :
    TableScan → Code TestEnd TableScan :=
  loop (tableTest d) (tableRound d behind)

/-- The search in the table of a device. -/
def scanTable (d : BlockIo) (behind : BitVec 64 → Memory) (beyond : Bool) : Code TestEnd Bool :=
  if d.sizeOfPartitionEntry = 0 then ret .dividesByZero
  else do
    let t ← tableLoop d behind { lba := d.partitionEntryLba, entryCount := 0, beyond := beyond }
    pure t.beyond

/-- One device. -/
def scanDevice (d : BlockIo) (behind : BitVec 64 → Memory) (beyond : Bool) : Code TestEnd Bool :=
  if efiError d.openProtocol then ret (.returned d.openProtocol none beyond)
  else if efiError d.allocatePool then ret (.returned d.allocatePool none beyond)
  else
    let status := (d.readBlocks gptHeaderLba).1
    if efiError status then ret (.returned status none beyond)
    else
      let beyond := beyond || decide (d.blockSize.toNat < gptSignatureSize)
      if d.hasSignature then
        scanTable d behind (beyond || decide (d.blockSize.toNat < gptFieldsSize))
      else pure beyond

/-- What `HandleProtocol` and `LocateHandleBuffer` return, the handles, and for each of them what
lies behind the buffer when a block of the table is read. -/
structure OsDiskEnv where
  handleProtocol : EfiStatus
  locateHandleBuffer : EfiStatus
  numberOfHandles : BitVec 64
  handleBuffer : Nat → BlockIo

/-- `HandleCount`. -/
structure HandleScan where
  handleCount : BitVec 32
  beyond : Bool

/-- The loop over the handles. -/
def handleTest (env : OsDiskEnv) (s : HandleScan) : Bool :=
  decide (s.handleCount.setWidth 64 < env.numberOfHandles)

def handleRound (env : OsDiskEnv) (behind : Nat → BitVec 64 → Memory) (s : HandleScan) :
    Code TestEnd HandleScan := do
  let i := s.handleCount.toNat
  let beyond ← scanDevice (env.handleBuffer i) (behind i) s.beyond
  pure { handleCount := s.handleCount + 1, beyond := beyond }

def handleLoop (env : OsDiskEnv) (behind : Nat → BitVec 64 → Memory) :
    HandleScan → Code TestEnd HandleScan :=
  loop (handleTest env) (handleRound env behind)

/-- `BBTestOsDiskFormatTest`. -/
def bbTestOsDiskFormatTest (env : OsDiskEnv) (behind : Nat → BitVec 64 → Memory) :
    Code TestEnd Unit :=
  if efiError env.handleProtocol then ret (.returned env.handleProtocol none false)
  else if efiError env.locateHandleBuffer then ret (.returned env.locateHandleBuffer none false)
  else do
    let s ← handleLoop env behind { handleCount := 0, beyond := false }
    ret (.returned efiSuccess (some .failed) s.beyond)

/-! ## The entries -/

namespace BlockIo

variable (d : BlockIo)

/-- The number of whole entries in a block. -/
def perLba : Nat := d.partitionEntriesPerLba.toNat

/-- The block of an entry, and where the entry starts in it. -/
def entryLba (j : Nat) : BitVec 64 := d.partitionEntryLba + BitVec.ofNat 64 (j / d.perLba)
def entryOffset (j : Nat) : Nat := j % d.perLba * d.sizeOfPartitionEntry.toNat

/-- The type of an entry goes on behind the end of the block. -/
def Crosses (j : Nat) : Prop := d.blockSize.toNat < d.entryOffset j + guidSize

def Unreadable (j : Nat) : Prop := efiError (d.readBlocks (d.entryLba j)).1 = true

variable (behind : BitVec 64 → Memory)

/-- The entry as the test reads it has the GUID. -/
def ReadsEsp (j : Nat) : Prop :=
  bytesAt (d.buffer (d.entryLba j) (behind (d.entryLba j))) (d.entryOffset j) guidSize =
    gptEfiPartitionGuid

/-- Nothing stops the scan before an entry. -/
def Clear (j : Nat) : Prop := ∀ i < j, ¬ d.Unreadable i ∧ ¬ d.ReadsEsp behind i

/-- The scan comes to an entry: its block and those before can be read, and none before it has
the GUID. -/
structure Visited (j : Nat) : Prop where
  clear : d.Clear behind j
  readable : ¬ d.Unreadable j

end BlockIo

section Table

variable {d : BlockIo} {behind : BitVec 64 → Memory}

theorem perLba_eq (d : BlockIo) :
    d.perLba = d.blockSize.toNat / d.sizeOfPartitionEntry.toNat := BitVec.toNat_udiv

/-- An entry starts in its block. -/
theorem entryOffset_lt (h : 0 < d.perLba) (j : Nat) :
    d.entryOffset j + d.sizeOfPartitionEntry.toNat ≤ d.blockSize.toNat := by
  have hBlock : d.perLba * d.sizeOfPartitionEntry.toNat ≤ d.blockSize.toNat := by
    rw [perLba_eq]
    exact Nat.div_mul_le_self _ _
  calc d.entryOffset j + d.sizeOfPartitionEntry.toNat
      = (j % d.perLba + 1) * d.sizeOfPartitionEntry.toNat := (Nat.succ_mul _ _).symm
    _ ≤ d.perLba * d.sizeOfPartitionEntry.toNat := Nat.mul_le_mul_right _ (Nat.mod_lt j h)
    _ ≤ d.blockSize.toNat := hBlock

/-- The offset is computed without an overflow. -/
theorem offset_toNat (h : 0 < d.perLba) (count : BitVec 32) :
    ((count % d.partitionEntriesPerLba) * d.sizeOfPartitionEntry).toNat =
      d.entryOffset count.toNat := by
  have hStart := entryOffset_lt h count.toNat
  have hBlock := d.blockSize.isLt
  rw [BitVec.toNat_mul, BitVec.toNat_umod]
  exact Nat.mod_eq_of_lt (by rw [BlockIo.entryOffset, BlockIo.perLba] at hStart; omega)

/-- The entries of one block. -/
theorem entryLba_add (h : 0 < d.perLba) {c i : Nat} (hc : d.perLba ∣ c) (hi : i < d.perLba) :
    d.entryLba (c + i) = d.entryLba c := by
  obtain ⟨k, rfl⟩ := hc
  rw [BlockIo.entryLba, BlockIo.entryLba, Nat.mul_add_div h, Nat.div_eq_of_lt hi, Nat.add_zero,
    Nat.mul_div_cancel_left k h]

/-- The next block. -/
theorem entryLba_next (h : 0 < d.perLba) (c : Nat) :
    d.entryLba (c + d.perLba) = d.entryLba c + 1 := by
  rw [BlockIo.entryLba, BlockIo.entryLba, Nat.add_div_right c h, BitVec.ofNat_add,
    BitVec.add_assoc]
  rfl

theorem Clear_succ {j : Nat} (h : d.Clear behind j) (hReadable : ¬ d.Unreadable j)
    (hOther : ¬ d.ReadsEsp behind j) : d.Clear behind (j + 1) := by
  intro i hi
  rcases Nat.lt_succ_iff_lt_or_eq.mp hi with hBefore | rfl
  · exact h i hBefore
  · exact ⟨hReadable, hOther⟩

/-- What has been read behind the buffer after the first `j` entries. -/
def Flagged (d : BlockIo) (start : Bool) (j : Nat) (beyond : Bool) : Prop :=
  beyond = true ↔ start = true ∨ ∃ i < j, d.Crosses i

theorem flagged_zero (d : BlockIo) (start : Bool) : Flagged d start 0 start :=
  (or_iff_left fun h => Nat.not_lt_zero _ h.choose_spec.1).symm

theorem Flagged.succ {start beyond : Bool} {j : Nat} (h : Flagged d start j beyond) :
    Flagged d start (j + 1)
      (beyond || decide (d.blockSize.toNat < d.entryOffset j + guidSize)) := by
  have hFlag : beyond = true ↔ start = true ∨ ∃ i < j, d.Crosses i := h
  rw [Flagged, Bool.or_eq_true, decide_eq_true_eq, hFlag, or_assoc]
  refine or_congr_right ⟨?_, ?_⟩
  · rintro (⟨i, hi, hCrosses⟩ | hCrosses)
    · exact ⟨i, Nat.lt_succ_of_lt hi, hCrosses⟩
    · exact ⟨j, Nat.lt_succ_self j, hCrosses⟩
  · rintro ⟨i, hi, hCrosses⟩
    rcases Nat.lt_succ_iff_lt_or_eq.mp hi with hBefore | rfl
    · exact Or.inl ⟨i, hBefore, hCrosses⟩
    · exact Or.inr hCrosses

/-- How the scan of a table stops the test. -/
inductive Stopped (d : BlockIo) (behind : BitVec 64 → Memory) (start : Bool) : TestEnd → Prop
  | found {j : Nat} {beyond : Bool} (hj : j < d.numberOfPartitionEntries.toNat)
      (hBlock : 0 < d.perLba) (hVisited : d.Visited behind j) (hEsp : d.ReadsEsp behind j)
      (hFlag : Flagged d start (j + 1) beyond) :
      Stopped d behind start (.returned efiSuccess (some .passed) beyond)
  | unreadable {j : Nat} {status : EfiStatus} {beyond : Bool}
      (hj : j < d.numberOfPartitionEntries.toNat) (hBlock : 0 < d.perLba)
      (hClear : d.Clear behind j) (hUnreadable : d.Unreadable j)
      (hFlag : Flagged d start j beyond) : Stopped d behind start (.returned status none beyond)
  | noEntries {status : EfiStatus} (hBlock : d.perLba = 0)
      (hEntries : 0 < d.numberOfPartitionEntries.toNat) :
      Stopped d behind start (.returned status none start)

/-- The loop over a block, whose first entry is `c`. -/
structure BlockInv (d : BlockIo) (behind : BitVec 64 → Memory) (start : Bool) (c : Nat)
    (s : BlockScan) : Prop where
  count : s.entryCount.toNat = c + s.inThisLba.toNat
  inBlock : s.inThisLba.toNat ≤ d.perLba
  inTable : s.entryCount.toNat ≤ d.numberOfPartitionEntries.toNat
  clear : d.Clear behind s.entryCount.toNat
  flag : Flagged d start s.entryCount.toNat s.beyond

theorem toNat_add_one {w : Nat} {x y : BitVec w} (h : x < y) : (x + 1).toNat = x.toNat + 1 :=
  toNat_next (Nat.lt_of_le_of_lt (BitVec.lt_def.mp h) y.isLt)

/-- One entry. -/
theorem blockRound_total {start : Bool} {c : Nat} (h : 0 < d.perLba) (hc : d.perLba ∣ c)
    (hReadable : ¬ d.Unreadable c) {s : BlockScan} (hs : BlockInv d behind start c s)
    (hTest : blockTest d s = true) :
    Total (blockRound d (d.buffer (d.entryLba c) (behind (d.entryLba c))) s)
      (Stopped d behind start) fun t => BlockInv d behind start c t ∧
        d.perLba - t.inThisLba.toNat < d.perLba - s.inThisLba.toNat := by
  obtain ⟨hInBlock, hInTable⟩ := of_decide_eq_true hTest
  have hThis : s.inThisLba.toNat < d.perLba := BitVec.lt_def.mp hInBlock
  have hEntry : s.entryCount.toNat < d.numberOfPartitionEntries.toNat := BitVec.lt_def.mp hInTable
  have hLba : d.entryLba s.entryCount.toNat = d.entryLba c := by
    rw [hs.count]
    exact entryLba_add h hc hThis
  have hReads : ¬ d.Unreadable s.entryCount.toNat := by
    rw [BlockIo.Unreadable, hLba]
    exact hReadable
  rw [blockRound, offset_toNat h]
  split
  · rename_i hEsp
    refine Total.ret (.found hEntry h ⟨hs.clear, hReads⟩ ?_ hs.flag.succ)
    rw [BlockIo.ReadsEsp, hLba]
    exact hEsp
  · rename_i hOther
    refine Total.pure ⟨⟨?_, ?_, ?_, ?_, ?_⟩, ?_⟩
    · rw [toNat_add_one hInTable, toNat_add_one hInBlock, hs.count, Nat.add_assoc]
    · rw [toNat_add_one hInBlock]
      exact hThis
    · rw [toNat_add_one hInTable]
      exact hEntry
    · rw [toNat_add_one hInTable]
      refine Clear_succ hs.clear hReads fun hEsp => hOther ?_
      rw [BlockIo.ReadsEsp, hLba] at hEsp
      exact hEsp
    · rw [toNat_add_one hInTable]
      exact hs.flag.succ
    · rw [toNat_add_one hInBlock]
      omega

theorem blockLoop_total {start : Bool} {c : Nat} (h : 0 < d.perLba) (hc : d.perLba ∣ c)
    (hReadable : ¬ d.Unreadable c) {s : BlockScan} (hs : BlockInv d behind start c s) :
    Total (blockLoop d (d.buffer (d.entryLba c) (behind (d.entryLba c))) s)
      (Stopped d behind start) fun t => BlockInv d behind start c t ∧ blockTest d t = false :=
  Total.loop (fun t : BlockScan => d.perLba - t.inThisLba.toNat)
    (fun _ ht hTest => blockRound_total h hc hReadable ht hTest) hs

/-- The loop over a block ends with the block or with the table. -/
theorem blockLoop_end {start : Bool} {c : Nat} {s : BlockScan}
    (hs : BlockInv d behind start c s) (hTest : blockTest d s = false) :
    s.inThisLba.toNat = d.perLba ∨ s.entryCount.toNat = d.numberOfPartitionEntries.toNat := by
  have hEnd := of_decide_eq_false hTest
  rw [BitVec.lt_def, BitVec.lt_def] at hEnd
  have hInBlock := hs.inBlock
  have hInTable := hs.inTable
  rw [BlockIo.perLba] at hInBlock ⊢
  omega

/-- The loop over the table, with the next block. -/
structure TableInv (d : BlockIo) (behind : BitVec 64 → Memory) (start : Bool)
    (s : TableScan) : Prop where
  inTable : s.entryCount.toNat ≤ d.numberOfPartitionEntries.toNat
  block : s.entryCount.toNat = d.numberOfPartitionEntries.toNat ∨
    d.perLba ∣ s.entryCount.toNat ∧ s.lba = d.entryLba s.entryCount.toNat
  clear : d.Clear behind s.entryCount.toNat
  flag : Flagged d start s.entryCount.toNat s.beyond

/-- One block. -/
theorem tableRound_total {start : Bool} (h : 0 < d.perLba) {s : TableScan}
    (hs : TableInv d behind start s) (hTest : tableTest d s = true) :
    Total (tableRound d behind s) (Stopped d behind start) fun t =>
      TableInv d behind start t ∧ d.numberOfPartitionEntries.toNat - t.entryCount.toNat <
        d.numberOfPartitionEntries.toNat - s.entryCount.toNat := by
  have hLess : s.entryCount.toNat < d.numberOfPartitionEntries.toNat :=
    BitVec.lt_def.mp (of_decide_eq_true hTest)
  obtain ⟨hFirst, hLba⟩ := hs.block.resolve_left (Nat.ne_of_lt hLess)
  have hUnreadable : d.Unreadable s.entryCount.toNat ↔
      efiError (d.readBlocks s.lba).1 = true := by rw [BlockIo.Unreadable, hLba]
  rw [tableRound]
  split
  · rename_i hError
    exact Total.ret (.unreadable hLess h hs.clear (hUnreadable.mpr hError) hs.flag)
  · rename_i hRead
    have hStart : BlockInv d behind start s.entryCount.toNat
        { inThisLba := 0, entryCount := s.entryCount, beyond := s.beyond } :=
      ⟨rfl, Nat.zero_le _, hs.inTable, hs.clear, hs.flag⟩
    rw [hLba]
    refine Total.bind (blockLoop_total h hFirst (mt hUnreadable.mp hRead) hStart) ?_
    rintro t ⟨ht, hEnd⟩
    have hCount := ht.count
    have hWhere := blockLoop_end ht hEnd
    refine Total.pure ⟨⟨ht.inTable, ?_, ht.clear, ht.flag⟩, ?_⟩
    · refine hWhere.symm.imp_right fun hBlock => ?_
      rw [hCount, hBlock]
      exact ⟨Nat.dvd_add hFirst (Nat.dvd_refl _), (entryLba_next h _).symm⟩
    · refine Nat.sub_lt_sub_left hLess ?_
      dsimp only
      omega

theorem tableLoop_total {start : Bool} (h : 0 < d.perLba) {s : TableScan}
    (hs : TableInv d behind start s) :
    Total (tableLoop d behind s) (Stopped d behind start) fun t =>
      TableInv d behind start t ∧ tableTest d t = false :=
  Total.loop (fun t : TableScan => d.numberOfPartitionEntries.toNat - t.entryCount.toNat)
    (fun _ ht hTest => tableRound_total h ht hTest) hs

/-! ## Tables with entries larger than a block -/

/-- Without an entry in a block the loop over it does nothing. -/
theorem blockLoop_noEntries (h : d.perLba = 0) (buffer : Memory) (s : BlockScan) :
    Ends (blockLoop d buffer s) (.ok s) := by
  have hTest : blockTest d s = false := by
    refine decide_eq_false fun hTest => ?_
    have hInBlock : s.inThisLba.toNat < d.perLba := BitVec.lt_def.mp hTest.1
    rw [h] at hInBlock
    exact Nat.not_lt_zero _ hInBlock
  exact (ends_loop_of_false hTest).mpr rfl

/-- So the scan goes on from block to block with the same count. -/
theorem tableRound_noEntries (h : d.perLba = 0) {s : TableScan}
    (hRead : ¬ efiError (d.readBlocks s.lba).1 = true) :
    Ends (tableRound d behind s) (.ok { s with lba := s.lba + 1 }) := by
  rw [tableRound]
  rw [if_neg hRead]
  exact ends_bind_iff.mpr (Or.inr ⟨_, blockLoop_noEntries h _ _, ends_pure_iff.mpr rfl⟩)

theorem tableRound_error {s : TableScan} (hError : efiError (d.readBlocks s.lba).1 = true) :
    Ends (tableRound d behind s)
      (.error (.returned (d.readBlocks s.lba).1 none s.beyond)) := by
  rw [tableRound]
  rw [if_pos hError]
  exact ends_ret_iff.mpr rfl

variable (behind) in
/-- It ends at the first block that cannot be read. -/
theorem tableLoop_unreadable (h : d.perLba = 0) {s : TableScan} (hTest : tableTest d s = true)
    {k : Nat} (hError : efiError (d.readBlocks (s.lba + BitVec.ofNat 64 k)).1 = true) :
    ∃ status, Ends (tableLoop d behind s) (.error (.returned status none s.beyond)) := by
  induction k generalizing s with
  | zero =>
    rw [BitVec.add_zero] at hError
    exact ⟨_, (ends_loop_of_ret hTest (tableRound_error hError)).mpr rfl⟩
  | succ k ih =>
    by_cases hFirst : efiError (d.readBlocks s.lba).1 = true
    · exact ⟨_, (ends_loop_of_ret hTest (tableRound_error hFirst)).mpr rfl⟩
    · have hNext : s.lba + 1 + BitVec.ofNat 64 k = s.lba + BitVec.ofNat 64 (k + 1) := by
        rw [BitVec.ofNat_add, BitVec.add_comm (BitVec.ofNat 64 k), ← BitVec.add_assoc]
        rfl
      rw [← hNext] at hError
      obtain ⟨status, hEnds⟩ := ih (s := { s with lba := s.lba + 1 }) hTest hError
      exact ⟨status, (ends_loop_of_next hTest (tableRound_noEntries h hFirst)).mpr hEnds⟩

/-- It does not end when they all can be read. -/
theorem tableLoop_not_ends (h : d.perLba = 0) {s : TableScan} (hTest : tableTest d s = true)
    (hRead : ∀ lba, ¬ efiError (d.readBlocks lba).1 = true) (x : Except TestEnd TableScan) :
    ¬ Ends (tableLoop d behind s) x :=
  not_ends_loop (I := fun t : TableScan => tableTest d t = true)
    (fun t ht => ⟨ht, Or.inr ⟨_, tableRound_noEntries h (hRead t.lba), ht⟩⟩) hTest

/-! ## One device -/

/-- The scan ends: the entries fit a block, there are none, or some block cannot be read. -/
def ScanEnds (d : BlockIo) : Prop :=
  d.perLba = 0 → d.numberOfPartitionEntries.toNat = 0 ∨
    ∃ lba, efiError (d.readBlocks lba).1 = true

/-- The scan goes through the whole table. -/
structure Exhausted (d : BlockIo) (behind : BitVec 64 → Memory) : Prop where
  size : d.sizeOfPartitionEntry ≠ 0
  entries : d.perLba = 0 → d.numberOfPartitionEntries.toNat = 0
  clear : d.Clear behind d.numberOfPartitionEntries.toNat

/-- The variables when the scan begins. -/
def BlockIo.tableStart (d : BlockIo) (start : Bool) : TableScan :=
  { lba := d.partitionEntryLba, entryCount := 0, beyond := start }

theorem tableTest_start (d : BlockIo) (start : Bool) :
    tableTest d (d.tableStart start) = true ↔ 0 < d.numberOfPartitionEntries.toNat := by
  refine decide_eq_true_iff.trans ?_
  rw [BlockIo.tableStart, BitVec.lt_def]
  rfl

theorem tableInv_start (start : Bool) : TableInv d behind start (d.tableStart start) := by
  refine ⟨Nat.zero_le _, Or.inr ⟨Nat.dvd_zero _, ?_⟩, fun _ hi => ?_, flagged_zero d start⟩
  · change d.partitionEntryLba = d.entryLba 0
    rw [BlockIo.entryLba, Nat.zero_div, BitVec.add_zero]
  · exact absurd hi (Nat.not_lt_zero _)

/-- At the end of the loop all entries have been looked at. -/
theorem TableInv.exhausted {start : Bool} {t : TableScan} (ht : TableInv d behind start t)
    (hSize : d.sizeOfPartitionEntry ≠ 0) (hEnd : tableTest d t = false)
    (hEntries : d.perLba = 0 → d.numberOfPartitionEntries.toNat = 0) :
    Exhausted d behind ∧ Flagged d start d.numberOfPartitionEntries.toNat t.beyond := by
  have hCount : t.entryCount.toNat = d.numberOfPartitionEntries.toNat := by
    have hNot := of_decide_eq_false hEnd
    rw [BitVec.lt_def] at hNot
    have hInTable := ht.inTable
    omega
  have hClear := ht.clear
  have hFlag := ht.flag
  rw [hCount] at hClear hFlag
  exact ⟨⟨hSize, hEntries, hClear⟩, hFlag⟩

variable (behind) in
/-- With entries, none of which fits a block, the scan comes to a block that cannot be read. -/
theorem tableLoop_stopped (start : Bool) (hBlock : d.perLba = 0)
    (hEntries : 0 < d.numberOfPartitionEntries.toNat) (h : ScanEnds d) :
    ∃ r, Ends (tableLoop d behind (d.tableStart start)) (.error r) ∧ Stopped d behind start r := by
  obtain ⟨lba, hError⟩ := (h hBlock).resolve_left (Nat.ne_of_gt hEntries)
  have hReached :
      d.partitionEntryLba + BitVec.ofNat 64 (lba - d.partitionEntryLba).toNat = lba := by
    rw [BitVec.ofNat_toNat, BitVec.setWidth_eq, BitVec.add_comm, BitVec.sub_add_cancel]
  rw [← hReached] at hError
  obtain ⟨status, hEnds⟩ :=
    tableLoop_unreadable behind hBlock ((tableTest_start d start).mpr hEntries) hError
  exact ⟨_, hEnds, .noEntries hBlock hEntries⟩

variable (behind) in
theorem scanTable_total (start : Bool) (hSize : d.sizeOfPartitionEntry ≠ 0) (h : ScanEnds d) :
    Total (scanTable d behind start) (Stopped d behind start) fun beyond =>
      Exhausted d behind ∧
        Flagged d start d.numberOfPartitionEntries.toNat beyond := by
  rw [scanTable, if_neg hSize]
  by_cases hBlock : d.perLba = 0
  case pos =>
    by_cases hTest : tableTest d (d.tableStart start) = true
    case pos =>
      obtain ⟨r, hEnds, hStopped⟩ :=
        tableLoop_stopped behind start hBlock ((tableTest_start d start).mp hTest) h
      exact ⟨_, ends_bind_iff.mpr (Or.inl ⟨_, hEnds, rfl⟩), hStopped⟩
    case neg =>
      have hEnd := Bool.eq_false_of_not_eq_true hTest
      have hNone : d.numberOfPartitionEntries.toNat = 0 :=
        Nat.eq_zero_of_not_pos (mt (tableTest_start d start).mpr hTest)
      have hEnds : Ends (tableLoop d behind (d.tableStart start)) (.ok (d.tableStart start)) :=
        (ends_loop_of_false hEnd).mpr rfl
      exact ⟨_, ends_bind_iff.mpr (Or.inr ⟨_, hEnds, ends_pure_iff.mpr rfl⟩),
        (tableInv_start start).exhausted hSize hEnd fun _ => hNone⟩
  case neg =>
    refine Total.bind (tableLoop_total (Nat.pos_of_ne_zero hBlock) (tableInv_start start)) ?_
    rintro t ⟨ht, hEnd⟩
    exact Total.pure (ht.exhausted hSize hEnd fun hNone => absurd hNone hBlock)

theorem scanTable_not_ends {start : Bool} (hSize : d.sizeOfPartitionEntry ≠ 0)
    (h : ¬ ScanEnds d) (x : Except TestEnd Bool) : ¬ Ends (scanTable d behind start) x := by
  rw [ScanEnds, Classical.not_imp, not_or, not_exists] at h
  obtain ⟨hBlock, hEntries, hRead⟩ := h
  have hTest := (tableTest_start d start).mpr (Nat.pos_of_ne_zero hEntries)
  rw [scanTable, if_neg hSize, ends_bind_iff]
  rintro (⟨r, hEnds, -⟩ | ⟨t, hEnds, -⟩)
  · exact tableLoop_not_ends hBlock hTest hRead _ hEnds
  · exact tableLoop_not_ends hBlock hTest hRead _ hEnds

/-- Nothing is divided by zero and nothing behind a buffer is read. -/
def Sound : TestEnd → Prop
  | .returned _ _ beyond => beyond = false
  | .dividesByZero => False

/-- When the scan of a table is sound: its entries have a size, it ends, and what it comes to lies
in its block. -/
structure SafeScan (d : BlockIo) (behind : BitVec 64 → Memory) : Prop where
  size : d.sizeOfPartitionEntry ≠ 0
  ends : ScanEnds d
  within : 0 < d.perLba → ∀ j < d.numberOfPartitionEntries.toNat,
    d.Visited behind j → ¬ d.Crosses j

theorem Flagged.eq_false_iff {start beyond : Bool} {j : Nat} (h : Flagged d start j beyond) :
    beyond = false ↔ start = false ∧ ∀ i < j, ¬ d.Crosses i := by
  have hFlag : beyond = true ↔ start = true ∨ ∃ i < j, d.Crosses i := h
  rw [← Bool.not_eq_true, hFlag, not_or, Bool.not_eq_true]
  push Not
  rfl

theorem Visited.before {i j : Nat} (h : d.Clear behind j) (hi : i < j) : d.Visited behind i :=
  ⟨fun k hk => h k (Nat.lt_trans hk hi), (h i hi).1⟩

theorem Stopped.sound_iff {start : Bool} {r : TestEnd} (hSize : d.sizeOfPartitionEntry ≠ 0)
    (hEnds : ScanEnds d) (h : Stopped d behind start r) :
    Sound r ↔ start = false ∧ SafeScan d behind := by
  cases h with
  | @found j beyond hj hBlock hVisited hEsp hFlag =>
    rw [Sound, hFlag.eq_false_iff]
    refine and_congr_right fun _ => ⟨fun hWithin => ⟨hSize, hEnds, ?_⟩, fun hSafe i hi => ?_⟩
    · intro _ i _ hi
      refine hWithin i (Nat.lt_of_not_le fun hLe => ?_)
      exact (hi.clear j hLe).2 hEsp
    · refine hSafe.within hBlock i (Nat.lt_of_le_of_lt (Nat.le_of_lt_succ hi) hj) ?_
      rcases Nat.lt_succ_iff_lt_or_eq.mp hi with hBefore | rfl
      · exact Visited.before hVisited.clear hBefore
      · exact hVisited
  | @unreadable j status beyond hj hBlock hClear hUnreadable hFlag =>
    rw [Sound, hFlag.eq_false_iff]
    refine and_congr_right fun _ => ⟨fun hWithin => ⟨hSize, hEnds, ?_⟩, fun hSafe i hi => ?_⟩
    · intro _ i _ hi
      refine hWithin i (Nat.lt_of_not_le fun hLe => ?_)
      rcases Nat.lt_or_eq_of_le hLe with hAfter | rfl
      · exact (hi.clear j hAfter).1 hUnreadable
      · exact hi.readable hUnreadable
    · exact hSafe.within hBlock i (Nat.lt_trans hi hj) (Visited.before hClear hi)
  | noEntries hBlock hEntries =>
    refine ⟨fun hSound => ⟨hSound, hSize, hEnds, ?_⟩, And.left⟩
    intro hPos
    exact absurd hBlock (Nat.ne_of_gt hPos)

theorem Stopped.not_exhausted {start : Bool} {r : TestEnd} (h : Stopped d behind start r) :
    ¬ Exhausted d behind := by
  intro hAll
  cases h with
  | found hj hBlock hVisited hEsp hFlag => exact (hAll.clear _ hj).2 hEsp
  | unreadable hj hBlock hClear hUnreadable hFlag => exact (hAll.clear _ hj).1 hUnreadable
  | noEntries hBlock hEntries => exact Nat.ne_of_gt hEntries (hAll.entries hBlock)

theorem Exhausted.flag_iff {start beyond : Bool} (h : Exhausted d behind)
    (hFlag : Flagged d start d.numberOfPartitionEntries.toNat beyond) :
    beyond = false ↔ start = false ∧ SafeScan d behind := by
  rw [hFlag.eq_false_iff]
  refine and_congr_right fun _ => ⟨fun hWithin => ⟨h.size, ?_, ?_⟩, fun hSafe i hi => ?_⟩
  · exact fun hBlock => Or.inl (h.entries hBlock)
  · exact fun _ j hj _ => hWithin j hj
  · have hBlock : 0 < d.perLba := by
      refine Nat.pos_of_ne_zero fun hNone => ?_
      rw [h.entries hNone] at hi
      exact Nat.not_lt_zero i hi
    exact hSafe.within hBlock i hi (Visited.before h.clear hi)

/-- However the scan of a table ends. -/
theorem scanTable_meets {start : Bool} {x : Except TestEnd Bool}
    (h : Ends (scanTable d behind start) x) :
    Meets (fun r => ¬ Exhausted d behind ∧ (Sound r ↔ start = false ∧ SafeScan d behind))
      (fun beyond => Exhausted d behind ∧
        (beyond = false ↔ start = false ∧ SafeScan d behind)) x := by
  by_cases hSize : d.sizeOfPartitionEntry = 0
  · rw [scanTable, if_pos hSize, ends_ret_iff] at h
    subst h
    exact ⟨fun hAll => hAll.size hSize, iff_of_false id fun hSafe => hSafe.2.size hSize⟩
  · by_cases hEnds : ScanEnds d
    · obtain ⟨y, hy, hMeets⟩ := scanTable_total behind start hSize hEnds
      obtain rfl := h.unique hy
      cases x with
      | error r => exact ⟨hMeets.not_exhausted, hMeets.sound_iff hSize hEnds⟩
      | ok beyond => exact ⟨hMeets.1, hMeets.1.flag_iff hMeets.2⟩
    · exact absurd h (scanTable_not_ends hSize hEnds x)

/-- The device is opened, the buffer is allocated and the block of the header is read. -/
structure Opened (d : BlockIo) : Prop where
  openProtocol : ¬ efiError d.openProtocol = true
  allocatePool : ¬ efiError d.allocatePool = true
  header : ¬ efiError (d.readBlocks gptHeaderLba).1 = true

/-- When a device is looked at soundly: the signature lies in the block, and if it is there so do
the other fields, and the scan is sound. -/
def SafeDevice (d : BlockIo) (behind : BitVec 64 → Memory) : Prop :=
  Opened d → gptSignatureSize ≤ d.blockSize.toNat ∧
    (d.hasSignature = true → gptFieldsSize ≤ d.blockSize.toNat ∧ SafeScan d behind)

/-- The test goes on to the next device. -/
def PassedOver (d : BlockIo) (behind : BitVec 64 → Memory) : Prop :=
  Opened d ∧ (d.hasSignature = true → Exhausted d behind)

variable (behind) in
/-- A device that is not opened ends the test. -/
theorem scanDevice_closed (start : Bool) (h : ¬ Opened d) :
    ∃ status, Ends (scanDevice d behind start) (.error (.returned status none start)) := by
  rw [scanDevice]
  by_cases hOpen : efiError d.openProtocol = true
  · rw [if_pos hOpen]
    exact ⟨_, ends_ret_iff.mpr rfl⟩
  · rw [if_neg hOpen]
    by_cases hAllocate : efiError d.allocatePool = true
    · rw [if_pos hAllocate]
      exact ⟨_, ends_ret_iff.mpr rfl⟩
    · have hHeader : efiError (d.readBlocks gptHeaderLba).1 = true :=
        by_contra fun hRead => h ⟨hOpen, hAllocate, hRead⟩
      rw [if_neg hAllocate]
      dsimp only
      rw [if_pos hHeader]
      exact ⟨_, ends_ret_iff.mpr rfl⟩

theorem scanDevice_opened (start : Bool) (h : Opened d) :
    scanDevice d behind start =
      if d.hasSignature then
        scanTable d behind ((start || decide (d.blockSize.toNat < gptSignatureSize)) ||
          decide (d.blockSize.toNat < gptFieldsSize))
      else pure (start || decide (d.blockSize.toNat < gptSignatureSize)) := by
  rw [scanDevice, if_neg h.openProtocol, if_neg h.allocatePool]
  exact if_neg h.header

theorem scanDevice_meets {start : Bool} {x : Except TestEnd Bool}
    (h : Ends (scanDevice d behind start) x) :
    Meets (fun r => ¬ PassedOver d behind ∧ (Sound r ↔ start = false ∧ SafeDevice d behind))
      (fun beyond => PassedOver d behind ∧
        (beyond = false ↔ start = false ∧ SafeDevice d behind)) x := by
  by_cases hOpen : Opened d
  case neg =>
    obtain ⟨status, hEnds⟩ := scanDevice_closed behind start hOpen
    obtain rfl := h.unique hEnds
    exact ⟨fun hPassed => hOpen hPassed.1, (and_iff_left fun hIs => absurd hIs hOpen).symm⟩
  case pos =>
    have hSafe : SafeDevice d behind ↔ gptSignatureSize ≤ d.blockSize.toNat ∧
        (d.hasSignature = true → gptFieldsSize ≤ d.blockSize.toNat ∧ SafeScan d behind) :=
      ⟨fun hIs => hIs hOpen, fun hIs _ => hIs⟩
    rw [scanDevice_opened start hOpen] at h
    cases hSignature : d.hasSignature with
    | false =>
      rw [hSignature, if_neg Bool.false_ne_true, ends_pure_iff] at h
      subst h
      refine ⟨⟨hOpen, fun hIs => ?_⟩, ?_⟩
      · rw [hSignature] at hIs
        exact absurd hIs Bool.false_ne_true
      · rw [hSafe, hSignature, Bool.or_eq_false_iff, decide_eq_false_iff_not, Nat.not_lt]
        exact and_congr_right fun _ => (and_iff_left fun hIs => absurd hIs Bool.false_ne_true).symm
    | true =>
      rw [hSignature, if_pos rfl] at h
      have hFlag : ((start || decide (d.blockSize.toNat < gptSignatureSize)) ||
          decide (d.blockSize.toNat < gptFieldsSize)) = false ∧ SafeScan d behind ↔
          start = false ∧ SafeDevice d behind := by
        rw [hSafe, hSignature, Bool.or_eq_false_iff, Bool.or_eq_false_iff,
          decide_eq_false_iff_not, decide_eq_false_iff_not, Nat.not_lt, Nat.not_lt,
          imp_iff_right rfl, and_assoc, and_assoc]
      have hPassed : PassedOver d behind ↔ Exhausted d behind := by
        rw [PassedOver, hSignature, imp_iff_right rfl, and_iff_right hOpen]
      have hMeets := scanTable_meets h
      rw [hFlag, ← hPassed] at hMeets
      exact hMeets

/-- On a safe device the test goes on or ends. -/
theorem scanDevice_ends (start : Bool) (h : SafeDevice d behind) :
    ∃ x, Ends (scanDevice d behind start) x := by
  by_cases hOpen : Opened d
  case neg =>
    obtain ⟨status, hEnds⟩ := scanDevice_closed behind start hOpen
    exact ⟨_, hEnds⟩
  case pos =>
    rw [scanDevice_opened start hOpen]
    split
    · rename_i hSignature
      have hSafe := ((h hOpen).2 hSignature).2
      obtain ⟨x, hEnds, -⟩ := scanTable_total behind _ hSafe.size hSafe.ends
      exact ⟨x, hEnds⟩
    · exact ⟨_, ends_pure_iff.mpr rfl⟩

end Table

end EnterpriseAcs.Sbbr
