import EnterpriseAcs.Acpi.MadtReads
import EnterpriseAcs.Sbbr.OsDiskRobust

/-!
# The verdict of the OS disk format test

With devices whose blocks hold a whole number of entries, and that can be read, the test looks at
every entry. An entry of less than 16 bytes is shorter than its type: for the last ones of a block
the type goes on in the next block, and the test goes on behind its buffer.

* `hasEsp_congr`: a system partition is a fact about the blocks of the disk alone.
* `passed_iff`: the test passes when an entry as it reads it has the GUID of a system partition.
* `verdict_iff`: when this is so for the entries on the disk, whatever lies behind the buffers.
-/

namespace EnterpriseAcs.Sbbr

open Acpi EarlyReturn

/-! ## The entries on the disk -/

namespace BlockIo

variable (d : BlockIo)

/-- A byte of the array of entries. -/
def arrayByte (offset : Nat) : BitVec 8 :=
  (d.readBlocks (d.partitionEntryLba + BitVec.ofNat 64 (offset / d.blockSize.toNat))).2
    (offset % d.blockSize.toNat)

/-- The type of an entry. -/
def typeGuid (j : Nat) : List (BitVec 8) :=
  bytesAt d.arrayByte (j * d.sizeOfPartitionEntry.toNat) guidSize

/-- An EFI system partition. -/
def Esp (j : Nat) : Prop := d.typeGuid j = gptEfiPartitionGuid

/-- The part of the type that lies in the block where the entry starts is that of the GUID. -/
def StartsEsp (j : Nat) : Prop :=
  ∀ k < guidSize, d.entryOffset j + k < d.blockSize.toNat →
    d.arrayByte (j * d.sizeOfPartitionEntry.toNat + k) = gptEfiPartitionGuid.getD k 0

/-- The device carries a GPT, whose header lies in a block, with a system partition among its
entries. -/
def HasEsp : Prop :=
  gptFieldsSize ≤ d.blockSize.toNat ∧ d.hasSignature = true ∧
    ∃ j < d.numberOfPartitionEntries.toNat, d.Esp j

/-- So it does as the test reads it. -/
def HasReadEsp (behind : BitVec 64 → Memory) : Prop :=
  d.hasSignature = true ∧ ∃ j < d.numberOfPartitionEntries.toNat, d.ReadsEsp behind j

end BlockIo

/-- What is assumed of a device: it is opened, it can be read wherever the test does, and if it
has a GPT then its header lies in a block, and a block is a whole number of entries. -/
structure Readable (d : BlockIo) : Prop where
  opened : Opened d
  header : d.hasSignature = true → gptFieldsSize ≤ d.blockSize.toNat
  entries : d.hasSignature = true →
    ∀ j < d.numberOfPartitionEntries.toNat, ¬ d.Unreadable j
  divides : d.hasSignature = true → d.sizeOfPartitionEntry.toNat ∣ d.blockSize.toNat
  block : d.hasSignature = true → 0 < d.perLba

/-- The services are there, and all devices are readable. -/
structure ReadableEnv (env : OsDiskEnv) : Prop where
  handleProtocol : ¬ efiError env.handleProtocol = true
  locateHandleBuffer : ¬ efiError env.locateHandleBuffer = true
  devices : ∀ i < env.numberOfHandles.toNat, Readable (env.handleBuffer i)

/-- The test records that it has passed. -/
def Passed (env : OsDiskEnv) (behind : Nat → BitVec 64 → Memory) : Prop :=
  ∃ status beyond, Ends (bbTestOsDiskFormatTest env behind)
    (.error (.returned status (some .passed) beyond))

section Header

variable {d d' : BlockIo}

theorem header_congr (hBlock : d'.blockSize = d.blockSize)
    (hRead : d'.readBlocks = d.readBlocks) {i : Nat} (hi : i < d.blockSize.toNat) :
    d'.header i = d.header i := by
  rw [BlockIo.header, BlockIo.header, BlockIo.buffer, BlockIo.buffer, hBlock, hRead, if_pos hi,
    if_pos hi]

/-- Whether there is a system partition is a fact about the blocks, and not about what lies behind
a buffer. -/
theorem hasEsp_congr (hBlock : d'.blockSize = d.blockSize)
    (hRead : d'.readBlocks = d.readBlocks) : d'.HasEsp ↔ d.HasEsp := by
  rw [BlockIo.HasEsp, BlockIo.HasEsp, hBlock]
  refine and_congr_right fun hFits => ?_
  have hField : ∀ addr n, addr + n ≤ gptFieldsSize → ∀ a ∈ Acpi.bytesAt addr n,
      d'.header a = d.header a := by
    intro addr n hEnd a ha
    have hLess := (Acpi.mem_bytesAt.mp ha).2
    exact header_congr hBlock hRead (by omega)
  have hSignature : d'.hasSignature = d.hasSignature := by
    have hBytes : bytesAt d'.header 0 gptSignatureSize = bytesAt d.header 0 gptSignatureSize := by
      apply List.map_congr_left
      intro k hk
      have hLess := List.mem_range.mp hk
      exact hField 0 gptSignatureSize (by decide) _ (Acpi.mem_bytesAt.mpr (by omega))
    rw [BlockIo.hasSignature, BlockIo.hasSignature, hBytes]
  have hLba : d'.partitionEntryLba = d.partitionEntryLba :=
    Acpi.read64_congr (hField 72 8 (by decide))
  have hNumber : d'.numberOfPartitionEntries = d.numberOfPartitionEntries :=
    Acpi.read32_congr (hField 80 4 (by decide))
  have hSize : d'.sizeOfPartitionEntry = d.sizeOfPartitionEntry :=
    Acpi.read32_congr (hField 84 4 (by decide))
  have hArray : d'.arrayByte = d.arrayByte := by
    funext offset
    rw [BlockIo.arrayByte, BlockIo.arrayByte, hLba, hBlock, hRead]
  simp only [BlockIo.Esp, BlockIo.typeGuid, hSignature, hNumber, hSize, hArray]

end Header

section Entries

variable {d : BlockIo} {behind : BitVec 64 → Memory}

theorem bytesAt_eq_iff (mem : Memory) (addr : Nat) :
    bytesAt mem addr guidSize = gptEfiPartitionGuid ↔
      ∀ k < guidSize, mem (addr + k) = gptEfiPartitionGuid.getD k 0 := by
  constructor
  · intro h k hk
    rw [← h]
    simp [bytesAt, List.getD_eq_getElem?_getD, hk]
  · intro hBytes
    refine List.ext_getElem (by simp [bytesAt, guidSize, gptEfiPartitionGuid]) fun k hk hk' => ?_
    have hByte := hBytes k hk'
    rw [List.getD_eq_getElem?_getD, List.getElem?_eq_getElem hk', Option.getD_some] at hByte
    simp only [bytesAt, List.getElem_map, List.getElem_range]
    exact hByte

/-- Where an entry lies in its block and in the array. -/
theorem arrayOffset_eq (h : Readable d) (hSignature : d.hasSignature = true) (j k : Nat) :
    j * d.sizeOfPartitionEntry.toNat + k =
      d.blockSize.toNat * (j / d.perLba) + (d.entryOffset j + k) := by
  have hBlock : d.perLba * d.sizeOfPartitionEntry.toNat = d.blockSize.toNat := by
    rw [perLba_eq]
    exact Nat.div_mul_cancel (h.divides hSignature)
  calc j * d.sizeOfPartitionEntry.toNat + k
      = (d.perLba * (j / d.perLba) + j % d.perLba) * d.sizeOfPartitionEntry.toNat + k := by
        rw [Nat.div_add_mod]
    _ = d.perLba * d.sizeOfPartitionEntry.toNat * (j / d.perLba) + (d.entryOffset j + k) := by
        rw [BlockIo.entryOffset, Nat.add_mul, Nat.mul_right_comm, Nat.add_assoc]
    _ = d.blockSize.toNat * (j / d.perLba) + (d.entryOffset j + k) := by rw [hBlock]

variable (behind) in
/-- What is read in the block of an entry is what is on the disk. -/
theorem buffer_eq_arrayByte (h : Readable d) (hSignature : d.hasSignature = true) {j k : Nat}
    (hk : d.entryOffset j + k < d.blockSize.toNat) :
    d.buffer (d.entryLba j) (behind (d.entryLba j)) (d.entryOffset j + k) =
      d.arrayByte (j * d.sizeOfPartitionEntry.toNat + k) := by
  have hPos : 0 < d.blockSize.toNat := Nat.zero_lt_of_lt hk
  rw [BlockIo.buffer, if_pos hk, BlockIo.arrayByte, arrayOffset_eq h hSignature,
    Nat.mul_add_div hPos, Nat.div_eq_of_lt hk, Nat.add_zero, Nat.mul_add_mod,
    Nat.mod_eq_of_lt hk]
  rfl

theorem buffer_behind {j k : Nat} (hk : d.blockSize.toNat ≤ d.entryOffset j + k) :
    d.buffer (d.entryLba j) (behind (d.entryLba j)) (d.entryOffset j + k) =
      behind (d.entryLba j) (d.entryOffset j + k) := if_neg (Nat.not_lt.mpr hk)

theorem readsEsp_iff (j : Nat) :
    d.ReadsEsp behind j ↔ ∀ k < guidSize,
      d.buffer (d.entryLba j) (behind (d.entryLba j)) (d.entryOffset j + k) =
        gptEfiPartitionGuid.getD k 0 := bytesAt_eq_iff _ _

/-- An entry within its block. -/
theorem readsEsp_iff_esp (h : Readable d) (hSignature : d.hasSignature = true) {j : Nat}
    (hWithin : ¬ d.Crosses j) : d.ReadsEsp behind j ↔ d.Esp j := by
  rw [readsEsp_iff, BlockIo.Esp, BlockIo.typeGuid, bytesAt_eq_iff]
  refine forall₂_congr fun k hk => ?_
  have hIn : d.entryOffset j + k < d.blockSize.toNat :=
    Nat.lt_of_lt_of_le (Nat.add_lt_add_left hk _) (Nat.le_of_not_lt hWithin)
  rw [buffer_eq_arrayByte _ h hSignature hIn]

theorem startsEsp_of_readsEsp (h : Readable d) (hSignature : d.hasSignature = true) {j : Nat}
    (hReads : d.ReadsEsp behind j) : d.StartsEsp j := by
  intro k hk hIn
  rw [← buffer_eq_arrayByte behind h hSignature hIn]
  exact (readsEsp_iff j).mp hReads k hk

theorem startsEsp_of_esp {j : Nat} (h : d.Esp j) : d.StartsEsp j :=
  fun k hk _ => (bytesAt_eq_iff _ _).mp h k hk

/-- Behind the buffer of every device lies a byte that is not in the GUID. -/
def missBehind : Nat → BitVec 64 → Memory := fun _ _ _ => 0xFF

theorem not_readsEsp_miss {j : Nat} (hCrosses : d.Crosses j) (i : Nat) :
    ¬ d.ReadsEsp (missBehind i) j := by
  intro hReads
  have hCross : d.blockSize.toNat < d.entryOffset j + guidSize := hCrosses
  have hStart : ∃ k < guidSize, d.blockSize.toNat ≤ d.entryOffset j + k :=
    ⟨guidSize - 1, by decide, by rw [guidSize] at hCross ⊢; omega⟩
  obtain ⟨k, hk, hBehind⟩ := hStart
  have hByte := (readsEsp_iff j).mp hReads k hk
  rw [buffer_behind hBehind, missBehind] at hByte
  have hNone : ∀ k < guidSize, (0xFF : BitVec 8) ≠ gptEfiPartitionGuid.getD k 0 := by decide
  exact hNone k hk hByte

/-- Behind the buffer lies the rest of the GUID for an entry at this offset. -/
def matchBehind (offset : Nat) : Nat → BitVec 64 → Memory :=
  fun _ _ a => gptEfiPartitionGuid.getD (a - offset) 0

theorem readsEsp_match (h : Readable d) (hSignature : d.hasSignature = true) {j : Nat}
    (hStarts : d.StartsEsp j) (i : Nat) : d.ReadsEsp (matchBehind (d.entryOffset j) i) j := by
  refine (readsEsp_iff j).mpr fun k hk => ?_
  by_cases hIn : d.entryOffset j + k < d.blockSize.toNat
  · rw [buffer_eq_arrayByte _ h hSignature hIn]
    exact hStarts k hk hIn
  · rw [buffer_behind (Nat.le_of_not_lt hIn), matchBehind, Nat.add_sub_cancel_left]

/-! ## One device -/

/-- The scan of a readable table stops at a system partition only. -/
theorem scanTable_readable (h : Readable d) (hSignature : d.hasSignature = true) (start : Bool) :
    Total (scanTable d behind start)
      (fun r => d.HasReadEsp behind ∧ ∃ beyond,
        r = .returned efiSuccess (some .passed) beyond)
      fun _ => ¬ d.HasReadEsp behind := by
  have hBlock := h.block hSignature
  have hSize : d.sizeOfPartitionEntry ≠ 0 := by
    intro hZero
    rw [perLba_eq, hZero, BitVec.ofNat_eq_ofNat, BitVec.toNat_zero, Nat.div_zero] at hBlock
    exact Nat.not_lt_zero 0 hBlock
  have hEnds : ScanEnds d := fun hNone => absurd hNone (Nat.ne_of_gt hBlock)
  obtain ⟨x, hx, hMeets⟩ := scanTable_total behind start hSize hEnds
  refine ⟨x, hx, ?_⟩
  cases x with
  | error r =>
    cases hMeets with
    | found hj hPos hVisited hEsp hFlag => exact ⟨⟨hSignature, _, hj, hEsp⟩, _, rfl⟩
    | unreadable hj hPos hClear hUnreadable hFlag =>
      exact absurd hUnreadable (h.entries hSignature _ hj)
    | noEntries hNone hEntries => exact absurd hNone (Nat.ne_of_gt hBlock)
  | ok beyond =>
    rintro ⟨-, j, hj, hEsp⟩
    exact (hMeets.1.clear j hj).2 hEsp

variable (behind) in
theorem scanDevice_readable (h : Readable d) (start : Bool) :
    Total (scanDevice d behind start)
      (fun r => d.HasReadEsp behind ∧ ∃ beyond,
        r = .returned efiSuccess (some .passed) beyond)
      fun _ => ¬ d.HasReadEsp behind := by
  rw [scanDevice_opened start h.opened]
  split
  · rename_i hSignature
    exact scanTable_readable h hSignature _
  · rename_i hNone
    exact Total.pure fun hEsp => hNone hEsp.1

end Entries

/-! ## All devices -/

section Handles

variable {env : OsDiskEnv} {behind : Nat → BitVec 64 → Memory}

/-- The handles that the counter can count. -/
def Counted (env : OsDiskEnv) (i : Nat) : Prop := i < env.numberOfHandles.toNat ∧ i < 2 ^ 32

/-- Without a system partition on a device that is counted the loop records nothing. -/
theorem handleLoop_goesOn (h : ReadableEnv env)
    (hNone : ∀ i, Counted env i → ¬ (env.handleBuffer i).HasReadEsp (behind i))
    {s : HandleScan} {r : TestEnd} : ¬ Ends (handleLoop env behind s) (.error r) := by
  intro hEnds
  have hMeets := hEnds.loop (I := fun _ => True) (R := fun _ => False) ?_ trivial
  · exact hMeets
  intro t _ hTest x hx
  have hLess := (handleTest_iff t).mp hTest
  obtain ⟨y, hDevice, hy⟩ := scanDevice_readable (behind t.handleCount.toNat)
    (h.devices _ hLess) t.beyond
  rcases handleRound_ends hx with ⟨r, hStop, rfl⟩ | ⟨beyond, -, rfl⟩
  · obtain rfl := hDevice.unique hStop
    exact hNone _ ⟨hLess, t.handleCount.isLt⟩ hy.1
  · trivial

/-- With one the loop passes. -/
theorem handleLoop_passes (h : ReadableEnv env) {i : Nat} (hi : Counted env i)
    (hEsp : (env.handleBuffer i).HasReadEsp (behind i)) (s : HandleScan)
    (hs : s.handleCount.toNat ≤ i) :
    ∃ beyond, Ends (handleLoop env behind s)
      (.error (.returned efiSuccess (some .passed) beyond)) := by
  have hLess : s.handleCount.toNat < env.numberOfHandles.toNat := Nat.lt_of_le_of_lt hs hi.1
  have hTest := (handleTest_iff s).mpr hLess
  obtain ⟨y, hDevice, hy⟩ := scanDevice_readable (behind s.handleCount.toNat)
    (h.devices _ hLess) s.beyond
  cases y with
  | error r =>
    obtain ⟨-, beyond, rfl⟩ := hy
    exact ⟨beyond, (ends_loop_of_ret hTest
      (ends_bind_iff.mpr (Or.inl ⟨_, hDevice, rfl⟩))).mpr rfl⟩
  | ok beyond =>
    have hBefore : s.handleCount.toNat < i := by
      refine Nat.lt_of_le_of_ne hs fun hEq => hy ?_
      rw [hEq]
      exact hEsp
    have hNext : (s.handleCount + 1).toNat = s.handleCount.toNat + 1 :=
      WhileLoop.toNat_next (Nat.lt_of_le_of_lt hBefore hi.2)
    obtain ⟨last, hRest⟩ := handleLoop_passes h hi hEsp
      { handleCount := s.handleCount + 1, beyond := beyond } (by rw [hNext]; exact hBefore)
    have hRound : Ends (handleRound env behind s)
        (.ok { handleCount := s.handleCount + 1, beyond := beyond }) :=
      ends_bind_iff.mpr (Or.inr ⟨beyond, hDevice, ends_pure_iff.mpr rfl⟩)
    exact ⟨last, (ends_loop_of_next hTest hRound).mpr hRest⟩
  termination_by i - s.handleCount.toNat

theorem passed_iff (h : ReadableEnv env) :
    Passed env behind ↔
      ∃ i, Counted env i ∧ (env.handleBuffer i).HasReadEsp (behind i) := by
  rw [Passed, bbTestOsDiskFormatTest, if_neg h.handleProtocol, if_neg h.locateHandleBuffer]
  constructor
  · rintro ⟨status, beyond, hEnds⟩
    rcases ends_bind_iff.mp hEnds with ⟨r, hLoop, -⟩ | ⟨t, -, hLast⟩
    · by_contra hNone
      exact handleLoop_goesOn h (fun i hi hEsp => hNone ⟨i, hi, hEsp⟩) hLoop
    · cases TestEnd.returned.inj (Except.error.inj (ends_ret_iff.mp hLast)) |>.2.1
  · rintro ⟨i, hi, hEsp⟩
    obtain ⟨beyond, hLoop⟩ := handleLoop_passes h hi hEsp
      { handleCount := 0, beyond := false } (Nat.zero_le i)
    exact ⟨_, beyond, ends_bind_iff.mpr (Or.inl ⟨_, hLoop, rfl⟩)⟩

/-! ## The verdict -/

/-- An entry that lies in its block is a system partition. -/
def WithinEsp (d : BlockIo) : Prop :=
  d.hasSignature = true ∧
    ∃ j < d.numberOfPartitionEntries.toNat, ¬ d.Crosses j ∧ d.Esp j

/-- An entry whose type goes on in the next block starts like a system partition. -/
def CrossingEsp (d : BlockIo) : Prop :=
  d.hasSignature = true ∧
    ∃ j < d.numberOfPartitionEntries.toNat, d.Crosses j ∧ d.StartsEsp j

theorem WithinEsp.hasEsp {d : BlockIo} (hReadable : Readable d) (h : WithinEsp d) : d.HasEsp := by
  obtain ⟨hSignature, j, hj, -, hEsp⟩ := h
  exact ⟨hReadable.header hSignature, hSignature, j, hj, hEsp⟩

theorem WithinEsp.hasReadEsp {d : BlockIo} (hReadable : Readable d) (h : WithinEsp d)
    (behind : BitVec 64 → Memory) : d.HasReadEsp behind := by
  obtain ⟨hSignature, j, hj, hWithin, hEsp⟩ := h
  exact ⟨hSignature, j, hj, (readsEsp_iff_esp hReadable hSignature hWithin).mpr hEsp⟩

theorem within_or_crossing_of_reads {d : BlockIo} {behind : BitVec 64 → Memory}
    (hReadable : Readable d) (h : d.HasReadEsp behind) : WithinEsp d ∨ CrossingEsp d := by
  obtain ⟨hSignature, j, hj, hReads⟩ := h
  by_cases hCrosses : d.Crosses j
  · exact Or.inr ⟨hSignature, j, hj, hCrosses, startsEsp_of_readsEsp hReadable hSignature hReads⟩
  · exact Or.inl ⟨hSignature, j, hj, hCrosses,
      (readsEsp_iff_esp hReadable hSignature hCrosses).mp hReads⟩

theorem within_or_crossing_of_has {d : BlockIo} (h : d.HasEsp) : WithinEsp d ∨ CrossingEsp d := by
  obtain ⟨-, hSignature, j, hj, hEsp⟩ := h
  by_cases hCrosses : d.Crosses j
  · exact Or.inr ⟨hSignature, j, hj, hCrosses, startsEsp_of_esp hEsp⟩
  · exact Or.inl ⟨hSignature, j, hj, hCrosses, hEsp⟩

/-- Entries of the size of a GUID or larger lie in their blocks. -/
theorem not_crosses_of_size {d : BlockIo} (hBlock : 0 < d.perLba)
    (hSize : guidSize ≤ d.sizeOfPartitionEntry.toNat) (j : Nat) : ¬ d.Crosses j :=
  Nat.not_lt.mpr (Nat.le_trans (Nat.add_le_add_left hSize _) (entryOffset_lt hBlock j))

/-- With other bytes behind the buffer only the entries within their block are found. -/
theorem within_of_miss {d : BlockIo} (hReadable : Readable d) {i : Nat}
    (h : d.HasReadEsp (missBehind i)) : WithinEsp d := by
  obtain ⟨hSignature, j, hj, hReads⟩ := h
  have hWithin : ¬ d.Crosses j := fun hCrosses => not_readsEsp_miss hCrosses i hReads
  exact ⟨hSignature, j, hj, hWithin, (readsEsp_iff_esp hReadable hSignature hWithin).mp hReads⟩

end Handles

/-- Whatever lies behind the buffers, the test passes exactly when some device has a system
partition: so it is when a device that is counted has one that lies in its block; or when none of
these has an entry across the end of its block that starts like one, and no later device has
one. -/
theorem verdict_iff (env : OsDiskEnv) (h : ReadableEnv env) :
    (∀ behind, Passed env behind ↔
        ∃ i < env.numberOfHandles.toNat, (env.handleBuffer i).HasEsp) ↔
      (∃ i, Counted env i ∧ WithinEsp (env.handleBuffer i)) ∨
        (∀ i, Counted env i → ¬ CrossingEsp (env.handleBuffer i)) ∧
          ∀ i < env.numberOfHandles.toNat, 2 ^ 32 ≤ i → ¬ (env.handleBuffer i).HasEsp := by
  constructor
  · intro hVerdict
    refine or_iff_not_imp_left.mpr fun hNone => ?_
    -- with other bytes behind the buffers the test does not pass, so there is none
    have hNoEsp : ¬ ∃ i < env.numberOfHandles.toNat, (env.handleBuffer i).HasEsp := by
      rw [← hVerdict missBehind, passed_iff h]
      rintro ⟨i, hi, hReads⟩
      exact hNone ⟨i, hi, within_of_miss (h.devices i hi.1) hReads⟩
    refine ⟨?_, fun i hi _ hEsp => hNoEsp ⟨i, hi, hEsp⟩⟩
    rintro i hi ⟨hSignature, j, hj, -, hStarts⟩
    refine hNoEsp ((hVerdict (matchBehind ((env.handleBuffer i).entryOffset j))).mp ?_)
    rw [passed_iff h]
    exact ⟨i, hi, hSignature, j, hj, readsEsp_match (h.devices i hi.1) hSignature hStarts i⟩
  · rintro (⟨i, hi, hWithin⟩ | ⟨hCrossing, hLater⟩) behind
    · rw [passed_iff h]
      exact iff_of_true ⟨i, hi, hWithin.hasReadEsp (h.devices i hi.1) (behind i)⟩
        ⟨i, hi.1, hWithin.hasEsp (h.devices i hi.1)⟩
    · rw [passed_iff h]
      constructor
      · rintro ⟨i, hi, hReads⟩
        have hEither := within_or_crossing_of_reads (h.devices i hi.1) hReads
        have hWithin := hEither.resolve_right (hCrossing i hi)
        exact ⟨i, hi.1, hWithin.hasEsp (h.devices i hi.1)⟩
      · rintro ⟨i, hi, hEsp⟩
        have hCounted : Counted env i := ⟨hi, Nat.lt_of_not_le fun hLe => hLater i hi hLe hEsp⟩
        have hWithin := (within_or_crossing_of_has hEsp).resolve_right (hCrossing i hCounted)
        exact ⟨i, hCounted, hWithin.hasReadEsp (h.devices i hi) (behind i)⟩

/-- A disk with entries of 8 bytes from block 2 on. All are zero but the last of block 2 and the
first of block 3, which are the two halves of the GUID. -/
def shortEntriesBlock (lba : BitVec 64) : Memory := fun i =>
  if lba = 1 then
    if i = 72 then 2 else if i = 80 then 64 else if i = 84 then 8 else gptSignature.getD i 0
  else if lba = 2 then if i < 504 then 0 else gptEfiPartitionGuid.getD (i - 504) 0
  else gptEfiPartitionGuid.getD (8 + i) 0

def shortEntriesDisk : BlockIo where
  openProtocol := efiSuccess
  allocatePool := efiSuccess
  blockSize := 512
  readBlocks := fun lba => (efiSuccess, shortEntriesBlock lba)
  behindHeader := fun _ => 0

def shortEntriesEnv : OsDiskEnv where
  handleProtocol := efiSuccess
  locateHandleBuffer := efiSuccess
  numberOfHandles := 1
  handleBuffer := fun _ => shortEntriesDisk

theorem not_efiError_success : ¬ efiError efiSuccess = true := by decide

theorem shortEntriesDisk_readable : Readable shortEntriesDisk where
  opened := ⟨not_efiError_success, not_efiError_success, not_efiError_success⟩
  header := fun _ => by decide
  entries := fun _ _ _ => not_efiError_success
  divides := fun _ => by decide
  block := fun _ => by decide

theorem shortEntriesEnv_readable : ReadableEnv shortEntriesEnv where
  handleProtocol := not_efiError_success
  locateHandleBuffer := not_efiError_success
  devices := fun _ _ => shortEntriesDisk_readable

/-- The GUID starts in no entry but the last. -/
theorem shortEntries_within : ¬ WithinEsp shortEntriesDisk := by
  rintro ⟨-, j, hj, hWithin, hEsp⟩
  have hCount : shortEntriesDisk.numberOfPartitionEntries.toNat = 64 := by decide
  rw [hCount] at hj
  have hFirst := (bytesAt_eq_iff _ _).mp hEsp 0 (by decide)
  have hLast : j = 63 := by
    have hOthers : ∀ j < 63, shortEntriesDisk.arrayByte
        (j * shortEntriesDisk.sizeOfPartitionEntry.toNat + 0) ≠
          gptEfiPartitionGuid.getD 0 0 := by decide
    by_contra hNot
    exact hOthers j (by omega) hFirst
  subst hLast
  have hCrosses : shortEntriesDisk.blockSize.toNat <
      shortEntriesDisk.entryOffset 63 + guidSize := by decide
  exact hWithin hCrosses

theorem shortEntries_esp : shortEntriesDisk.HasEsp := by
  have hType : shortEntriesDisk.typeGuid 63 = gptEfiPartitionGuid := by decide
  exact ⟨by decide, by decide, 63, by decide, hType⟩

/-- Where the condition fails some bytes behind the buffers lead to the other verdict. -/
theorem shortEntries_verdict :
    ¬ ∀ behind, Passed shortEntriesEnv behind ↔
      ∃ i < shortEntriesEnv.numberOfHandles.toNat, (shortEntriesEnv.handleBuffer i).HasEsp := by
  rw [verdict_iff shortEntriesEnv shortEntriesEnv_readable]
  rintro (⟨i, -, hWithin⟩ | ⟨hCrossing, -⟩)
  · exact shortEntries_within hWithin
  · refine hCrossing 0 ⟨by decide, by decide⟩ ?_
    exact (within_or_crossing_of_has shortEntries_esp).resolve_left shortEntries_within

theorem short_entries_missed :
    ¬ ∀ (env : OsDiskEnv) (behind : Nat → BitVec 64 → Memory), ReadableEnv env →
      (Passed env behind ↔ ∃ i < env.numberOfHandles.toNat, (env.handleBuffer i).HasEsp) := by
  intro h
  have hPassed := (h shortEntriesEnv missBehind shortEntriesEnv_readable).mpr
    ⟨0, by decide, shortEntries_esp⟩
  rw [passed_iff shortEntriesEnv_readable] at hPassed
  obtain ⟨i, hi, hReads⟩ := hPassed
  exact shortEntries_within (within_of_miss (shortEntriesEnv_readable.devices i hi.1) hReads)

end EnterpriseAcs.Sbbr
