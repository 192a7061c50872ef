import EnterpriseAcs.Acpi.Madt
import EnterpriseAcs.Library.EarlyReturn
import EnterpriseAcs.Sbbr.ResetShutdown

/-!
# The placement of the SMBIOS table

The test looks in the memory map for the region of the SMBIOS table. A region with the table at
its very end does not count, since its end is to be larger than that of the table. Both ends are
computed with 64 bits, and the descriptors are counted with 32.

* `passes_iff`: the first region that counts holds runtime services data.
* `bbTestUefiSmbiosTest_passed_iff`: the whole test.
* `placement_iff`: when this is so exactly for the tables in such a region. For a table that ends at
  `2 ^ 64` or later, and regions of both kinds that count, the order of the descriptors decides.
-/

namespace EnterpriseAcs.Sbbr

open Acpi EarlyReturn

/-! ## The test -/

/-- The fields of `SMBIOS_TABLE_3_0_ENTRY_POINT` that are used. -/
structure SmbiosEntryPoint where
  majorVersion : BitVec 8
  minorVersion : BitVec 8
  tableAddress : BitVec 64
  tableMaximumSize : BitVec 32
  deriving DecidableEq, Repr

/-- What `SbbrAllocAndGetMemoryMap` fills in, with the bytes of the map from its start on. -/
structure MemoryMap where
  bytes : Memory
  size : BitVec 64
  descriptorSize : BitVec 64

/-- The fields of `EFI_MEMORY_DESCRIPTOR` that are used. -/
structure MemoryDescriptor where
  type : BitVec 32
  physicalStart : BitVec 64
  numberOfPages : BitVec 64
  deriving DecidableEq, Repr

/-- `EfiRuntimeServicesData` and `EFI_PAGE_SIZE`. -/
def efiRuntimeServicesData : BitVec 32 := 6
def efiPageSize : BitVec 64 := 0x1000

def readDescriptor (bytes : Memory) (offset : Nat) : MemoryDescriptor where
  type := read32 bytes offset
  physicalStart := read64 bytes (offset + 8)
  numberOfPages := read64 bytes (offset + 24)

namespace MemoryMap

variable (map : MemoryMap)

/-- `MemoryMapSize / DescriptorSize`, with a size that is not zero. -/
def count : Nat := (map.size / map.descriptorSize).toNat

/-- The descriptor at `MemoryMap + (i * DescriptorSize)`. -/
def descriptor (i : Nat) : MemoryDescriptor :=
  readDescriptor map.bytes (BitVec.ofNat 64 i * map.descriptorSize).toNat

end MemoryMap

/-- `EndAddress`. -/
def MemoryDescriptor.endAddress (r : MemoryDescriptor) : BitVec 64 :=
  r.physicalStart + r.numberOfPages * efiPageSize

/-- The table lies in the region, as the test sees it. -/
def counts (smbios : SmbiosEntryPoint) (r : MemoryDescriptor) : Bool :=
  decide (r.physicalStart ≤ smbios.tableAddress ∧
    smbios.tableAddress + smbios.tableMaximumSize.setWidth 64 < r.endAddress)

/-- What `RecordAssertion` is called with. -/
inductive SmbiosRecorded
  | tableNotFound
  | invalidVersion (major minor : BitVec 8)
  | memoryMap (status : EfiStatus)
  | wrongMemoryType (type : BitVec 32)
  | passed
  | regionNotFound
  deriving DecidableEq, Repr

/-- How the test ends: with a status and what it has recorded, or at a division by zero. -/
inductive SmbiosEnd
  | returned (status : EfiStatus) (recorded : Option SmbiosRecorded)
  | dividesByZero
  deriving DecidableEq, Repr

/-- What is recorded of the region of the table. -/
def foundRegion (r : MemoryDescriptor) : SmbiosEnd :=
  if r.type ≠ efiRuntimeServicesData then .returned efiSuccess (some (.wrongMemoryType r.type))
  else .returned efiSuccess (some .passed)

/-- The test from the memory map on. -/
def memoryTypeCheck (smbios : SmbiosEntryPoint) (map : MemoryMap) : Code SmbiosEnd Unit :=
  if map.descriptorSize = 0 then ret .dividesByZero
  else do
    let _ ← search 32 map.count (fun i => counts smbios (map.descriptor i))
      fun i => foundRegion (map.descriptor i)
    ret (.returned efiSuccess (some .regionNotFound))

/-- `SMBIOS_VERSION` and `SBBR_SMBIOS_MIN_VERSION`. -/
def smbiosVersion (smbios : SmbiosEntryPoint) : Nat :=
  smbios.majorVersion.toNat * 100 + smbios.minorVersion.toNat * 10

def sbbrSmbiosMinVersion : Nat := 311

def efiNotFound : EfiStatus := 0x800000000000000E

/-- What the three calls before the check return. -/
structure SmbiosEnv where
  handleProtocol : EfiStatus
  configurationTable : Except EfiStatus SmbiosEntryPoint
  memoryMap : Except EfiStatus MemoryMap

/-- `BBTestUefiSmbiosTest`. -/
def bbTestUefiSmbiosTest (env : SmbiosEnv) : Code SmbiosEnd Unit :=
  if efiError env.handleProtocol then ret (.returned env.handleProtocol none)
  else
    match env.configurationTable with
    | .error _ => ret (.returned efiSuccess (some .tableNotFound))
    | .ok smbios =>
      if smbiosVersion smbios < sbbrSmbiosMinVersion then
        ret (.returned efiSuccess
          (some (.invalidVersion smbios.majorVersion smbios.minorVersion)))
      else
        match env.memoryMap with
        | .error status => ret (.returned efiNotFound (some (.memoryMap status)))
        | .ok map => memoryTypeCheck smbios map

/-! ## Regions -/

namespace MemoryDescriptor

variable (r : MemoryDescriptor)

/-- The first address behind the region. -/
def regionEnd : Nat := r.physicalStart.toNat + r.numberOfPages.toNat * efiPageSize.toNat

/-- An address of the region. -/
def Covers (a : Nat) : Prop := r.physicalStart.toNat ≤ a ∧ a < r.regionEnd

/-- Runtime services data. -/
def Rsd : Prop := r.type = efiRuntimeServicesData

end MemoryDescriptor

/-- The first address behind the table. -/
def SmbiosEntryPoint.tableEnd (smbios : SmbiosEntryPoint) : Nat :=
  smbios.tableAddress.toNat + smbios.tableMaximumSize.toNat

/-- The whole table lies in the region. -/
def Contains (smbios : SmbiosEntryPoint) (r : MemoryDescriptor) : Prop :=
  r.physicalStart.toNat ≤ smbios.tableAddress.toNat ∧ smbios.tableEnd ≤ r.regionEnd

/-- No address lies in two regions. -/
def DisjointMap (map : MemoryMap) : Prop :=
  ∀ i < map.count, ∀ j < map.count, i ≠ j →
    ∀ a, ¬ ((map.descriptor i).Covers a ∧ (map.descriptor j).Covers a)

/-- The table lies in a region of runtime services data. -/
def Placed (smbios : SmbiosEntryPoint) (map : MemoryMap) : Prop :=
  ∃ i < map.count, (map.descriptor i).Rsd ∧ Contains smbios (map.descriptor i)

/-- The check records that it has passed. -/
def Passes (smbios : SmbiosEntryPoint) (map : MemoryMap) : Prop :=
  ∃ status, Ends (memoryTypeCheck smbios map) (.error (.returned status (some .passed)))

/-! ## The search -/

section Check

variable {smbios : SmbiosEntryPoint} {map : MemoryMap}

theorem count_zero (h : map.descriptorSize = 0) : map.count = 0 := by
  rw [MemoryMap.count, h, BitVec.toNat_udiv, BitVec.ofNat_eq_ofNat, BitVec.toNat_zero,
    Nat.div_zero]

theorem foundRegion_passed_iff (r : MemoryDescriptor) (status : EfiStatus) :
    foundRegion r = .returned status (some .passed) ↔ r.Rsd ∧ status = efiSuccess := by
  rw [foundRegion, MemoryDescriptor.Rsd]
  split
  · rename_i hType
    exact iff_of_false nofun fun h => hType h.1
  · rename_i hType
    rw [SmbiosEnd.returned.injEq, and_iff_left rfl, and_iff_right (not_not.mp hType)]
    exact eq_comm

/-- The first region that counts decides. -/
theorem passes_iff :
    Passes smbios map ↔
      ∃ i, i < map.count ∧ i < 2 ^ 32 ∧ (map.descriptor i).Rsd ∧
        counts smbios (map.descriptor i) = true ∧
          ∀ k < i, counts smbios (map.descriptor k) = false := by
  rw [Passes, memoryTypeCheck]
  by_cases hSize : map.descriptorSize = 0
  · rw [if_pos hSize, count_zero hSize]
    refine iff_of_false ?_ fun h => Nat.not_lt_zero _ h.choose_spec.1
    rintro ⟨status, hEnds⟩
    cases ends_ret_iff.mp hEnds
  rw [if_neg hSize]
  constructor
  · rintro ⟨status, hEnds⟩
    rcases ends_bind_iff.mp hEnds with ⟨r, hSearch, hEq⟩ | ⟨i, -, hLast⟩
    · obtain ⟨i, hi, hWidth, hHit, hFirst, hFound⟩ := search_error_iff.mp hSearch
      obtain rfl := Except.error.inj hEq
      exact ⟨i, hi, hWidth, ((foundRegion_passed_iff _ _).mp hFound.symm).1, hHit, hFirst⟩
    · cases ends_ret_iff.mp hLast
  · rintro ⟨i, hi, hWidth, hRsd, hHit, hFirst⟩
    have hFound := (foundRegion_passed_iff (map.descriptor i) efiSuccess).mpr ⟨hRsd, rfl⟩
    refine ⟨efiSuccess, ends_bind_iff.mpr (Or.inl ⟨_, ?_, rfl⟩)⟩
    exact search_error_iff.mpr ⟨i, hi, hWidth, hHit, hFirst, hFound.symm⟩

/-- The whole test passes when it comes to the check and the check does. -/
theorem bbTestUefiSmbiosTest_passed_iff (env : SmbiosEnv) :
    (∃ status, Ends (bbTestUefiSmbiosTest env) (.error (.returned status (some .passed)))) ↔
      ¬ efiError env.handleProtocol = true ∧ ∃ smbios map,
        env.configurationTable = .ok smbios ∧ env.memoryMap = .ok map ∧
          sbbrSmbiosMinVersion ≤ smbiosVersion smbios ∧ Passes smbios map := by
  rw [bbTestUefiSmbiosTest]
  by_cases hLibrary : efiError env.handleProtocol = true
  · rw [if_pos hLibrary]
    refine iff_of_false ?_ fun h => h.1 hLibrary
    rintro ⟨status, hEnds⟩
    cases ends_ret_iff.mp hEnds
  rw [if_neg hLibrary, and_iff_right hLibrary]
  match hTable : env.configurationTable, hMap : env.memoryMap with
  | .error status, _ =>
    refine iff_of_false ?_ fun ⟨_, _, h, _⟩ => nomatch h
    rintro ⟨status', hEnds⟩
    cases ends_ret_iff.mp hEnds
  | .ok smbios, memoryMap =>
    dsimp only
    by_cases hVersion : smbiosVersion smbios < sbbrSmbiosMinVersion
    · rw [if_pos hVersion]
      refine iff_of_false ?_ ?_
      · rintro ⟨status, hEnds⟩
        cases ends_ret_iff.mp hEnds
      · rintro ⟨_, _, hSame, _, hLe, _⟩
        obtain rfl := Except.ok.inj hSame
        exact Nat.not_le_of_lt hVersion hLe
    rw [if_neg hVersion]
    cases memoryMap with
    | error status =>
      refine iff_of_false ?_ fun ⟨_, _, _, h, _⟩ => nomatch h
      rintro ⟨status', hEnds⟩
      cases ends_ret_iff.mp hEnds
    | ok map =>
      constructor
      · exact fun hPasses => ⟨smbios, map, rfl, rfl, Nat.le_of_not_lt hVersion, hPasses⟩
      · rintro ⟨_, _, hSmbios, hSame, _, hPasses⟩
        obtain rfl := Except.ok.inj hSmbios
        obtain rfl := Except.ok.inj hSame
        exact hPasses

theorem endAddress_toNat (r : MemoryDescriptor) : r.endAddress.toNat = r.regionEnd % 2 ^ 64 := by
  rw [MemoryDescriptor.endAddress, BitVec.toNat_add, BitVec.toNat_mul, Nat.add_mod_mod,
    MemoryDescriptor.regionEnd]

/-- The region starts at the table or before it, and ends later, with both ends in 64 bits. -/
structure EndsLater (smbios : SmbiosEntryPoint) (r : MemoryDescriptor) : Prop where
  start : r.physicalStart.toNat ≤ smbios.tableAddress.toNat
  later : smbios.tableEnd % 2 ^ 64 < r.regionEnd % 2 ^ 64

theorem counts_iff (r : MemoryDescriptor) : counts smbios r = true ↔ EndsLater smbios r := by
  rw [counts, decide_eq_true_eq, BitVec.le_def, BitVec.lt_def, endAddress_toNat,
    BitVec.toNat_add, BitVec.toNat_setWidth_of_le (by decide)]
  exact ⟨fun h => ⟨h.1, h.2⟩, fun h => ⟨h.start, h.later⟩⟩

theorem counts_false_iff (r : MemoryDescriptor) :
    counts smbios r = false ↔ ¬ EndsLater smbios r := by
  rw [← counts_iff, Bool.not_eq_true]

/-! ## Tables that end below `2 ^ 64` -/

/-- Such a table lies in a region that ends later. -/
theorem EndsLater.contains {r : MemoryDescriptor} (h : EndsLater smbios r)
    (hEnd : smbios.tableEnd < 2 ^ 64) : Contains smbios r := by
  have hLater := h.later
  rw [Nat.mod_eq_of_lt hEnd] at hLater
  exact ⟨h.start, Nat.le_of_lt (Nat.lt_of_lt_of_le hLater (Nat.mod_le _ _))⟩

/-- So does its address. -/
theorem EndsLater.covers {r : MemoryDescriptor} (h : EndsLater smbios r)
    (hEnd : smbios.tableEnd < 2 ^ 64) : r.Covers smbios.tableAddress.toNat := by
  have hLater := h.later
  rw [Nat.mod_eq_of_lt hEnd] at hLater
  refine ⟨h.start, Nat.lt_of_le_of_lt (Nat.le_add_right _ smbios.tableMaximumSize.toNat) ?_⟩
  exact Nat.lt_of_lt_of_le hLater (Nat.mod_le _ _)

/-- Only one region of a disjoint map can be it, so that the order does not matter. -/
theorem passes_iff_of_disjoint (hDisjoint : DisjointMap map) (hEnd : smbios.tableEnd < 2 ^ 64) :
    Passes smbios map ↔
      ∃ i < map.count, i < 2 ^ 32 ∧ (map.descriptor i).Rsd ∧
        EndsLater smbios (map.descriptor i) := by
  rw [passes_iff]
  constructor
  · rintro ⟨i, hi, hWidth, hRsd, hHit, -⟩
    exact ⟨i, hi, hWidth, hRsd, (counts_iff _).mp hHit⟩
  · rintro ⟨i, hi, hWidth, hRsd, hLater⟩
    refine ⟨i, hi, hWidth, hRsd, (counts_iff _).mpr hLater, fun k hk => ?_⟩
    rw [counts_false_iff]
    intro hOther
    exact hDisjoint k (Nat.lt_trans hk hi) i hi (Nat.ne_of_lt hk) _
      ⟨hOther.covers hEnd, hLater.covers hEnd⟩

/-! ## Tables that end at `2 ^ 64` or later -/

variable (smbios map) in
/-- A region that the test takes for that of the table, among those that it comes to. -/
def Taken (r : MemoryDescriptor) : Prop :=
  EndsLater smbios r ∧ ∃ i < map.count, i < 2 ^ 32 ∧ map.descriptor i = r

theorem Taken.of_lt {i k : Nat} (hi : i < map.count) (hWidth : i < 2 ^ 32) (hk : k ≤ i)
    (hLater : EndsLater smbios (map.descriptor k)) : Taken smbios map (map.descriptor k) :=
  ⟨hLater, k, Nat.lt_of_le_of_lt hk hi, Nat.lt_of_le_of_lt hk hWidth, rfl⟩

/-- If all of them hold runtime services data, whichever is the first. -/
theorem passes_of_taken (hSome : ∃ r, Taken smbios map r)
    (hAll : ∀ r, Taken smbios map r → r.Rsd) : Passes smbios map := by
  classical
  have hExists : ∃ i, i < map.count ∧ i < 2 ^ 32 ∧ EndsLater smbios (map.descriptor i) := by
    obtain ⟨r, hLater, i, hi, hWidth, rfl⟩ := hSome
    exact ⟨i, hi, hWidth, hLater⟩
  obtain ⟨hi, hWidth, hLater⟩ := Nat.find_spec hExists
  refine passes_iff.mpr ⟨Nat.find hExists, hi, hWidth,
    hAll _ (Taken.of_lt hi hWidth (Nat.le_refl _) hLater), (counts_iff _).mpr hLater,
    fun k hk => (counts_false_iff _).mpr fun hEarly => ?_⟩
  exact Nat.find_min hExists hk ⟨Nat.lt_trans hk hi, Nat.lt_trans hk hWidth, hEarly⟩

/-- If none of them does, also when there is none. -/
theorem not_passes_of_taken (hAll : ∀ r, Taken smbios map r → ¬ r.Rsd) :
    ¬ Passes smbios map := by
  intro hPasses
  obtain ⟨i, hi, hWidth, hRsd, hHit, -⟩ := passes_iff.mp hPasses
  exact hAll _ (Taken.of_lt hi hWidth (Nat.le_refl _) ((counts_iff _).mp hHit)) hRsd

end Check

/-! ## The placement -/

/-- The table ends below `2 ^ 64`, and if it lies in a region of runtime services data then such a
region is taken for its own. Or it does not end there; then the regions that are taken all hold
such data, and there is one, for a table that lies in such a region, and for any other table none
of them does. -/
def TakenRight (smbios : SmbiosEntryPoint) (map : MemoryMap) : Prop :=
  (smbios.tableEnd < 2 ^ 64 ∧ (Placed smbios map → ∃ r, Taken smbios map r ∧ r.Rsd)) ∨
  (2 ^ 64 ≤ smbios.tableEnd ∧
    ((Placed smbios map ∧ (∃ r, Taken smbios map r) ∧ ∀ r, Taken smbios map r → r.Rsd) ∨
      (¬ Placed smbios map ∧ ∀ r, Taken smbios map r → ¬ r.Rsd)))

/-- Regions with runtime services data and regions without are taken for that of the table. -/
def TakenMixed (smbios : SmbiosEntryPoint) (map : MemoryMap) : Prop :=
  (∃ r, Taken smbios map r ∧ r.Rsd) ∧ ∃ r, Taken smbios map r ∧ ¬ r.Rsd

/-- Under the condition the test agrees with the placement. Without it the test does not, unless the
table ends at `2 ^ 64` or later and regions of both kinds are taken. -/
theorem placement_iff (smbios : SmbiosEntryPoint) (map : MemoryMap)
    (hDisjoint : DisjointMap map) :
    (TakenRight smbios map → (Passes smbios map ↔ Placed smbios map)) ∧
      (smbios.tableEnd < 2 ^ 64 ∨ ¬ TakenMixed smbios map →
        (Passes smbios map ↔ Placed smbios map) → TakenRight smbios map) := by
  rcases Nat.lt_or_ge smbios.tableEnd (2 ^ 64) with hEnd | hEnd
  · have hPasses : Passes smbios map ↔ ∃ r, Taken smbios map r ∧ r.Rsd := by
      rw [passes_iff_of_disjoint hDisjoint hEnd]
      constructor
      · rintro ⟨i, hi, hWidth, hRsd, hLater⟩
        exact ⟨_, ⟨hLater, i, hi, hWidth, rfl⟩, hRsd⟩
      · rintro ⟨_, ⟨hLater, i, hi, hWidth, rfl⟩, hRsd⟩
        exact ⟨i, hi, hWidth, hRsd, hLater⟩
    have hPlaced : (∃ r, Taken smbios map r ∧ r.Rsd) → Placed smbios map := by
      rintro ⟨_, ⟨hLater, i, hi, -, rfl⟩, hRsd⟩
      exact ⟨i, hi, hRsd, hLater.contains hEnd⟩
    rw [TakenRight, or_iff_left fun h => Nat.not_le_of_lt hEnd h.1, and_iff_right hEnd, hPasses]
    exact ⟨fun hRight => ⟨hPlaced, hRight⟩, fun _ => Iff.mpr⟩
  · rw [TakenRight, or_iff_right fun h => Nat.not_le_of_lt h.1 hEnd, and_iff_right hEnd]
    constructor
    · rintro (⟨hPlaced, hSome, hAll⟩ | ⟨hNot, hAll⟩)
      · exact iff_of_true (passes_of_taken hSome hAll) hPlaced
      · exact iff_of_false (not_passes_of_taken hAll) hNot
    · rintro (hLess | hOne) hAgree
      · exact absurd hLess (Nat.not_lt_of_le hEnd)
      by_cases hPlaced : Placed smbios map
      · -- the first one that is taken holds such data, so all of them do
        obtain ⟨i, hi, hWidth, hRsd, hHit, -⟩ := passes_iff.mp (hAgree.mpr hPlaced)
        have hTaken := Taken.of_lt hi hWidth (Nat.le_refl i) ((counts_iff _).mp hHit)
        refine Or.inl ⟨hPlaced, ⟨_, hTaken⟩, fun r hr => ?_⟩
        by_contra hOther
        exact hOne ⟨⟨_, hTaken, hRsd⟩, r, hr, hOther⟩
      · refine Or.inr ⟨hPlaced, fun r hr hRsd => ?_⟩
        refine hPlaced (hAgree.mp (passes_of_taken ⟨r, hr⟩ fun r' hr' => ?_))
        by_contra hOther
        exact hOne ⟨⟨r, hr, hRsd⟩, r', hr', hOther⟩

/-- One region of one page of runtime services data from `0x80000000` on. -/
def onePageMap : MemoryMap where
  bytes := fun a => if a = 0 then 6 else if a = 11 then 0x80 else if a = 24 then 1 else 0
  size := 48
  descriptorSize := 48

/-- A table of the size of the page. -/
def fullPageTable : SmbiosEntryPoint where
  majorVersion := 3
  minorVersion := 2
  tableAddress := 0x80000000
  tableMaximumSize := 0x1000

theorem onePageMap_disjoint : DisjointMap onePageMap := by
  intro i hi j hj hNe
  have hCount : onePageMap.count = 1 := by decide
  omega

theorem fullPageTable_placed : Placed fullPageTable onePageMap := by
  refine ⟨0, by decide, ?_, ?_, ?_⟩
  · exact (by decide : (onePageMap.descriptor 0).type = efiRuntimeServicesData)
  · exact (by decide : (onePageMap.descriptor 0).physicalStart.toNat ≤ 0x80000000)
  · exact (by decide : fullPageTable.tableEnd ≤ (onePageMap.descriptor 0).regionEnd)

/-- A table of one byte less is found, and the condition fails for the full page. -/
theorem shorterTable_passes :
    (Passes { fullPageTable with tableMaximumSize := 0xFFF } onePageMap ↔
      Placed { fullPageTable with tableMaximumSize := 0xFFF } onePageMap) ∧
    ¬ (Passes fullPageTable onePageMap ↔ Placed fullPageTable onePageMap) := by
  constructor
  · refine (placement_iff _ onePageMap onePageMap_disjoint).1 (Or.inl ⟨by decide, fun _ => ?_⟩)
    refine ⟨_, ⟨⟨?_, ?_⟩, 0, by decide, by decide, rfl⟩, ?_⟩
    · exact (by decide : (onePageMap.descriptor 0).physicalStart.toNat ≤ 0x80000000)
    · decide
    · exact (by decide : (onePageMap.descriptor 0).type = efiRuntimeServicesData)
  · intro hAgree
    have hRight := (placement_iff fullPageTable onePageMap onePageMap_disjoint).2
      (Or.inl (by decide)) hAgree
    rcases hRight with ⟨-, hTaken⟩ | ⟨hEnd, -⟩
    · obtain ⟨_, ⟨hLater, i, hi, -, rfl⟩, -⟩ := hTaken fullPageTable_placed
      have hCount : onePageMap.count = 1 := by decide
      obtain rfl : i = 0 := by omega
      exact absurd hLater.later (by decide)
    · exact absurd hEnd (by decide)

theorem full_page_missed :
    ¬ ∀ (smbios : SmbiosEntryPoint) (map : MemoryMap), DisjointMap map →
      (Passes smbios map ↔ Placed smbios map) := by
  intro h
  have hPasses := (h fullPageTable onePageMap onePageMap_disjoint).mpr fullPageTable_placed
  rw [passes_iff] at hPasses
  obtain ⟨i, hi, -, -, hHit, -⟩ := hPasses
  have hCount : onePageMap.count = 1 := by decide
  obtain rfl : i = 0 := by omega
  exact absurd hHit (by decide)

end EnterpriseAcs.Sbbr
