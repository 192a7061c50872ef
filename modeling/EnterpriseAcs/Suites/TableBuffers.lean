import EnterpriseAcs.Machine.PeTable
import EnterpriseAcs.Sdei.DeviceTables

/-!
# Do the tables fit the buffers of the applications?

The applications allocate the buffers of the tables with constant sizes, before any firmware
table has been read. The builders get the address alone and fill one record after the other.

* `pe_stores_iff`: the buffer of the PE table has room for 341 PEs.
* `table_buffers_iff`: the firmware tables for which all builders stay in their buffers.
-/

namespace EnterpriseAcs.Mpam

/-- `PE_INFO_TBL_SZ`. -/
def peInfoTblSz : Nat := 8192

end EnterpriseAcs.Mpam

namespace EnterpriseAcs.Sdei

/-- `PE_INFO_TABLE_SZ`. -/
def peInfoTableSz : Nat := 8192

end EnterpriseAcs.Sdei

namespace EnterpriseAcs.Suites

open Acpi Machine

/-! ## The PE table -/

/-- The members of `pe_info_hdr_t`, and those of `pe_info_entry_t`: `pe_num`, `attr`, `mpidr`
and `pmu_gsiv`. -/
def peInfoHdrMembers : List CType := [uint32]
def peInfoEntryMembers : List CType := [uint32, uint32, uint64, uint32]

/-- The address of `pe_info[k]` in the buffer. -/
def peInfoOffset (k : Nat) : Nat :=
  alignUp (cStruct peInfoHdrMembers).size (cStruct peInfoEntryMembers).align +
    k * (cStruct peInfoEntryMembers).size

/-- The assignment to `header.num_of_pe`. -/
def numOfPeStore : Store := memberStore 0 peInfoHdrMembers 0

/-- The assignments for the `k`-th GICC structure. -/
def peEntryStores (k : Nat) : List Store :=
  [2, 0, 3].map (memberStore (peInfoOffset k) peInfoEntryMembers) ++ [numOfPeStore]

def peStores (mem : Memory) (entry : Nat) (s : PeScan) : List Store :=
  if entryType mem entry = gicType then peEntryStores s.table.peInfo.length else []

/-- The loop of `pal_pe_create_info_table` with the stores it has done to the table. -/
def peStoreScan (mem : Memory) (fuel : Nat) : Option (PeScan × List Store) :=
  madtScan mem (withLog (PeScan.visit mem) (peStores mem)) fuel ({}, [numOfPeStore])

theorem peEntryStores_inside (k : Nat) :
    (∀ x ∈ peEntryStores k, x.Inside Mpam.peInfoTblSz) ↔ k < 341 := by
  rw [show peEntryStores k = [⟨8 + k * 24 + 8, 8, 0, 1⟩, ⟨8 + k * 24 + 0, 4, 0, 1⟩,
    ⟨8 + k * 24 + 16, 4, 0, 1⟩, ⟨0, 4, 0, 1⟩] from rfl]
  simp only [List.forall_mem_cons, Store.Inside, Mpam.peInfoTblSz]
  constructor
  · rintro ⟨-, -, h, -⟩
    omega
  · intro h
    refine ⟨?_, ?_, ?_, ?_, by simp⟩ <;> omega

/-- The stores of `pal_pe_create_info_table` on a MADT. -/
theorem pe_stores_iff (madt : Madt) :
    ∃ scan stores,
      (∀ fuel, madt.entries.length ≤ fuel → peStoreScan madt.mem fuel = some (scan, stores)) ∧
      ((∀ x ∈ stores, x.Inside Mpam.peInfoTblSz) ↔ madt.giccs.length ≤ 341) := by
  have hHit : ∀ entry s, entryType madt.mem entry = gicType →
      (PeScan.visit madt.mem entry s).table.peInfo.length = s.table.peInfo.length + 1 ∧
        peStores madt.mem entry s = peEntryStores s.table.peInfo.length := by
    intro entry s hType
    rw [PeScan.visit, peStores, if_pos hType, if_pos hType]
    exact ⟨List.length_append, rfl⟩
  have hMiss : ∀ entry s, ¬ entryType madt.mem entry = gicType →
      PeScan.visit madt.mem entry s = s ∧ peStores madt.mem entry s = [] :=
    fun _ _ hType => ⟨if_neg hType, if_neg hType⟩
  have hHeader : ∀ x ∈ [numOfPeStore], x.Inside Mpam.peInfoTblSz := by
    unfold Store.Inside
    decide
  refine ⟨_, _, fun fuel hFuel => madtScan_eq madt _ hFuel _, ?_⟩
  rw [forall_stores (fun entry => entryType madt.mem entry = gicType)
    (fun s => s.table.peInfo.length) (fun _ => peEntryStores) hHit hMiss, and_iff_right hHeader]
  simp only [List.length_nil, Nat.zero_add, peEntryStores_inside]
  rw [forall_getElem?_const]
  exact forall_lt_iff_le fun k => Iff.rfl

/-! ## All tables -/

/-- The stores of the PE table builder, and those of the other builders for this GTDT and this
HEST, are all inside the buffers that the applications allocate. -/
structure TablesInBuffers (pe : List Store) (gtdt hest : Memory) : Prop where
  mpamPe : ∀ x ∈ pe, x.Inside Mpam.peInfoTblSz
  sdeiPe : ∀ x ∈ pe, x.Inside Sdei.peInfoTableSz
  timers : ∀ x ∈ (Sdei.palTimerCreateInfoTable (some gtdt)).stores,
    x.Inside Sdei.timerInfoTableSz
  watchdogs : ∀ x ∈ (Sdei.palWdCreateInfoTable (some gtdt)).2.stores,
    x.Inside Sdei.wdInfoTableSz
  events : ∀ x ∈ (Sdei.palSdeiCreateEventInfoTable (some hest)).2.stores,
    x.Inside Sdei.eventInfoTableSz

/-- **Table buffers.** The PE table builder terminates on every MADT, and for every GTDT and
every HEST the builders stay in their buffers exactly when there are at most 341 PEs, room for
the timers, and at most 21 watchdogs and 13 error sources with SDEI notification. -/
theorem table_buffers_iff (madt : Madt) (gtdt hest : Memory) :
    ∃ scan stores,
      (∀ fuel, madt.entries.length ≤ fuel → peStoreScan madt.mem fuel = some (scan, stores)) ∧
      (TablesInBuffers stores gtdt hest ↔
        madt.giccs.length ≤ 341 ∧ Sdei.TimerRoom gtdt ∧ (watchdogs gtdt).length ≤ 21 ∧
          (sdeiSources hest).length ≤ 13) := by
  obtain ⟨scan, stores, hScan, hPe⟩ := pe_stores_iff madt
  refine ⟨scan, stores, hScan, ?_⟩
  rw [← hPe, ← Sdei.timer_stores_iff, ← Sdei.wd_stores_iff, ← Sdei.event_stores_iff]
  constructor
  · intro h
    exact ⟨h.mpamPe, h.timers, h.watchdogs, h.events⟩
  · rintro ⟨hMpam, hTimers, hWatchdogs, hEvents⟩
    exact ⟨hMpam, hMpam, hTimers, hWatchdogs, hEvents⟩

/-! ## A large system -/

/-- The bytes of the `i`-th GICC structure: type, length, and an MPIDR of its own. -/
def giccByte (i : Nat) : Nat → BitVec 8
  | 0 => gicType
  | 1 => 80
  | 68 => BitVec.ofNat 8 i
  | 69 => BitVec.ofNat 8 (i / 256)
  | _ => 0

/-- A MADT of 27404 bytes with 342 GICC structures. -/
def largeMemory : Memory := fun addr =>
  if addr = 4 then 0x0c else if addr = 5 then 0x6b else if addr < 44 then 0
  else giccByte ((addr - 44) / 80) ((addr - 44) % 80)

theorem largeMemory_entry (i : Nat) :
    entryType largeMemory (44 + i * 80) = gicType ∧ entryLength largeMemory (44 + i * 80) = 80 := by
  have hByte : ∀ b < 80, largeMemory (44 + i * 80 + b) =
      if 44 + i * 80 + b < 44 then 0 else giccByte i b := by
    intro b hb
    rw [largeMemory, if_neg (by omega), if_neg (by omega),
      show (44 + i * 80 + b - 44) / 80 = i by omega, show (44 + i * 80 + b - 44) % 80 = b by omega]
  constructor
  · exact (hByte 0 (by omega)).trans (if_neg (by omega))
  · exact (hByte 1 (by omega)).trans (if_neg (by omega))

theorem largeMemory_layout (n i : Nat) :
    EntriesAt largeMemory (44 + i * 80) ((List.range' i n).map fun i => 44 + i * 80)
      (44 + (i + n) * 80) := by
  induction n generalizing i with
  | zero => exact .nil _
  | succ n ih =>
    obtain ⟨hType, hLength⟩ := largeMemory_entry i
    apply EntriesAt.cons
    · rw [hType, hLength]
      decide
    · rw [hLength]
      have := ih (i + 1)
      rwa [show i + 1 + n = i + (n + 1) by omega,
        show 44 + (i + 1) * 80 = 44 + i * 80 + 80 by omega] at this

def largeMadt : Madt where
  mem := largeMemory
  entries := (List.range' 0 342).map fun i => 44 + i * 80
  entries_ne_nil := by simp
  layout := largeMemory_layout 342 0

theorem largeMadt_giccs : largeMadt.giccs.length = 342 := by
  have hAll : largeMadt.giccs = largeMadt.entries := by
    apply List.filter_eq_self.mpr
    intro entry hEntry
    obtain ⟨i, -, rfl⟩ := List.mem_map.mp hEntry
    exact decide_eq_true (largeMemory_entry i).1
  rw [hAll]
  simp [largeMadt]

/-- The entry of the 342nd PE is not in the buffer. -/
theorem large_system_overrun :
    ∃ scan stores, peStoreScan largeMadt.mem 342 = some (scan, stores) ∧
      ∀ gtdt hest, ¬ TablesInBuffers stores gtdt hest := by
  obtain ⟨scan, stores, hScan, hPe⟩ := pe_stores_iff largeMadt
  refine ⟨scan, stores, hScan 342 (by simp [largeMadt]), fun gtdt hest h => ?_⟩
  have hLe := hPe.mp h.mpamPe
  rw [largeMadt_giccs] at hLe
  omega

end EnterpriseAcs.Suites
