import EnterpriseAcs.Acpi.Madt
import EnterpriseAcs.Machine.Affinity

/-!
# The PE information table

`pal_pe_create_info_table` of both suites fills the table while it walks the MADT: one
entry for each GICC structure, numbered in table order, and the running affinity maxima.

* `peScan_eq`: on a well-formed MADT the walk terminates, the table holds exactly the GICC
  structures in MADT order, and the maxima are those of their MPIDRs.
-/

namespace EnterpriseAcs.Machine

open Acpi

/-- `pe_info_entry_t`, without the `attr` word that nothing writes. -/
structure PeInfoEntry where
  peNum : BitVec 32
  mpidr : BitVec 64
  pmuGsiv : BitVec 32
  deriving DecidableEq, Repr

/-- `pe_info_table_t`. -/
structure PeInfoTable where
  numOfPe : BitVec 32 := 0
  peInfo : List PeInfoEntry := []
  deriving DecidableEq, Repr

/-- What the walk over the MADT keeps: the table filled so far and the accumulators. -/
structure PeScan where
  table : PeInfoTable := {}
  affMax : AffMax := {}
  deriving DecidableEq, Repr

/-- The work done for one GICC structure. -/
def PeScan.add (mem : Memory) (s : PeScan) (entry : Nat) : PeScan where
  table :=
    { numOfPe := s.table.numOfPe + 1
      peInfo := s.table.peInfo ++
        [{ peNum := s.table.numOfPe
           mpidr := gicMpidr mem entry
           pmuGsiv := gicPerformanceInterruptGsiv mem entry }] }
  affMax := s.affMax.update (gicMpidr mem entry)

/-- The body of the loop. -/
def PeScan.visit (mem : Memory) (entry : Nat) (s : PeScan) : PeScan :=
  if entryType mem entry = gicType then s.add mem entry else s

/-- The loop of `pal_pe_create_info_table` over the MADT. -/
def peScan (mem : Memory) (fuel : Nat) : Option PeScan := madtScan mem (PeScan.visit mem) fuel {}

/-! ## The finished table -/

/-- The entry that describes the GICC structure `entry`, the `i`-th of its table. -/
def peInfoEntry (mem : Memory) (i entry : Nat) : PeInfoEntry where
  peNum := BitVec.ofNat 32 i
  mpidr := gicMpidr mem entry
  pmuGsiv := gicPerformanceInterruptGsiv mem entry

/-- The PE table of a MADT. -/
def peTable (madt : Madt) : PeInfoTable where
  numOfPe := BitVec.ofNat 32 madt.giccs.length
  peInfo := madt.giccs.mapIdx (peInfoEntry madt.mem)

theorem foldl_add (mem : Memory) (entries done : List Nat) (s : PeScan)
    (hNum : s.table.numOfPe = BitVec.ofNat 32 done.length)
    (hInfo : s.table.peInfo = done.mapIdx (peInfoEntry mem))
    (hMax : s.affMax = affMaxOf (done.map (gicMpidr mem))) :
    entries.foldl (PeScan.add mem) s =
      { table :=
          { numOfPe := BitVec.ofNat 32 (done ++ entries).length
            peInfo := (done ++ entries).mapIdx (peInfoEntry mem) }
        affMax := affMaxOf ((done ++ entries).map (gicMpidr mem)) } := by
  induction entries generalizing done s with
  | nil =>
    obtain ⟨⟨num, info⟩, acc⟩ := s
    simp_all
  | cons e entries ih =>
    rw [List.foldl_cons, ih (done ++ [e])]
    · simp
    · simp [PeScan.add, hNum, BitVec.ofNat_add]
    · simp [PeScan.add, hNum, hInfo, peInfoEntry]
    · simp [PeScan.add, hMax, affMaxOf]

theorem peScan_eq (madt : Madt) {fuel : Nat} (hFuel : madt.entries.length ≤ fuel) :
    peScan madt.mem fuel = some { table := peTable madt, affMax := affMaxOf madt.mpidrs } := by
  have hFilter : madt.entries.foldl (fun s entry => PeScan.visit madt.mem entry s) {} =
      madt.giccs.foldl (PeScan.add madt.mem) {} := by
    rw [Madt.giccs, List.foldl_filter]
    congr 1
    funext s entry
    simp [PeScan.visit]
  rw [peScan, madtScan_eq madt _ hFuel, hFilter, foldl_add madt.mem madt.giccs [] {} rfl rfl rfl]
  rfl

@[simp] theorem peTable_length (madt : Madt) :
    (peTable madt).peInfo.length = madt.giccs.length := by simp [peTable]

/-- The MPIDR column of the table. -/
theorem peTable_mpidrs (madt : Madt) :
    (peTable madt).peInfo.map PeInfoEntry.mpidr = madt.mpidrs := by
  apply List.ext_getElem <;> simp [peTable, Madt.mpidrs, peInfoEntry]

theorem peTable_mpidr_at (madt : Madt) (i : Nat) :
    (peTable madt).peInfo[i]?.map PeInfoEntry.mpidr = madt.mpidrs[i]? := by
  rw [← peTable_mpidrs, List.getElem?_map]

/-- What an entry of the table says about the MADT. -/
theorem mem_mpidrs_of_entry {madt : Madt} {i : Nat} {entry : PeInfoEntry}
    (h : (peTable madt).peInfo[i]? = some entry) : madt.mpidrs[i]? = some entry.mpidr := by
  rw [← peTable_mpidr_at, h, Option.map_some]

/-- The entries are numbered in order, and their 32-bit numbers do not wrap. -/
theorem peTable_numbered {madt : Madt} {i : Nat} {entry : PeInfoEntry}
    (h : (peTable madt).peInfo[i]? = some entry) : entry.peNum.toNat = i := by
  have := madt.giccs_bytes
  have hi := (List.getElem?_eq_some_iff.mp h).1
  rw [peTable_length] at hi
  simp only [peTable, List.getElem?_mapIdx, Option.map_eq_some_iff] at h
  obtain ⟨_, -, rfl⟩ := h
  simp only [peInfoEntry, BitVec.toNat_ofNat]
  omega

/-- The 32-bit count does not wrap. -/
theorem peTable_numOfPe_toNat (madt : Madt) :
    (peTable madt).numOfPe.toNat = madt.giccs.length := by
  have := madt.giccs_bytes
  simp only [peTable, BitVec.toNat_ofNat]
  omega

theorem peTable_count (madt : Madt) :
    (peTable madt).numOfPe.toNat = (peTable madt).peInfo.length :=
  (peTable_numOfPe_toNat madt).trans (peTable_length madt).symm

end EnterpriseAcs.Machine
