import EnterpriseAcs.Machine.PeTable

/-!
# Bringing up the secondary PEs

The SDEI platform layer builds the PE table, powers on every entry but the first, and
later selects the PEs to post to and the PEs to switch off. Each of these three loops has
its own way of leaving out the PE that runs the suite.
-/

namespace EnterpriseAcs.Sdei

open Acpi Machine

/-- What `pal_pe_create_info_table` leaves behind: the table, `gMpidrMax`, and the MPIDRs
it has passed to PSCI `CPU_ON`, in order. -/
structure PeSetup where
  table : PeInfoTable
  mpidrMax : BitVec 64
  cpuOn : List (BitVec 64)
  deriving DecidableEq, Repr

/-- The indices of the loops `for (i = 1; i < num_of_pe; i++)`. -/
def fromSecond (table : PeInfoTable) : List Nat := List.range' 1 (table.numOfPe.toNat - 1)

def palPeCreateInfoTable (mem : Memory) (fuel : Nat) : Option PeSetup :=
  (peScan mem fuel).map fun scan =>
    { table := scan.table
      mpidrMax := scan.affMax.mpidrMax
      cpuOn := (fromSecond scan.table).filterMap fun i =>
        scan.table.peInfo[i]?.map PeInfoEntry.mpidr }

/-- `MyMpidr` of `pal_pe_execute_on_all`: `MPIDR_EL1` without bits 31:24. -/
def myMpidr (mpidrEl1 : BitVec 64) : BitVec 64 := mpidrEl1 &&& ~~~(0xff#64 <<< 24)

/-- The indices whose mailbox `pal_pe_execute_on_all` posts to and waits for. Its counter
and its `num_pe` are `int`. -/
def palPeExecuteOnAllTargets (table : PeInfoTable) (numPe : BitVec 32) (my : BitVec 64) :
    List Nat :=
  (List.range numPe.toInt.toNat).filter fun i =>
    table.peInfo[i]?.map PeInfoEntry.mpidr ≠ some my

/-- The indices whose mailbox `pal_pe_clean_up` writes the power-off function to. -/
def palPeCleanUpTargets (table : PeInfoTable) : List Nat := fromSecond table

/-! ## The result on a well-formed table -/

/-- `pal_pe_create_info_table` on a MADT. -/
def peSetup (madt : Madt) : PeSetup where
  table := peTable madt
  mpidrMax := (affMaxOf madt.mpidrs).mpidrMax
  cpuOn := madt.mpidrs.tail

theorem mem_fromSecond {madt : Madt} {i : Nat} :
    i ∈ fromSecond (peTable madt) ↔ 1 ≤ i ∧ i < madt.giccs.length := by
  rw [fromSecond, List.mem_range'_1, peTable_numOfPe_toNat]
  omega

theorem filterMap_range'_getElem? {α : Type*} (l : List α) (k : Nat) :
    (List.range' k (l.length - k)).filterMap (fun i => l[i]?) = l.drop k := by
  induction h : l.length - k generalizing k with
  | zero =>
    rw [List.drop_eq_nil_of_le (by omega)]
    rfl
  | succ n ih =>
    have hk : k < l.length := by omega
    rw [List.range'_succ, List.filterMap_cons, List.getElem?_eq_getElem hk,
      ih (k + 1) (by omega), List.drop_eq_getElem_cons hk]

theorem palPeCreateInfoTable_eq (madt : Madt) {fuel : Nat}
    (hFuel : madt.entries.length ≤ fuel) :
    palPeCreateInfoTable madt.mem fuel = some (peSetup madt) := by
  simp only [palPeCreateInfoTable, peScan_eq madt hFuel, Option.map_some, peTable_mpidr_at,
    fromSecond, peTable_numOfPe_toNat]
  rw [← madt.length_mpidrs, filterMap_range'_getElem?, List.drop_one]
  rfl

end EnterpriseAcs.Sdei
