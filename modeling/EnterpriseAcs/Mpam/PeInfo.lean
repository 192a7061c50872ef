import EnterpriseAcs.Machine.PeTable

/-!
# The PE table and the stack pool of the secondary PEs

The MPAM platform layer builds the PE table and allocates one stack slot for each affinity
below the field maxima. It powers no PE on: that is left to `val_execute_on_pe`.
-/

namespace EnterpriseAcs.Mpam

open Acpi Machine

/-- `SIZE_STACK_SECONDARY_PE`. -/
def sizeStackSecondaryPe : BitVec 32 := 0x200

/-- The number of bytes that `PalAllocateSecondaryStack` asks for, a `UINT32`. -/
def palAllocateSecondaryStack (mpidr : BitVec 64) : BitVec 32 :=
  let aff0 := (aff0 mpidr).setWidth 32
  let aff1 := (aff1 mpidr).setWidth 32
  let aff2 := (aff2 mpidr).setWidth 32
  let aff3 := (aff3 mpidr).setWidth 32
  let numPe := (aff3 + 1) * (aff2 + 1) * (aff1 + 1) * (aff0 + 1)
  numPe * sizeStackSecondaryPe

/-- What `pal_pe_create_info_table` leaves behind: the table, `gMpidrMax`, and the size of
the pool at `gSecondaryPeStack`. -/
structure PeSetup where
  table : PeInfoTable
  mpidrMax : BitVec 64
  stackBytes : BitVec 32
  deriving DecidableEq, Repr

def palPeCreateInfoTable (mem : Memory) (fuel : Nat) : Option PeSetup :=
  (peScan mem fuel).map fun scan =>
    { table := scan.table
      mpidrMax := scan.affMax.mpidrMax
      stackBytes := palAllocateSecondaryStack scan.affMax.mpidrMax }

/-- `pal_pe_create_info_table` on a MADT. -/
def peSetup (madt : Madt) : PeSetup where
  table := peTable madt
  mpidrMax := (affMaxOf madt.mpidrs).mpidrMax
  stackBytes := palAllocateSecondaryStack (affMaxOf madt.mpidrs).mpidrMax

theorem palPeCreateInfoTable_eq (madt : Madt) {fuel : Nat}
    (hFuel : madt.entries.length ≤ fuel) :
    palPeCreateInfoTable madt.mem fuel = some (peSetup madt) := by
  rw [palPeCreateInfoTable, peScan_eq madt hFuel, Option.map_some]
  rfl

end EnterpriseAcs.Mpam
