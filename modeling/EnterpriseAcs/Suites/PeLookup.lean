import EnterpriseAcs.Suites.SelfIndex

/-!
# From an index to an MPIDR and back

`val_pe_get_mpid_index` reads the entry at an index of the PE table, `val_pe_get_index_mpid`
searches the table for an MPIDR. Both suites compare the index with the number of entries before
the read, and let the number itself through. `val_sdei_event_routing_set` passes what it has read
to the firmware.

* `lookup_inside`: below the number of entries the two functions are inverse.
* `lookup_behind`: above it an invalid value is reported, and the routing notices it.
* `lookup_iff`: at the number of entries nothing of this holds.
-/

namespace EnterpriseAcs.Sdei

open Machine

/-- `none` stands for a read past the table, which the check lets through at `num_of_pe`. -/
def valPeGetMpidIndex (table : PeInfoTable) (index : Nat) : Option (BitVec 64) :=
  if table.numOfPe.toNat < index then some (invalidIndex.setWidth 64)
  else table.peInfo[index]?.map PeInfoEntry.mpidr

/-- `SDEI_EVENT_REGISTER_RM_ANY` and `SDEI_EVENT_REGISTER_RM_PE`. -/
inductive RoutingMode where
  | any
  | pe
  deriving DecidableEq, Repr

/-- The arguments of an `SDEI_EVENT_ROUTING_SET` call. -/
structure RoutingSet where
  eventNum : BitVec 32
  routingMode : RoutingMode
  affinity : BitVec 64
  deriving DecidableEq, Repr

/-- What `val_sdei_event_routing_set` does: the call it makes, whether it prints that it failed to
determine the affinity, and the status that it returns. -/
structure Routed where
  call : RoutingSet
  affinityFailed : Bool
  err : BitVec 32
  deriving DecidableEq, Repr

/-- `val_sdei_event_routing_set`; the answer of the firmware is a parameter. -/
def valSdeiEventRoutingSet (firmware : RoutingSet → BitVec 32) (table : PeInfoTable)
    (eventNum : BitVec 32) (directed : Bool) (cpuId : BitVec 32) : Option Routed :=
  if directed then
    (valPeGetMpidIndex table cpuId.toNat).map fun affinity =>
      let call : RoutingSet := { eventNum, routingMode := .pe, affinity }
      { call, affinityFailed := affinity == invalidIndex.setWidth 64, err := firmware call }
  else
    let call : RoutingSet := { eventNum, routingMode := .any, affinity := 0 }
    some { call, affinityFailed := false, err := firmware call }

end EnterpriseAcs.Sdei

namespace EnterpriseAcs.Suites

open Acpi Machine

/-- A PE table whose entries are counted and numbered in order, with distinct MPIDRs. -/
structure LookupTable where
  table : PeInfoTable
  count : table.numOfPe.toNat = table.peInfo.length
  numbered : ∀ (i : Nat) (entry : PeInfoEntry), table.peInfo[i]? = some entry →
    entry.peNum.toNat = i
  distinct : (table.peInfo.map PeInfoEntry.mpidr).Nodup

theorem peTable_distinct {madt : Madt} (hDistinct : madt.mpidrs.Nodup) :
    ((peTable madt).peInfo.map PeInfoEntry.mpidr).Nodup := by
  rwa [peTable_mpidrs]

/-- The tables that the suites build are of this kind. -/
def lookupTable (madt : Madt) (hDistinct : madt.mpidrs.Nodup) : LookupTable where
  table := peTable madt
  count := peTable_count madt
  numbered _ _ h := peTable_numbered h
  distinct := peTable_distinct hDistinct

namespace LookupTable

variable (t : LookupTable)

def numPe : Nat := t.table.peInfo.length

def mpidrs : List (BitVec 64) := t.table.peInfo.map PeInfoEntry.mpidr

/-- The value that the MPAM suite returns for an index it rejects. -/
def mpamInvalid : BitVec 64 := 0xffffff

/-- Below the number of entries both functions lead back, from the index and from its MPIDR. -/
def Inverse (index : BitVec 32) : Prop :=
  ∃ mpidr, t.mpidrs[index.toNat]? = some mpidr ∧
    Mpam.valPeGetMpidIndex t.table index.toNat = some mpidr ∧
    Mpam.valPeGetIndexMpid t.table mpidr = index ∧
    Mpam.valPeGetMpidIndex t.table (Mpam.valPeGetIndexMpid t.table mpidr).toNat = some mpidr ∧
    Sdei.valPeGetMpidIndex t.table index.toNat = some mpidr ∧
    Sdei.valPeGetIndexMpid t.table mpidr = index ∧
    Sdei.valPeGetMpidIndex t.table (Sdei.valPeGetIndexMpid t.table mpidr).toNat = some mpidr

/-- Other indices are reported by the invalid value, without a read past the table. -/
def Reported (index : BitVec 32) : Prop :=
  Mpam.valPeGetMpidIndex t.table index.toNat = some mpamInvalid ∧
    Sdei.valPeGetMpidIndex t.table index.toNat = some (Sdei.invalidIndex.setWidth 64)

/-- A routing to a PE is to an MPIDR of the table, or the failure is printed. -/
def RoutingNoticed (firmware : Sdei.RoutingSet → BitVec 32) (eventNum : BitVec 32)
    (index : BitVec 32) : Prop :=
  ∃ routed, Sdei.valSdeiEventRoutingSet firmware t.table eventNum true index = some routed ∧
    (routed.call.affinity ∈ t.mpidrs ∨ routed.affinityFailed = true)

/-- What the lookups do at an index. -/
structure LookupOk (firmware : Sdei.RoutingSet → BitVec 32) (eventNum : BitVec 32)
    (index : BitVec 32) : Prop where
  inverse : index.toNat < t.numPe → t.Inverse index
  reported : t.numPe ≤ index.toNat → t.Reported index
  noticed : t.RoutingNoticed firmware eventNum index

variable {t}

/-- The comparison of the suites does not hold before the end of the table. -/
theorem not_count_lt {i : Nat} (hi : i ≤ t.numPe) : ¬ t.table.numOfPe.toNat < i := by
  rw [t.count]
  exact Nat.not_lt.mpr hi

theorem mpidIndex_eq {i : Nat} (hi : i ≤ t.numPe) :
    Mpam.valPeGetMpidIndex t.table i = t.mpidrs[i]? ∧
      Sdei.valPeGetMpidIndex t.table i = t.mpidrs[i]? := by
  rw [Mpam.valPeGetMpidIndex, Sdei.valPeGetMpidIndex, if_neg (not_count_lt hi),
    if_neg (not_count_lt hi), mpidrs, List.getElem?_map]
  exact ⟨rfl, rfl⟩

theorem indexMpid_eq {index : BitVec 32} {mpidr : BitVec 64}
    (h : t.mpidrs[index.toNat]? = some mpidr) :
    Mpam.valPeGetIndexMpid t.table mpidr = index ∧
      Sdei.valPeGetIndexMpid t.table mpidr = index := by
  have hMem : mpidr ∈ t.table.peInfo.map PeInfoEntry.mpidr := List.mem_of_getElem? h
  rw [mpidrs, List.getElem?_map] at h
  obtain ⟨entry, hEntry, hMpidr⟩ := Option.map_eq_some_iff.mp h
  have hNum : entry.peNum = index := by
    apply BitVec.eq_of_toNat_eq
    rw [t.numbered _ entry hEntry]
  have hFound : Mpam.indexLoop mpidr t.table.peInfo = index :=
    (Mpam.indexLoop_eq t.distinct hEntry hMpidr).trans hNum
  rw [Mpam.valPeGetIndexMpid, Sdei.valPeGetIndexMpid, t.count, List.take_length,
    Sdei.indexLoop_of_mem hMem]
  exact ⟨hFound, hFound⟩

theorem lookup_inside {index : BitVec 32} (h : index.toNat < t.numPe) : t.Inverse index := by
  have hLength : index.toNat < t.mpidrs.length := by rwa [mpidrs, List.length_map]
  have hMpidr := List.getElem?_eq_getElem hLength
  obtain ⟨hMpam, hSdei⟩ := mpidIndex_eq (t := t) (Nat.le_of_lt h)
  obtain ⟨hMpamBack, hSdeiBack⟩ := indexMpid_eq hMpidr
  refine ⟨_, hMpidr, hMpam.trans hMpidr, hMpamBack, ?_, hSdei.trans hMpidr, hSdeiBack, ?_⟩
  · rw [hMpamBack, hMpam, hMpidr]
  · rw [hSdeiBack, hSdei, hMpidr]

theorem lookup_behind {index : BitVec 32} (h : t.numPe < index.toNat) : t.Reported index := by
  have hCount : t.table.numOfPe.toNat < index.toNat := by rwa [t.count]
  exact ⟨if_pos hCount, if_pos hCount⟩

/-- At the number of entries both suites read past the table. -/
theorem lookup_end {index : BitVec 32} (h : index.toNat = t.numPe) :
    Mpam.valPeGetMpidIndex t.table index.toNat = none ∧
      Sdei.valPeGetMpidIndex t.table index.toNat = none := by
  have hNone : t.mpidrs[index.toNat]? = none := by
    rw [List.getElem?_eq_none_iff, mpidrs, List.length_map, h]
    exact Nat.le_refl _
  rw [← hNone]
  exact mpidIndex_eq (Nat.le_of_eq h)

/-- The lookups are right, and the routing notices a wrong index, at every index except the
number of entries. -/
theorem lookup_iff (t : LookupTable) (firmware : Sdei.RoutingSet → BitVec 32)
    (eventNum index : BitVec 32) :
    t.LookupOk firmware eventNum index ↔ index.toNat ≠ t.numPe := by
  constructor
  · intro h hEnd
    have hRead := (h.reported (Nat.le_of_eq hEnd.symm)).1
    rw [(lookup_end hEnd).1] at hRead
    cases hRead
  · intro hIndex
    rcases Nat.lt_or_gt_of_ne hIndex with hInside | hBehind
    · refine ⟨lookup_inside, fun h => absurd hInside (Nat.not_lt.mpr h), ?_⟩
      obtain ⟨mpidr, hMpidr, -, -, -, hSdei, -⟩ := lookup_inside hInside
      refine ⟨_, by rw [Sdei.valSdeiEventRoutingSet, if_pos rfl, hSdei, Option.map_some], ?_⟩
      exact Or.inl (List.mem_of_getElem? hMpidr)
    · have hReported := lookup_behind hBehind
      refine ⟨fun h => absurd h (Nat.lt_asymm hBehind), fun _ => hReported, ?_⟩
      refine ⟨_, by rw [Sdei.valSdeiEventRoutingSet, if_pos rfl, hReported.2, Option.map_some], ?_⟩
      exact Or.inr (beq_self_eq_true _)

theorem twoPes_distinct : (twoGiccMadt 0 1).mpidrs.Nodup := by decide

/-- Two PEs, and the index 2. -/
theorem lookup_two_pes :
    ¬ (lookupTable (twoGiccMadt 0 1) twoPes_distinct).LookupOk (fun _ => 0) 0 2 := by
  intro h
  have hRead := (h.reported (by decide)).1
  rw [(lookup_end (by decide)).1] at hRead
  cases hRead

end LookupTable

end EnterpriseAcs.Suites
