import EnterpriseAcs.Machine.GicInfo
import EnterpriseAcs.Mpam.PeInfo
import EnterpriseAcs.Sdei.PeInfo

/-!
# What the PE and GIC tables say about the MADT

Both suites read a well-formed MADT without loss: the PE table has one entry for each GICC
structure, in MADT order, and the GIC table one for each structure that the suite
recognises, in MADT order and counted by its header.
-/

namespace EnterpriseAcs.Suites

open Acpi Machine

/-- The PE table lists the GICC structures in MADT order, numbered from 0 and counted, and
`mpidrMax` is the maximum of their MPIDRs in each field. -/
structure PeFaithful (madt : Madt) (table : PeInfoTable) (mpidrMax : BitVec 64) : Prop where
  mpidrs : table.peInfo.map PeInfoEntry.mpidr = madt.giccs.map (gicMpidr madt.mem)
  pmuGsivs : table.peInfo.map PeInfoEntry.pmuGsiv =
    madt.giccs.map (gicPerformanceInterruptGsiv madt.mem)
  numbered : table.peInfo.map (fun e => e.peNum.toNat) = List.range madt.giccs.length
  count : table.numOfPe.toNat = madt.giccs.length
  fields : affinity mpidrMax =
    [fieldMax 0 madt.mpidrs, fieldMax 8 madt.mpidrs, fieldMax 16 madt.mpidrs,
      fieldMax 32 madt.mpidrs]
  onlyFields : mpidrMax &&& 0xff00ffffff = mpidrMax

theorem peTable_faithful (madt : Madt) :
    PeFaithful madt (peTable madt) (affMaxOf madt.mpidrs).mpidrMax where
  mpidrs := peTable_mpidrs madt
  pmuGsivs := by apply List.ext_getElem <;> simp [peTable, peInfoEntry]
  numbered := by
    apply List.ext_getElem
    · simp
    · intro i hi _
      rw [List.getElem_map, List.getElem_range]
      exact peTable_numbered (List.getElem?_eq_getElem _)
  count := peTable_numOfPe_toNat madt
  fields := (mpidrMax_fields madt.mpidrs).1
  onlyFields := (mpidrMax_fields madt.mpidrs).2

/-! ## The GIC tables -/

section Visits

variable {mem : Memory} {t : GicInfoTable} {entries : List GicInfoEntry}

theorem length_entryIf_le (c : Prop) [Decidable c] (type : BitVec 32) (base : BitVec 64) :
    (entryIf c type base).length ≤ 1 := by
  unfold entryIf
  split <;> simp

theorem length_mpam_gicEntriesOf (entry : Nat) : (Mpam.gicEntriesOf mem entry).length ≤ 2 := by
  unfold Mpam.gicEntriesOf
  split <;> rw [List.length_append] <;>
    exact Nat.add_le_add (length_entryIf_le ..) (length_entryIf_le ..)

theorem length_sdei_gicEntriesOf (entry : Nat) : (Sdei.gicEntriesOf mem entry).length ≤ 2 := by
  unfold Sdei.gicEntriesOf
  split
  · exact (length_entryIf_le ..).trans (by omega)
  · split
    · simp
    · rw [List.length_append]
      exact Nat.add_le_add (length_entryIf_le ..) (length_entryIf_le ..)

/-- A distributor or an ITS structure. -/
theorem holds_visitGicd_visitIts (h : Holds t entries) (entry : Nat) :
    Holds (visitIts mem entry (visitGicd mem entry t))
      (entries ++ (entryIf (entryType mem entry = gicdType) entryTypeGicd
          (gicdPhysicalBaseAddress mem entry) ++
        entryIf (entryType mem entry = gicItsType) entryTypeGicits
          (itsPhysicalBaseAddress mem entry))) := by
  rw [← List.append_assoc]
  exact holds_visitIts (holds_visitGicd h)

theorem visitIts_visitGicd_of_ne {entry : Nat} (hGicd : entryType mem entry ≠ gicdType)
    (hIts : entryType mem entry ≠ gicItsType) :
    visitIts mem entry (visitGicd mem entry t) = t := by
  rw [visitGicd, if_neg hGicd, visitIts, if_neg hIts]

theorem holds_mpam_gicVisit (t : GicInfoTable) (entries : List GicInfoEntry) (entry : Nat)
    (h : Holds t entries) :
    Holds (Mpam.gicVisit mem entry t) (entries ++ Mpam.gicEntriesOf mem entry) := by
  unfold Mpam.gicVisit Mpam.gicEntriesOf
  split
  · rename_i hType
    have hOther : ∀ other, gicType ≠ other → entryType mem entry ≠ other := fun _ => hType ▸ id
    rw [visitIts_visitGicd_of_ne (hOther _ (by decide)) (hOther _ (by decide)),
      ← List.append_assoc]
    have hCpuif := holds_visitCpuif mem entry h
    simp only
    split
    · rename_i hBase
      rw [entryIf_pos hBase]
      exact holds_putGicrd hCpuif _
    · rename_i hBase
      rwa [entryIf_neg hBase, List.append_nil]
  · exact holds_visitGicd_visitIts h entry

theorem holds_sdei_gicVisit (t : GicInfoTable) (entries : List GicInfoEntry) (entry : Nat)
    (h : Holds t entries) :
    Holds (Sdei.gicVisit mem entry t) (entries ++ Sdei.gicEntriesOf mem entry) := by
  unfold Sdei.gicVisit Sdei.gicEntriesOf
  split
  · rename_i hType
    have hOther : ∀ other, gicType ≠ other → entryType mem entry ≠ other := fun _ => hType ▸ id
    simp only [if_neg (hOther gicrType (by decide))]
    rw [visitIts_visitGicd_of_ne (hOther _ (by decide)) (hOther _ (by decide))]
    exact holds_visitCpuif mem entry h
  · simp only
    split
    · rename_i hType
      have hOther : ∀ other, gicrType ≠ other → entryType mem entry ≠ other := fun _ => hType ▸ id
      rw [visitIts_visitGicd_of_ne (hOther _ (by decide)) (hOther _ (by decide))]
      exact holds_putGicrd h _
    · exact holds_visitGicd_visitIts h entry

end Visits

/-- **The tables.** On every well-formed MADT the four builders terminate; the PE tables list
its GICC structures and the field maxima of their MPIDRs, and the GIC tables list what the
suite recognises, each in MADT order, counted, and with one end marker. -/
theorem madt_tables_faithful (madt : Madt) :
    ∃ mpamPe sdeiPe mpamGic sdeiGic,
      (∀ fuel, madt.entries.length ≤ fuel →
        Mpam.palPeCreateInfoTable madt.mem fuel = some mpamPe ∧
          Sdei.palPeCreateInfoTable madt.mem fuel = some sdeiPe ∧
          Mpam.palGicCreateInfoTable madt.mem fuel = some mpamGic ∧
          Sdei.palGicCreateInfoTable madt.mem fuel = some sdeiGic) ∧
      PeFaithful madt mpamPe.table mpamPe.mpidrMax ∧
      PeFaithful madt sdeiPe.table sdeiPe.mpidrMax ∧
      Finished mpamGic (madt.entries.flatMap (Mpam.gicEntriesOf madt.mem)) ∧
      Finished sdeiGic (madt.entries.flatMap (Sdei.gicEntriesOf madt.mem)) := by
  obtain ⟨mpamGic, hMpam, hMpamDone⟩ :=
    gicInfoTable_finished madt holds_mpam_gicVisit length_mpam_gicEntriesOf
  obtain ⟨sdeiGic, hSdei, hSdeiDone⟩ :=
    gicInfoTable_finished madt holds_sdei_gicVisit length_sdei_gicEntriesOf
  refine ⟨Mpam.peSetup madt, Sdei.peSetup madt, mpamGic, sdeiGic, fun fuel hFuel => ?_,
    peTable_faithful madt, peTable_faithful madt, hMpamDone, hSdeiDone⟩
  exact ⟨Mpam.palPeCreateInfoTable_eq madt hFuel, Sdei.palPeCreateInfoTable_eq madt hFuel,
    hMpam fuel hFuel, hSdei fuel hFuel⟩

end EnterpriseAcs.Suites
