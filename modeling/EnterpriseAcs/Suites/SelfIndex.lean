import EnterpriseAcs.Mpam.PeIndex
import EnterpriseAcs.Mpam.PeInfo
import EnterpriseAcs.Sdei.PeInfo

/-!
# Does a PE find its own entry?

A PE packs its affinity into 32 bits, Aff3 into bits 31:24, and looks the packed value up
among the MPIDRs of the table. These come from the MADT and have Aff3 in bits 39:32. The
two suites share the packing and the search and differ in what they return for a PE that is
not found: 0 in the MPAM suite, `INVALID_INDEX` in the SDEI suite.

* `packed_ne`: with an Aff3 other than zero, the packed value is in no table.
* `self_index_iff`: when every PE finds its own index in both suites.
-/

namespace EnterpriseAcs.Sdei

open Machine

/-- `INVALID_INDEX`. -/
def invalidIndex : BitVec 32 := 0xffffffff

/-- `val_pe_get_mpid` on a PE with this `MPIDR_EL1`. -/
def valPeGetMpid (mpidrEl1 : BitVec 64) : BitVec 64 :=
  (mpidrEl1 >>> 32 &&& 0xff) <<< 24 ||| (mpidrEl1 &&& 0xffffff)

/-- The loop of `val_pe_get_index_mpid`. -/
def indexLoop (mpid : BitVec 64) : List PeInfoEntry → BitVec 32
  | [] => invalidIndex
  | entry :: entries => if entry.mpidr = mpid then entry.peNum else indexLoop mpid entries

def valPeGetIndexMpid (table : PeInfoTable) (mpid : BitVec 64) : BitVec 32 :=
  indexLoop mpid (table.peInfo.take table.numOfPe.toNat)

/-- `val_pe_get_index` on a PE with this `MPIDR_EL1`. -/
def valPeGetIndex (table : PeInfoTable) (mpidrEl1 : BitVec 64) : BitVec 32 :=
  valPeGetIndexMpid table (valPeGetMpid mpidrEl1)

/-- A PE of the table is found as in the MPAM suite. -/
theorem indexLoop_of_mem {mpid : BitVec 64} {entries : List PeInfoEntry}
    (h : mpid ∈ entries.map PeInfoEntry.mpidr) :
    indexLoop mpid entries = Mpam.indexLoop mpid entries := by
  induction entries with
  | nil => cases h
  | cons e entries ih =>
    rw [indexLoop, Mpam.indexLoop]
    split
    · rfl
    · rename_i hne
      rcases List.mem_cons.mp h with hHead | hTail
      · exact absurd hHead.symm hne
      · exact ih hTail

theorem indexLoop_of_not_mem {mpid : BitVec 64} {entries : List PeInfoEntry}
    (h : mpid ∉ entries.map PeInfoEntry.mpidr) : indexLoop mpid entries = invalidIndex := by
  induction entries with
  | nil => rfl
  | cons e entries ih =>
    rw [List.map_cons, List.mem_cons, not_or] at h
    rw [indexLoop, if_neg fun hEq => h.1 hEq.symm, ih h.2]

end EnterpriseAcs.Sdei

namespace EnterpriseAcs.Suites

open Acpi Machine
open Mpam (affinityBits)

/-! ## The packed value -/

theorem packed_top (x : BitVec 64) :
    Mpam.valPeGetMpid x >>> 24 &&& 0xff#64 = x >>> 32 &&& 0xff#64 := by
  have hLow : (x &&& 0xffffff) >>> 24 = 0#64 := by
    rw [BitVec.ushiftRight_and_distrib, show (0xffffff : BitVec 64) >>> 24 = 0#64 from rfl]
    exact BitVec.and_zero
  have hHigh : (x >>> 32 &&& 0xff) <<< 24 >>> 24 = x >>> 32 &&& 0xff := by
    have hLt : (x >>> 32 &&& 0xff).toNat < 256 := by
      rw [BitVec.toNat_and]
      exact Nat.lt_of_le_of_lt Nat.and_le_right (by decide)
    apply BitVec.eq_of_toNat_eq
    simp only [BitVec.toNat_ushiftRight, BitVec.toNat_shiftLeft, Nat.shiftLeft_eq,
      Nat.shiftRight_eq_div_pow]
    omega
  rw [Mpam.valPeGetMpid, BitVec.ushiftRight_or_distrib, hLow, hHigh, BitVec.or_zero,
    BitVec.and_assoc]
  rfl

theorem affinityBits_top (x : BitVec 64) : affinityBits x >>> 24 &&& 0xff#64 = 0#64 := by
  rw [affinityBits, BitVec.ushiftRight_and_distrib, BitVec.and_assoc,
    show (0xff00ffffff : BitVec 64) >>> 24 &&& 0xff#64 = 0#64 from rfl]
  exact BitVec.and_zero

theorem aff3_affinityBits (x : BitVec 64) : aff3 (affinityBits x) = x >>> 32 &&& 0xff#64 := by
  rw [aff3, affinityBits, BitVec.and_assoc, BitVec.ushiftRight_and_distrib]
  rfl

/-- The packed affinity of a PE with an Aff3 is no value in the ACPI layout. -/
theorem packed_ne {x y : BitVec 64} (h : aff3 (affinityBits x) ≠ 0) :
    Mpam.valPeGetMpid x ≠ affinityBits y := by
  intro hEq
  apply h
  rw [aff3_affinityBits, ← packed_top, hEq, affinityBits_top]
  rfl

/-! ## Both suites -/

/-- The PE of each entry computes the index of this entry, in both suites. -/
def SelfIndexed (mpam sdei : PeInfoTable) (mpidrEl1 : Nat → BitVec 64) : Prop :=
  (∀ i < mpam.peInfo.length,
      (Mpam.valPeGetIndexMpid mpam (Mpam.valPeGetMpid (mpidrEl1 i))).toNat = i) ∧
    ∀ i < sdei.peInfo.length, (Sdei.valPeGetIndex sdei (mpidrEl1 i)).toNat = i

section

variable {madt : Madt} {mpidrEl1 : Nat → BitVec 64}

theorem take_peInfo (madt : Madt) :
    (peTable madt).peInfo.take (peTable madt).numOfPe.toNat = (peTable madt).peInfo := by
  rw [peTable_numOfPe_toNat, ← peTable_length, List.take_length]

/-- A PE without Aff3 finds its entry. -/
theorem index_eq (hDistinct : madt.mpidrs.Nodup) {i : Nat} {m : BitVec 64}
    (hm : madt.mpidrs[i]? = some m) (hEl1 : m = affinityBits (mpidrEl1 i)) (hAff3 : aff3 m = 0) :
    (Mpam.valPeGetIndexMpid (peTable madt) (Mpam.valPeGetMpid (mpidrEl1 i))).toNat = i ∧
      (Sdei.valPeGetIndex (peTable madt) (mpidrEl1 i)).toNat = i := by
  rw [← peTable_mpidr_at] at hm
  obtain ⟨entry, hEntry, rfl⟩ := Option.map_eq_some_iff.mp hm
  have hPacked : entry.mpidr = Mpam.valPeGetMpid (mpidrEl1 i) := by
    rw [Mpam.valPeGetMpid_eq (hEl1 ▸ hAff3), ← hEl1]
  have hMem : Mpam.valPeGetMpid (mpidrEl1 i) ∈ (peTable madt).peInfo.map PeInfoEntry.mpidr :=
    hPacked ▸ List.mem_map_of_mem (List.mem_of_getElem? hEntry)
  have hFound : Mpam.indexLoop (Mpam.valPeGetMpid (mpidrEl1 i)) (peTable madt).peInfo =
      entry.peNum :=
    Mpam.indexLoop_eq (by rwa [peTable_mpidrs]) hEntry hPacked
  constructor
  · rw [Mpam.valPeGetIndexMpid, take_peInfo, hFound, peTable_numbered hEntry]
  · rw [Sdei.valPeGetIndex, Sdei.valPeGetIndexMpid, take_peInfo]
    exact (congrArg BitVec.toNat ((Sdei.indexLoop_of_mem hMem).trans hFound)).trans
      (peTable_numbered hEntry)

/-- A PE with Aff3 finds no entry. -/
theorem index_invalid (hEl1 : ∀ i m, madt.mpidrs[i]? = some m → m = affinityBits (mpidrEl1 i))
    {x : BitVec 64} (hAff3 : aff3 (affinityBits x) ≠ 0) :
    Sdei.valPeGetIndex (peTable madt) x = Sdei.invalidIndex := by
  rw [Sdei.valPeGetIndex, Sdei.valPeGetIndexMpid, take_peInfo]
  apply Sdei.indexLoop_of_not_mem
  rw [peTable_mpidrs]
  intro hMem
  obtain ⟨j, hj⟩ := List.mem_iff_getElem?.mp hMem
  exact packed_ne hAff3 (hEl1 j _ hj)

end

/-- **Self-identification.** For distinct MPIDRs in the ACPI layout, on the PEs whose
`MPIDR_EL1` have these affinities: every PE computes its own index in both suites exactly
when no PE has an Aff3. -/
theorem self_index_iff (madt : Madt) (mpidrEl1 : Nat → BitVec 64)
    (hDistinct : madt.mpidrs.Nodup)
    (hEl1 : ∀ i m, madt.mpidrs[i]? = some m → m = affinityBits (mpidrEl1 i)) :
    ∃ mpam sdei,
      (∀ fuel, madt.entries.length ≤ fuel →
        Mpam.palPeCreateInfoTable madt.mem fuel = some mpam ∧
          Sdei.palPeCreateInfoTable madt.mem fuel = some sdei) ∧
      (SelfIndexed mpam.table sdei.table mpidrEl1 ↔ ∀ m ∈ madt.mpidrs, aff3 m = 0) := by
  refine ⟨Mpam.peSetup madt, Sdei.peSetup madt, fun fuel hFuel =>
    ⟨Mpam.palPeCreateInfoTable_eq madt hFuel, Sdei.palPeCreateInfoTable_eq madt hFuel⟩, ?_⟩
  simp only [SelfIndexed, Mpam.peSetup, Sdei.peSetup, peTable_length]
  constructor
  · rintro ⟨-, hSdei⟩ m hm
    obtain ⟨i, hi⟩ := List.mem_iff_getElem?.mp hm
    by_contra hAff3
    have hLt : i < madt.giccs.length := by
      simpa using (List.getElem?_eq_some_iff.mp hi).1
    have hInvalid := hSdei i hLt
    rw [hEl1 i m hi] at hAff3
    rw [index_invalid hEl1 hAff3, show Sdei.invalidIndex.toNat = 0xffffffff from rfl] at hInvalid
    have := madt.giccs_bytes
    omega
  · intro h
    have hIndex : ∀ i < madt.giccs.length, _ := fun i hi =>
      have hAt : madt.mpidrs[i]? = some (madt.mpidrs.get ⟨i, by simpa using hi⟩) :=
        List.getElem?_eq_getElem _
      index_eq hDistinct hAt (hEl1 i _ hAt) (h _ (List.mem_of_getElem? hAt))
    exact ⟨fun i hi => (hIndex i hi).1, fun i hi => (hIndex i hi).2⟩

theorem forall_two {P : Nat → BitVec 64 → Prop} {m0 m1 : BitVec 64} (h0 : P 0 m0) (h1 : P 1 m1) :
    ∀ i m, [m0, m1][i]? = some m → P i m := by
  intro i m hm
  match i with
  | 0 => exact Option.some_inj.mp hm ▸ h0
  | 1 => exact Option.some_inj.mp hm ▸ h1
  | _ + 2 => cases hm

/-- Two PEs 0.0.0.0 and 0.0.0.1. -/
theorem self_index_two_pes :
    ∃ mpam sdei,
      (∀ fuel, 2 ≤ fuel →
        Mpam.palPeCreateInfoTable (twoGiccMadt 0 1).mem fuel = some mpam ∧
          Sdei.palPeCreateInfoTable (twoGiccMadt 0 1).mem fuel = some sdei) ∧
      SelfIndexed mpam.table sdei.table fun i => if i = 0 then 0x80000000 else 0x80000001 := by
  have hMpidrs : (twoGiccMadt 0 1).mpidrs = [0, 1] := by decide
  obtain ⟨mpam, sdei, hTables, hIff⟩ := self_index_iff (twoGiccMadt 0 1)
    (fun i => if i = 0 then 0x80000000 else 0x80000001) (by decide)
    (by
      rw [hMpidrs]
      exact forall_two (by decide) (by decide))
  refine ⟨mpam, sdei, hTables, hIff.mpr ?_⟩
  rw [hMpidrs]
  exact List.forall_mem_cons.mpr ⟨by decide, List.forall_mem_singleton.mpr (by decide)⟩

/-- Two GICC structures with the MPIDRs 0.0.0.0 and 1.0.0.0. -/
def clusterMemory : Memory := fun addr => if addr = 196 then 1 else twoGiccMemory 0 0 addr

theorem clusterEntries_ne_nil : ([44, 124] : List Nat) ≠ [] := List.cons_ne_nil 44 [124]

def clusterMadt : Madt where
  mem := clusterMemory
  entries := [44, 124]
  entries_ne_nil := clusterEntries_ne_nil
  layout := .cons (Nat.le_refl 80) (.cons (Nat.le_refl 80) (.nil 204))

/-- PE 1.0.0.0 is index 0 for the MPAM suite and no index for the SDEI suite. -/
theorem self_index_aff3 :
    clusterMadt.mpidrs = [0, 0x100000000] ∧
      ∃ mpam sdei, Mpam.palPeCreateInfoTable clusterMadt.mem 2 = some mpam ∧
        Sdei.palPeCreateInfoTable clusterMadt.mem 2 = some sdei ∧
        Mpam.valPeGetIndexMpid mpam.table (Mpam.valPeGetMpid 0x180000000) = 0 ∧
        Sdei.valPeGetIndex sdei.table 0x180000000 = Sdei.invalidIndex ∧
        ¬ SelfIndexed mpam.table sdei.table
          fun i => if i = 0 then 0x80000000 else 0x180000000 := by
  have hSdei : Sdei.valPeGetIndex (peTable clusterMadt) 0x180000000 = Sdei.invalidIndex := by
    decide
  refine ⟨by decide, Mpam.peSetup clusterMadt, Sdei.peSetup clusterMadt,
    Mpam.palPeCreateInfoTable_eq _ (by decide), Sdei.palPeCreateInfoTable_eq _ (by decide),
    by decide, hSdei, fun h => ?_⟩
  have hOne : (Sdei.valPeGetIndex (peTable clusterMadt) 0x180000000).toNat = 1 :=
    h.2 1 (by decide)
  rw [hSdei] at hOne
  exact absurd hOne (by decide)

end EnterpriseAcs.Suites
