import EnterpriseAcs.Sdei.GicDriver
import EnterpriseAcs.Suites.PeLookup

/-!
# Routing an interrupt to a PE

The `GICD_IROUTER` entry of an interrupt has Aff3 in bits 39:32 and the other affinity fields in
bits 23:0, as the MPIDRs of the MADT have. Both suites write it with 32-bit accesses. The MPAM
suite writes the lower half only; the SDEI suite writes both, and takes Aff3 from bits 31:24 of the
MPIDR.

* `mpamRoute_entry`, `sdeiRoute_entry`: the entry after the routing.
* `routesTo_iff`: the entries whose lower half is that of an MPIDR.
* `routing_iff`: when each suite routes to the PE it has looked up.
-/

namespace EnterpriseAcs.Machine

/-- `GICD_IROUTER`. -/
def gicdIrouter : BitVec 64 := 0x6000

/-- The address of the entry of an id, as the code computes it. -/
def irouterAddress (base : BitVec 64) (id : BitVec 32) : BitVec 64 :=
  base + gicdIrouter + (8 * id).setWidth 64

/-- The 64-bit entry of an interrupt. -/
def Distributor.irouter (d : Distributor) (spi : Spi) : BitVec 64 :=
  d.plain (0x6000 + 8 * spi.id.toNat + 4) ++ d.plain (0x6000 + 8 * spi.id.toNat)

/-- Write a register outside the banks. -/
def Distributor.setPlain (d : Distributor) (offset : Nat) (value : BitVec 32) : Distributor :=
  { d with plain := Function.update d.plain offset value }

theorem Distributor.irouter_setPlain (d : Distributor) (spi : Spi) (value : BitVec 32) :
    (d.setPlain (0x6000 + 8 * spi.id.toNat) value).irouter spi =
      d.plain (0x6000 + 8 * spi.id.toNat + 4) ++ value := by
  simp only [irouter, setPlain]
  rw [Function.update_self, Function.update_of_ne (by omega)]

theorem Distributor.irouter_setPlain_high (d : Distributor) (spi : Spi) (value : BitVec 32) :
    (d.setPlain (0x6000 + 8 * spi.id.toNat + 4) value).irouter spi =
      value ++ d.plain (0x6000 + 8 * spi.id.toNat) := by
  simp only [irouter, setPlain]
  rw [Function.update_self, Function.update_of_ne (by omega)]

theorem gicdReg_plain {offset : Nat} (h : 0x400 ≤ offset) : gicdReg offset = .plain offset := by
  have hBlock : blockReg (offset / 0x80) (offset % 0x80 / 4) = none := by
    have hMany : 8 ≤ offset / 0x80 := by omega
    obtain ⟨k, hk⟩ := Nat.exists_eq_add_of_le hMany
    rw [hk, Nat.add_comm]
    rfl
  rw [gicdReg, hBlock]
  exact ite_self _

theorem irouterAddress_offset (base : BitVec 64) (spi : Spi) :
    (irouterAddress base spi.id - base).toNat = 0x6000 + 8 * spi.id.toNat ∧
      (irouterAddress base spi.id + 4 - base).toNat = 0x6000 + 8 * spi.id.toNat + 4 := by
  have hUpper := spi.upper
  have hEntry : ((8 * spi.id).setWidth 64).toNat = 8 * spi.id.toNat := by
    rw [BitVec.toNat_setWidth, BitVec.toNat_mul]
    change 8 * spi.id.toNat % 2 ^ 32 % 2 ^ 64 = _
    omega
  have hOffset : irouterAddress base spi.id - base =
      gicdIrouter + (8 * spi.id).setWidth 64 := by
    rw [irouterAddress, BitVec.add_assoc, BitVec.add_comm base, BitVec.add_sub_cancel]
  have hSum : (gicdIrouter + (8 * spi.id).setWidth 64).toNat = 0x6000 + 8 * spi.id.toNat := by
    rw [BitVec.toNat_add, hEntry]
    change (0x6000 + 8 * spi.id.toNat) % 2 ^ 64 = _
    omega
  constructor
  · rw [hOffset, hSum]
  · have hSecond : irouterAddress base spi.id + 4 - base =
        irouterAddress base spi.id - base + 4 := by
      rw [BitVec.sub_eq_add_neg, BitVec.sub_eq_add_neg, BitVec.add_assoc, BitVec.add_comm 4,
        ← BitVec.add_assoc]
    rw [hSecond, hOffset, BitVec.toNat_add, hSum]
    change (0x6000 + 8 * spi.id.toNat + 4) % 2 ^ 64 = _
    omega

section Writes

variable (bus : GicBus) (spi : Spi) (value : BitVec 32)

/-- A write to the lower half of the entry. -/
theorem mmioWrite_irouter :
    bus.mmioWrite (irouterAddress bus.gicdBase spi.id) value =
      { bus with gicd := bus.gicd.setPlain (0x6000 + 8 * spi.id.toNat) value } := by
  have hUpper := spi.upper
  have hOffset := (irouterAddress_offset bus.gicdBase spi).1
  rw [GicBus.mmioWrite, hOffset, if_pos (by omega), Distributor.write,
    gicdReg_plain (by omega), Distributor.setPlain]

/-- A write to its upper half. -/
theorem mmioWrite_irouter_high :
    bus.mmioWrite (irouterAddress bus.gicdBase spi.id + 4) value =
      { bus with gicd := bus.gicd.setPlain (0x6000 + 8 * spi.id.toNat + 4) value } := by
  have hUpper := spi.upper
  have hOffset := (irouterAddress_offset bus.gicdBase spi).2
  rw [GicBus.mmioWrite, hOffset, if_pos (by omega), Distributor.write,
    gicdReg_plain (by omega), Distributor.setPlain]

end Writes

end EnterpriseAcs.Machine

namespace EnterpriseAcs.Mpam

open Machine

/-- `val_gic_route_interrupt_to_pe` of the MPAM suite, with its status. The data of a write has
32 bits. -/
def valGicRouteInterruptToPe (bus : GicBus) (intId : BitVec 32) (mpidr : BitVec 64) :
    BitVec 32 × GicBus :=
  if 31 < intId then
    (0, bus.mmioWrite (irouterAddress bus.gicdBase intId)
      ((mpidr &&& 0xf00ffffff).setWidth 32))
  else (0, bus)

end EnterpriseAcs.Mpam

namespace EnterpriseAcs.Sdei

open Machine

/-- `PE_MPIDR_AFFINITY_LEVEL`. -/
def peMpidrAffinityLevel (mpidr : BitVec 64) (level : Nat) : BitVec 64 :=
  mpidr >>> (8 * level) &&& 0xff

def valGicMpidrToAffinity (mpidr : BitVec 64) : BitVec 64 :=
  peMpidrAffinityLevel mpidr 3 <<< 32 ||| peMpidrAffinityLevel mpidr 2 <<< 16 |||
    peMpidrAffinityLevel mpidr 1 <<< 8 ||| peMpidrAffinityLevel mpidr 0

/-- `val_gic_route_interrupt_to_pe` of the SDEI suite, with its status. -/
def valGicRouteInterruptToPe (bus : GicBus) (intId : BitVec 32) (mpidr : BitVec 64) :
    BitVec 32 × GicBus :=
  let aff := valGicMpidrToAffinity mpidr
  if 31 < intId then
    let bus := bus.mmioWrite (irouterAddress bus.gicdBase intId) (aff.setWidth 32)
    (0, bus.mmioWrite (irouterAddress bus.gicdBase intId + 4) ((aff >>> 32).setWidth 32))
  else (1, bus)

end EnterpriseAcs.Sdei

namespace EnterpriseAcs.Suites

open Acpi Machine
open Mpam (affinityBits)

/-- The entry routes to the PE with this MPIDR: its affinity fields are those of the MPIDR, and its
routing mode, bit 31, is 0. -/
structure RoutesTo (entry mpidr : BitVec 64) : Prop where
  affinity : affinity entry = affinity mpidr
  mode : entry.getLsbD 31 = false

/-! ## MPIDRs in the ACPI layout -/

section Layout

variable {m : BitVec 64} (hLayout : affinityBits m = m)

include hLayout

/-- A mask that keeps bits 23:0 of the lower half keeps all of it. -/
theorem low_of_layout {mask : BitVec 64} (hMask : mask.setWidth 32 = 0xffffff#32) :
    (m &&& mask).setWidth 32 = m.setWidth 32 := by
  have hLow : m.setWidth 32 = m.setWidth 32 &&& 0xffffff#32 := by
    conv_lhs => rw [← hLayout, affinityBits, BitVec.setWidth_and]
    rfl
  rw [BitVec.setWidth_and, hMask, ← hLow]

theorem level_three_of_layout : Sdei.peMpidrAffinityLevel m 3 = 0#64 := by
  rw [← hLayout, Sdei.peMpidrAffinityLevel]
  exact affinityBits_top m

/-- The affinity that the SDEI suite computes leaves Aff3 out. -/
theorem mpidrToAffinity_of_layout : Sdei.valGicMpidrToAffinity m = m &&& 0xffffff := by
  have hField : ∀ k, (m >>> k &&& 0xff#64) <<< k = m &&& affMask k := by
    intro k
    apply BitVec.eq_of_getLsbD_eq
    intro i hi
    by_cases hLow : i < k
    · simp [affMask, hLow]
    · have hShift : k + (i - k) = i := by omega
      simp [affMask, hLow, hi, hShift]
  have hLevel2 : Sdei.peMpidrAffinityLevel m 2 <<< 16 = m &&& affMask 16 := hField 16
  have hLevel1 : Sdei.peMpidrAffinityLevel m 1 <<< 8 = m &&& affMask 8 := hField 8
  have hLevel0 : Sdei.peMpidrAffinityLevel m 0 = m &&& affMask 0 := by
    rw [← hField 0, BitVec.shiftLeft_zero]
    rfl
  have hMask : affMask 16 ||| affMask 8 ||| affMask 0 = 0xffffff := by decide
  rw [Sdei.valGicMpidrToAffinity, level_three_of_layout hLayout, hLevel2, hLevel1, hLevel0,
    BitVec.zero_shiftLeft, BitVec.zero_or, ← BitVec.and_or_distrib_left,
    ← BitVec.and_or_distrib_left, hMask]

/-- With the lower half of an MPIDR the entry routes to its PE exactly when the upper half has its
Aff3. -/
theorem routesTo_iff (high : BitVec 32) :
    RoutesTo (high ++ m.setWidth 32) m ↔ high.toNat % 256 = (aff3 m).toNat := by
  have hEntry : (high ++ m.setWidth 32).toNat = high.toNat * 2 ^ 32 + m.toNat % 2 ^ 32 := by
    rw [BitVec.toNat_append, BitVec.toNat_setWidth, ← Nat.shiftLeft_add_eq_or_of_lt
      (Nat.mod_lt _ (Nat.two_pow_pos 32)), Nat.shiftLeft_eq]
  have hMode : m.toNat / 2 ^ 24 % 256 = 0 := by
    have hLevel := congrArg BitVec.toNat (level_three_of_layout hLayout)
    rw [Sdei.peMpidrAffinityLevel, BitVec.toNat_and, BitVec.toNat_ushiftRight,
      Nat.shiftRight_eq_div_pow] at hLevel
    rwa [BitVec.toNat_zero, show BitVec.toNat (255 : BitVec 64) = 2 ^ 8 - 1 from rfl,
      Nat.and_two_pow_sub_one_eq_mod] at hLevel
  constructor
  · intro h
    have hAff3 : (aff3 (high ++ m.setWidth 32)).toNat = (aff3 m).toNat := by
      have hFields := h.affinity
      simp only [affinity, List.cons.injEq, and_true] at hFields
      exact hFields.2.2.2
    rw [← hAff3, aff3_eq, affField_toNat (by decide), hEntry]
    omega
  · intro h
    rw [aff3_eq, affField_toNat (by decide)] at h
    constructor
    · simp only [affinity, aff0_eq, aff1_eq, aff2_eq, aff3_eq, List.cons.injEq, and_true]
      rw [affField_toNat (by decide), affField_toNat (by decide), affField_toNat (by decide),
        affField_toNat (by decide), affField_toNat (by decide), affField_toNat (by decide),
        affField_toNat (by decide), affField_toNat (by decide), hEntry]
      omega
    · rw [BitVec.getLsbD, hEntry, Nat.testBit_eq_decide_div_mod_eq]
      apply decide_eq_false
      omega

end Layout

/-! ## The two suites -/

section Suites

variable (bus : GicBus) (spi : Spi) {m : BitVec 64}

/-- The MPAM suite leaves the upper half as it is. -/
theorem mpamRoute_entry (hLayout : affinityBits m = m) :
    (Mpam.valGicRouteInterruptToPe bus spi.id m).2.gicd.irouter spi =
      bus.gicd.plain (0x6000 + 8 * spi.id.toNat + 4) ++ m.setWidth 32 := by
  rw [Mpam.valGicRouteInterruptToPe, if_pos spi.shared.1, low_of_layout hLayout (by decide)]
  show (bus.mmioWrite (irouterAddress bus.gicdBase spi.id) (m.setWidth 32)).gicd.irouter spi = _
  rw [mmioWrite_irouter, Distributor.irouter_setPlain]

/-- The SDEI suite clears it. -/
theorem sdeiRoute_entry (hLayout : affinityBits m = m) :
    (Sdei.valGicRouteInterruptToPe bus spi.id m).2.gicd.irouter spi = 0#32 ++ m.setWidth 32 := by
  have hHigh : ((m &&& 0xffffff) >>> 32).setWidth 32 = 0#32 := by
    rw [BitVec.ushiftRight_and_distrib, show (0xffffff : BitVec 64) >>> 32 = 0#64 from rfl,
      BitVec.and_zero]
    rfl
  have hLow : (bus.gicd.setPlain (0x6000 + 8 * spi.id.toNat) (m.setWidth 32)).plain
      (0x6000 + 8 * spi.id.toNat) = m.setWidth 32 := Function.update_self _ _ _
  have hSecond := mmioWrite_irouter_high
    { bus with gicd := bus.gicd.setPlain (0x6000 + 8 * spi.id.toNat) (m.setWidth 32) } spi 0#32
  rw [Sdei.valGicRouteInterruptToPe, mpidrToAffinity_of_layout hLayout, if_pos spi.shared.1,
    hHigh, low_of_layout hLayout (by decide), mmioWrite_irouter]
  simp only [hSecond, Distributor.irouter_setPlain_high, hLow]

/-- A suite routes the interrupt to the PE at an index of the table of a MADT: what the entry
holds after the call with the MPIDR looked up. -/
def RoutesToPe (lookup : PeInfoTable → Nat → Option (BitVec 64))
    (route : GicBus → BitVec 32 → BitVec 64 → BitVec 32 × GicBus) (madt : Madt) (i : Nat)
    (mpidr : BitVec 64) : Prop :=
  ∃ found, lookup (peTable madt) i = some found ∧
    RoutesTo ((route bus spi.id found).2.gicd.irouter spi) mpidr

theorem lookup_of_madt {madt : Madt} {i : Nat} (hPe : madt.mpidrs[i]? = some m) :
    Mpam.valPeGetMpidIndex (peTable madt) i = some m ∧
      Sdei.valPeGetMpidIndex (peTable madt) i = some m := by
  have hi : i < madt.giccs.length := by
    rw [← madt.length_mpidrs]
    exact (List.getElem?_eq_some_iff.mp hPe).1
  have hNot : ¬ (peTable madt).numOfPe.toNat < i := by
    rw [peTable_numOfPe_toNat]
    exact Nat.lt_asymm hi
  rw [Mpam.valPeGetMpidIndex, Sdei.valPeGetMpidIndex, if_neg hNot, if_neg hNot, peTable_mpidr_at]
  exact ⟨hPe, hPe⟩

theorem mpamRoutes_iff {madt : Madt} (hLayout : ∀ m ∈ madt.mpidrs, affinityBits m = m) {i : Nat}
    (hPe : madt.mpidrs[i]? = some m) :
    RoutesToPe bus spi Mpam.valPeGetMpidIndex Mpam.valGicRouteInterruptToPe madt i m ↔
      (bus.gicd.plain (0x6000 + 8 * spi.id.toNat + 4)).toNat % 256 = (aff3 m).toNat := by
  have hm := hLayout m (List.mem_of_getElem? hPe)
  simp only [RoutesToPe, (lookup_of_madt hPe).1, Option.some_inj, exists_eq_left',
    mpamRoute_entry bus spi hm]
  exact routesTo_iff hm _

theorem sdeiRoutes_iff {madt : Madt} (hLayout : ∀ m ∈ madt.mpidrs, affinityBits m = m) {i : Nat}
    (hPe : madt.mpidrs[i]? = some m) :
    RoutesToPe bus spi Sdei.valPeGetMpidIndex Sdei.valGicRouteInterruptToPe madt i m ↔
      aff3 m = 0 := by
  have hm := hLayout m (List.mem_of_getElem? hPe)
  simp only [RoutesToPe, (lookup_of_madt hPe).2, Option.some_inj, exists_eq_left',
    sdeiRoute_entry bus spi hm]
  rw [routesTo_iff hm, ← BitVec.toNat_inj]
  exact eq_comm

/-- The MPAM suite routes to the PE exactly when the upper half of the entry has its Aff3 before,
the SDEI suite exactly when its Aff3 is 0. -/
theorem routing_iff (madt : Madt) (hLayout : ∀ m ∈ madt.mpidrs, affinityBits m = m) {i : Nat}
    (hPe : madt.mpidrs[i]? = some m) :
    (RoutesToPe bus spi Mpam.valPeGetMpidIndex Mpam.valGicRouteInterruptToPe madt i m ↔
        (bus.gicd.plain (0x6000 + 8 * spi.id.toNat + 4)).toNat % 256 = (aff3 m).toNat) ∧
      (RoutesToPe bus spi Sdei.valPeGetMpidIndex Sdei.valGicRouteInterruptToPe madt i m ↔
        aff3 m = 0) :=
  ⟨mpamRoutes_iff bus spi hLayout hPe, sdeiRoutes_iff bus spi hLayout hPe⟩

end Suites

/-- A PE without Aff3, and an entry that is 0 before. -/
theorem routing_two_pes :
    RoutesToPe Sdei.idleBus Sdei.spi40 Mpam.valPeGetMpidIndex Mpam.valGicRouteInterruptToPe
        (twoGiccMadt 0 1) 1 1 ∧
      RoutesToPe Sdei.idleBus Sdei.spi40 Sdei.valPeGetMpidIndex Sdei.valGicRouteInterruptToPe
        (twoGiccMadt 0 1) 1 1 := by
  have hMpidrs : (twoGiccMadt 0 1).mpidrs = [0, 1] := by decide
  have hLayout : ∀ m ∈ (twoGiccMadt 0 1).mpidrs, affinityBits m = m := by
    rw [hMpidrs]
    exact List.forall_mem_cons.mpr ⟨by decide, List.forall_mem_singleton.mpr (by decide)⟩
  have hPe : (twoGiccMadt 0 1).mpidrs[1]? = some 1 := by
    rw [hMpidrs]
    rfl
  obtain ⟨hMpam, hSdei⟩ := routing_iff Sdei.idleBus Sdei.spi40 (twoGiccMadt 0 1) hLayout hPe
  exact ⟨hMpam.mpr (by decide), hSdei.mpr (by decide)⟩

/-- PE 1.0.0.0 is reached by neither suite from an entry that is 0. -/
theorem routing_cluster :
    ¬ RoutesToPe Sdei.idleBus Sdei.spi40 Mpam.valPeGetMpidIndex Mpam.valGicRouteInterruptToPe
        clusterMadt 1 0x100000000 ∧
      ¬ RoutesToPe Sdei.idleBus Sdei.spi40 Sdei.valPeGetMpidIndex Sdei.valGicRouteInterruptToPe
        clusterMadt 1 0x100000000 := by
  have hMpidrs : clusterMadt.mpidrs = [0, 0x100000000] := by decide
  have hLayout : ∀ m ∈ clusterMadt.mpidrs, affinityBits m = m := by
    rw [hMpidrs]
    exact List.forall_mem_cons.mpr ⟨by decide, List.forall_mem_singleton.mpr (by decide)⟩
  have hPe : clusterMadt.mpidrs[1]? = some 0x100000000 := by
    rw [hMpidrs]
    rfl
  rw [mpamRoutes_iff _ _ hLayout hPe, sdeiRoutes_iff _ _ hLayout hPe]
  decide

end EnterpriseAcs.Suites
