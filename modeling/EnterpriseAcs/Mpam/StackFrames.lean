import EnterpriseAcs.Mpam.PeIndex
import EnterpriseAcs.Mpam.SecondaryStack

/-!
# Does every PE have a stack of its own?

The position of a PE is a mixed-radix number with its affinity as the digits, and its stack is
the frame below a pointer that many frames above the base. The maxima are at least the fields of
each PE of the table, so that the digits are valid.

* `corePos_eq_iff`: positions below the maxima are equal for equal affinities only.
* `framesApart_iff`: which positions have frames without a common byte.
* `stackFrames_peSetup`: the frames of the PEs of a table.
-/

namespace EnterpriseAcs.Mpam

open Acpi Machine MixedRadix

/-- No field of `mpidr` is larger than that of `mpidrMax`. -/
def Within (mpidr mpidrMax : BitVec 64) : Prop :=
  List.Forall₂ (· ≤ ·) (affinity mpidr) (affinity mpidrMax)

/-- The address is one of the `0x200` bytes below `sp`. -/
def InFrame (sp addr : BitVec 64) : Prop := (addr - (sp - 0x200#64)).toNat < 0x200

/-- The frames below `sp` and `sp'` have no byte in common. -/
def FramesApart (sp sp' : BitVec 64) : Prop := ∀ addr, InFrame sp addr → ¬ InFrame sp' addr

/-- PEs with different MPIDRs have different stack pointers. -/
def StacksDistinct (stack : BitVec 64) (setup : PeSetup) : Prop :=
  ∀ e ∈ setup.table.peInfo, ∀ e' ∈ setup.table.peInfo, e.mpidr ≠ e'.mpidr →
    moduleEntryStackPointer stack setup.mpidrMax e.mpidr ≠
      moduleEntryStackPointer stack setup.mpidrMax e'.mpidr

/-! ## Positions -/

theorem within_iff_valid {mpidr mpidrMax : BitVec 64} :
    Within mpidr mpidrMax ↔ Valid (affinity mpidr) (radices mpidrMax) := by
  rw [Within, radices, Valid, List.forall₂_map_right_iff]
  simp only [Nat.lt_succ_iff]

theorem corePos_lt (mpidr mpidrMax : BitVec 64) : (corePos mpidr mpidrMax).toNat < 2 ^ 32 := by
  rw [corePos_toNat]
  exact value_affinity_lt mpidr mpidrMax

theorem corePos_lt_prod {mpidr mpidrMax : BitVec 64} (h : Within mpidr mpidrMax) :
    (corePos mpidr mpidrMax).toNat < (radices mpidrMax).prod := by
  rw [corePos_toNat]
  exact value_lt (within_iff_valid.mp h)

theorem corePos_eq_iff {a b mpidrMax : BitVec 64} (ha : Within a mpidrMax)
    (hb : Within b mpidrMax) :
    corePos a mpidrMax = corePos b mpidrMax ↔ affinity a = affinity b := by
  rw [← BitVec.toNat_inj, corePos_toNat, corePos_toNat]
  refine ⟨value_injective (within_iff_valid.mp ha) (within_iff_valid.mp hb), fun h => ?_⟩
  rw [h]

/-! ## Affinities -/

theorem affField_shiftLeft (k : Nat) (m : BitVec 64) : affField k m <<< k = m &&& affMask k := by
  apply BitVec.eq_of_getLsbD_eq
  intro i hi
  rw [affField, affMask, BitVec.getLsbD_shiftLeft, BitVec.getLsbD_ushiftRight]
  by_cases hLow : i < k
  · simp [hLow]
  · simp [hLow, hi, Nat.add_sub_cancel' (Nat.le_of_not_lt hLow)]

theorem affinityBits_eq (m : BitVec 64) :
    affinityBits m = aff0 m ||| aff1 m <<< 8 ||| aff2 m <<< 16 ||| aff3 m <<< 32 := by
  rw [aff1_eq, aff2_eq, aff3_eq, affField_shiftLeft, affField_shiftLeft, affField_shiftLeft, aff0,
    ← BitVec.and_or_distrib_left, ← BitVec.and_or_distrib_left, ← BitVec.and_or_distrib_left]
  rfl

/-- An affinity is what the layout of the MADT has of an MPIDR. -/
theorem affinity_eq_iff {m m' : BitVec 64} :
    affinity m = affinity m' ↔ affinityBits m = affinityBits m' := by
  constructor
  · intro h
    simp only [affinity, List.cons.injEq, BitVec.toNat_inj, and_true] at h
    obtain ⟨h0, h1, h2, h3⟩ := h
    rw [affinityBits_eq, affinityBits_eq, h0, h1, h2, h3]
  · have hField : ∀ x : BitVec 64, affinity (affinityBits x) = affinity x := by
      intro x
      simp only [affinity, aff0, aff1, aff2, aff3, affinityBits, BitVec.and_assoc]
      rfl
    intro h
    rw [← hField m, h, hField]

/-! ## Frames -/

theorem framesApart_iff {stack pos pos' : BitVec 64} (hPos : pos.toNat < 2 ^ 32)
    (hPos' : pos'.toNat < 2 ^ 32) :
    FramesApart (stack + pos * 0x200#64) (stack + pos' * 0x200#64) ↔ pos ≠ pos' := by
  constructor
  · rintro h rfl
    have hBottom : InFrame (stack + pos * 0x200#64) (stack + pos * 0x200#64 - 0x200#64) := by
      rw [InFrame, BitVec.sub_self]
      decide
    exact h _ hBottom hBottom
  · intro hne addr hIn hIn'
    have hAddr : ∀ p : BitVec 64, addr - (stack + p * 0x200#64 - 0x200#64) =
        addr - stack + 0x200#64 - p * 0x200#64 := fun p => by ring
    rw [InFrame, hAddr] at hIn hIn'
    have hNat : pos.toNat ≠ pos'.toNat := fun h => hne (BitVec.eq_of_toNat_eq h)
    simp only [BitVec.toNat_sub, BitVec.toNat_mul, BitVec.toNat_ofNat] at hIn hIn'
    omega

/-! ## The PEs of a table -/

/-- What `ModuleEntryPoint` relies on, and what the PEs get from it. A register `MPIDR_EL1` has
bits beside the affinity. -/
structure StackFrames (stack : BitVec 64) (setup : PeSetup) : Prop where
  within : ∀ e ∈ setup.table.peInfo, Within e.mpidr setup.mpidrMax
  apart : ∀ e ∈ setup.table.peInfo, ∀ e' ∈ setup.table.peInfo, ∀ mpidr mpidr' : BitVec 64,
    affinity mpidr = affinity e.mpidr → affinity mpidr' = affinity e'.mpidr →
      (FramesApart (moduleEntryStackPointer stack setup.mpidrMax mpidr)
          (moduleEntryStackPointer stack setup.mpidrMax mpidr') ↔
        affinityBits e.mpidr ≠ affinityBits e'.mpidr)

theorem Within.congr {m m' mpidrMax : BitVec 64} (h : Within m mpidrMax)
    (hEq : affinity m' = affinity m) : Within m' mpidrMax := by
  rwa [Within, hEq]

theorem within_of_mem {madt : Madt} {e : PeInfoEntry} (he : e ∈ (peSetup madt).table.peInfo) :
    Within e.mpidr (peSetup madt).mpidrMax := by
  have hMem : e.mpidr ∈ madt.mpidrs := by
    rw [← peTable_mpidrs]
    exact List.mem_map_of_mem he
  exact within_iff_valid.mpr (affinity_valid hMem)

theorem stackFrames_peSetup (madt : Madt) (stack : BitVec 64) :
    StackFrames stack (peSetup madt) := by
  refine ⟨fun e => within_of_mem, fun e he e' he' mpidr mpidr' hEl1 hEl1' => ?_⟩
  have hWithin := (within_of_mem he).congr hEl1
  have hWithin' := (within_of_mem he').congr hEl1'
  rw [moduleEntryStackPointer, moduleEntryStackPointer,
    framesApart_iff (corePos_lt _ _) (corePos_lt _ _), Ne, corePos_eq_iff hWithin hWithin', hEl1,
    hEl1', affinity_eq_iff]

/-- Below any maxima the positions are distinct and less than the product, and on every MADT
`pal_pe_create_info_table` leaves maxima that no PE exceeds, so that two PEs with different
affinities have no byte of their stacks in common. -/
theorem secondary_stacks_apart :
    (∀ mpidrMax a : BitVec 64, Within a mpidrMax →
      (corePos a mpidrMax).toNat < (radices mpidrMax).prod ∧
        ∀ b, Within b mpidrMax → corePos a mpidrMax = corePos b mpidrMax →
          affinity a = affinity b) ∧
      ∀ (madt : Madt) (stack : BitVec 64), ∃ setup,
        (∀ fuel, madt.entries.length ≤ fuel →
          palPeCreateInfoTable madt.mem fuel = some setup) ∧ StackFrames stack setup := by
  constructor
  · intro mpidrMax a ha
    exact ⟨corePos_lt_prod ha, fun b hb => (corePos_eq_iff ha hb).mp⟩
  · intro madt stack
    exact ⟨peSetup madt, fun _ => palPeCreateInfoTable_eq madt, stackFrames_peSetup madt stack⟩

/-- The second GICC structure has bit 24 set, which is in no affinity field. -/
def reservedBitMadt : Madt where
  mem := fun addr => if addr = 195 then 1 else twoGiccMemory 0 0 addr
  entries := [44, 124]
  entries_ne_nil := (twoGiccMadt 0 0).entries_ne_nil
  layout := .cons (Nat.le_refl 80) (.cons (Nat.le_refl 80) (.nil 204))

/-- Its MPIDRs differ and its PEs have one stack. -/
theorem secondary_stacks_shared :
    ∃ setup, palPeCreateInfoTable reservedBitMadt.mem 2 = some setup ∧
      ¬ StacksDistinct 0x80000000 setup := by
  refine ⟨peSetup reservedBitMadt, palPeCreateInfoTable_eq _ (by decide), fun h => ?_⟩
  have hTable : (peSetup reservedBitMadt).table.peInfo =
      [⟨0, 0, 0⟩, ⟨1, 0x1000000, 0⟩] := by decide
  rw [StacksDistinct, hTable] at h
  refine h ⟨0, 0, 0⟩ (by decide) ⟨1, 0x1000000, 0⟩ (by decide) (by decide) ?_
  decide

end EnterpriseAcs.Mpam
