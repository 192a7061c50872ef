import EnterpriseAcs.Library.Extremum
import EnterpriseAcs.Mpam.PortionBitmap

/-!
# Updating MPAM2_EL2 in the memory tests

The memory tests replace two fields of the system register, the partid and the PMG of data
accesses. The caller reads 64 bits and the callee takes 32.

* `minmaxPartid_isLeast`: the partid that the callee computes.
* `getLsbD_updatedMpam2`: the value written, bit by bit.
* `params_updated_iff`: when it is the prior value with the two fields replaced.
-/

namespace EnterpriseAcs.Mpam

/-! ## The callee -/

def defaultPartid : BitVec 16 := 0
def defaultPmg : BitVec 8 := 0
def defaultPartidMax : BitVec 16 := 65535

/-- The positions of the fields `PARTID_D` and `PMG_D` of `MPAM2_EL2`. -/
def partidDShift : Nat := 16
def pmgDShift : Nat := 40

/-- `GET_MIN_VALUE`. -/
def getMinValue (ax ay : BitVec 16) : BitVec 16 := if ax > ay then ay else ax

/-- The loops that compute the minimum over the memory nodes, then over the cache nodes. -/
def minmaxPartid (caches memories : List (BitVec 64)) (s : PeState) : BitVec 16 :=
  let visit := fun minmax base => getMinValue minmax (valNodeGetPartid (s.mmio base))
  caches.foldl visit (memories.foldl visit defaultPartidMax)

/-- The body of the loop that disables the partitioning of a cache. -/
def disableCache (partid : BitVec 16) (r : NodeRegs) : NodeRegs :=
  let r := if valCacheSupportsCpor r then valCacheConfigureCpor partid 100 r else r
  if valCacheSupportsCcap r.msc then r.configureCcap partid 0 100 else r

/-- The value computed from the parameter `mpam2_el2`, a `uint32_t`. -/
def updatedMpam2 (mpam2El2 : BitVec 32) (partid : BitVec 16) : BitVec 32 :=
  let cleared := (clearBitsMToN (mpam2El2.setWidth 64) (partidDShift + 15) partidDShift).setWidth 32
  let cleared := (clearBitsMToN (cleared.setWidth 64) (pmgDShift + 7) pmgDShift).setWidth 32
  (cleared.setWidth 64 ||| (defaultPmg.setWidth 64 <<< pmgDShift |||
    partid.setWidth 64 <<< partidDShift)).setWidth 32

/-- `config_mpam_params`, the same in both tests. -/
def configMpamParams (caches memories : List (BitVec 64)) (mpam2El2 : BitVec 32) (s : PeState) :
    PeState :=
  let partid := minmaxPartid caches memories s
  let s := caches.foldl (fun s base => s.onNode base (disableCache partid)) s
  s.writeMpam2 ((updatedMpam2 mpam2El2 partid).setWidth 64)

/-- The call in the payloads, with what `MPAM2_EL2` holds. -/
def configThisPe (caches memories : List (BitVec 64)) (s : PeState) : PeState :=
  configMpamParams caches memories (s.mpam2El2.setWidth 32) s

/-! ## The minimum -/

/-- The largest partids that a list of nodes reports. -/
def partidMaxima (s : PeState) (bases : List (BitVec 64)) : Set Nat :=
  {p | ∃ base ∈ bases, p = (valNodeGetPartid (s.mmio base)).toNat}

/-- The loop over one list keeps the least value seen. -/
theorem foldl_getMinValue_isLeast (s : PeState) (bases : List (BitVec 64)) {seen : Set Nat}
    {minmax : BitVec 16} (h : IsLeast seen minmax.toNat) :
    IsLeast (seen ∪ partidMaxima s bases)
      (bases.foldl (fun minmax base => getMinValue minmax (valNodeGetPartid (s.mmio base)))
        minmax).toNat := by
  have hAll : partidMaxima s bases = Extremum.selected (fun _ => True)
      (fun base => (valNodeGetPartid (s.mmio base)).toNat) bases := by
    ext p
    simp [partidMaxima, Extremum.selected]
  rw [hAll]
  apply Extremum.foldl_isLeast BitVec.toNat _ _ _ _ _ h
  · intro minmax base _
    exact Extremum.toNat_smaller _ _
  · exact fun _ _ hNone => absurd trivial hNone

/-- The partid is the least of the maxima that the nodes report, and 65535 without nodes. -/
theorem minmaxPartid_isLeast (caches memories : List (BitVec 64)) (s : PeState) :
    IsLeast ({defaultPartidMax.toNat} ∪ partidMaxima s memories ∪ partidMaxima s caches)
      (minmaxPartid caches memories s).toNat :=
  foldl_getMinValue_isLeast s caches (foldl_getMinValue_isLeast s memories isLeast_singleton)

/-! ## The value written -/

/-- The low half of the prior value with the partid, and nothing above it. -/
theorem getLsbD_updatedMpam2 (mpam2El2 : BitVec 64) (partid : BitVec 16) {i : Nat} (hi : i < 64) :
    ((updatedMpam2 (mpam2El2.setWidth 32) partid).setWidth 64).getLsbD i =
      if i < 16 then mpam2El2.getLsbD i
      else if i < 32 then partid.getLsbD (i - 16) else false := by
  simp only [updatedMpam2, BitVec.getLsbD_setWidth, BitVec.getLsbD_or, hi, decide_true,
    Bool.true_and, BitVec.getLsbD_shiftLeft]
  by_cases hLow : i < 32
  · rw [getLsbD_clearBitsMToN _ (by decide) hi, BitVec.getLsbD_setWidth, BitVec.getLsbD_setWidth,
      getLsbD_clearBitsMToN _ (by decide) hi, BitVec.getLsbD_setWidth, BitVec.getLsbD_setWidth]
    by_cases hField : i < 16
    · have hPmg : i < pmgDShift := by unfold pmgDShift; omega
      have hPartid : i < partidDShift := by unfold partidDShift; omega
      simp [hLow, hField, hi, hPmg, hPartid]
    · have hTop : ¬ 31 < i := by omega
      have hPmg : i < pmgDShift := by unfold pmgDShift; omega
      have hIn : i - 16 < 64 := by omega
      simp [hLow, hField, hPmg, hTop, hIn, partidDShift]
  · have hField : ¬ i < 16 := by omega
    simp [hLow, hField]

theorem configThisPe_mpam2El2 (caches memories : List (BitVec 64)) (s : PeState) :
    (configThisPe caches memories s).mpam2El2 =
      (updatedMpam2 (s.mpam2El2.setWidth 32) (minmaxPartid caches memories s)).setWidth 64 := rfl

/-- The prior value with the two fields replaced. -/
def replaceFields (mpam2El2 : BitVec 64) (partid : BitVec 16) : BitVec 64 :=
  BitSet.putField (BitSet.putField mpam2El2 partidDShift partid) pmgDShift defaultPmg

theorem getLsbD_replaceFields (mpam2El2 : BitVec 64) (partid : BitVec 16) {i : Nat}
    (hi : i < 64) :
    (replaceFields mpam2El2 partid).getLsbD i =
      if i < 16 then mpam2El2.getLsbD i
      else if i < 32 then partid.getLsbD (i - 16)
      else if 40 ≤ i ∧ i < 48 then false else mpam2El2.getLsbD i := by
  rw [replaceFields, BitSet.getLsbD_putField _ _ _ hi, BitSet.getLsbD_putField _ _ _ hi]
  unfold pmgDShift partidDShift defaultPmg
  split
  · have hLow : ¬ i < 16 ∧ ¬ i < 32 ∧ (40 ≤ i ∧ i < 48) := by omega
    simp [hLow]
  · rename_i hPmg
    split
    · have hLow : ¬ i < 16 ∧ i < 32 := by omega
      simp [hLow]
    · have hLow : i < 16 ∨ (¬ i < 16 ∧ ¬ i < 32 ∧ ¬ (40 ≤ i ∧ i < 48)) := by omega
      obtain hLow | hLow := hLow <;> simp [hLow]

/-- The bits above bit 31 outside `PMG_D`. -/
def upperMask : BitVec 64 := 0xffff00ff00000000

theorem getLsbD_upperMask :
    ∀ i < 64, upperMask.getLsbD i = decide (32 ≤ i ∧ ¬ (40 ≤ i ∧ i < 48)) := by decide

theorem updatedMpam2_eq_replaceFields_iff (mpam2El2 : BitVec 64) (partid : BitVec 16) :
    (updatedMpam2 (mpam2El2.setWidth 32) partid).setWidth 64 = replaceFields mpam2El2 partid ↔
      mpam2El2 &&& upperMask = 0 := by
  simp only [BitVec.eq_of_getLsbD_eq_iff, BitVec.getLsbD_and]
  apply forall_congr'
  intro i
  apply forall_congr'
  intro hi
  rw [getLsbD_updatedMpam2 mpam2El2 partid hi, getLsbD_replaceFields mpam2El2 partid hi,
    getLsbD_upperMask i hi]
  by_cases hLow : i < 32
  · by_cases hField : i < 16 <;> simp [hLow, hField]
  · have hField : ¬ i < 16 := by omega
    by_cases hPmg : 40 ≤ i ∧ i < 48
    · simp [hLow, hField, hPmg]
    · have hUpper : 32 ≤ i := by omega
      simp [hLow, hField, hPmg, hUpper]

/-- **The update.** For every prior value of `MPAM2_EL2` and all nodes, the call replaces the
two fields, by the least of the largest partids and by the default PMG, and changes no other
bit exactly when the bits above bit 31 outside `PMG_D` are 0. -/
theorem params_updated_iff (caches memories : List (BitVec 64)) (s : PeState) :
    (∃ partid : BitVec 16,
      IsLeast ({defaultPartidMax.toNat} ∪ partidMaxima s memories ∪ partidMaxima s caches)
        partid.toNat ∧
      (configThisPe caches memories s).mpam2El2 = replaceFields s.mpam2El2 partid) ↔
      s.mpam2El2 &&& upperMask = 0 := by
  have hLeast := minmaxPartid_isLeast caches memories s
  rw [configThisPe_mpam2El2]
  constructor
  · intro h
    obtain ⟨partid, hPartid, hWritten⟩ := h
    have hSame := BitVec.eq_of_toNat_eq (hPartid.unique hLeast)
    rw [hSame] at hWritten
    exact (updatedMpam2_eq_replaceFields_iff _ _).mp hWritten
  · intro h
    exact ⟨_, hLeast, (updatedMpam2_eq_replaceFields_iff _ _).mpr h⟩

/-- `MPAM2_EL2` with the enable bit, and one memory node that has 64 partids. -/
def enabledPe : PeState where
  mpam2El2 := 0x8000000000000000
  mpamidrEl1 := 0x3f
  mmio _ := idPage 0x3f 0 0
  errCtrlReg := 0
  csuCtlTemp := 0

/-- The call disables MPAM. -/
theorem params_lose_enable :
    (configThisPe [] [0] enabledPe).mpam2El2 = 0x3f0000 ∧
      ¬ ∃ partid : BitVec 16,
        IsLeast ({defaultPartidMax.toNat} ∪ partidMaxima enabledPe [0] ∪ partidMaxima enabledPe [])
          partid.toNat ∧
        (configThisPe [] [0] enabledPe).mpam2El2 = replaceFields enabledPe.mpam2El2 partid := by
  have hWritten : (configThisPe [] [0] enabledPe).mpam2El2 = 0x3f0000 := by decide
  refine ⟨hWritten, fun h => ?_⟩
  obtain ⟨partid, -, hReplaced⟩ := h
  have hBit : (replaceFields enabledPe.mpam2El2 partid).getLsbD 63 = true :=
    getLsbD_replaceFields _ _ (by decide)
  rw [← hReplaced, hWritten] at hBit
  revert hBit
  decide

end EnterpriseAcs.Mpam
