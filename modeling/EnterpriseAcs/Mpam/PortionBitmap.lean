import EnterpriseAcs.Library.BitSet
import EnterpriseAcs.Mpam.NodeRegs

/-!
# Programming the portion bitmaps

A cache has a bitmap of its portions for each partid, a memory channel one of its bandwidth.
Both functions turn a percentage into a number of bits and write whole words first, then the
rest. The loop counts bits and uses the count as an address: it writes every eighth word.

* `configurePortions_byPartid`: what the registers of the partid hold afterwards.
* `programmed_iff_words`: the bitmap is right exactly when each of its words is.
* `cpor_programmed_iff`, `mbwpbm_programmed_iff`: when the two functions program it.
-/

namespace EnterpriseAcs.Mpam

/-! ## The two functions -/

/-- `CPOR_BITMAP_DEF_VAL` and `MBWPOR_BITMAP_DEF_VAL`, the values for a whole word. -/
def cporBitmapDefVal : BitVec 32 := 0xffff
def mbwporBitmapDefVal : BitVec 32 := 0xffffffff

/-- The number of bits to set, a `uint16_t`. -/
def numBits (width : BitVec 16) (percentage : BitVec 32) : Nat :=
  ((width.setWidth 32 * percentage / 100).setWidth 16).toNat

/-- The loop over whole words, and the `index` it ends with. -/
def writeWhole (reg : Nat) (defVal : BitVec 32) (n index : Nat) (r : NodeRegs) : NodeRegs × Nat :=
  if index + 31 < n then writeWhole reg defVal n (index + 32) (r.write (reg + index) defVal)
  else (r, index)
  termination_by n - index

/-- The body that the two functions share: select the partid, write the whole words, and the
rest unless it is 0. -/
def configurePortions (reg : Nat) (defVal : BitVec 32) (width partid : BitVec 16)
    (percentage : BitVec 32) (r : NodeRegs) : NodeRegs :=
  let n := numBits width percentage
  let (r, index) := writeWhole reg defVal n 0 (r.write regMpamcfgPartSel (partid.setWidth 32))
  let unsetBitmask := 1#32 <<< (n - index) - 1
  if unsetBitmask ≠ 0 then r.write (reg + index) unsetBitmask else r

def valCacheConfigureCpor (partid : BitVec 16) (cpbmPercentage : BitVec 32) (r : NodeRegs) :
    NodeRegs :=
  configurePortions regMpamcfgCpbm cporBitmapDefVal (valCacheCpbmWidth r) partid cpbmPercentage r

def valMemoryConfigureMbwpbm (partid : BitVec 16) (mbwpbmPercentage : BitVec 32)
    (r : NodeRegs) : NodeRegs :=
  configurePortions regMpamcfgMbwPbm mbwporBitmapDefVal (valMemoryMbwpbmWidth r) partid
    mbwpbmPercentage r

/-! ## What is written -/

/-- The value written for the bits from `32 * k` on. -/
def writtenWord (defVal : BitVec 32) (n k : Nat) : BitVec 32 :=
  if 32 * k + 31 < n then defVal else 1#32 <<< (n - 32 * k) - 1

/-- A register of the partid after the writes, where `prior` are the registers before. -/
def wordAfter (reg : Nat) (defVal : BitVec 32) (n : Nat) (prior : Nat → BitVec 32)
    (offset : Nat) : BitVec 32 :=
  if reg ≤ offset ∧ (offset - reg) % 32 = 0 ∧ offset - reg < n then
    writtenWord defVal n ((offset - reg) / 32)
  else prior offset

section Writes

variable {reg : Nat} (defVal : BitVec 32) {n : Nat}

theorem write_bitmap (hReg : regMpamcfgCpbm ≤ reg) (r : NodeRegs) (index : Nat)
    (value : BitVec 32) :
    r.write (reg + index) value =
      { r with byPartid := store r.byPartid r.partidSel (reg + index) value } :=
  write_byPartid r value (selector_bitmap (Nat.le_add_right_of_le hReg))

/-- The loop from `index` on, over the words that are set as a whole. -/
theorem writeWhole_spec (hReg : regMpamcfgCpbm ≤ reg) (index : Nat) (r : NodeRegs)
    (hIndex : index % 32 = 0) :
    (writeWhole reg defVal n index r).2 = max index (32 * (n / 32)) ∧
      (writeWhole reg defVal n index r).1.plain = r.plain ∧
      (writeWhole reg defVal n index r).1.byMonitor = r.byMonitor ∧
      ∀ q o, (writeWhole reg defVal n index r).1.byPartid q o =
        if q = r.partidSel ∧ reg + index ≤ o ∧ (o - reg) % 32 = 0 ∧ o - reg + 31 < n then defVal
        else r.byPartid q o := by
  induction index, r using writeWhole.induct reg defVal n with
  | case1 index r hLt ih =>
    obtain ⟨hEnd, hPlain, hMonitor, hPartid⟩ := ih (by omega)
    rw [writeWhole, if_pos hLt]
    rw [write_bitmap hReg] at hEnd hPlain hMonitor hPartid ⊢
    refine ⟨hEnd.trans (by omega), hPlain, hMonitor, fun q o => ?_⟩
    have hSel : ({ r with byPartid := store r.byPartid r.partidSel (reg + index) defVal } :
      NodeRegs).partidSel = r.partidSel := rfl
    rw [hPartid, hSel]
    simp only [store_apply]
    by_cases hq : q = r.partidSel
    · by_cases ho : o = reg + index
      · subst ho
        have : reg + index - reg = index := by omega
        simp [hq, this, hIndex, hLt]
      · have hNext : reg + (index + 32) ≤ o ∧ (o - reg) % 32 = 0 ∧ o - reg + 31 < n ↔
            reg + index ≤ o ∧ (o - reg) % 32 = 0 ∧ o - reg + 31 < n := by omega
        simp only [hq, true_and, hNext, ho, if_false]
    · simp [hq]
  | case2 index r hLt =>
    rw [writeWhole, if_neg hLt]
    refine ⟨by simp only []; omega, rfl, rfl, fun q o => ?_⟩
    have hNone : ¬ (reg + index ≤ o ∧ (o - reg) % 32 = 0 ∧ o - reg + 31 < n) := by omega
    simp [hNone]

theorem wordAfter_eq (prior : Nat → BitVec 32) (o : Nat) :
    wordAfter reg defVal n prior o =
      if o = reg + 32 * (n / 32) ∧ n - 32 * (n / 32) ≠ 0 then
        1#32 <<< (n - 32 * (n / 32)) - 1
      else if reg + 0 ≤ o ∧ (o - reg) % 32 = 0 ∧ o - reg + 31 < n then defVal
      else prior o := by
  unfold wordAfter
  by_cases hRest : o = reg + 32 * (n / 32) ∧ n - 32 * (n / 32) ≠ 0
  · have hIn : reg ≤ o ∧ (o - reg) % 32 = 0 ∧ o - reg < n := by omega
    have hDiv : (o - reg) / 32 = n / 32 := by omega
    have hLast : ¬ 32 * (n / 32) + 31 < n := by omega
    rw [if_pos hIn, if_pos hRest, hDiv, writtenWord, if_neg hLast]
  · have hIff : reg ≤ o ∧ (o - reg) % 32 = 0 ∧ o - reg < n ↔
        reg + 0 ≤ o ∧ (o - reg) % 32 = 0 ∧ o - reg + 31 < n := by omega
    rw [if_neg hRest]
    simp only [hIff]
    split
    · have hWhole : 32 * ((o - reg) / 32) + 31 < n := by omega
      rw [writtenWord, if_pos hWhole]
    · rfl

variable {width : BitVec 16} (partid : BitVec 16) {percentage : BitVec 32} (r : NodeRegs)

/-- What the registers hold after the function: the selector and the written words. -/
theorem configurePortions_spec (hReg : regMpamcfgCpbm ≤ reg)
    (hn : numBits width percentage = n) :
    (configurePortions reg defVal width partid percentage r).plain =
        Function.update r.plain regMpamcfgPartSel (partid.setWidth 32) ∧
      (configurePortions reg defVal width partid percentage r).byMonitor = r.byMonitor ∧
      ∀ q o, (configurePortions reg defVal width partid percentage r).byPartid q o =
        if q = partid then wordAfter reg defVal n (r.byPartid partid) o
        else r.byPartid q o := by
  have hSelect := write_plain r (partid.setWidth 32)
    (show selector regMpamcfgPartSel = .none by decide)
  have hSel : (r.write regMpamcfgPartSel (partid.setWidth 32)).partidSel = partid := by
    simp [hSelect, NodeRegs.partidSel]
  have hLoop := writeWhole_spec defVal hReg (n := n) 0
    (r.write regMpamcfgPartSel (partid.setWidth 32)) rfl
  rw [hSel] at hLoop
  simp only [configurePortions, hn]
  generalize writeWhole reg defVal n 0 (r.write regMpamcfgPartSel (partid.setWidth 32)) = out
    at hLoop ⊢
  obtain ⟨r', index⟩ := out
  obtain ⟨hEnd, hPlain, hMonitor, hPartid⟩ := hLoop
  rw [Nat.max_eq_right (Nat.zero_le _)] at hEnd
  dsimp only at hEnd
  subst hEnd
  have hRest : n - 32 * (n / 32) < 32 := by omega
  have hSel' : r'.partidSel = partid := by
    rw [NodeRegs.partidSel, hPlain]
    exact hSel
  simp only [hSelect] at hPlain hMonitor hPartid
  simp only [ne_eq, BitSet.ones_eq_zero_iff hRest]
  by_cases hZero : n - 32 * (n / 32) = 0
  · rw [if_neg (not_not.mpr hZero)]
    refine ⟨hPlain, hMonitor, fun q o => ?_⟩
    rw [hPartid, wordAfter_eq]
    by_cases hq : q = partid
    · simp [hq, hZero]
    · simp [hq]
  · rw [if_pos hZero, write_bitmap hReg]
    refine ⟨hPlain, hMonitor, fun q o => ?_⟩
    simp only [store_apply, hSel', hPartid, wordAfter_eq]
    by_cases hq : q = partid
    · simp [hq, hZero]
    · simp [hq]

end Writes

/-! ## A programmed bitmap -/

/-- The words of a partid's bitmap, at the addresses that the architecture gives them. -/
def bitmap (r : NodeRegs) (reg : Nat) (partid : BitVec 16) (k : Nat) : BitVec 32 :=
  r.byPartid partid (reg + 4 * k)

/-- Below the width exactly the first `n` bits of the bitmap are set, and the other registers
than its words and the selector are as before. -/
structure Programmed (reg : Nat) (width : BitVec 16) (n : Nat) (partid : BitVec 16)
    (before after : NodeRegs) : Prop where
  bits : BitSet.Prefix (bitmap after reg partid) n width.toNat
  plain : ∀ o, o ≠ regMpamcfgPartSel → after.plain o = before.plain o
  monitors : after.byMonitor = before.byMonitor
  others : ∀ q o, (q = partid → ∀ k, 32 * k < width.toNat → o ≠ reg + 4 * k) →
    after.byPartid q o = before.byPartid q o

/-- The word of a bitmap after the writes: every eighth word is written. -/
theorem wordAfter_word (reg : Nat) (defVal : BitVec 32) (n : Nat) (prior : Nat → BitVec 32)
    (k : Nat) :
    wordAfter reg defVal n prior (reg + 4 * k) =
      if k % 8 = 0 ∧ 4 * k < n then writtenWord defVal n (k / 8) else prior (reg + 4 * k) := by
  have hIff : reg ≤ reg + 4 * k ∧ (reg + 4 * k - reg) % 32 = 0 ∧ reg + 4 * k - reg < n ↔
      k % 8 = 0 ∧ 4 * k < n := by omega
  have hDiv : (reg + 4 * k - reg) / 32 = k / 8 := by omega
  rw [wordAfter, hDiv]
  simp only [hIff]

section Programs

variable {reg : Nat} {defVal : BitVec 32} {width partid : BitVec 16} {percentage : BitVec 32}
  {n : Nat} {r : NodeRegs}

/-- The bitmap is programmed exactly when each of its words is right, written or not, and the
words written past its end held the value before. -/
theorem programmed_iff_words (hReg : regMpamcfgCpbm ≤ reg) (hn : numBits width percentage = n) :
    Programmed reg width n partid r (configurePortions reg defVal width partid percentage r) ↔
      (∀ k, BitSet.WordPrefix n width.toNat k
        (if k % 8 = 0 ∧ 4 * k < n then writtenWord defVal n (k / 8)
          else bitmap r reg partid k)) ∧
      ∀ k, 32 * k < n → width.toNat ≤ 256 * k →
        bitmap r reg partid (8 * k) = writtenWord defVal n k := by
  obtain ⟨hPlain, hMonitor, hPartid⟩ := configurePortions_spec defVal partid r hReg hn
  have hWord : ∀ k, bitmap (configurePortions reg defVal width partid percentage r) reg partid k =
      if k % 8 = 0 ∧ 4 * k < n then writtenWord defVal n (k / 8) else bitmap r reg partid k := by
    intro k
    rw [bitmap, hPartid, if_pos rfl, wordAfter_word]
    rfl
  constructor
  · intro h
    refine ⟨fun k => ?_, fun k hk hWidth => ?_⟩
    · rw [← hWord]
      exact (BitSet.prefix_iff (by omega) _ _ _).mp h.bits k
    · have hOutside := h.others partid (reg + 4 * (8 * k)) (fun _ j hj => by omega)
      have hWritten := hWord (8 * k)
      rw [if_pos (by omega), Nat.mul_div_cancel_left k (by omega)] at hWritten
      exact hOutside.symm.trans hWritten
  · intro h
    refine ⟨?_, fun o ho => ?_, hMonitor, fun q o hOutside => ?_⟩
    · apply (BitSet.prefix_iff (by omega) _ _ _).mpr
      intro k
      rw [hWord]
      exact h.1 k
    · rw [hPlain, Function.update_of_ne ho]
    · rw [hPartid]
      by_cases hq : q = partid
      · subst hq
        rw [if_pos rfl, wordAfter]
        split
        · rename_i hIn
          have hAddr : reg + 4 * (8 * ((o - reg) / 32)) = o := by omega
          have hPast : width.toNat ≤ 256 * ((o - reg) / 32) := by
            by_contra hLt
            exact hOutside rfl (8 * ((o - reg) / 32)) (by omega) hAddr.symm
          have hPrior := h.2 ((o - reg) / 32) (by omega) hPast
          rw [bitmap, hAddr] at hPrior
          exact hPrior.symm
        · rfl
      · rw [if_neg hq]

end Programs

/-- The number of bits for a percentage of at most 100. -/
theorem numBits_eq (width : BitVec 16) {percentage : BitVec 32} (h : percentage.toNat ≤ 100) :
    numBits width percentage = width.toNat * percentage.toNat / 100 := by
  have hWidth := width.isLt
  have hProduct : width.toNat * percentage.toNat ≤ 65535 * 100 := Nat.mul_le_mul (by omega) h
  have hWide : (width.setWidth 32 * percentage).toNat = width.toNat * percentage.toNat := by
    rw [BitVec.toNat_mul, BitVec.toNat_setWidth,
      Nat.mod_eq_of_lt (show width.toNat < 2 ^ 32 by omega)]
    omega
  rw [numBits, BitVec.toNat_setWidth, BitVec.toNat_udiv, hWide]
  change width.toNat * percentage.toNat / 100 % 2 ^ 16 = _
  omega

theorem numBits_le (width : BitVec 16) {percentage : BitVec 32} (h : percentage.toNat ≤ 100) :
    numBits width percentage ≤ width.toNat := by
  have hProduct : width.toNat * percentage.toNat ≤ width.toNat * 100 :=
    Nat.mul_le_mul (Nat.le_refl _) h
  rw [numBits_eq width h]
  omega

/-! ## The portions of a cache -/

/-- Fewer than 32 bits are to be set, and the bits that the function does not write are clear:
those from 32 on, and all if none is to be set. -/
def CporFits (width n : Nat) (prior : Nat → BitVec 32) : Prop :=
  n < 32 ∧ ∀ i < width, n = 0 ∨ 32 ≤ i → ¬ BitSet.Mem prior i

/-- **Cache portions.** For all registers, partids and percentages, the bitmap of the partid is
programmed exactly when it fits. -/
theorem cpor_programmed_iff (partid : BitVec 16) (cpbmPercentage : BitVec 32) (r : NodeRegs)
    (h : cpbmPercentage.toNat ≤ 100) :
    Programmed regMpamcfgCpbm (valCacheCpbmWidth r)
        ((valCacheCpbmWidth r).toNat * cpbmPercentage.toNat / 100) partid r
        (valCacheConfigureCpor partid cpbmPercentage r) ↔
      CporFits (valCacheCpbmWidth r).toNat
        ((valCacheCpbmWidth r).toNat * cpbmPercentage.toNat / 100)
        (bitmap r regMpamcfgCpbm partid) := by
  have hn := numBits_eq (valCacheCpbmWidth r) h
  have hLe := numBits_le (valCacheCpbmWidth r) h
  rw [hn] at hLe
  unfold valCacheConfigureCpor
  generalize (valCacheCpbmWidth r).toNat * cpbmPercentage.toNat / 100 = n at hn hLe ⊢
  generalize valCacheCpbmWidth r = width at hn hLe ⊢
  rw [programmed_iff_words (by decide) hn]
  constructor
  · intro hProgrammed
    have hn32 : n < 32 := by
      by_contra hGe
      have hBit := hProgrammed.1 0 16 (by omega) (by omega)
      rw [if_pos (by omega), writtenWord, if_pos (by omega)] at hBit
      have hHalf : cporBitmapDefVal.getLsbD 16 = false := by decide
      rw [hHalf] at hBit
      simp only [Bool.false_eq_true, false_iff] at hBit
      omega
    refine ⟨hn32, fun i hi hCase hMem => ?_⟩
    have hBit := hProgrammed.1 (i / 32) (i % 32) (Nat.mod_lt i (by omega)) (by omega)
    rw [if_neg (by omega), Nat.div_add_mod] at hBit
    have := hBit.mp hMem
    omega
  · intro hFits
    have hn32 := hFits.1
    refine ⟨fun k j hj hWidth => ?_, fun k hk hPast => by omega⟩
    · by_cases hk : k % 8 = 0 ∧ 4 * k < n
      · have hZero : k = 0 := by omega
        subst hZero
        rw [if_pos hk, writtenWord, if_neg (by omega), BitSet.getLsbD_ones (by omega)]
        simp
      · have hMem := hFits.2 (32 * k + j) hWidth (by omega)
        rw [BitSet.Mem, Nat.mul_add_div (by omega), Nat.div_eq_of_lt hj, Nat.add_zero,
          Nat.mul_add_mod, Nat.mod_eq_of_lt hj] at hMem
        rw [if_neg hk]
        exact ⟨fun hSet => absurd hSet hMem, fun hLt => by omega⟩

/-- A page with these ID registers, and every other register 0. -/
def idPage (idr cporIdr mbwIdr : BitVec 32) : NodeRegs where
  plain o :=
    if o = regMpamfIdr then idr else if o = regMpamfCporIdr then cporIdr
    else if o = regMpamfMbwIdr then mbwIdr else 0
  byPartid _ _ := 0
  byMonitor _ _ := 0

/-- Half of eight portions. -/
theorem cpor_programmed_eight :
    Programmed regMpamcfgCpbm (valCacheCpbmWidth (idPage 0x02000000 8 0)) 4 3
      (idPage 0x02000000 8 0) (valCacheConfigureCpor 3 50 (idPage 0x02000000 8 0)) := by
  apply (cpor_programmed_iff 3 50 (idPage 0x02000000 8 0) (by decide)).mpr
  have hn : (valCacheCpbmWidth (idPage 0x02000000 8 0)).toNat * (50 : BitVec 32).toNat / 100 =
      4 := by decide
  have hWidth : (valCacheCpbmWidth (idPage 0x02000000 8 0)).toNat = 8 := by decide
  rw [hn, hWidth]
  exact ⟨by omega, fun i hi hCase => by omega⟩

/-- All of 32 portions: the value for a whole word has half of its bits. -/
theorem cpor_half_word :
    valCacheSupportsCpor (idPage 0x02000000 32 0) = true ∧
      bitmap (valCacheConfigureCpor 3 100 (idPage 0x02000000 32 0)) regMpamcfgCpbm 3 0 =
        0xffff ∧
      ¬ Programmed regMpamcfgCpbm (valCacheCpbmWidth (idPage 0x02000000 32 0)) 32 3
        (idPage 0x02000000 32 0) (valCacheConfigureCpor 3 100 (idPage 0x02000000 32 0)) := by
  have hWord : bitmap (valCacheConfigureCpor 3 100 (idPage 0x02000000 32 0)) regMpamcfgCpbm 3 0 =
      0xffff := by
    have hSpec := configurePortions_spec cporBitmapDefVal 3
      (idPage 0x02000000 32 0) (show regMpamcfgCpbm ≤ regMpamcfgCpbm by decide)
      (show numBits (valCacheCpbmWidth (idPage 0x02000000 32 0)) 100 = 32 by decide)
    rw [bitmap, valCacheConfigureCpor, hSpec.2.2, if_pos rfl, wordAfter_word]
    decide
  refine ⟨by decide, hWord, fun h => ?_⟩
  have hBit := h.bits 16 (by decide)
  rw [BitSet.Mem, hWord] at hBit
  revert hBit
  decide

/-! ## The bandwidth portions of a memory channel -/

/-- The bits of the words that the function does not write are as required, the whole words
that it writes lie in the bits to be set, and those written past the bitmap are unchanged. -/
structure MbwpbmFits (width n : Nat) (prior : Nat → BitVec 32) : Prop where
  unwritten : ∀ k, ¬ (k % 8 = 0 ∧ 4 * k < n) → BitSet.WordPrefix n width k (prior k)
  written : ∀ k, 0 < k → 32 * k < n → 256 * k < width → min width (256 * k + 32) ≤ n
  beyond : ∀ k, 32 * k < n → width ≤ 256 * k →
    prior (8 * k) = writtenWord mbwporBitmapDefVal n k

theorem getLsbD_mbwporBitmapDefVal {j : Nat} (hj : j < 32) :
    mbwporBitmapDefVal.getLsbD j = true := by
  rw [show mbwporBitmapDefVal = BitVec.allOnes 32 from rfl, BitVec.getLsbD_allOnes]
  simpa using hj

/-- The value written for the bits from `32 * k` on. -/
theorem getLsbD_writtenWord {n k j : Nat} (hk : 32 * k < n) (hj : j < 32) :
    (writtenWord mbwporBitmapDefVal n k).getLsbD j = decide (32 * k + j < n) := by
  unfold writtenWord
  split
  · rw [getLsbD_mbwporBitmapDefVal hj]
    symm
    rw [decide_eq_true_eq]
    omega
  · rw [BitSet.getLsbD_ones (by omega), decide_eq_decide]
    omega

/-- **Bandwidth portions.** For all registers, partids and percentages, the bitmap of the partid
is programmed exactly when it fits. -/
theorem mbwpbm_programmed_iff (partid : BitVec 16) (mbwpbmPercentage : BitVec 32) (r : NodeRegs)
    (h : mbwpbmPercentage.toNat ≤ 100) :
    Programmed regMpamcfgMbwPbm (valMemoryMbwpbmWidth r)
        ((valMemoryMbwpbmWidth r).toNat * mbwpbmPercentage.toNat / 100) partid r
        (valMemoryConfigureMbwpbm partid mbwpbmPercentage r) ↔
      MbwpbmFits (valMemoryMbwpbmWidth r).toNat
        ((valMemoryMbwpbmWidth r).toNat * mbwpbmPercentage.toNat / 100)
        (bitmap r regMpamcfgMbwPbm partid) := by
  have hn := numBits_eq (valMemoryMbwpbmWidth r) h
  have hLe := numBits_le (valMemoryMbwpbmWidth r) h
  rw [hn] at hLe
  unfold valMemoryConfigureMbwpbm
  generalize (valMemoryMbwpbmWidth r).toNat * mbwpbmPercentage.toNat / 100 = n at hn hLe ⊢
  generalize valMemoryMbwpbmWidth r = width at hn hLe ⊢
  rw [programmed_iff_words (by decide) hn]
  constructor
  · intro hProgrammed
    refine ⟨fun k hk => ?_, fun k hPos hk hWidth => ?_, hProgrammed.2⟩
    · have hWord := hProgrammed.1 k
      rwa [if_neg hk] at hWord
    · -- the last bit of the word that lies in the bitmap
      have hBit := hProgrammed.1 (8 * k) (min width.toNat (256 * k + 32) - 1 - 256 * k)
        (by omega) (by omega)
      rw [if_pos (by omega), Nat.mul_div_cancel_left k (by omega),
        getLsbD_writtenWord hk (by omega), decide_eq_true_eq] at hBit
      have hFirst := hProgrammed.1 (8 * k) 0 (by omega) (by omega)
      rw [if_pos (by omega), Nat.mul_div_cancel_left k (by omega),
        getLsbD_writtenWord hk (by omega), decide_eq_true_eq] at hFirst
      omega
  · intro hFits
    refine ⟨fun k => ?_, hFits.beyond⟩
    by_cases hk : k % 8 = 0 ∧ 4 * k < n
    · rw [if_pos hk]
      intro j hj hWidth
      rw [getLsbD_writtenWord (by omega) hj, decide_eq_true_eq]
      by_cases hZero : k = 0
      · subst hZero
        omega
      · have := hFits.written (k / 8) (by omega) (by omega) (by omega)
        omega
    · rw [if_neg hk]
      exact hFits.unwritten k hk

/-- All of 32 portions. -/
theorem mbwpbm_programmed_word :
    Programmed regMpamcfgMbwPbm (valMemoryMbwpbmWidth (idPage 0x04000000 0 0x00201000)) 32 3
      (idPage 0x04000000 0 0x00201000)
      (valMemoryConfigureMbwpbm 3 100 (idPage 0x04000000 0 0x00201000)) := by
  apply (mbwpbm_programmed_iff 3 100 (idPage 0x04000000 0 0x00201000) (by decide)).mpr
  have hn : (valMemoryMbwpbmWidth (idPage 0x04000000 0 0x00201000)).toNat *
      (100 : BitVec 32).toNat / 100 = 32 := by decide
  have hWidth : (valMemoryMbwpbmWidth (idPage 0x04000000 0 0x00201000)).toNat = 32 := by decide
  rw [hn, hWidth]
  exact ⟨fun k hk j hj hLt => by omega, fun k hPos hk => by omega, fun k hk hPast => by omega⟩

/-- All of 64 portions: the second word is not written. -/
theorem mbwpbm_second_word :
    valMemorySupportsMbwpbm (idPage 0x04000000 0 0x00401000) = true ∧
      bitmap (valMemoryConfigureMbwpbm 3 100 (idPage 0x04000000 0 0x00401000)) regMpamcfgMbwPbm
        3 1 = 0 ∧
      ¬ Programmed regMpamcfgMbwPbm (valMemoryMbwpbmWidth (idPage 0x04000000 0 0x00401000)) 64 3
        (idPage 0x04000000 0 0x00401000)
        (valMemoryConfigureMbwpbm 3 100 (idPage 0x04000000 0 0x00401000)) := by
  have hWord : bitmap (valMemoryConfigureMbwpbm 3 100 (idPage 0x04000000 0 0x00401000))
      regMpamcfgMbwPbm 3 1 = 0 := by
    have hSpec := configurePortions_spec mbwporBitmapDefVal 3
      (idPage 0x04000000 0 0x00401000) (show regMpamcfgCpbm ≤ regMpamcfgMbwPbm by decide)
      (show numBits (valMemoryMbwpbmWidth (idPage 0x04000000 0 0x00401000)) 100 = 64 by decide)
    rw [bitmap, valMemoryConfigureMbwpbm, hSpec.2.2, if_pos rfl, wordAfter_word]
    decide
  refine ⟨by decide, hWord, fun h => ?_⟩
  have hBit := h.bits 32 (by decide)
  rw [BitSet.Mem, hWord] at hBit
  revert hBit
  decide

end EnterpriseAcs.Mpam
