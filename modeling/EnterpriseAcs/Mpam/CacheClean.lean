import EnterpriseAcs.Library.WhileLoop

/-!
# Cleaning a range of addresses

`val_pe_cache_clean_range` goes over a range in steps of `2 << DminLine`, from the start aligned
down. A line of the cache has `4 << DminLine` bytes, so that a step is half a line.

* `clean_step`: one round cleans one address, and loses none.
* `cacheClean_covers`: the loop ends, and each line that the range touches is cleaned.
-/

namespace EnterpriseAcs.Mpam

open WhileLoop

/-- The operations of `val_data_cache_ops_by_va`. -/
inductive CacheOp where
  | cleanAndInvalidate
  | clean
  | invalidate
  deriving DecidableEq, Repr

/-- `aligned_addr`, and the history of the operations issued. -/
structure CleanState where
  alignedAddr : BitVec 64
  issued : List (BitVec 64 × CacheOp)

/-- The field `DminLine` of `CTR_EL0`. -/
def dminLine (ctrEl0 : BitVec 64) : Nat := (ctrEl0 >>> 16 &&& 0xf).toNat

/-- `line_length`. -/
def lineLength (ctrEl0 : BitVec 64) : BitVec 64 := (2#32 <<< dminLine ctrEl0).signExtend 64

/-- The body of the loop. -/
def cleanRound (ctrEl0 : BitVec 64) (s : CleanState) : CleanState where
  alignedAddr := s.alignedAddr + lineLength ctrEl0
  issued := s.issued ++ [(s.alignedAddr, .clean)]

/-- `val_pe_cache_clean_range` ends with the operations of `t` issued. -/
def CacheCleanRange (ctrEl0 startAddr length : BitVec 64) (t : CleanState) : Prop :=
  EndsIn (fun s : CleanState => decide (s.alignedAddr < startAddr + length)) (cleanRound ctrEl0)
    { alignedAddr := startAddr - (startAddr &&& (lineLength ctrEl0 - 1)), issued := [] } t

/-- The number of the cache line of an address. -/
def cacheLine (ctrEl0 : BitVec 64) (addr : Nat) : Nat := addr / (4 <<< dminLine ctrEl0)

/-! ## Addresses as numbers -/

theorem dminLine_lt (ctrEl0 : BitVec 64) : dminLine ctrEl0 < 16 := by
  rw [dminLine, BitVec.toNat_and]
  exact Nat.lt_of_le_of_lt Nat.and_le_right (by decide)

theorem lineLength_toNat (ctrEl0 : BitVec 64) :
    (lineLength ctrEl0).toNat = 2 ^ (dminLine ctrEl0 + 1) := by
  have hLength : ∀ d < 16, ((2#32 <<< d).signExtend 64).toNat = 2 ^ (d + 1) := by decide
  exact hLength _ (dminLine_lt ctrEl0)

/-- A line is two steps long. -/
theorem line_eq (ctrEl0 : BitVec 64) : 4 <<< dminLine ctrEl0 = (lineLength ctrEl0).toNat * 2 := by
  rw [lineLength_toNat, Nat.shiftLeft_eq, Nat.pow_succ]
  omega

theorem alignDown_toNat (ctrEl0 addr : BitVec 64) :
    (addr - (addr &&& (lineLength ctrEl0 - 1))).toNat =
      addr.toNat / (lineLength ctrEl0).toNat * (lineLength ctrEl0).toNat := by
  have hLength := lineLength_toNat ctrEl0
  have hPos : 0 < 2 ^ (dminLine ctrEl0 + 1) := Nat.two_pow_pos _
  have hMask : (lineLength ctrEl0 - 1).toNat = 2 ^ (dminLine ctrEl0 + 1) - 1 := by
    have hOne : (1 : BitVec 64) ≤ lineLength ctrEl0 := by
      rw [BitVec.le_def, hLength]
      exact hPos
    rw [BitVec.toNat_sub_of_le hOne, hLength]
    rfl
  have hLow : (addr &&& (lineLength ctrEl0 - 1)).toNat =
      addr.toNat % 2 ^ (dminLine ctrEl0 + 1) := by
    rw [BitVec.toNat_and, hMask, Nat.and_two_pow_sub_one_eq_mod]
  have hLe : addr &&& (lineLength ctrEl0 - 1) ≤ addr := by
    rw [BitVec.le_def, hLow]
    exact Nat.mod_le _ _
  have hDiv := Nat.div_add_mod' addr.toNat (2 ^ (dminLine ctrEl0 + 1))
  rw [BitVec.toNat_sub_of_le hLe, hLow, hLength]
  omega

/-! ## The loop -/

/-- The multiples of the step from the start to the address reached are cleaned. -/
structure CleanedTo (ctrEl0 startAddr : BitVec 64) (s : CleanState) : Prop where
  aligned : (lineLength ctrEl0).toNat ∣ s.alignedAddr.toNat
  cleaned : ∀ x, (lineLength ctrEl0).toNat ∣ x →
    startAddr.toNat / (lineLength ctrEl0).toNat * (lineLength ctrEl0).toNat ≤ x →
    x < s.alignedAddr.toNat → ∃ addr, (addr, CacheOp.clean) ∈ s.issued ∧ addr.toNat = x

section Loop

variable {ctrEl0 startAddr length : BitVec 64}
  (hFits : startAddr.toNat + length.toNat + 4 <<< dminLine ctrEl0 ≤ 2 ^ 64)

include hFits

theorem end_toNat : (startAddr + length).toNat = startAddr.toNat + length.toNat := by
  have hPos : 0 < 2 ^ (dminLine ctrEl0 + 1) := Nat.two_pow_pos _
  rw [line_eq, lineLength_toNat] at hFits
  exact BitVec.toNat_add_of_lt (by omega)

theorem clean_step {s : CleanState} (h : CleanedTo ctrEl0 startAddr s)
    (hTest : s.alignedAddr < startAddr + length) :
    CleanedTo ctrEl0 startAddr (cleanRound ctrEl0 s) ∧
      (cleanRound ctrEl0 s).alignedAddr.toNat =
        s.alignedAddr.toNat + (lineLength ctrEl0).toNat := by
  have hLess : s.alignedAddr.toNat < startAddr.toNat + length.toNat := by
    rwa [BitVec.lt_def, end_toNat hFits] at hTest
  rw [line_eq] at hFits
  have hNext : (cleanRound ctrEl0 s).alignedAddr.toNat =
      s.alignedAddr.toNat + (lineLength ctrEl0).toNat := BitVec.toNat_add_of_lt (by omega)
  refine ⟨⟨?_, fun x hMultiple hLow hHigh => ?_⟩, hNext⟩
  · rw [hNext]
    exact Nat.dvd_add h.aligned (Nat.dvd_refl _)
  · rw [hNext] at hHigh
    by_cases hBefore : x < s.alignedAddr.toNat
    · obtain ⟨addr, hIssued, hAddr⟩ := h.cleaned x hMultiple hLow hBefore
      exact ⟨addr, List.mem_append_left _ hIssued, hAddr⟩
    · -- the next multiple is the address of this round
      have hSame : x = s.alignedAddr.toNat := by
        obtain ⟨q, rfl⟩ := hMultiple
        obtain ⟨p, hp⟩ := h.aligned
        rw [hp] at hHigh hBefore ⊢
        rw [← Nat.mul_succ] at hHigh
        have hUpper : q < p + 1 := Nat.lt_of_mul_lt_mul_left hHigh
        have hLower : p ≤ q := by
          by_contra hq
          exact hBefore (Nat.mul_lt_mul_of_pos_left (by omega)
            (by rw [lineLength_toNat]; exact Nat.two_pow_pos _))
        rw [Nat.le_antisymm (Nat.le_of_lt_succ hUpper) hLower]
      exact ⟨s.alignedAddr, List.mem_append_right _ (List.mem_singleton_self _), hSame.symm⟩

end Loop

/-- The loop ends, and cleans an address in each line that has a byte of the range. -/
theorem cacheClean_covers (ctrEl0 startAddr length : BitVec 64)
    (hFits : startAddr.toNat + length.toNat + 4 <<< dminLine ctrEl0 ≤ 2 ^ 64) :
    ∃ t, CacheCleanRange ctrEl0 startAddr length t ∧
      ∀ line, (∃ byte, startAddr.toNat ≤ byte ∧ byte < startAddr.toNat + length.toNat ∧
          cacheLine ctrEl0 byte = line) →
        ∃ addr, (addr, CacheOp.clean) ∈ t.issued ∧ cacheLine ctrEl0 addr.toNat = line := by
  have hPos : 0 < (lineLength ctrEl0).toNat := by
    rw [lineLength_toNat]
    exact Nat.two_pow_pos _
  have hStart : CleanedTo ctrEl0 startAddr
      { alignedAddr := startAddr - (startAddr &&& (lineLength ctrEl0 - 1)), issued := [] } := by
    have hAddr := alignDown_toNat ctrEl0 startAddr
    refine ⟨?_, fun x _ hLow hHigh => ?_⟩
    · rw [hAddr]
      exact Nat.dvd_mul_left _ _
    · rw [hAddr] at hHigh
      omega
  have hBody : ∀ s, CleanedTo ctrEl0 startAddr s →
      decide (s.alignedAddr < startAddr + length) = true →
      CleanedTo ctrEl0 startAddr (cleanRound ctrEl0 s) ∧
        startAddr.toNat + length.toNat - (cleanRound ctrEl0 s).alignedAddr.toNat <
          startAddr.toNat + length.toNat - s.alignedAddr.toNat := by
    intro s hI hTest
    have hLess := of_decide_eq_true hTest
    obtain ⟨hNext, hAddr⟩ := clean_step hFits hI hLess
    rw [BitVec.lt_def, end_toNat hFits] at hLess
    exact ⟨hNext, by omega⟩
  obtain ⟨t, hEnds, hCleaned, hTest⟩ := endsIn_of_measure
    (fun s : CleanState => startAddr.toNat + length.toNat - s.alignedAddr.toNat) hBody hStart
  refine ⟨t, hEnds, ?_⟩
  rintro line ⟨byte, hLow, hHigh, rfl⟩
  have hEnd : startAddr.toNat + length.toNat ≤ t.alignedAddr.toNat := by
    have hNot := of_decide_eq_false hTest
    rw [BitVec.lt_def, end_toNat hFits] at hNot
    omega
  -- the byte aligned down to a step is in the same line
  have hDown := Nat.div_mul_le_self byte (lineLength ctrEl0).toNat
  obtain ⟨addr, hIssued, hAddr⟩ := hCleaned.cleaned
    (byte / (lineLength ctrEl0).toNat * (lineLength ctrEl0).toNat) (Nat.dvd_mul_left _ _)
    (Nat.mul_le_mul_right _ (Nat.div_le_div_right hLow)) (by omega)
  refine ⟨addr, hIssued, ?_⟩
  rw [cacheLine, cacheLine, hAddr, line_eq, ← Nat.div_div_eq_div_mul, Nat.mul_div_cancel _ hPos,
    Nat.div_div_eq_div_mul]

/-- Lines of 64 bytes, and 256 bytes from an address inside a line on. -/
theorem cacheClean_lines :
    ∃ t, CacheCleanRange 0x40000 0x1008 0x100 t ∧
      ∀ line, (∃ byte, 0x1008 ≤ byte ∧ byte < 0x1108 ∧ cacheLine 0x40000 byte = line) →
        ∃ addr, (addr, CacheOp.clean) ∈ t.issued ∧ cacheLine 0x40000 addr.toNat = line :=
  cacheClean_covers 0x40000 0x1008 0x100 (by decide)

end EnterpriseAcs.Mpam
