import EnterpriseAcs.Mpam.CopyBuffers

/-!
# One search for an address

`pal_mem_allocate_address` tries the addresses of a range one buffer apart. It compares what is
left of the range with the size of a buffer after an attempt, never before the first one.

* `search_eq_some_iff`: a search returns the address of the attempt that is granted.
* `attempts_mul_le`: the attempts fit in the range, if the first one does.
* `address_safe_iff`: when a search ends in time, and with a buffer that lies in the range.
-/

namespace EnterpriseAcs.Mpam

/-! ## Attempts -/

/-- How often the loop of the search calls `AllocatePages`. -/
def attempts (bufSize : BitVec 64) (hBuf : bufSize ≠ 0) (grants : Nat → Bool) (attempt : Nat)
    (memSize : BitVec 64) : Nat :=
  if grants attempt then 1
  else if memSize - bufSize < bufSize then 1
  else attempts bufSize hBuf grants (attempt + 1) (memSize - bufSize) + 1
  termination_by remaining bufSize memSize
  decreasing_by exact remaining_sub_lt hBuf (by assumption)

/-- The calls of one `pal_mem_allocate_address`: an empty range is not searched. -/
def attemptsMade (fw : Firmware) (pe : Nat) (r : Region) : Nat :=
  if r.memSize = 0 then 0
  else attempts r.bufSize r.bufSize_ne_zero (fw.grants pe) 0 r.memSize

section Searches

variable {bufSize : BitVec 64} (hBuf : bufSize ≠ 0) (grants : Nat → Bool)

theorem attempts_pos (attempt : Nat) (memSize : BitVec 64) :
    0 < attempts bufSize hBuf grants attempt memSize := by
  rw [attempts]
  split
  · exact Nat.one_pos
  · split
    · exact Nat.one_pos
    · exact Nat.succ_pos _

/-- A search returns a buffer when one of its attempts is granted. -/
theorem search_eq_some_iff (attempt : Nat) (memBase memSize buffer : BitVec 64) :
    search bufSize hBuf grants attempt memBase memSize = some buffer ↔
      ∃ n < attempts bufSize hBuf grants attempt memSize, grants (attempt + n) = true ∧
        memBase + BitVec.ofNat 64 n * bufSize = buffer := by
  induction attempt, memBase, memSize using search.induct bufSize hBuf grants with
  | case1 attempt memBase memSize hGrant =>
    rw [search, if_pos hGrant, attempts, if_pos hGrant, Option.some.injEq]
    apply Iff.intro
    · rintro rfl
      exact ⟨0, Nat.one_pos, hGrant, by simp⟩
    · rintro ⟨n, hn, -, rfl⟩
      rw [Nat.lt_one_iff.mp hn]
      simp
  | case2 attempt memBase memSize hRefused hEnd =>
    rw [search, if_neg hRefused, if_pos hEnd, attempts, if_neg hRefused, if_pos hEnd]
    refine iff_of_false (Option.some_ne_none buffer).symm ?_
    rintro ⟨n, hn, hGrant, -⟩
    rw [Nat.lt_one_iff.mp hn] at hGrant
    exact hRefused hGrant
  | case3 attempt memBase memSize hRefused hLeft ih =>
    have hNext : ∀ n, memBase + bufSize + BitVec.ofNat 64 n * bufSize =
        memBase + BitVec.ofNat 64 (n + 1) * bufSize := by
      intro n
      rw [BitVec.ofNat_add, BitVec.add_mul, BitVec.one_mul, BitVec.add_assoc,
        BitVec.add_comm bufSize]
    rw [search, if_neg hRefused, if_neg hLeft, attempts, if_neg hRefused, if_neg hLeft, ih]
    apply Iff.intro
    · rintro ⟨n, hn, hGrant, hBuffer⟩
      refine ⟨n + 1, Nat.succ_lt_succ hn, ?_, (hNext n).symm.trans hBuffer⟩
      rwa [Nat.add_right_comm] at hGrant
    · rintro ⟨n, hn, hGrant, hBuffer⟩
      cases n with
      | zero => exact absurd hGrant hRefused
      | succ n =>
        refine ⟨n, Nat.lt_of_succ_lt_succ hn, ?_, (hNext n).trans hBuffer⟩
        rwa [Nat.add_right_comm]

/-- The comparison after an attempt keeps the next one within the range. -/
theorem attempts_mul_le (attempt : Nat) (memSize : BitVec 64) (hFits : bufSize ≤ memSize) :
    attempts bufSize hBuf grants attempt memSize * bufSize.toNat ≤ memSize.toNat := by
  have hLe : bufSize.toNat ≤ memSize.toNat := hFits
  induction attempt, memSize using attempts.induct bufSize hBuf grants with
  | case1 attempt memSize hGrant =>
    rw [attempts, if_pos hGrant, Nat.one_mul]
    exact hLe
  | case2 attempt memSize hRefused hEnd =>
    rw [attempts, if_neg hRefused, if_pos hEnd, Nat.one_mul]
    exact hLe
  | case3 attempt memSize hRefused hLeft ih =>
    have hSub := BitVec.toNat_sub_of_le hFits
    have hNext := ih (BitVec.not_lt.mp hLeft) (BitVec.not_lt.mp hLeft)
    rw [attempts, if_neg hRefused, if_neg hLeft, Nat.add_mul, Nat.one_mul]
    omega

end Searches

/-! ## What a search promises -/

/-- The search makes at most as many attempts as buffers fit in the range, or one, and a buffer
that is not null lies in the range. -/
structure AddressSafe (fw : Firmware) (pe : Nat) (r : Region) : Prop where
  attempts_le : attemptsMade fw pe r ≤ max 1 (r.memSize.toNat / r.bufSize.toNat)
  inside :
    palMemAllocateAddress fw pe r.memBase r.memSize r.bufSize r.bufSize_ne_zero ≠ 0 →
      r.bytes (palMemAllocateAddress fw pe r.memBase r.memSize r.bufSize r.bufSize_ne_zero) ⊆ r.node

/-- A range smaller than the buffer: the first attempt is granted at the null address, or it is
refused and what the subtraction wraps around to is smaller than the buffer as well. -/
def SmallRangeSafe (fw : Firmware) (pe : Nat) (r : Region) : Prop :=
  if fw.grants pe 0 then r.memBase = 0
  else 2 ^ 64 + r.memSize.toNat < 2 * r.bufSize.toNat

section Safety

variable {fw : Firmware} {pe : Nat} {r : Region}

theorem bufSize_pos (r : Region) : 0 < r.bufSize.toNat :=
  Nat.pos_of_ne_zero fun h => r.bufSize_ne_zero (BitVec.eq_of_toNat_eq h)

/-- An attempt for a PE that starts at the base of the range. -/
theorem tried_zero (r : Region) (n : Nat) :
    r.memBase + BitVec.ofNat 64 n * r.bufSize = r.tried 0 n := by
  rw [Region.tried, Nat.zero_add]

theorem safe_of_le (hFits : r.bufSize ≤ r.memSize) : AddressSafe fw pe r := by
  have hPos := bufSize_pos r
  have hLe : r.bufSize.toNat ≤ r.memSize.toNat := hFits
  have hSize : r.memSize ≠ 0 := by
    intro hZero
    rw [hZero] at hLe
    exact absurd hPos (Nat.not_lt.mpr hLe)
  have hAttempts := attempts_mul_le r.bufSize_ne_zero (fw.grants pe) 0 r.memSize hFits
  refine ⟨?_, fun hNull => ?_⟩
  · rw [attemptsMade, if_neg hSize]
    exact le_max_of_le_right ((Nat.le_div_iff_mul_le hPos).mpr hAttempts)
  · rw [palMemAllocateAddress, if_neg hSize] at hNull ⊢
    cases hSearch : search r.bufSize r.bufSize_ne_zero (fw.grants pe) 0 r.memBase r.memSize with
    | none =>
      rw [hSearch] at hNull
      exact absurd rfl hNull
    | some buffer =>
      obtain ⟨n, hn, -, rfl⟩ := (search_eq_some_iff _ _ 0 _ _ _).mp hSearch
      have hEnd := Nat.mul_le_mul_right r.bufSize.toNat (Nat.succ_le_of_lt hn)
      rw [Nat.succ_mul] at hEnd
      have hOffset : offset r 0 n = n * r.bufSize.toNat := by
        rw [offset, Nat.zero_add, Nat.mod_eq_of_lt]
        have hSize := r.memSize.isLt
        omega
      rw [Option.getD_some, tried_zero, bytes_subset_iff, hOffset]
      exact hEnd.trans hAttempts

theorem safe_empty_iff (hSize : r.memSize = 0) :
    AddressSafe fw pe r ↔ fw.uninitialised pe = 0 := by
  have hAddress : palMemAllocateAddress fw pe r.memBase r.memSize r.bufSize r.bufSize_ne_zero =
      fw.uninitialised pe := by
    rw [palMemAllocateAddress, if_pos hSize]
  apply Iff.intro
  · intro h
    have hInside := h.inside
    rw [hAddress] at hInside
    by_contra hNull
    exact not_bytes_subset r hSize _ (hInside hNull)
  · intro h
    refine ⟨?_, fun hNull => absurd (hAddress.trans h) hNull⟩
    rw [attemptsMade, if_pos hSize]
    exact Nat.zero_le _

/-- After the first attempt the size of a smaller range wraps around. -/
theorem toNat_wrapped (hSmall : r.memSize < r.bufSize) :
    (r.memSize - r.bufSize).toNat = 2 ^ 64 + r.memSize.toNat - r.bufSize.toNat := by
  have hLt : r.memSize.toNat < r.bufSize.toNat := hSmall
  have hBuf := r.bufSize.isLt
  rw [BitVec.toNat_sub]
  omega

/-- A range smaller than the buffer, when the first attempt is granted. -/
theorem safe_granted_iff (hSize : r.memSize ≠ 0) (hSmall : r.memSize < r.bufSize)
    (hGrant : fw.grants pe 0 = true) : AddressSafe fw pe r ↔ r.memBase = 0 := by
  have hLt : r.memSize.toNat < r.bufSize.toNat := hSmall
  have hAddress : palMemAllocateAddress fw pe r.memBase r.memSize r.bufSize
      r.bufSize_ne_zero = r.memBase := by
    rw [palMemAllocateAddress, if_neg hSize, search, if_pos hGrant]
    rfl
  have hOutside : ¬ r.bytes r.memBase ⊆ r.node := by
    have hFirst := bytes_subset_iff r 0 0
    rw [← tried_zero, BitVec.zero_mul, BitVec.add_zero] at hFirst
    rw [hFirst]
    omega
  apply Iff.intro
  · intro h
    have hInside := h.inside
    rw [hAddress] at hInside
    by_contra hNull
    exact hOutside (hInside hNull)
  · intro h
    refine ⟨?_, fun hNull => absurd (hAddress.trans h) hNull⟩
    rw [attemptsMade, if_neg hSize, attempts, if_pos hGrant]
    exact Nat.le_max_left 1 _

/-- A range smaller than the buffer, when the first attempt is refused: a second one is too many. -/
theorem safe_refused_iff (hSize : r.memSize ≠ 0) (hSmall : r.memSize < r.bufSize)
    (hRefused : ¬ fw.grants pe 0 = true) :
    AddressSafe fw pe r ↔ 2 ^ 64 + r.memSize.toNat < 2 * r.bufSize.toNat := by
  have hLt : r.memSize.toNat < r.bufSize.toNat := hSmall
  have hOne : max 1 (r.memSize.toNat / r.bufSize.toNat) = 1 := by
    rw [Nat.div_eq_of_lt hLt]
    rfl
  have hWrapped := toNat_wrapped hSmall
  apply Iff.intro
  · intro h
    have hAttempts := h.attempts_le
    rw [hOne, attemptsMade, if_neg hSize, attempts, if_neg hRefused] at hAttempts
    split at hAttempts
    · rename_i hEnd
      have hEnd : (r.memSize - r.bufSize).toNat < r.bufSize.toNat := hEnd
      omega
    · have hMore := attempts_pos r.bufSize_ne_zero (fw.grants pe) (0 + 1)
        (r.memSize - r.bufSize)
      omega
  · intro h
    have hEnd : r.memSize - r.bufSize < r.bufSize := by
      rw [BitVec.lt_def]
      omega
    have hNone : palMemAllocateAddress fw pe r.memBase r.memSize r.bufSize
        r.bufSize_ne_zero = 0 := by
      rw [palMemAllocateAddress, if_neg hSize, search, if_neg hRefused, if_pos hEnd]
      rfl
    refine ⟨?_, fun hNull => absurd hNone hNull⟩
    rw [attemptsMade, if_neg hSize, attempts, if_neg hRefused, if_pos hEnd]
    exact Nat.le_max_left 1 _

theorem safe_small_iff (hSize : r.memSize ≠ 0) (hSmall : r.memSize < r.bufSize) :
    AddressSafe fw pe r ↔ SmallRangeSafe fw pe r := by
  rw [SmallRangeSafe]
  split
  · rename_i hGrant
    exact safe_granted_iff hSize hSmall hGrant
  · rename_i hRefused
    exact safe_refused_iff hSize hSmall hRefused

end Safety

/-- A search is safe exactly when its range is as large as the buffer, apart from two accidents:
an empty range for which the uninitialised locals read as null, and `SmallRangeSafe`. -/
theorem address_safe_iff (fw : Firmware) (pe : Nat) (r : Region) :
    AddressSafe fw pe r ↔
      r.bufSize ≤ r.memSize ∨ (r.memSize = 0 ∧ fw.uninitialised pe = 0) ∨
        (r.memSize ≠ 0 ∧ SmallRangeSafe fw pe r) := by
  by_cases hFits : r.bufSize ≤ r.memSize
  · exact iff_of_true (safe_of_le hFits) (Or.inl hFits)
  · rw [or_iff_right hFits]
    by_cases hSize : r.memSize = 0
    · rw [safe_empty_iff hSize, or_iff_left fun h => h.1 hSize, and_iff_right hSize]
    · rw [safe_small_iff hSize (BitVec.not_le.mp hFits), or_iff_right fun h => hSize h.1,
        and_iff_right hSize]

/-- A memory node as long as the configured ones, and a buffer of one megabyte. -/
def shortNode : Region := ⟨0x100000, 0x1024, 0x100000, by decide, by decide⟩

/-- The first attempt is granted, and the buffer goes past the end of the node. -/
theorem short_node_overrun : ¬ AddressSafe (refusing 0) 0 shortNode := by
  rw [safe_small_iff (by decide) (by decide), SmallRangeSafe]
  decide

end EnterpriseAcs.Mpam
