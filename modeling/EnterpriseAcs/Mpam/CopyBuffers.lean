import Mathlib.Data.BitVec
import Mathlib.Order.Interval.Set.LinearOrder

/-!
# The shared copy buffers

The buffers of the PEs are taken from the address range of a memory node. For each PE a search
tries one address after the other; it starts further up for each PE, but is given the size of the
whole node each time. What the firmware grants is a parameter.

* `search_spec`: the address that a search ends with.
* `buffers_disjoint`: the buffers never overlap, whatever is granted.
* `shared_buffers_iff`: when they all lie in the node.
-/

namespace EnterpriseAcs.Mpam

/-! ## The search -/

/-- What the callers pass: the address range of a memory node, and the size of a buffer. -/
structure Region where
  memBase : BitVec 64
  memSize : BitVec 64
  bufSize : BitVec 64
  fits : memBase.toNat + memSize.toNat ≤ 2 ^ 64
  bufSize_ne_zero : bufSize ≠ 0

/-- The answers of the firmware: whether the pool can be allocated, and whether `AllocatePages`
grants an attempt of the search for a PE. `allocated` are the pages allocated before, and
`uninitialised` is what a search returns that makes no attempt. -/
structure Firmware where
  poolFails : Bool
  grants : Nat → Nat → Bool
  allocated : Set Nat
  uninitialised : Nat → BitVec 64

/-- A bound on the attempts that are left. The first subtraction may wrap around; no later one
does. -/
def remaining (bufSize memSize : BitVec 64) : Nat :=
  if memSize < bufSize then 2 ^ 64 else memSize.toNat

theorem remaining_sub_lt {bufSize memSize : BitVec 64} (hBuf : bufSize ≠ 0)
    (hLeft : ¬ memSize - bufSize < bufSize) :
    remaining bufSize (memSize - bufSize) < remaining bufSize memSize := by
  have hPos : 0 < bufSize.toNat := Nat.pos_of_ne_zero fun h => hBuf (BitVec.eq_of_toNat_eq h)
  rw [remaining, if_neg hLeft, remaining]
  split
  · exact (memSize - bufSize).isLt
  · rename_i hEnough
    rw [BitVec.toNat_sub_of_le (BitVec.not_lt.mp hEnough)]
    have hLe : bufSize.toNat ≤ memSize.toNat := BitVec.not_lt.mp hEnough
    omega

/-- The body of the loop. The break is the only way out without a grant: what is left is at
least a buffer, so that `MemSize` is not zero. -/
def search (bufSize : BitVec 64) (hBuf : bufSize ≠ 0) (grants : Nat → Bool) (attempt : Nat)
    (memBase memSize : BitVec 64) : Option (BitVec 64) :=
  if grants attempt then some memBase
  else if memSize - bufSize < bufSize then none
  else search bufSize hBuf grants (attempt + 1) (memBase + bufSize) (memSize - bufSize)
  termination_by remaining bufSize memSize
  decreasing_by exact remaining_sub_lt hBuf (by assumption)

/-- `pal_mem_allocate_address`; `pe` is the PE that the search is for. -/
def palMemAllocateAddress (fw : Firmware) (pe : Nat) (memBase memSize bufSize : BitVec 64)
    (hBuf : bufSize ≠ 0) : BitVec 64 :=
  if memSize = 0 then fw.uninitialised pe
  else (search bufSize hBuf (fw.grants pe) 0 memBase memSize).getD 0

section Program

variable (fw : Firmware) (r : Region)

/-- The buffer of a PE. -/
def bufferOf (pe : Nat) : BitVec 64 :=
  palMemAllocateAddress fw pe (r.memBase + BitVec.ofNat 64 pe * r.bufSize) r.memSize r.bufSize
    r.bufSize_ne_zero

/-- The loop over the PEs. -/
def allocateAll : List Nat → Option (List (BitVec 64))
  | [] => some []
  | pe :: pes =>
    if bufferOf fw r pe = 0 then none
    else (allocateAll pes).map fun buffers => bufferOf fw r pe :: buffers

/-- `pal_mem_allocate_shared_memcpybuf`, none for the status 0. -/
def palMemAllocateSharedMemcpybuf (peCnt : BitVec 32) : Option (List (BitVec 64)) :=
  if fw.poolFails then none else allocateAll fw r (List.range peCnt.toNat)

end Program

/-! ## Pages and bytes -/

def pageSize : Nat := 4096

/-- `EFI_SIZE_TO_PAGES`. -/
def efiSizeToPages (size : BitVec 64) : Nat :=
  size.toNat / pageSize + if size.toNat % pageSize = 0 then 0 else 1

namespace Region

variable (r : Region)

/-- The bytes of a buffer. -/
def bytes (buffer : BitVec 64) : Set Nat := Set.Ico buffer.toNat (buffer.toNat + r.bufSize.toNat)

/-- The bytes of the node. -/
def node : Set Nat := Set.Ico r.memBase.toNat (r.memBase.toNat + r.memSize.toNat)

/-- The pages of a buffer, by number. -/
def pages (buffer : BitVec 64) : Set Nat :=
  {page | buffer.toNat < (page + 1) * pageSize ∧
    page * pageSize < buffer.toNat + efiSizeToPages r.bufSize * pageSize}

/-- The address of an attempt of the search for a PE. -/
def tried (pe attempt : Nat) : BitVec 64 :=
  r.memBase + BitVec.ofNat 64 (pe + attempt) * r.bufSize

end Region

/-- The attempt of the search for a PE that the firmware grants. -/
structure FirstGrant (fw : Firmware) (r : Region) (pe attempt : Nat) : Prop where
  attempted : r.memSize ≠ 0
  granted : fw.grants pe attempt = true
  refused : ∀ k < attempt, fw.grants pe k = false

/-- The pages that are allocated when the search for a PE begins: nothing is freed while a run
succeeds. -/
def allocatedBefore (fw : Firmware) (r : Region) (pe : Nat) : Set Nat :=
  fw.allocated ∪ {page | ∃ pe' < pe, ∃ attempt, FirstGrant fw r pe' attempt ∧
    page ∈ r.pages (r.tried pe' attempt)}

/-- The firmware never hands out a page that is still allocated. -/
def NeverTwice (fw : Firmware) (r : Region) (peCnt : Nat) : Prop :=
  ∀ pe < peCnt, ∀ attempt, FirstGrant fw r pe attempt →
    r.pages (r.tried pe attempt) ∩ allocatedBefore fw r pe = ∅

/-! ## What a search returns -/

section Searches

variable {bufSize : BitVec 64} {hBuf : bufSize ≠ 0} {grants : Nat → Bool}

/-- A search ends at the first address that is granted. -/
theorem search_spec (attempt : Nat) (memBase memSize : BitVec 64) {buffer : BitVec 64}
    (h : search bufSize hBuf grants attempt memBase memSize = some buffer) :
    ∃ n, grants (attempt + n) = true ∧ (∀ k, attempt ≤ k → k < attempt + n → grants k = false) ∧
      buffer = memBase + BitVec.ofNat 64 n * bufSize := by
  induction attempt, memBase, memSize using search.induct bufSize hBuf grants with
  | case1 attempt memBase memSize hGrant =>
    rw [search, if_pos hGrant] at h
    refine ⟨0, hGrant, fun k hk hlt => absurd hlt (by omega), ?_⟩
    cases h
    simp
  | case2 attempt memBase memSize hRefused hEnd =>
    rw [search, if_neg hRefused, if_pos hEnd] at h
    cases h
  | case3 attempt memBase memSize hRefused hLeft ih =>
    rw [search, if_neg hRefused, if_neg hLeft] at h
    obtain ⟨n, hGrant, hBefore, hBuffer⟩ := ih h
    refine ⟨n + 1, ?_, fun k hk hlt => ?_, ?_⟩
    · rw [← Nat.add_assoc, Nat.add_right_comm]
      exact hGrant
    · rcases Nat.eq_or_lt_of_le hk with rfl | hk
      · exact Bool.eq_false_iff.mpr hRefused
      · exact hBefore k hk (by omega)
    · rw [hBuffer, BitVec.ofNat_add, BitVec.add_mul, BitVec.one_mul, BitVec.add_assoc,
        BitVec.add_comm bufSize]

end Searches

section Runs

variable {fw : Firmware} {r : Region}

theorem FirstGrant.unique {pe m n : Nat} (h : FirstGrant fw r pe m) (h' : FirstGrant fw r pe n) :
    m = n := by
  rcases Nat.lt_trichotomy m n with hLt | hEq | hLt
  · exact absurd (h'.refused m hLt) (by rw [h.granted]; decide)
  · exact hEq
  · exact absurd (h.refused n hLt) (by rw [h'.granted]; decide)

/-- The buffer of a PE, where the node is not empty. -/
theorem bufferOf_eq {pe : Nat} (hSize : r.memSize ≠ 0) (hBuffer : bufferOf fw r pe ≠ 0) :
    ∃ attempt, FirstGrant fw r pe attempt ∧ bufferOf fw r pe = r.tried pe attempt := by
  rw [bufferOf, palMemAllocateAddress, if_neg hSize] at hBuffer ⊢
  cases hSearch : search r.bufSize r.bufSize_ne_zero (fw.grants pe) 0
    (r.memBase + BitVec.ofNat 64 pe * r.bufSize) r.memSize with
  | none =>
    rw [hSearch] at hBuffer
    exact absurd rfl hBuffer
  | some buffer =>
    obtain ⟨n, hGrant, hBefore, hAddress⟩ := search_spec 0 _ _ hSearch
    rw [Nat.zero_add] at hGrant hBefore
    refine ⟨n, ⟨hSize, hGrant, fun k hk => hBefore k (Nat.zero_le k) hk⟩, ?_⟩
    rw [Option.getD_some, hAddress, Region.tried, BitVec.ofNat_add, BitVec.add_mul,
      BitVec.add_assoc]

/-- A run that succeeds: the buffers in order, none of them null. -/
theorem allocateAll_eq {pes : List Nat} {buffers : List (BitVec 64)}
    (h : allocateAll fw r pes = some buffers) :
    buffers = pes.map (bufferOf fw r) ∧ ∀ pe ∈ pes, bufferOf fw r pe ≠ 0 := by
  induction pes generalizing buffers with
  | nil =>
    cases h
    exact ⟨rfl, fun _ hMem => absurd hMem List.not_mem_nil⟩
  | cons pe pes ih =>
    rw [allocateAll] at h
    split at h
    · cases h
    · rename_i hHead
      obtain ⟨rest, hRest, rfl⟩ := Option.map_eq_some_iff.mp h
      obtain ⟨rfl, hTail⟩ := ih hRest
      refine ⟨rfl, fun pe' hMem => ?_⟩
      rcases List.mem_cons.mp hMem with rfl | hMem
      · exact hHead
      · exact hTail pe' hMem

end Runs

/-! ## Disjointness -/

section Disjointness

variable (r : Region)

theorem le_efiSizeToPages (size : BitVec 64) : size.toNat ≤ efiSizeToPages size * pageSize := by
  rw [efiSizeToPages, pageSize]
  split
  · omega
  · omega

theorem page_mem {buffer : BitVec 64} {x : Nat} (h : x ∈ r.bytes buffer) :
    x / pageSize ∈ r.pages buffer := by
  obtain ⟨hLo, hHi⟩ := h
  have hPages := le_efiSizeToPages r.bufSize
  have hLe := Nat.div_mul_le_self x pageSize
  have hLt : x < (x / pageSize + 1) * pageSize :=
    Nat.lt_mul_of_div_lt (Nat.lt_succ_self _) (by decide)
  exact ⟨by omega, by omega⟩

theorem bytes_disjoint {a b : BitVec 64} (h : r.pages a ∩ r.pages b = ∅) :
    r.bytes a ∩ r.bytes b = ∅ := by
  rw [Set.eq_empty_iff_forall_notMem] at h ⊢
  rintro x ⟨ha, hb⟩
  exact h (x / pageSize) ⟨page_mem r ha, page_mem r hb⟩

variable {r} {fw : Firmware}

/-- The buffers of two PEs: the pages of the first are allocated when the second is searched. -/
theorem bufferOf_disjoint {peCnt pe pe' m n : Nat} (hFirmware : NeverTwice fw r peCnt)
    (hLt : pe < pe') (hPe : pe' < peCnt) (hm : FirstGrant fw r pe m)
    (hn : FirstGrant fw r pe' n) :
    r.bytes (r.tried pe m) ∩ r.bytes (r.tried pe' n) = ∅ := by
  have hFree := Set.eq_empty_iff_forall_notMem.mp (hFirmware pe' hPe n hn)
  apply bytes_disjoint r
  rw [Set.eq_empty_iff_forall_notMem]
  rintro page ⟨hPage, hPage'⟩
  exact hFree page ⟨hPage', Or.inr ⟨pe, hLt, m, hm, hPage⟩⟩

/-- The buffers of a run that succeeds never overlap. -/
theorem buffers_disjoint {peCnt : Nat} (hFirmware : NeverTwice fw r peCnt)
    (hBuffers : ∀ pe < peCnt, ∃ attempt, FirstGrant fw r pe attempt ∧
      bufferOf fw r pe = r.tried pe attempt) :
    ((List.range peCnt).map (bufferOf fw r)).Pairwise fun a b => r.bytes a ∩ r.bytes b = ∅ := by
  rw [List.pairwise_map]
  refine List.pairwise_lt_range.imp_of_mem ?_
  intro pe pe' hMem hMem' hLt
  obtain ⟨m, hm, hEq⟩ := hBuffers pe (List.mem_range.mp hMem)
  obtain ⟨n, hn, hEq'⟩ := hBuffers pe' (List.mem_range.mp hMem')
  rw [hEq, hEq']
  exact bufferOf_disjoint hFirmware hLt (List.mem_range.mp hMem') hm hn

end Disjointness

/-! ## The address range -/

section Range

variable (r : Region)

/-- How far up from the base of the node an attempt is. -/
def offset (pe attempt : Nat) : Nat := (pe + attempt) * r.bufSize.toNat % 2 ^ 64

theorem toNat_tried (pe attempt : Nat) :
    (r.tried pe attempt).toNat = (r.memBase.toNat + offset r pe attempt) % 2 ^ 64 := by
  rw [Region.tried, BitVec.toNat_add, BitVec.toNat_mul, BitVec.toNat_ofNat, offset,
    Nat.mod_mul_mod]

/-- A buffer lies in the node exactly when it is granted before the end of the node. -/
theorem bytes_subset_iff (pe attempt : Nat) :
    r.bytes (r.tried pe attempt) ⊆ r.node ↔
      offset r pe attempt + r.bufSize.toNat ≤ r.memSize.toNat := by
  have hFits := r.fits
  have hPos : 0 < r.bufSize.toNat :=
    Nat.pos_of_ne_zero fun h => r.bufSize_ne_zero (BitVec.eq_of_toNat_eq h)
  have hOffset : offset r pe attempt < 2 ^ 64 := Nat.mod_lt _ (by decide)
  have hTried := toNat_tried r pe attempt
  have hBase := r.memBase.isLt
  rw [Region.bytes, Region.node, Set.Ico_subset_Ico_iff (by omega)]
  omega

theorem not_bytes_subset (hSize : r.memSize = 0) (buffer : BitVec 64) :
    ¬ r.bytes buffer ⊆ r.node := by
  intro h
  have hPos : 0 < r.bufSize.toNat :=
    Nat.pos_of_ne_zero fun h => r.bufSize_ne_zero (BitVec.eq_of_toNat_eq h)
  have hMem := h (show buffer.toNat ∈ r.bytes buffer from ⟨Nat.le_refl _, by omega⟩)
  obtain ⟨hLo, hHi⟩ := hMem
  rw [hSize] at hHi
  exact absurd (Nat.lt_of_le_of_lt hLo hHi) (by simp)

end Range

/-- Every buffer lies in the node, and no two overlap. -/
structure BuffersSafe (r : Region) (buffers : List (BitVec 64)) : Prop where
  inside : ∀ buffer ∈ buffers, r.bytes buffer ⊆ r.node
  disjoint : buffers.Pairwise fun a b => r.bytes a ∩ r.bytes b = ∅

/-! ## Two PEs -/

/-- A node that has room for two buffers. -/
def twoBuffers : Region := ⟨0x100000, 0x4000, 0x2000, by decide, by decide⟩

/-- A firmware that refuses the first attempts for the second PE. -/
def refusing (n : Nat) : Firmware where
  poolFails := false
  grants pe attempt := pe = 0 ∨ n ≤ attempt
  allocated := ∅
  uninitialised _ := 0

theorem refusing_firstGrant {n pe attempt : Nat}
    (h : FirstGrant (refusing n) twoBuffers pe attempt) : attempt = if pe = 0 then 0 else n := by
  have hGranted : pe = 0 ∨ n ≤ attempt := of_decide_eq_true h.granted
  have hRefused : ∀ k < attempt, ¬ (pe = 0 ∨ n ≤ k) := fun k hk =>
    of_decide_eq_false (h.refused k hk)
  split
  · rename_i hPe
    by_contra hNe
    exact hRefused 0 (Nat.pos_of_ne_zero hNe) (Or.inl hPe)
  · rename_i hPe
    have hLe := hGranted.resolve_left hPe
    by_contra hNe
    exact hRefused n (by omega) (Or.inr (Nat.le_refl n))

/-- It does not hand out a page twice: the second buffer is further up. -/
theorem refusing_neverTwice {n : Nat} (hn : n ≤ 1) : NeverTwice (refusing n) twoBuffers 2 := by
  intro pe hPe attempt hGrant
  rw [Set.eq_empty_iff_forall_notMem]
  rintro page ⟨hPage, hOld | ⟨pe', hLt, attempt', hGrant', hPage'⟩⟩
  · exact hOld
  · have hFirst : pe' = 0 := by omega
    have hSecond : pe = 1 := by omega
    have hAttempt := refusing_firstGrant hGrant
    have hAttempt' := refusing_firstGrant hGrant'
    subst hFirst hSecond
    rw [if_neg (by decide)] at hAttempt
    rw [if_pos rfl] at hAttempt'
    subst hAttempt hAttempt'
    have hPages : efiSizeToPages twoBuffers.bufSize = 2 := by decide
    have hBase : twoBuffers.memBase.toNat = 0x100000 := by decide
    have hSize : twoBuffers.bufSize.toNat = 0x2000 := by decide
    obtain ⟨hLo, -⟩ := hPage
    obtain ⟨-, hHi⟩ := hPage'
    rw [toNat_tried, offset, hBase, hSize, pageSize] at hLo
    rw [toNat_tried, offset, hBase, hSize, hPages, pageSize] at hHi
    omega

/-- The buffers of a run that succeeds are safe exactly when the attempt that is granted to each
PE ends before the node does. -/
theorem shared_buffers_iff (fw : Firmware) (r : Region) (peCnt : BitVec 32)
    {buffers : List (BitVec 64)}
    (hRun : palMemAllocateSharedMemcpybuf fw r peCnt = some buffers)
    (hFirmware : NeverTwice fw r peCnt.toNat) :
    BuffersSafe r buffers ↔
      ∀ pe < peCnt.toNat, ∃ attempt, FirstGrant fw r pe attempt ∧
        offset r pe attempt + r.bufSize.toNat ≤ r.memSize.toNat := by
  rw [palMemAllocateSharedMemcpybuf] at hRun
  split at hRun
  · cases hRun
  · obtain ⟨rfl, hNull⟩ := allocateAll_eq hRun
    have hBuffers : r.memSize ≠ 0 → ∀ pe < peCnt.toNat, ∃ attempt, FirstGrant fw r pe attempt ∧
        bufferOf fw r pe = r.tried pe attempt := fun hSize pe hPe =>
      bufferOf_eq hSize (hNull pe (List.mem_range.mpr hPe))
    apply Iff.intro
    · intro h pe hPe
      have hInside := h.inside _ (List.mem_map_of_mem (List.mem_range.mpr hPe))
      have hSize : r.memSize ≠ 0 := fun hZero => not_bytes_subset r hZero _ hInside
      obtain ⟨attempt, hGrant, hEq⟩ := hBuffers hSize pe hPe
      rw [hEq, bytes_subset_iff] at hInside
      exact ⟨attempt, hGrant, hInside⟩
    · intro h
      have hSize : ∀ pe < peCnt.toNat, r.memSize ≠ 0 := fun pe hPe => by
        obtain ⟨_, hGrant, -⟩ := h pe hPe
        exact hGrant.attempted
      refine ⟨fun buffer hMem => ?_, buffers_disjoint hFirmware fun pe hPe =>
        hBuffers (hSize pe hPe) pe hPe⟩
      obtain ⟨pe, hPe, rfl⟩ := List.mem_map.mp hMem
      have hLt := List.mem_range.mp hPe
      obtain ⟨attempt, hGrant, hEq⟩ := hBuffers (hSize pe hLt) pe hLt
      obtain ⟨attempt', hGrant', hEnd⟩ := h pe hLt
      rw [hEq, bytes_subset_iff, hGrant.unique hGrant']
      exact hEnd

/-- The second PE is granted its first attempt, and both buffers lie in the node. -/
theorem shared_buffers_two :
    BuffersSafe twoBuffers [0x100000, 0x102000] ↔
      ∀ pe < (2 : BitVec 32).toNat, ∃ attempt, FirstGrant (refusing 0) twoBuffers pe attempt ∧
        offset twoBuffers pe attempt + twoBuffers.bufSize.toNat ≤ twoBuffers.memSize.toNat :=
  shared_buffers_iff (refusing 0) twoBuffers 2
    (by simp [palMemAllocateSharedMemcpybuf, allocateAll, bufferOf, palMemAllocateAddress, search,
      refusing, twoBuffers, List.range_succ])
    (refusing_neverTwice (Nat.zero_le 1))

/-- Refused once, the second PE is granted the address at which the node ends. -/
theorem second_buffer_outside :
    palMemAllocateSharedMemcpybuf (refusing 1) twoBuffers 2 = some [0x100000, 0x104000] ∧
      NeverTwice (refusing 1) twoBuffers 2 ∧
      ¬ BuffersSafe twoBuffers [0x100000, 0x104000] := by
  refine ⟨?_, refusing_neverTwice (Nat.le_refl 1), fun h => ?_⟩
  · simp [palMemAllocateSharedMemcpybuf, allocateAll, bufferOf, palMemAllocateAddress, search,
      refusing, twoBuffers, List.range_succ]
  · have hInside := h.inside 0x104000 (by decide)
    have hMem := hInside (show 0x104000 ∈ twoBuffers.bytes 0x104000 by
      exact ⟨by decide, by decide⟩)
    exact absurd hMem.2 (by decide)

end EnterpriseAcs.Mpam
