import EnterpriseAcs.Library.Ledger
import EnterpriseAcs.Mpam.AddressSearch

/-!
# Allocating the shared copy buffers, block by block

`pal_mem_allocate_shared_memcpybuf` takes a table from the pool and pages for each PE. When the
search for a PE returns null, it frees what it has through the general routine: the first slots
of the table, and the table. The log holds what the boot services hand out and get back.

* `allocateSlots_spec`: how the loop over the PEs ends.
* `rollback_iff`: when an allocation that fails leaves nothing behind.
-/

namespace EnterpriseAcs.Mpam

open Ledger (Event acquired released Clean)

/-! ## Blocks -/

/-- What the tests take from the pool. -/
inductive PoolUse
  | copyTable
  | latencyTable
  | latencyRow (node : Nat)
  deriving DecidableEq, Repr

/-- A range of pages, or a block of the pool. A stray range is one that `AllocatePages` has not
granted. -/
inductive Block
  | pages (address : BitVec 64) (count : Nat)
  | stray (address : BitVec 64) (count : Nat)
  | pool (use : PoolUse)
  deriving DecidableEq, Repr

/-- A slot of `gSharedMemCpyBuf`, and whether the address in it was granted. -/
structure Slot where
  address : BitVec 64
  granted : Bool
  deriving DecidableEq, Repr

/-- What the callers pass: any range, and the size of a buffer. -/
structure CopyRequest where
  memBase : BitVec 64
  memSize : BitVec 64
  bufSize : BitVec 64
  bufSize_ne_zero : bufSize ≠ 0

/-- The block that `pal_mem_free_buf` is called with for a slot. -/
def blockOf (bufSize : BitVec 64) (slot : Slot) : Block :=
  if slot.granted then .pages slot.address (efiSizeToPages bufSize)
  else .stray slot.address (efiSizeToPages bufSize)

/-- `pal_mem_free_shared_memcpybuf`. -/
def palMemFreeSharedMemcpybuf (slots : Nat → Slot) (peCnt : Nat) (bufSize : BitVec 64) :
    List (Event Block) :=
  (List.range peCnt).map (fun pe => .release (blockOf bufSize (slots pe))) ++
    [.release (.pool .copyTable)]

section Program

variable (fw : Firmware) (q : CopyRequest)

/-- Where the search for a PE starts. -/
def CopyRequest.start (pe : Nat) : BitVec 64 := q.memBase + BitVec.ofNat 64 pe * q.bufSize

/-- What the search for a PE returns. -/
def slotOf (pe : Nat) : Slot where
  address := palMemAllocateAddress fw pe (q.start pe) q.memSize q.bufSize q.bufSize_ne_zero
  granted := q.memSize ≠ 0 ∧
    (search q.bufSize q.bufSize_ne_zero (fw.grants pe) 0 (q.start pe) q.memSize).isSome

/-- What it takes from the firmware. -/
def takenFor (pe : Nat) : List (Event Block) :=
  if (slotOf fw q pe).granted then [.acquire (blockOf q.bufSize (slotOf fw q pe))] else []

/-- The status, the slots of the table, and what was taken and given back. -/
structure CopyBufs where
  status : Bool
  slots : Nat → Slot
  log : List (Event Block)

/-- The loop over the PEs, `left` of them from `pe` on. -/
def allocateSlots : Nat → Nat → CopyBufs → CopyBufs
  | 0, _, s => { s with status := true }
  | left + 1, pe, s =>
    let s := { s with
      slots := Function.update s.slots pe (slotOf fw q pe)
      log := s.log ++ takenFor fw q pe }
    if (slotOf fw q pe).address = 0 then
      { s with status := false, log := s.log ++ palMemFreeSharedMemcpybuf s.slots pe q.bufSize }
    else allocateSlots left (pe + 1) s

/-- The slots of the table before they are set. -/
def unsetSlots : Nat → Slot := fun _ => ⟨0, false⟩

/-- `pal_mem_allocate_shared_memcpybuf`. -/
def sharedMemcpybuf (peCnt : BitVec 32) : CopyBufs :=
  if fw.poolFails then ⟨false, unsetSlots, []⟩
  else allocateSlots fw q peCnt.toNat 0 ⟨false, unsetSlots, [.acquire (.pool .copyTable)]⟩

/-! ## The loop -/

/-- What is taken up to a PE. -/
def takenBefore (pe : Nat) : List (Event Block) :=
  .acquire (.pool .copyTable) :: (List.range pe).flatMap (takenFor fw q)

/-- The loop has come to a PE. -/
structure FilledTo (pe : Nat) (s : CopyBufs) : Prop where
  slots : ∀ i < pe, s.slots i = slotOf fw q i
  log : s.log = takenBefore fw q pe

/-- The search for a PE is the first one that returns null. -/
structure FailsAt (peCnt pe : Nat) : Prop where
  lt : pe < peCnt
  before : ∀ i < pe, (slotOf fw q i).address ≠ 0
  null : (slotOf fw q pe).address = 0

end Program

section Loop

variable {fw : Firmware} {q : CopyRequest}

theorem takenBefore_succ (pe : Nat) :
    takenBefore fw q (pe + 1) = takenBefore fw q pe ++ takenFor fw q pe := by
  simp [takenBefore, List.range_succ]

/-- The routine reads the slots of the PEs that it is given. -/
theorem free_congr {slots slots' : Nat → Slot} {peCnt : Nat} (bufSize : BitVec 64)
    (h : ∀ i < peCnt, slots i = slots' i) :
    palMemFreeSharedMemcpybuf slots peCnt bufSize =
      palMemFreeSharedMemcpybuf slots' peCnt bufSize := by
  rw [palMemFreeSharedMemcpybuf, palMemFreeSharedMemcpybuf]
  congr 1
  apply List.map_congr_left
  intro i hi
  rw [h i (List.mem_range.mp hi)]

theorem FilledTo.step {pe : Nat} {s : CopyBufs} (h : FilledTo fw q pe s) :
    FilledTo fw q (pe + 1) { s with
      slots := Function.update s.slots pe (slotOf fw q pe)
      log := s.log ++ takenFor fw q pe } := by
  refine ⟨fun i hi => ?_, ?_⟩
  · by_cases hEq : i = pe
    · subst hEq
      exact Function.update_self i _ _
    · exact (Function.update_of_ne hEq _ _).trans (h.slots i (by omega))
  · rw [takenBefore_succ, h.log]

/-- The loop sets all slots, or stops at the first search that returns null. -/
theorem allocateSlots_spec (left pe : Nat) (s : CopyBufs) (hFilled : FilledTo fw q pe s)
    (hBefore : ∀ i < pe, (slotOf fw q i).address ≠ 0) :
    ((allocateSlots fw q left pe s).status = true ∧
        FilledTo fw q (pe + left) (allocateSlots fw q left pe s) ∧
        ∀ i < pe + left, (slotOf fw q i).address ≠ 0) ∨
      ((allocateSlots fw q left pe s).status = false ∧
        ∃ k, FailsAt fw q (pe + left) k ∧ (allocateSlots fw q left pe s).log =
          takenBefore fw q (k + 1) ++ palMemFreeSharedMemcpybuf (slotOf fw q) k q.bufSize) := by
  induction left generalizing pe s with
  | zero => exact Or.inl ⟨rfl, ⟨hFilled.slots, hFilled.log⟩, hBefore⟩
  | succ left ih =>
    have hStep := hFilled.step
    rw [allocateSlots]
    dsimp only
    split
    · rename_i hNull
      refine Or.inr ⟨rfl, pe, ⟨by omega, hBefore, hNull⟩, ?_⟩
      rw [← hStep.log]
      exact congrArg _ (free_congr _ fun i hi => hStep.slots i (by omega))
    · rename_i hSlot
      have hNext : ∀ i < pe + 1, (slotOf fw q i).address ≠ 0 := by
        intro i hi
        rcases Nat.lt_succ_iff_lt_or_eq.mp hi with hLt | rfl
        · exact hBefore i hLt
        · exact hSlot
      have hEnd := ih (pe + 1) _ hStep hNext
      rwa [Nat.add_right_comm, Nat.add_assoc] at hEnd

theorem sharedMemcpybuf_spec (peCnt : BitVec 32) (hPool : fw.poolFails = false) :
    ((sharedMemcpybuf fw q peCnt).status = true ∧
        FilledTo fw q peCnt.toNat (sharedMemcpybuf fw q peCnt) ∧
        ∀ i < peCnt.toNat, (slotOf fw q i).address ≠ 0) ∨
      ((sharedMemcpybuf fw q peCnt).status = false ∧
        ∃ k, FailsAt fw q peCnt.toNat k ∧ (sharedMemcpybuf fw q peCnt).log =
          takenBefore fw q (k + 1) ++ palMemFreeSharedMemcpybuf (slotOf fw q) k q.bufSize) := by
  have hStart : FilledTo fw q 0 ⟨false, unsetSlots, [.acquire (.pool .copyTable)]⟩ :=
    ⟨fun i hi => absurd hi (Nat.not_lt_zero i), rfl⟩
  have hLoop := allocateSlots_spec peCnt.toNat 0 _ hStart fun i hi => absurd hi (Nat.not_lt_zero i)
  rw [Nat.zero_add] at hLoop
  rw [sharedMemcpybuf, hPool]
  exact hLoop

/-- The same request for a range that fits. -/
def Region.request (r : Region) : CopyRequest :=
  ⟨r.memBase, r.memSize, r.bufSize, r.bufSize_ne_zero⟩

theorem allocateAll_of_ne {r : Region} {pes : List Nat} (h : ∀ pe ∈ pes, bufferOf fw r pe ≠ 0) :
    allocateAll fw r pes = some (pes.map (bufferOf fw r)) := by
  induction pes with
  | nil => rfl
  | cons pe pes ih =>
    rw [allocateAll, if_neg (h pe List.mem_cons_self),
      ih fun pe' hMem => h pe' (List.mem_cons_of_mem pe hMem)]
    rfl

/-- The loop and its table give the buffers of `palMemAllocateSharedMemcpybuf`. -/
theorem sharedMemcpybuf_refines (r : Region) (peCnt : BitVec 32) :
    palMemAllocateSharedMemcpybuf fw r peCnt =
      if (sharedMemcpybuf fw r.request peCnt).status then
        some ((List.range peCnt.toNat).map fun pe =>
          ((sharedMemcpybuf fw r.request peCnt).slots pe).address)
      else none := by
  have hAddress : ∀ pe, (slotOf fw r.request pe).address = bufferOf fw r pe := fun _ => rfl
  cases hPool : fw.poolFails with
  | true => rw [palMemAllocateSharedMemcpybuf, sharedMemcpybuf, if_pos hPool, if_pos hPool]; rfl
  | false =>
    rw [palMemAllocateSharedMemcpybuf, hPool, if_neg Bool.false_ne_true]
    rcases sharedMemcpybuf_spec (q := r.request) peCnt hPool with
      ⟨hStatus, hFilled, hSlots⟩ | ⟨hStatus, k, hFails, -⟩
    · rw [hStatus, if_pos rfl, allocateAll_of_ne fun pe hMem => hSlots pe (List.mem_range.mp hMem)]
      congr 1
      apply List.map_congr_left
      intro pe hMem
      rw [hFilled.slots pe (List.mem_range.mp hMem), hAddress]
    · rw [hStatus, if_neg Bool.false_ne_true]
      cases hAll : allocateAll fw r (List.range peCnt.toNat) with
      | none => rfl
      | some buffers =>
        have hNull := (allocateAll_eq hAll).2 k (List.mem_range.mpr hFails.lt)
        exact absurd hFails.null hNull

end Loop

/-! ## What is taken and given back -/

section Balance

variable {fw : Firmware} {q : CopyRequest}

theorem granted_iff (pe : Nat) :
    (slotOf fw q pe).granted = true ↔ q.memSize ≠ 0 ∧
      (search q.bufSize q.bufSize_ne_zero (fw.grants pe) 0 (q.start pe) q.memSize).isSome := by
  simp only [slotOf, decide_eq_true_eq]

/-- A range that is searched gives a buffer only by a grant. -/
theorem granted_of_ne (hSize : q.memSize ≠ 0) {pe : Nat} (h : (slotOf fw q pe).address ≠ 0) :
    (slotOf fw q pe).granted = true := by
  refine (granted_iff pe).mpr ⟨hSize, ?_⟩
  simp only [slotOf, palMemAllocateAddress, if_neg hSize] at h
  cases hSearch : search q.bufSize q.bufSize_ne_zero (fw.grants pe) 0 (q.start pe) q.memSize with
  | none =>
    rw [hSearch] at h
    exact absurd rfl h
  | some buffer => rfl

theorem not_granted_of_empty (hSize : q.memSize = 0) (pe : Nat) :
    (slotOf fw q pe).granted = false := by
  rw [← Bool.not_eq_true, granted_iff]
  exact fun h => h.1 hSize

/-- The blocks of the slots below a count, and those among them that were granted. -/
def blocksBelow (fw : Firmware) (q : CopyRequest) (peCnt : Nat) : List Block :=
  (List.range peCnt).map fun pe => blockOf q.bufSize (slotOf fw q pe)

def grantedBelow (fw : Firmware) (q : CopyRequest) (peCnt : Nat) : List Block :=
  ((List.range peCnt).filter fun pe => (slotOf fw q pe).granted).map fun pe =>
    blockOf q.bufSize (slotOf fw q pe)

theorem length_blocksBelow (peCnt : Nat) : (blocksBelow fw q peCnt).length = peCnt := by
  rw [blocksBelow, List.length_map, List.length_range]

theorem grantedBelow_of_granted {peCnt : Nat}
    (h : ∀ pe < peCnt, (slotOf fw q pe).granted = true) :
    grantedBelow fw q peCnt = blocksBelow fw q peCnt := by
  rw [grantedBelow, blocksBelow, List.filter_eq_self.mpr]
  exact fun pe hMem => h pe (List.mem_range.mp hMem)

theorem grantedBelow_of_empty (hSize : q.memSize = 0) (peCnt : Nat) :
    grantedBelow fw q peCnt = [] := by
  rw [grantedBelow, List.filter_eq_nil_iff.mpr, List.map_nil]
  intro pe _
  rw [not_granted_of_empty hSize]
  exact Bool.false_ne_true

theorem takenBefore_eq (peCnt : Nat) :
    takenBefore fw q peCnt =
      (Block.pool .copyTable :: grantedBelow fw q peCnt).map Event.acquire := by
  induction peCnt with
  | zero => rfl
  | succ peCnt ih =>
    rw [takenBefore_succ, ih, takenFor, grantedBelow, grantedBelow, List.range_succ,
      List.filter_append]
    cases hGranted : (slotOf fw q peCnt).granted with
    | true => simp [hGranted]
    | false => simp [hGranted]

theorem free_eq (peCnt : Nat) :
    palMemFreeSharedMemcpybuf (slotOf fw q) peCnt q.bufSize =
      (blocksBelow fw q peCnt ++ [Block.pool .copyTable]).map Event.release := by
  simp [palMemFreeSharedMemcpybuf, blocksBelow]

/-- Of an empty range nothing is taken, and every slot before the failure is given back. -/
theorem failed_clean_empty (hSize : q.memSize = 0) (k : Nat) :
    Clean (takenBefore fw q (k + 1) ++ palMemFreeSharedMemcpybuf (slotOf fw q) k q.bufSize) ↔
      k = 0 := by
  rw [takenBefore_eq, grantedBelow_of_empty hSize, free_eq, Ledger.clean_iff_perm]
  apply Iff.intro
  · intro h
    have hLength := h.length_eq
    rw [List.length_append, length_blocksBelow] at hLength
    exact Nat.add_right_cancel hLength
  · rintro rfl
    exact List.Perm.refl _

/-- Otherwise the slots before the failure were granted; the last one must not be. -/
theorem failed_clean_iff {k : Nat} (hSize : q.memSize ≠ 0)
    (hBefore : ∀ i < k, (slotOf fw q i).address ≠ 0) :
    Clean (takenBefore fw q (k + 1) ++ palMemFreeSharedMemcpybuf (slotOf fw q) k q.bufSize) ↔
      (slotOf fw q k).granted = false := by
  have hGranted : ∀ i < k, (slotOf fw q i).granted = true := fun i hi =>
    granted_of_ne hSize (hBefore i hi)
  cases hLast : (slotOf fw q k).granted with
  | true =>
    have hAll : ∀ i < k + 1, (slotOf fw q i).granted = true := by
      intro i hi
      rcases Nat.lt_succ_iff_lt_or_eq.mp hi with hLt | rfl
      · exact hGranted i hLt
      · exact hLast
    refine iff_of_false (fun h => ?_) Bool.true_eq_false.mp
    rw [takenBefore_eq, grantedBelow_of_granted hAll, free_eq, Ledger.clean_iff_perm] at h
    have hLength := h.length_eq
    simp only [List.length_append, List.length_cons, length_blocksBelow, List.length_nil] at hLength
    omega
  | false =>
    refine iff_of_true ?_ rfl
    rw [takenBefore_succ, takenFor, hLast, if_neg Bool.false_ne_true, List.append_nil,
      takenBefore_eq, grantedBelow_of_granted hGranted, free_eq, Ledger.clean_iff_perm]
    exact List.perm_append_singleton _ _

end Balance

/-! ## Allocations that fail -/

/-- What the call took it has given back, each block once, and every other block is as before. -/
structure AllOrNothing (log : List (Event Block)) : Prop where
  freedOnce : released log = acquired log
  restores : ∀ held, Transition.run Ledger.step held log = some held

theorem allOrNothing_iff_clean (log : List (Event Block)) : AllOrNothing log ↔ Clean log :=
  ⟨fun h => h.restores 0, fun h => ⟨h.released_eq, h.restores⟩⟩

/-- The firmware grants the search for a PE the pages at the null address. -/
def NullGranted (fw : Firmware) (q : CopyRequest) (pe : Nat) : Prop :=
  ∃ n < attempts q.bufSize q.bufSize_ne_zero (fw.grants pe) 0 q.memSize,
    fw.grants pe n = true ∧ q.start pe + BitVec.ofNat 64 n * q.bufSize = 0

/-- The loop comes to a PE. -/
def ComesTo (fw : Firmware) (q : CopyRequest) (pe : Nat) : Prop :=
  ∀ i < pe, (slotOf fw q i).address ≠ 0

section Failures

variable {fw : Firmware} {q : CopyRequest}

theorem nullGranted_iff (hSize : q.memSize ≠ 0) (pe : Nat) :
    NullGranted fw q pe ↔ (slotOf fw q pe).address = 0 ∧ (slotOf fw q pe).granted = true := by
  have hSearch := search_eq_some_iff q.bufSize_ne_zero (fw.grants pe) 0 (q.start pe) q.memSize 0
  simp only [Nat.zero_add] at hSearch
  rw [NullGranted, ← hSearch, granted_iff]
  simp only [slotOf, palMemAllocateAddress, if_neg hSize]
  cases search q.bufSize q.bufSize_ne_zero (fw.grants pe) 0 (q.start pe) q.memSize with
  | none => simp
  | some buffer => simp only [Option.some.injEq, Option.getD_some, Option.isSome_some, and_true,
      and_iff_left hSize]

/-- The PE at which the loop fails is the only one that could be granted the null address. -/
theorem not_granted_iff {peCnt k : Nat} (hSize : q.memSize ≠ 0) (hFails : FailsAt fw q peCnt k) :
    (slotOf fw q k).granted = false ↔
      ∀ pe < peCnt, ComesTo fw q pe → ¬ NullGranted fw q pe := by
  rw [← Bool.not_eq_true]
  apply Iff.intro
  · intro h pe hPe hComes hNull
    obtain ⟨hAddress, hGranted⟩ := (nullGranted_iff hSize pe).mp hNull
    rcases Nat.lt_trichotomy pe k with hLt | rfl | hLt
    · exact hFails.before pe hLt hAddress
    · exact h hGranted
    · exact hComes k hLt hFails.null
  · intro h hGranted
    exact h k hFails.lt hFails.before ((nullGranted_iff hSize k).mpr ⟨hFails.null, hGranted⟩)

/-- In an empty range the loop fails at the first PE exactly when its locals read as null. -/
theorem fails_first_iff {peCnt k : Nat} (hSize : q.memSize = 0) (hFails : FailsAt fw q peCnt k) :
    k = 0 ↔ fw.uninitialised 0 = 0 := by
  have hAddress : (slotOf fw q 0).address = fw.uninitialised 0 := by
    simp only [slotOf, palMemAllocateAddress, if_pos hSize]
  rw [← hAddress]
  apply Iff.intro
  · rintro rfl
    exact hFails.null
  · intro h
    by_contra hNe
    exact hFails.before 0 (Nat.pos_of_ne_zero hNe) h

end Failures

/-- An allocation that fails leaves nothing behind and frees nothing else, apart from two cases:
the pages at the null address are granted, or the range is empty and the locals that are read
uninitialised do not read as null for the first PE. -/
theorem rollback_iff (fw : Firmware) (q : CopyRequest) (peCnt : BitVec 32)
    (hFailed : (sharedMemcpybuf fw q peCnt).status = false) :
    AllOrNothing (sharedMemcpybuf fw q peCnt).log ↔
      fw.poolFails = true ∨ (q.memSize = 0 ∧ fw.uninitialised 0 = 0) ∨
        (q.memSize ≠ 0 ∧ ∀ pe < peCnt.toNat, ComesTo fw q pe → ¬ NullGranted fw q pe) := by
  rw [allOrNothing_iff_clean]
  cases hPool : fw.poolFails with
  | true =>
    rw [sharedMemcpybuf, if_pos hPool]
    exact iff_of_true Ledger.clean_nil (Or.inl rfl)
  | false =>
    rcases sharedMemcpybuf_spec (q := q) peCnt hPool with ⟨hDone, -⟩ | ⟨-, k, hFails, hLog⟩
    · rw [hFailed] at hDone
      exact absurd hDone Bool.false_ne_true
    · rw [hLog, or_iff_right Bool.false_ne_true]
      by_cases hSize : q.memSize = 0
      · rw [failed_clean_empty hSize, fails_first_iff hSize hFails,
          or_iff_left fun h => h.1 hSize, and_iff_right hSize]
      · rw [failed_clean_iff hSize hFails.before, not_granted_iff hSize hFails,
          or_iff_right fun h => hSize h.1, and_iff_right hSize]

theorem twoPages_ne_zero : (0x2000 : BitVec 64) ≠ 0 := by decide

/-- Two buffers in a node that is as long as one. -/
def oneBuffer : CopyRequest := ⟨0x100000, 0x2000, 0x2000, twoPages_ne_zero⟩

/-- The second PE is refused, and the first one's buffer is given back. -/
theorem rollback_one :
    (sharedMemcpybuf (refusing 1) oneBuffer 2).status = false ∧
      AllOrNothing (sharedMemcpybuf (refusing 1) oneBuffer 2).log := by
  have hFirst : slotOf (refusing 1) oneBuffer 0 = ⟨0x100000, true⟩ := by
    simp [slotOf, palMemAllocateAddress, search, refusing, oneBuffer, CopyRequest.start]
  have hSecond : slotOf (refusing 1) oneBuffer 1 = ⟨0, false⟩ := by
    simp [slotOf, palMemAllocateAddress, search, refusing, oneBuffer, CopyRequest.start]
  have hFailed : (sharedMemcpybuf (refusing 1) oneBuffer 2).status = false := by
    have hPool : (refusing 1).poolFails = false := rfl
    rw [sharedMemcpybuf, hPool, if_neg Bool.false_ne_true]
    simp [allocateSlots, hFirst, hSecond]
  have hSize : oneBuffer.memSize ≠ 0 := by decide
  refine ⟨hFailed, (rollback_iff (refusing 1) oneBuffer 2 hFailed).mpr
    (Or.inr (Or.inr ⟨hSize, fun pe hPe _ hNull => ?_⟩))⟩
  obtain ⟨hAddress, hGranted⟩ := (nullGranted_iff hSize pe).mp hNull
  cases pe with
  | zero =>
    rw [hFirst] at hAddress
    exact absurd hAddress (by decide)
  | succ pe =>
    have hLast : pe = 0 := by
      have hTwo : pe + 1 < 2 := hPe
      omega
    rw [hLast, hSecond] at hGranted
    cases hGranted

/-- Two buffers in a memory node at address 0. -/
def zeroNode : CopyRequest := ⟨0, 0x4000, 0x2000, twoPages_ne_zero⟩

/-- The first pages are granted and never given back. -/
theorem null_pages_kept :
    (sharedMemcpybuf (refusing 0) zeroNode 2).status = false ∧
      ¬ AllOrNothing (sharedMemcpybuf (refusing 0) zeroNode 2).log := by
  have hSlot : slotOf (refusing 0) zeroNode 0 = ⟨0, true⟩ := by
    simp [slotOf, palMemAllocateAddress, search, refusing, zeroNode, CopyRequest.start]
  have hRun : sharedMemcpybuf (refusing 0) zeroNode 2 =
      ⟨false, Function.update unsetSlots 0 ⟨0, true⟩, [.acquire (.pool .copyTable),
        .acquire (blockOf zeroNode.bufSize ⟨0, true⟩), .release (.pool .copyTable)]⟩ := by
    have hPool : (refusing 0).poolFails = false := rfl
    rw [sharedMemcpybuf, hPool, if_neg Bool.false_ne_true]
    simp [allocateSlots, hSlot, takenFor, palMemFreeSharedMemcpybuf]
  refine ⟨by rw [hRun], fun h => ?_⟩
  have hCard := congrArg Multiset.card h.freedOnce
  rw [hRun] at hCard
  simp [released, acquired] at hCard

end EnterpriseAcs.Mpam
