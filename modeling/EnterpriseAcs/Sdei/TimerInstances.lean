import EnterpriseAcs.Library.Blocks
import EnterpriseAcs.Library.WhileLoop
import EnterpriseAcs.Sdei.DeviceTables

/-!
# From the number of a platform timer to its block and frame

The platform timers are numbered through the GT blocks of the timer table. VAL and PAL each have
a search that takes the number of a timer down block by block. It passes a block only when the
number is larger than the count of the block, so that the first timer of the next block is taken
for one more frame of the block before.

* `timerCounts`: what the builder of the table promises, and `TimerTable.ofGtdt` its table.
* `getEntryIndex_eq`: where the search stops, for every number up to the number of timers.
* `entryIndex_iff`: the numbers for which it stops at the frame, or says that there is none.
-/

namespace EnterpriseAcs.Sdei

open Acpi Blocks Machine WhileLoop

/-- A timer table in its buffer: the blocks and frames that the builder has set, and what the
buffer has at the others. -/
structure TimerTable where
  info : TimerInfoTable
  unsetCount : Nat → BitVec 32
  unsetFrame : Nat → Nat → GtFrame
  frames_length : ∀ block ∈ info.gtInfo, block.frames.length = block.timerCount.toNat
  num_eq_sum : info.numPlatformTimer.toNat = (info.gtInfo.map fun b => b.timerCount.toNat).sum
  blocks_lt : info.gtInfo.length < 2 ^ 32

namespace TimerTable

/-- `num_platform_timer`. -/
def num (t : TimerTable) : Nat := t.info.numPlatformTimer.toNat

/-- The numbers of frames. -/
def counts (t : TimerTable) : List Nat := t.info.gtInfo.map fun b => b.timerCount.toNat

/-- `gt_info[k].timer_count`. -/
def timerCount (t : TimerTable) (k : Nat) : BitVec 32 :=
  (t.info.gtInfo[k]?.map fun b => b.timerCount).getD (t.unsetCount k)

theorem num_eq (t : TimerTable) : t.num = t.counts.sum := t.num_eq_sum

theorem counts_length (t : TimerTable) : t.counts.length = t.info.gtInfo.length :=
  List.length_map _

theorem timerCount_of_counts {t : TimerTable} {k size : Nat} (h : t.counts[k]? = some size) :
    (t.timerCount k).toNat = size := by
  rw [counts, List.getElem?_map] at h
  obtain ⟨block, hBlock, rfl⟩ := Option.map_eq_some_iff.mp h
  rw [timerCount, hBlock]
  rfl

end TimerTable

/-! ## The table of the builder -/

/-- What each visit of the builder keeps: the counts are those of the frames, and the number of
timers is their sum. -/
structure TimerCounts (info : TimerInfoTable) : Prop where
  frames_length : ∀ block ∈ info.gtInfo, block.frames.length = block.timerCount.toNat
  num_eq_sum : info.numPlatformTimer =
    BitVec.ofNat 32 (info.gtInfo.map fun b => b.timerCount.toNat).sum

theorem timerVisit_counts (gtdt : Memory) (entry : Nat) {info : TimerInfoTable}
    (h : TimerCounts info) :
    TimerCounts (timerVisit gtdt entry info) ∧
      (timerVisit gtdt entry info).gtInfo.length ≤ info.gtInfo.length + 1 := by
  rw [timerVisit]
  split
  · refine ⟨⟨?_, ?_⟩, Nat.le_of_eq List.length_append⟩
    · intro block hBlock
      rcases List.mem_append.mp hBlock with hOld | hNew
      · exact h.frames_length block hOld
      · obtain rfl := List.mem_singleton.mp hNew
        rw [List.length_map, List.length_range]
    · rw [h.num_eq_sum, List.map_append, List.sum_append, BitVec.ofNat_add]
      simp
  · exact ⟨h, Nat.le_succ _⟩

theorem timerVisits_counts (gtdt : Memory) (entries : List Nat) {info : TimerInfoTable}
    (h : TimerCounts info) :
    TimerCounts (entries.foldl (fun t entry => timerVisit gtdt entry t) info) ∧
      (entries.foldl (fun t entry => timerVisit gtdt entry t) info).gtInfo.length ≤
        info.gtInfo.length + entries.length := by
  induction entries generalizing info with
  | nil => exact ⟨h, Nat.le_refl _⟩
  | cons entry entries ih =>
    obtain ⟨hCounts, hLength⟩ := timerVisit_counts gtdt entry h
    obtain ⟨hRest, hTotal⟩ := ih hCounts
    rw [List.foldl_cons, List.length_cons]
    exact ⟨hRest, by omega⟩

/-- `PlatformTimerCount` is a word, and so are the blocks counted by one. -/
theorem timerCounts (gtdt : Memory) :
    TimerCounts (palTimerCreateInfoTable (some gtdt)).table ∧
      (palTimerCreateInfoTable (some gtdt)).table.gtInfo.length < 2 ^ 32 := by
  have hTable : (palTimerCreateInfoTable (some gtdt)).table =
      (platformTimers gtdt).foldl (fun t entry => timerVisit gtdt entry t) (timerHeader gtdt) := by
    simp only [palTimerCreateInfoTable, gtdtScan, countedWalk_eq]
    exact foldl_withLog_fst _ _ _ _ _
  have hHeader : TimerCounts (timerHeader gtdt) := ⟨fun block h => absurd h List.not_mem_nil, rfl⟩
  obtain ⟨hCounts, hLength⟩ := timerVisits_counts gtdt (platformTimers gtdt) hHeader
  rw [platformTimers, countedEntries_length] at hLength
  rw [hTable]
  exact ⟨hCounts, Nat.lt_of_le_of_lt (Nat.le_trans hLength (Nat.le_of_eq (Nat.zero_add _)))
    (platformTimerCount gtdt).isLt⟩

theorem num_eq_of_sum_lt {info : TimerInfoTable} (h : TimerCounts info)
    (hSum : (info.gtInfo.map fun b => b.timerCount.toNat).sum < 2 ^ 32) :
    info.numPlatformTimer.toNat = (info.gtInfo.map fun b => b.timerCount.toNat).sum := by
  rw [h.num_eq_sum, BitVec.toNat_ofNat, Nat.mod_eq_of_lt hSum]

/-- The table that the builder makes of a GTDT with fewer than `2 ^ 32` frames. -/
def TimerTable.ofGtdt (gtdt : Memory) (unsetCount : Nat → BitVec 32)
    (unsetFrame : Nat → Nat → GtFrame)
    (hSum : ((palTimerCreateInfoTable (some gtdt)).table.gtInfo.map
      fun b => b.timerCount.toNat).sum < 2 ^ 32) : TimerTable where
  info := (palTimerCreateInfoTable (some gtdt)).table
  unsetCount := unsetCount
  unsetFrame := unsetFrame
  frames_length := (timerCounts gtdt).1.frames_length
  num_eq_sum := num_eq_of_sum_lt (timerCounts gtdt).1 hSum
  blocks_lt := (timerCounts gtdt).2

/-! ## The search -/

/-- The variables of the loop. -/
structure EntrySearch (w : Nat) where
  inst : BitVec w
  block : BitVec 32
  index : BitVec 32

variable {w : Nat}

/-- The test of the loop. -/
def EntrySearch.beyond (t : TimerTable) (s : EntrySearch w) : Bool :=
  decide ((t.timerCount s.block.toNat).toNat < s.inst.toNat)

/-- The body of the loop. -/
def EntrySearch.nextBlock (t : TimerTable) (s : EntrySearch w) : EntrySearch w where
  inst := s.inst - (t.timerCount s.block.toNat).setWidth w
  index := (s.inst - (t.timerCount s.block.toNat).setWidth w).setWidth 32
  block := s.block + 1

/-- The two words that the search is given to fill in. -/
structure EntryIndex where
  block : BitVec 32
  index : BitVec 32
  deriving DecidableEq, Repr

/-- The search, with a number of `w` bits and the block that says that there is no such timer. -/
def platformTimerGetEntryIndex (invalid : BitVec 32) (fuel : Nat) (t : TimerTable)
    (inst : BitVec w) (out : EntryIndex) : Option EntryIndex :=
  if t.num < inst.toNat then some { out with block := invalid }
  else
    (loop (EntrySearch.beyond t) (EntrySearch.nextBlock t) fuel
      { inst := inst, block := 0, index := inst.setWidth 32 }).map fun s =>
        { block := s.block, index := s.index }

/-- The block that callers in VAL take for none, and the `INVALID_INDEX` of PAL. -/
def valInvalidBlock : BitVec 32 := 0xFFFF
def palInvalidIndex : BitVec 32 := 0xFFFFFFFF

/-- `val_platform_timer_get_entry_index`. -/
def valPlatformTimerGetEntryIndex (fuel : Nat) (t : TimerTable) (inst : BitVec 64)
    (out : EntryIndex) : Option EntryIndex :=
  platformTimerGetEntryIndex valInvalidBlock fuel t inst out

/-- `pal_platform_timer_get_entry_index`. -/
def palPlatformTimerGetEntryIndex (fuel : Nat) (t : TimerTable) (index : BitVec 32)
    (out : EntryIndex) : Option EntryIndex :=
  platformTimerGetEntryIndex palInvalidIndex fuel t index out

/-! ## Where it stops -/

/-- The variables of the loop at a block, with the number that is left. -/
def searchAt (w k i : Nat) : EntrySearch w where
  inst := BitVec.ofNat w i
  block := BitVec.ofNat 32 k
  index := BitVec.ofNat 32 i

section Search

variable {t : TimerTable} {k i : Nat} (hw : 32 ≤ w) (hk : k < 2 ^ 32) (hi : i < 2 ^ 32)

include hw hi in
theorem toNat_inst : (searchAt w k i).inst.toNat = i := by
  have := Nat.pow_le_pow_right Nat.two_pos hw
  exact (BitVec.toNat_ofNat i w).trans (Nat.mod_eq_of_lt (by omega))

include hk in
theorem toNat_block : (searchAt w k i).block.toNat = k :=
  (BitVec.toNat_ofNat k 32).trans (Nat.mod_eq_of_lt hk)

include hw hk hi in
theorem beyond_eq :
    EntrySearch.beyond t (searchAt w k i) = decide ((t.timerCount k).toNat < i) := by
  rw [EntrySearch.beyond, toNat_block hk, toNat_inst hw hi]

include hw hk hi in
/-- One block further. -/
theorem nextBlock_eq (h : (t.timerCount k).toNat < i) :
    EntrySearch.nextBlock t (searchAt w k i) =
      searchAt w (k + 1) (i - (t.timerCount k).toNat) := by
  have hPow := Nat.pow_le_pow_right Nat.two_pos hw
  have hInst : (searchAt w k i).inst - (t.timerCount k).setWidth w =
      BitVec.ofNat w (i - (t.timerCount k).toNat) := by
    apply BitVec.eq_of_toNat_eq
    have hCount : ((t.timerCount k).setWidth w).toNat = (t.timerCount k).toNat :=
      BitVec.toNat_setWidth_of_le hw
    have hLe : (t.timerCount k).setWidth w ≤ (searchAt w k i).inst := by
      rw [BitVec.le_def, hCount, toNat_inst hw hi]
      exact Nat.le_of_lt h
    rw [BitVec.toNat_sub_of_le hLe, hCount, toNat_inst hw hi, BitVec.toNat_ofNat,
      Nat.mod_eq_of_lt (by omega)]
  have hIndex : (BitVec.ofNat w (i - (t.timerCount k).toNat)).setWidth 32 =
      BitVec.ofNat 32 (i - (t.timerCount k).toNat) := by
    rw [BitVec.setWidth_ofNat_of_le hw]
  rw [EntrySearch.nextBlock, toNat_block hk, hInst, hIndex]
  simp only [searchAt, BitVec.ofNat_add]
  rfl

end Search

/-- The loop from a block on, over the counts of the blocks that are left. -/
theorem loop_reach (hw : 32 ≤ w) {t : TimerTable} {sizes : List Nat} {k i fuel : Nat}
    (hDrop : t.counts.drop k = sizes) (hi : i ≤ sizes.sum) (hPow : i < 2 ^ 32)
    (hFuel : sizes.length < fuel) :
    loop (EntrySearch.beyond t) (EntrySearch.nextBlock t) fuel (searchAt w k i) =
      some (searchAt w (k + (reach sizes i).1) (reach sizes i).2) := by
  obtain ⟨fuel, rfl⟩ := Nat.exists_eq_add_of_le' (Nat.lt_of_le_of_lt (Nat.zero_le _) hFuel)
  induction sizes generalizing k i fuel with
  | nil =>
    have hZero : i = 0 := Nat.le_zero.mp hi
    have hTest : EntrySearch.beyond t (searchAt w k i) = false := by
      rw [EntrySearch.beyond, toNat_inst hw hPow, hZero]
      exact decide_eq_false (Nat.not_lt_zero _)
    rw [loop_of_false hTest]
    rfl
  | cons size sizes ih =>
    have hHead : t.counts[k]? = some size := by
      rw [← List.head?_drop, hDrop]
      rfl
    have hTail : t.counts.drop (k + 1) = sizes := by
      rw [← List.tail_drop, hDrop, List.tail_cons]
    have hk : k < 2 ^ 32 := by
      have hInside := (List.getElem?_eq_some_iff.mp hHead).1
      rw [t.counts_length] at hInside
      exact hInside.trans t.blocks_lt
    have hCount := TimerTable.timerCount_of_counts hHead
    have hTest := beyond_eq (t := t) hw hk hPow
    rw [hCount] at hTest
    by_cases h : size < i
    · have hNext := nextBlock_eq (t := t) hw hk hPow (by rwa [hCount])
      obtain ⟨fuel, rfl⟩ := Nat.exists_eq_add_of_le' (show 1 ≤ fuel by
        rw [List.length_cons] at hFuel
        omega)
      rw [List.sum_cons] at hi
      rw [List.length_cons] at hFuel
      rw [loop_of_true (hTest.trans (decide_eq_true h)), hNext, hCount,
        ih hTail (by omega) (by omega) fuel (by omega), reach_cons_of_lt h, Nat.add_right_comm,
        Nat.add_assoc]
    · rw [loop_of_false (hTest.trans (decide_eq_false h)), reach_cons_of_le (Nat.le_of_not_lt h)]
      rfl

/-- The search for every number up to the number of timers, in a number of rounds that the table
bounds. -/
theorem getEntryIndex_eq (hw : 32 ≤ w) (invalid : BitVec 32) (t : TimerTable) {inst : BitVec w}
    (hi : inst.toNat ≤ t.num) (out : EntryIndex) {fuel : Nat}
    (hFuel : t.info.gtInfo.length < fuel) :
    platformTimerGetEntryIndex invalid fuel t inst out =
      some { block := BitVec.ofNat 32 (reach t.counts inst.toNat).1
             index := BitVec.ofNat 32 (reach t.counts inst.toNat).2 } := by
  have hPow : inst.toNat < 2 ^ 32 := Nat.lt_of_le_of_lt hi t.info.numPlatformTimer.isLt
  have hStart : { inst := inst, block := 0, index := inst.setWidth 32 } =
      searchAt w 0 inst.toNat := by
    rw [searchAt, BitVec.ofNat_toNat, BitVec.ofNat_toNat, BitVec.setWidth_eq]
    rfl
  rw [platformTimerGetEntryIndex, if_neg (Nat.not_lt_of_le hi), hStart,
    loop_reach hw List.drop_zero (t.num_eq ▸ hi) hPow (t.counts_length ▸ hFuel), Nat.zero_add]
  rfl

/-- More rounds do not change what it returns. -/
theorem getEntryIndex_add {invalid : BitVec 32} {t : TimerTable} {inst : BitVec w}
    {out found : EntryIndex} {fuel : Nat}
    (h : platformTimerGetEntryIndex invalid fuel t inst out = some found) (more : Nat) :
    platformTimerGetEntryIndex invalid (fuel + more) t inst out = some found := by
  rw [platformTimerGetEntryIndex] at h ⊢
  split at h
  · rename_i hBeyond
    rw [if_pos hBeyond, h]
  · rename_i hUpTo
    obtain ⟨s, hRun, rfl⟩ := Option.map_eq_some_iff.mp h
    rw [if_neg hUpTo, loop_add hRun]
    rfl

theorem getEntryIndex_some (hw : 32 ≤ w) {invalid : BitVec 32} {t : TimerTable} {inst : BitVec w}
    (hi : inst.toNat ≤ t.num) {out found : EntryIndex} {fuel : Nat}
    (h : platformTimerGetEntryIndex invalid fuel t inst out = some found) :
    found.block = BitVec.ofNat 32 (reach t.counts inst.toNat).1 ∧
      found.index = BitVec.ofNat 32 (reach t.counts inst.toNat).2 := by
  have hMore := getEntryIndex_eq hw invalid t hi out
    (show t.info.gtInfo.length < fuel + (t.info.gtInfo.length + 1) by omega)
  rw [getEntryIndex_add h, Option.some.injEq] at hMore
  rw [hMore]
  exact ⟨rfl, rfl⟩

theorem getEntryIndex_of_lt (invalid : BitVec 32) (t : TimerTable) {inst : BitVec w}
    (hi : t.num < inst.toNat) (out : EntryIndex) (fuel : Nat) :
    platformTimerGetEntryIndex invalid fuel t inst out = some { out with block := invalid } :=
  if_pos hi

/-- The block and the number fit their words. -/
theorem toNat_reach (t : TimerTable) {i : Nat} (hi : i ≤ t.num) :
    (BitVec.ofNat 32 (reach t.counts i).1).toNat = (reach t.counts i).1 ∧
      (BitVec.ofNat 32 (reach t.counts i).2).toNat = (reach t.counts i).2 := by
  have hNum : t.num < 2 ^ 32 := t.info.numPlatformTimer.isLt
  have hSplit := reach_split t.counts i
  have hBlock : (reach t.counts i).1 < 2 ^ 32 := by
    have := reach_fst_lt_or (t.num_eq ▸ hi)
    have := t.counts_length
    have := t.blocks_lt
    omega
  rw [BitVec.toNat_ofNat, BitVec.toNat_ofNat, Nat.mod_eq_of_lt hBlock, Nat.mod_eq_of_lt (by omega)]
  exact ⟨rfl, rfl⟩

/-- No table has a block with the largest number. -/
theorem block_ne_palInvalidIndex (t : TimerTable) {i : Nat} (hi : i ≤ t.num) :
    BitVec.ofNat 32 (reach t.counts i).1 ≠ palInvalidIndex := by
  rw [Ne, ← BitVec.toNat_inj, (toNat_reach t hi).1]
  have := reach_fst_lt_or (t.num_eq ▸ hi)
  have := t.blocks_lt
  have := t.counts_length
  have hMax : palInvalidIndex.toNat = 2 ^ 32 - 1 := rfl
  omega

/-! ## When it is right -/

/-- The place of a timer, or the block that says that there is none. -/
structure EntryRight (invalid : BitVec 32) (t : TimerTable) (i : Nat) (found : EntryIndex) :
    Prop where
  frame : i < t.num → At t.counts i found.block.toNat found.index.toNat
  none : t.num ≤ i → found.block = invalid

/-- The search returns, with the right place. -/
def FindsEntry (invalid : BitVec 32) (t : TimerTable) (i : Nat)
    (search : Nat → Option EntryIndex) : Prop :=
  ∃ fuel found, search fuel = some found ∧ EntryRight invalid t i found

section Finds

variable {invalid : BitVec 32} {t : TimerTable} {inst : BitVec w}

/-- A timer of the table: the search stops at its frame unless it is a boundary. -/
theorem findsEntry_of_lt (hw : 32 ≤ w) (hLess : inst.toNat < t.num) (out : EntryIndex) :
    FindsEntry invalid t inst.toNat
        (fun fuel => platformTimerGetEntryIndex invalid fuel t inst out) ↔
      ¬ Boundary t.counts inst.toNat := by
  obtain ⟨hBlock, hIndex⟩ := toNat_reach t (Nat.le_of_lt hLess)
  rw [← at_reach_iff (t.num_eq ▸ hLess)]
  constructor
  · rintro ⟨fuel, found, hFound, hRight⟩
    have hAt := hRight.frame hLess
    obtain ⟨hFoundBlock, hFoundIndex⟩ := getEntryIndex_some hw (Nat.le_of_lt hLess) hFound
    rwa [hFoundBlock, hFoundIndex, hBlock, hIndex] at hAt
  · intro hAt
    refine ⟨_, _, getEntryIndex_eq hw invalid t (Nat.le_of_lt hLess) out (Nat.lt_succ_self _),
      fun _ => ?_, fun h => absurd hLess (Nat.not_lt_of_le h)⟩
    rwa [hBlock, hIndex]

/-- The number of timers itself passes the first test. -/
theorem findsEntry_of_eq (hw : 32 ≤ w) (hSame : inst.toNat = t.num) (out : EntryIndex) :
    FindsEntry invalid t inst.toNat
        (fun fuel => platformTimerGetEntryIndex invalid fuel t inst out) ↔
      BitVec.ofNat 32 (reach t.counts t.num).1 = invalid := by
  rw [← hSame]
  constructor
  · rintro ⟨fuel, found, hFound, hRight⟩
    rw [← (getEntryIndex_some hw (Nat.le_of_eq hSame) hFound).1]
    exact hRight.none (Nat.le_of_eq hSame.symm)
  · intro h
    exact ⟨_, _, getEntryIndex_eq hw invalid t (Nat.le_of_eq hSame) out (Nat.lt_succ_self _),
      fun hLess => absurd hSame (Nat.ne_of_lt hLess), fun _ => h⟩

theorem findsEntry_of_gt (hMore : t.num < inst.toNat) (out : EntryIndex) :
    FindsEntry invalid t inst.toNat
      (fun fuel => platformTimerGetEntryIndex invalid fuel t inst out) :=
  ⟨0, _, getEntryIndex_of_lt invalid t hMore out 0,
    fun h => absurd h (Nat.not_lt_of_lt hMore), fun _ => rfl⟩

theorem not_boundary_of_gt {i : Nat} (hMore : t.num < i) : ¬ Boundary t.counts i := by
  rintro ⟨k, -, hk⟩
  have := start_le_sum t.counts (k + 1)
  have := t.num_eq
  omega

end Finds

theorem findsEntry_iff (hw : 32 ≤ w) (invalid : BitVec 32) (t : TimerTable) (inst : BitVec w)
    (out : EntryIndex) :
    FindsEntry invalid t inst.toNat
        (fun fuel => platformTimerGetEntryIndex invalid fuel t inst out) ↔
      inst.toNat ≠ t.num ∧ ¬ Boundary t.counts inst.toNat ∨
        inst.toNat = t.num ∧ BitVec.ofNat 32 (reach t.counts t.num).1 = invalid := by
  rcases Nat.lt_trichotomy inst.toNat t.num with hLess | hSame | hMore
  · rw [findsEntry_of_lt hw hLess, or_iff_left fun h => absurd h.1 (Nat.ne_of_lt hLess),
      and_iff_right (Nat.ne_of_lt hLess)]
  · rw [findsEntry_of_eq hw hSame, or_iff_right fun h => absurd hSame h.1, and_iff_right hSame]
  · exact iff_of_true (findsEntry_of_gt hMore out)
      (Or.inl ⟨Nat.ne_of_gt hMore, not_boundary_of_gt hMore⟩)

/-- The two searches find the place of a timer, and say that there is none beyond the last,
exactly for the numbers that are neither the number of timers nor the first after the end of a
block. In VAL there is an exception: for the number of timers the search returns the last block
that has frames, and when this is block 65535 it is the one that stands for none. -/
theorem entryIndex_iff (t : TimerTable) :
    (∀ (inst : BitVec 64) (out : EntryIndex),
      FindsEntry valInvalidBlock t inst.toNat
          (fun fuel => valPlatformTimerGetEntryIndex fuel t inst out) ↔
        inst.toNat ≠ t.num ∧ ¬ Boundary t.counts inst.toNat ∨
          inst.toNat = t.num ∧ start t.counts 65535 < t.num ∧ t.num ≤ start t.counts 65536) ∧
    ∀ (index : BitVec 32) (out : EntryIndex),
      FindsEntry palInvalidIndex t index.toNat
          (fun fuel => palPlatformTimerGetEntryIndex fuel t index out) ↔
        index.toNat ≠ t.num ∧ ¬ Boundary t.counts index.toNat := by
  constructor
  · intro inst out
    have hBlock := (toNat_reach t (Nat.le_refl t.num)).1
    have hInvalid : BitVec.ofNat 32 (reach t.counts t.num).1 = valInvalidBlock ↔
        (reach t.counts t.num).1 = 65535 := by
      rw [← BitVec.toNat_inj, hBlock]
      rfl
    rw [← reach_fst_iff (Nat.le_of_eq t.num_eq) (by decide), ← hInvalid]
    exact findsEntry_iff (by decide) valInvalidBlock t inst out
  · intro index out
    have hInvalid := block_ne_palInvalidIndex t (Nat.le_refl t.num)
    have h := findsEntry_iff (Nat.le_refl 32) palInvalidIndex t index out
    rwa [or_iff_left (fun h => hInvalid h.2)] at h

/-! ## Two blocks of one frame each -/

def oneFrameBlock (gsiv : BitVec 32) : TimerInfoGtblock where
  type := timerTypeSysTimer
  timerCount := 1
  blockCntlBase := 0
  frames := [⟨0, 0, gsiv, 0, 0⟩]

def twoBlocksInfo : TimerInfoTable where
  numPlatformTimer := 2
  gtInfo := [oneFrameBlock 40, oneFrameBlock 41]

theorem twoBlocks_frames :
    ∀ block ∈ twoBlocksInfo.gtInfo, block.frames.length = block.timerCount.toNat := by
  decide

theorem twoBlocks_sum : twoBlocksInfo.numPlatformTimer.toNat =
    (twoBlocksInfo.gtInfo.map fun b => b.timerCount.toNat).sum := by
  decide

theorem twoBlocks_lt : twoBlocksInfo.gtInfo.length < 2 ^ 32 := by decide

/-- The rest of the buffer is zero. -/
def twoBlocks : TimerTable where
  info := twoBlocksInfo
  unsetCount := fun _ => 0
  unsetFrame := fun _ _ => ⟨0, 0, 0, 0, 0⟩
  frames_length := twoBlocks_frames
  num_eq_sum := twoBlocks_sum
  blocks_lt := twoBlocks_lt

/-- For the timer of the second block both searches return a second frame of the first. -/
theorem second_block_missed :
    ¬ FindsEntry valInvalidBlock twoBlocks 1
        (fun fuel => valPlatformTimerGetEntryIndex fuel twoBlocks 1 ⟨0, 0⟩) ∧
      ¬ FindsEntry palInvalidIndex twoBlocks 1
        (fun fuel => palPlatformTimerGetEntryIndex fuel twoBlocks 1 ⟨0, 0⟩) ∧
      valPlatformTimerGetEntryIndex 3 twoBlocks 1 ⟨0, 0⟩ = some ⟨0, 1⟩ ∧
      palPlatformTimerGetEntryIndex 3 twoBlocks 1 ⟨0, 0⟩ = some ⟨0, 1⟩ := by
  have hBoundary : Boundary twoBlocks.counts 1 := ⟨0, by decide, by decide⟩
  refine ⟨?_, ?_, rfl, rfl⟩
  · intro h
    rcases (findsEntry_iff (by decide) valInvalidBlock twoBlocks 1#64 ⟨0, 0⟩).mp h with hNo | hLast
    · exact hNo.2 hBoundary
    · exact absurd hLast.1 (by decide)
  · intro h
    rcases (findsEntry_iff (by decide) palInvalidIndex twoBlocks 1#32 ⟨0, 0⟩).mp h with hNo | hLast
    · exact hNo.2 hBoundary
    · exact absurd hLast.1 (by decide)

end EnterpriseAcs.Sdei
