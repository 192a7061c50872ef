import EnterpriseAcs.Acpi.CountedTables
import EnterpriseAcs.Machine.Buffers

/-!
# The timer, watchdog and event tables

The SDEI suite reads the platform timers and watchdogs from the GTDT and the events of the
generic hardware error sources from the HEST. Each builder fills its table and logs its
stores into the table's buffer. The pointers to the next free record never stop at the end
of the buffer.

* `timer_stores_iff`, `wd_stores_iff` and `event_stores_iff`: how many records the buffers
  have room for.
-/

namespace EnterpriseAcs.Sdei

open Acpi Machine

/-- A table with the stores that have filled it. -/
structure Filled (α : Type) where
  table : α
  stores : List Store

/-- `TIMER_INFO_TABLE_SZ`, `WD_INFO_TABLE_SZ` and `EVENT_INFO_TABLE_SZ`. -/
def timerInfoTableSz : Nat := 1024
def wdInfoTableSz : Nat := 512
def eventInfoTableSz : Nat := 64

/-! ## Timers -/

/-- `TIMER_TYPE_SYS_TIMER`. -/
def timerTypeSysTimer : BitVec 32 := 0x2001

/-- Element `i` of the arrays of a `timer_info_gtblock_t`. -/
structure GtFrame where
  gtCntBase : BitVec 64
  gtCntEl0Base : BitVec 64
  gsiv : BitVec 32
  virtGsiv : BitVec 32
  flags : BitVec 32
  deriving DecidableEq, Repr

/-- `timer_info_gtblock_t`, without the array `frame_num` that nothing writes. -/
structure TimerInfoGtblock where
  type : BitVec 32
  timerCount : BitVec 32
  blockCntlBase : BitVec 64
  frames : List GtFrame
  deriving DecidableEq, Repr

/-- `timer_info_table_t`, without the header words that nothing writes. -/
structure TimerInfoTable where
  sEl1TimerFlag : BitVec 32 := 0
  nsEl1TimerFlag : BitVec 32 := 0
  el2TimerFlag : BitVec 32 := 0
  sEl1TimerGsiv : BitVec 32 := 0
  nsEl1TimerGsiv : BitVec 32 := 0
  el2TimerGsiv : BitVec 32 := 0
  virtualTimerFlag : BitVec 32 := 0
  virtualTimerGsiv : BitVec 32 := 0
  numPlatformTimer : BitVec 32 := 0
  gtInfo : List TimerInfoGtblock := []
  deriving DecidableEq, Repr

/-- The members of `timer_info_hdr_t`: the four flags of the EL1, EL2 and virtual EL2 timers,
their first three interrupts, flag and interrupt of the virtual timer, the interrupt of the
virtual EL2 timer, and the numbers of platform timers and watchdogs and their status. -/
def timerInfoHdr : List CType := List.replicate 13 uint32

/-- The members of `timer_info_gtblock_t`: `type`, `timer_count`, `block_cntl_base`,
`frame_num`, `GtCntBase`, `GtCntEl0Base`, `gsiv`, `virt_gsiv` and `flags`. -/
def timerInfoGtblock : List CType :=
  [uint32, uint32, uint64, uint8.array 8, uint64.array 8, uint64.array 8, uint32.array 8,
    uint32.array 8, uint32.array 8]

/-- The address of `gt_info[k]` in the buffer. -/
def gtInfoOffset (k : Nat) : Nat :=
  alignUp (cStruct timerInfoHdr).size (cStruct timerInfoGtblock).align +
    k * (cStruct timerInfoGtblock).size

/-- The assignment to `header.num_platform_timer`. -/
def numPlatformTimerStore : Store := memberStore 0 timerInfoHdr 10

/-- The assignments for the timer `i` of the block `gt_info[k]`. -/
def gtFrameStores (k i : Nat) : List Store :=
  [elementStore (gtInfoOffset k) timerInfoGtblock 4 uint64 8 i,
    elementStore (gtInfoOffset k) timerInfoGtblock 5 uint64 8 i,
    elementStore (gtInfoOffset k) timerInfoGtblock 6 uint32 8 i,
    elementStore (gtInfoOffset k) timerInfoGtblock 7 uint32 8 i,
    elementStore (gtInfoOffset k) timerInfoGtblock 8 uint32 8 i, numPlatformTimerStore]

/-- The assignments for the GT block structure `entry`, the `k`-th. -/
def gtBlockStores (gtdt : Memory) (entry k : Nat) : List Store :=
  [memberStore (gtInfoOffset k) timerInfoGtblock 0, memberStore (gtInfoOffset k) timerInfoGtblock 2,
    memberStore (gtInfoOffset k) timerInfoGtblock 1] ++
  (List.range (gtBlockTimerCount gtdt entry).toNat).flatMap (gtFrameStores k)

def gtFrame (gtdt : Memory) (timer : Nat) : GtFrame where
  gtCntBase := cntBaseX gtdt timer
  gtCntEl0Base := cntEL0BaseX gtdt timer
  gsiv := gtxPhysicalTimerGSIV gtdt timer
  virtGsiv := gtxVirtualTimerGSIV gtdt timer
  flags := gtxPhysicalTimerFlags gtdt timer ||| gtxVirtualTimerFlags gtdt timer <<< 8 |||
    gtxCommonFlags gtdt timer <<< 16

/-- The body of the loop of `pal_timer_create_info_table`. -/
def timerVisit (gtdt : Memory) (entry : Nat) (t : TimerInfoTable) : TimerInfoTable :=
  if timerType gtdt entry = gtBlockType then
    { t with
      gtInfo := t.gtInfo ++
        [{ type := timerTypeSysTimer
           timerCount := gtBlockTimerCount gtdt entry
           blockCntlBase := cntCtlBase gtdt entry
           frames := (List.range (gtBlockTimerCount gtdt entry).toNat).map fun i =>
             gtFrame gtdt (gtBlockTimer gtdt entry i) }]
      numPlatformTimer := t.numPlatformTimer + gtBlockTimerCount gtdt entry }
  else t

def timerStores (gtdt : Memory) (entry : Nat) (t : TimerInfoTable) : List Store :=
  if timerType gtdt entry = gtBlockType then gtBlockStores gtdt entry t.gtInfo.length else []

/-- The header of the table, from the GTDT. -/
def timerHeader (gtdt : Memory) : TimerInfoTable where
  sEl1TimerFlag := securePL1TimerFlags gtdt
  nsEl1TimerFlag := nonSecurePL1TimerFlags gtdt
  el2TimerFlag := nonSecurePL2TimerFlags gtdt
  sEl1TimerGsiv := securePL1TimerGSIV gtdt
  nsEl1TimerGsiv := nonSecurePL1TimerGSIV gtdt
  el2TimerGsiv := nonSecurePL2TimerGSIV gtdt
  virtualTimerFlag := virtualTimerFlags gtdt
  virtualTimerGsiv := virtualTimerGSIV gtdt

/-- The assignments to the members of the header, in the order of the source. -/
def timerHeaderStores : List Store := [0, 1, 2, 4, 5, 6, 7, 8].map (memberStore 0 timerInfoHdr)

/-- `pal_timer_create_info_table`, for the GTDT found or none. -/
def palTimerCreateInfoTable (gtdt : Option Memory) : Filled TimerInfoTable :=
  match gtdt with
  | none => ⟨{}, [numPlatformTimerStore]⟩
  | some gtdt =>
    let filled := gtdtScan gtdt (withLog (timerVisit gtdt) (timerStores gtdt))
      (timerHeader gtdt, numPlatformTimerStore :: timerHeaderStores)
    ⟨filled.1, filled.2⟩

/-! ## Watchdogs -/

/-- `wd_info_entry_t`. -/
structure WdInfoEntry where
  wdCtrlBase : BitVec 64
  wdRefreshBase : BitVec 64
  wdGsiv : BitVec 32
  wdFlags : BitVec 32
  deriving DecidableEq, Repr

/-- `wd_info_table_t`. -/
structure WdInfoTable where
  numWd : BitVec 32 := 0
  wdInfo : List WdInfoEntry := []
  deriving DecidableEq, Repr

/-- The members of `wd_info_hdr_t` and of `wd_info_entry_t`. -/
def wdInfoHdr : List CType := [uint32]
def wdInfoEntry : List CType := [uint64, uint64, uint32, uint32]

/-- The address of `wd_info[k]` in the buffer. -/
def wdInfoOffset (k : Nat) : Nat :=
  alignUp (cStruct wdInfoHdr).size (cStruct wdInfoEntry).align + k * (cStruct wdInfoEntry).size

def numWdStore : Store := memberStore 0 wdInfoHdr 0

/-- The assignments for the `k`-th watchdog. -/
def wdEntryStores (k : Nat) : List Store :=
  [1, 0, 2, 3].map (memberStore (wdInfoOffset k) wdInfoEntry) ++ [numWdStore]

/-- The body of the loop of `pal_wd_create_info_table`. -/
def wdVisit (gtdt : Memory) (entry : Nat) (t : WdInfoTable) : WdInfoTable :=
  if timerType gtdt entry = genericWatchdogType then
    { numWd := t.numWd + 1
      wdInfo := t.wdInfo ++
        [{ wdCtrlBase := watchdogControlFramePhysicalAddress gtdt entry
           wdRefreshBase := refreshFramePhysicalAddress gtdt entry
           wdGsiv := watchdogTimerGSIV gtdt entry
           wdFlags := watchdogTimerFlags gtdt entry }] }
  else t

def wdStores (gtdt : Memory) (entry : Nat) (t : WdInfoTable) : List Store :=
  if timerType gtdt entry = genericWatchdogType then wdEntryStores t.wdInfo.length else []

/-- `pal_wd_create_info_table`: the status it returns and the table. -/
def palWdCreateInfoTable (gtdt : Option Memory) : BitVec 32 × Filled WdInfoTable :=
  match gtdt with
  | none => (1, ⟨{}, [numWdStore]⟩)
  | some gtdt =>
    let filled := gtdtScan gtdt (withLog (wdVisit gtdt) (wdStores gtdt)) ({}, [numWdStore])
    (0, ⟨filled.1, filled.2⟩)

/-! ## Events -/

/-- `event_info_table_t`. -/
structure EventInfoTable where
  numEvents : BitVec 32 := 0
  hestFound : BitVec 32 := 0
  numGhesNotify : BitVec 32 := 0
  info : List (BitVec 32) := []
  deriving DecidableEq, Repr

/-- The members of `event_info_table_t` before `info`, and those of `event_info_t`. -/
def eventInfoHdr : List CType := [uint32, uint32, uint32]
def eventInfo : List CType := [uint32]

/-- The address of `info[k]` in the buffer. -/
def eventInfoOffset (k : Nat) : Nat :=
  alignUp (memberOffset 0 eventInfoHdr 3) (cStruct eventInfo).align + k * (cStruct eventInfo).size

/-- The assignments for the `k`-th event. The number of events is raised unless the event
number is zero. -/
def eventEntryStores (hest : Memory) (ghes k : Nat) : List Store :=
  [memberStore (eventInfoOffset k) eventInfo 0, memberStore 0 eventInfoHdr 2] ++
    if notificationVector hest ghes ≠ 0 then [memberStore 0 eventInfoHdr 0] else []

/-- The body of the loop of `pal_sdei_create_event_info_table`. -/
def eventVisit (hest : Memory) (ghes : Nat) (t : EventInfoTable) : EventInfoTable :=
  if notificationType hest ghes = ghesNotifyTypeSdei then
    { t with
      info := t.info ++ [notificationVector hest ghes]
      numGhesNotify := t.numGhesNotify + 1
      numEvents := if notificationVector hest ghes ≠ 0 then t.numEvents + 1 else t.numEvents }
  else t

def eventStores (hest : Memory) (ghes : Nat) (t : EventInfoTable) : List Store :=
  if notificationType hest ghes = ghesNotifyTypeSdei then
    eventEntryStores hest ghes t.info.length
  else []

/-- `pal_sdei_create_event_info_table`: the status it returns and the table. -/
def palSdeiCreateEventInfoTable (hest : Option Memory) : BitVec 32 × Filled EventInfoTable :=
  let header := [0, 1, 2].map (memberStore 0 eventInfoHdr)
  match hest with
  | none => (-1, ⟨{}, header⟩)
  | some hest =>
    let filled := hestScan hest (withLog (eventVisit hest) (eventStores hest))
      ({ hestFound := 1 }, header ++ [memberStore 0 eventInfoHdr 1])
    (0, ⟨filled.1, filled.2⟩)

/-! ## Room in the buffers -/

/-- The buffer has room for four blocks, the fourth with two timers, and a block has room for
eight timers. -/
structure TimerRoom (gtdt : Memory) : Prop where
  blocks : (gtBlocks gtdt).length ≤ 4
  frames : ∀ entry ∈ gtBlocks gtdt, (gtBlockTimerCount gtdt entry).toNat ≤ 8
  fourth : ∀ entry, (gtBlocks gtdt)[3]? = some entry → (gtBlockTimerCount gtdt entry).toNat ≤ 2

theorem gtFrameStores_eq (k i : Nat) :
    gtFrameStores k i =
      [⟨56 + k * 248 + 24 + 8 * i, 8, i, 8⟩, ⟨56 + k * 248 + 88 + 8 * i, 8, i, 8⟩,
        ⟨56 + k * 248 + 152 + 4 * i, 4, i, 8⟩, ⟨56 + k * 248 + 184 + 4 * i, 4, i, 8⟩,
        ⟨56 + k * 248 + 216 + 4 * i, 4, i, 8⟩, ⟨40, 4, 0, 1⟩] := rfl

/-- The last member, `flags`, reaches farthest. -/
theorem gtFrameStores_inside (k i : Nat) :
    (∀ x ∈ gtFrameStores k i, x.Inside timerInfoTableSz) ↔
      56 + k * 248 + 216 + 4 * i + 4 ≤ 1024 ∧ i < 8 := by
  simp only [gtFrameStores_eq, List.forall_mem_cons, Store.Inside, timerInfoTableSz]
  constructor
  · rintro ⟨-, -, -, -, h, -⟩
    exact h
  · rintro ⟨hFits, hi⟩
    refine ⟨?_, ?_, ?_, ?_, ?_, ?_, by simp⟩ <;> omega

theorem gtBlockStores_inside (gtdt : Memory) (entry k : Nat) :
    (∀ x ∈ gtBlockStores gtdt entry k, x.Inside timerInfoTableSz) ↔
      k < 4 ∧ (gtBlockTimerCount gtdt entry).toNat ≤ 8 ∧
        (k = 3 → (gtBlockTimerCount gtdt entry).toNat ≤ 2) := by
  have hHead : (∀ x ∈ [memberStore (gtInfoOffset k) timerInfoGtblock 0,
      memberStore (gtInfoOffset k) timerInfoGtblock 2,
      memberStore (gtInfoOffset k) timerInfoGtblock 1], x.Inside timerInfoTableSz) ↔ k < 4 := by
    rw [show [memberStore (gtInfoOffset k) timerInfoGtblock 0,
      memberStore (gtInfoOffset k) timerInfoGtblock 2,
      memberStore (gtInfoOffset k) timerInfoGtblock 1] =
        [⟨56 + k * 248 + 0, 4, 0, 1⟩, ⟨56 + k * 248 + 8, 8, 0, 1⟩, ⟨56 + k * 248 + 4, 4, 0, 1⟩]
      from rfl]
    simp only [List.forall_mem_cons, Store.Inside, timerInfoTableSz]
    constructor
    · rintro ⟨-, h, -⟩
      omega
    · intro h
      refine ⟨?_, ?_, ?_, by simp⟩ <;> omega
  rw [gtBlockStores, List.forall_mem_append, hHead]
  generalize (gtBlockTimerCount gtdt entry).toNat = count
  have hFrames : (∀ x ∈ (List.range count).flatMap (gtFrameStores k), x.Inside timerInfoTableSz) ↔
      ∀ i < count, 56 + k * 248 + 216 + 4 * i + 4 ≤ 1024 ∧ i < 8 := by
    simp only [← gtFrameStores_inside, List.mem_flatMap, List.mem_range]
    constructor
    · intro h i hi x hx
      exact h x ⟨i, hi, hx⟩
    · rintro h x ⟨i, hi, hx⟩
      exact h i hi x hx
  rw [hFrames]
  refine and_congr_right fun hk => ?_
  constructor
  · intro h
    rcases Nat.eq_zero_or_pos count with rfl | hPos
    · simp
    · have := h (count - 1) (by omega)
      omega
  · intro h i hi
    omega

theorem timer_stores_iff (gtdt : Memory) :
    (∀ x ∈ (palTimerCreateInfoTable (some gtdt)).stores, x.Inside timerInfoTableSz) ↔
      TimerRoom gtdt := by
  have hHeader : ∀ x ∈ numPlatformTimerStore :: timerHeaderStores, x.Inside timerInfoTableSz := by
    unfold Store.Inside
    decide
  have hHit : ∀ entry t, timerType gtdt entry = gtBlockType →
      (timerVisit gtdt entry t).gtInfo.length = t.gtInfo.length + 1 ∧
        timerStores gtdt entry t = gtBlockStores gtdt entry t.gtInfo.length := by
    intro entry t hType
    rw [timerVisit, timerStores, if_pos hType, if_pos hType]
    exact ⟨List.length_append, rfl⟩
  have hMiss : ∀ entry t, ¬ timerType gtdt entry = gtBlockType →
      timerVisit gtdt entry t = t ∧ timerStores gtdt entry t = [] :=
    fun _ _ hType => ⟨if_neg hType, if_neg hType⟩
  simp only [palTimerCreateInfoTable, gtdtScan, countedWalk_eq]
  rw [forall_stores (fun entry => timerType gtdt entry = gtBlockType)
    (fun t => t.gtInfo.length) (gtBlockStores gtdt) hHit hMiss]
  simp only [gtBlockStores_inside, timerHeader, List.length_nil, Nat.zero_add]
  change (_ ∧ ∀ k entry, (gtBlocks gtdt)[k]? = some entry → _) ↔ _
  constructor
  · rintro ⟨-, h⟩
    refine ⟨?_, ?_, fun entry hEntry => (h 3 entry hEntry).2.2 rfl⟩
    · by_contra hLong
      have hAt := List.getElem?_eq_getElem (show 4 < (gtBlocks gtdt).length by omega)
      exact absurd (h 4 _ hAt).1 (by omega)
    · intro entry hEntry
      obtain ⟨k, hk⟩ := List.mem_iff_getElem?.mp hEntry
      exact (h k entry hk).2.1
  · intro h
    refine ⟨hHeader, fun k entry hk => ⟨?_, h.frames entry (List.mem_of_getElem? hk), ?_⟩⟩
    · have := (List.getElem?_eq_some_iff.mp hk).1
      have := h.blocks
      omega
    · rintro rfl
      exact h.fourth entry hk

theorem wdEntryStores_inside (k : Nat) :
    (∀ x ∈ wdEntryStores k, x.Inside wdInfoTableSz) ↔ k < 21 := by
  rw [show wdEntryStores k = [⟨8 + k * 24 + 8, 8, 0, 1⟩, ⟨8 + k * 24 + 0, 8, 0, 1⟩,
    ⟨8 + k * 24 + 16, 4, 0, 1⟩, ⟨8 + k * 24 + 20, 4, 0, 1⟩, ⟨0, 4, 0, 1⟩] from rfl]
  simp only [List.forall_mem_cons, Store.Inside, wdInfoTableSz]
  constructor
  · rintro ⟨-, -, -, h, -⟩
    omega
  · intro h
    refine ⟨?_, ?_, ?_, ?_, ?_, by simp⟩ <;> omega

theorem wd_stores_iff (gtdt : Memory) :
    (∀ x ∈ (palWdCreateInfoTable (some gtdt)).2.stores, x.Inside wdInfoTableSz) ↔
      (watchdogs gtdt).length ≤ 21 := by
  have hHit : ∀ entry t, timerType gtdt entry = genericWatchdogType →
      (wdVisit gtdt entry t).wdInfo.length = t.wdInfo.length + 1 ∧
        wdStores gtdt entry t = wdEntryStores t.wdInfo.length := by
    intro entry t hType
    rw [wdVisit, wdStores, if_pos hType, if_pos hType]
    exact ⟨List.length_append, rfl⟩
  have hMiss : ∀ entry t, ¬ timerType gtdt entry = genericWatchdogType →
      wdVisit gtdt entry t = t ∧ wdStores gtdt entry t = [] :=
    fun _ _ hType => ⟨if_neg hType, if_neg hType⟩
  have hHeader : ∀ x ∈ [numWdStore], x.Inside wdInfoTableSz := by
    unfold Store.Inside
    decide
  simp only [palWdCreateInfoTable, gtdtScan, countedWalk_eq]
  rw [forall_stores (fun entry => timerType gtdt entry = genericWatchdogType)
    (fun t => t.wdInfo.length) (fun _ => wdEntryStores) hHit hMiss, and_iff_right hHeader]
  simp only [List.length_nil, Nat.zero_add, wdEntryStores_inside]
  rw [forall_getElem?_const]
  exact forall_lt_iff_le fun k => Iff.rfl

theorem eventEntryStores_inside (hest : Memory) (ghes k : Nat) :
    (∀ x ∈ eventEntryStores hest ghes k, x.Inside eventInfoTableSz) ↔ k < 13 := by
  rw [eventEntryStores, List.forall_mem_append, show [memberStore (eventInfoOffset k) eventInfo 0,
    memberStore 0 eventInfoHdr 2] = [⟨12 + k * 4 + 0, 4, 0, 1⟩, ⟨8, 4, 0, 1⟩] from rfl]
  have hCount : ∀ x ∈ if notificationVector hest ghes ≠ 0 then [memberStore 0 eventInfoHdr 0]
      else [], x.Inside eventInfoTableSz := by
    split
    · unfold Store.Inside
      decide
    · simp
  rw [and_iff_left hCount]
  simp only [List.forall_mem_cons, Store.Inside, eventInfoTableSz]
  constructor
  · rintro ⟨h, -⟩
    omega
  · intro h
    refine ⟨?_, ?_, by simp⟩ <;> omega

theorem event_stores_iff (hest : Memory) :
    (∀ x ∈ (palSdeiCreateEventInfoTable (some hest)).2.stores, x.Inside eventInfoTableSz) ↔
      (sdeiSources hest).length ≤ 13 := by
  have hHit : ∀ ghes t, notificationType hest ghes = ghesNotifyTypeSdei →
      (eventVisit hest ghes t).info.length = t.info.length + 1 ∧
        eventStores hest ghes t = eventEntryStores hest ghes t.info.length := by
    intro ghes t hType
    rw [eventVisit, eventStores, if_pos hType, if_pos hType]
    exact ⟨List.length_append, rfl⟩
  have hMiss : ∀ ghes t, ¬ notificationType hest ghes = ghesNotifyTypeSdei →
      eventVisit hest ghes t = t ∧ eventStores hest ghes t = [] :=
    fun _ _ hType => ⟨if_neg hType, if_neg hType⟩
  have hHeader : ∀ x ∈ [0, 1, 2].map (memberStore 0 eventInfoHdr) ++ [memberStore 0 eventInfoHdr 1],
      x.Inside eventInfoTableSz := by
    unfold Store.Inside
    decide
  simp only [palSdeiCreateEventInfoTable, hestScan, countedWalk_eq]
  rw [forall_stores (fun ghes => notificationType hest ghes = ghesNotifyTypeSdei)
    (fun t => t.info.length) (eventEntryStores hest) hHit hMiss, and_iff_right hHeader]
  simp only [List.length_nil, Nat.zero_add, eventEntryStores_inside]
  rw [forall_getElem?_const]
  exact forall_lt_iff_le fun k => Iff.rfl

end EnterpriseAcs.Sdei
