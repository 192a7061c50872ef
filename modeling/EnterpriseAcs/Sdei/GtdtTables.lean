import EnterpriseAcs.Sdei.DeviceTables
import Mathlib.Algebra.GroupWithZero.Nat
import Mathlib.Data.List.Forall2

/-!
# What the timer and the watchdog table say about the GTDT

The two builders walk the same list of structures. One takes the GT blocks, with a loop over the
frames of each, the other the watchdogs.

* `Gtdt`: a GTDT, with the list of its platform timer structures.
* `timer_fold`, `wd_fold`: what a walk over the structures adds to a table.
* `gtdt_faithful`: both tables are those of the list.
-/

namespace EnterpriseAcs.Sdei

open Acpi Machine

/-! ## The structures of a GTDT -/

/-- The fields of a GT block timer structure. -/
structure RawFrame where
  cntBaseX : BitVec 64
  cntEL0BaseX : BitVec 64
  gtxPhysicalTimerGSIV : BitVec 32
  gtxPhysicalTimerFlags : BitVec 32
  gtxVirtualTimerGSIV : BitVec 32
  gtxVirtualTimerFlags : BitVec 32
  gtxCommonFlags : BitVec 32
  deriving DecidableEq, Repr

/-- A platform timer structure. -/
inductive PlatformTimer where
  | gtBlock (cntCtlBase : BitVec 64) (frames : List RawFrame)
  | watchdog (refreshFrame controlFrame : BitVec 64) (gsiv flags : BitVec 32)
  | other
  deriving DecidableEq, Repr

/-- The fields of the frame at an address. -/
structure FrameAt (gtdt : Memory) (timer : Nat) (frame : RawFrame) : Prop where
  cntBase : cntBaseX gtdt timer = frame.cntBaseX
  cntEl0Base : cntEL0BaseX gtdt timer = frame.cntEL0BaseX
  physicalGsiv : gtxPhysicalTimerGSIV gtdt timer = frame.gtxPhysicalTimerGSIV
  physicalFlags : gtxPhysicalTimerFlags gtdt timer = frame.gtxPhysicalTimerFlags
  virtualGsiv : gtxVirtualTimerGSIV gtdt timer = frame.gtxVirtualTimerGSIV
  virtualFlags : gtxVirtualTimerFlags gtdt timer = frame.gtxVirtualTimerFlags
  commonFlags : gtxCommonFlags gtdt timer = frame.gtxCommonFlags

/-- The structure at an address. The frames of a block are at the offset that it gives. -/
def TimerAt (gtdt : Memory) (entry : Nat) : PlatformTimer → Prop
  | .gtBlock base frames =>
    timerType gtdt entry = gtBlockType ∧ cntCtlBase gtdt entry = base ∧
      List.Forall₂ (FrameAt gtdt)
        ((List.range (gtBlockTimerCount gtdt entry).toNat).map (gtBlockTimer gtdt entry)) frames
  | .watchdog refresh control gsiv flags =>
    timerType gtdt entry = genericWatchdogType ∧
      refreshFramePhysicalAddress gtdt entry = refresh ∧
      watchdogControlFramePhysicalAddress gtdt entry = control ∧
      watchdogTimerGSIV gtdt entry = gsiv ∧ watchdogTimerFlags gtdt entry = flags
  | .other => timerType gtdt entry ≠ gtBlockType ∧ timerType gtdt entry ≠ genericWatchdogType

def PlatformTimer.frameCount : PlatformTimer → Nat
  | .gtBlock _ frames => frames.length
  | _ => 0

/-- A GTDT with its platform timer structures, each of a positive length. -/
structure Gtdt where
  mem : Memory
  timers : List PlatformTimer
  layout : List.Forall₂ (TimerAt mem) (platformTimers mem) timers
  length_pos : ∀ entry ∈ platformTimers mem, 0 < (timerLength mem entry).toNat
  eight_frames : ∀ timer ∈ timers, timer.frameCount ≤ 8

/-! ## What the tables are for -/

/-- The record of a frame. -/
def RawFrame.info (frame : RawFrame) : GtFrame where
  gtCntBase := frame.cntBaseX
  gtCntEl0Base := frame.cntEL0BaseX
  gsiv := frame.gtxPhysicalTimerGSIV
  virtGsiv := frame.gtxVirtualTimerGSIV
  flags := frame.gtxPhysicalTimerFlags ||| frame.gtxVirtualTimerFlags <<< 8 |||
    frame.gtxCommonFlags <<< 16

/-- The record of a GT block. -/
def PlatformTimer.blockInfo : PlatformTimer → Option TimerInfoGtblock
  | .gtBlock base frames =>
    some
      { type := timerTypeSysTimer
        timerCount := BitVec.ofNat 32 frames.length
        blockCntlBase := base
        frames := frames.map RawFrame.info }
  | _ => none

/-- The record of a watchdog. -/
def PlatformTimer.wdInfo : PlatformTimer → Option WdInfoEntry
  | .watchdog refresh control gsiv flags =>
    some { wdCtrlBase := control, wdRefreshBase := refresh, wdGsiv := gsiv, wdFlags := flags }
  | _ => none

/-- The two tables are those of a list of structures. -/
structure TablesOf (timers : List PlatformTimer) (timer : TimerInfoTable) (wd : WdInfoTable) :
    Prop where
  gtInfo : timer.gtInfo = timers.filterMap PlatformTimer.blockInfo
  numPlatformTimer : timer.numPlatformTimer.toNat = (timers.map PlatformTimer.frameCount).sum
  wdInfo : wd.wdInfo = timers.filterMap PlatformTimer.wdInfo
  numWd : wd.numWd.toNat = (timers.filterMap PlatformTimer.wdInfo).length

/-! ## One structure -/

theorem gtFrame_eq {gtdt : Memory} {timer : Nat} {frame : RawFrame} (h : FrameAt gtdt timer frame) :
    gtFrame gtdt timer = frame.info := by
  rw [gtFrame, h.cntBase, h.cntEl0Base, h.physicalGsiv, h.physicalFlags, h.virtualGsiv,
    h.virtualFlags, h.commonFlags]
  rfl

theorem gtFrames_eq {gtdt : Memory} {addrs : List Nat} {frames : List RawFrame}
    (h : List.Forall₂ (FrameAt gtdt) addrs frames) :
    addrs.map (gtFrame gtdt) = frames.map RawFrame.info := by
  induction h with
  | nil => rfl
  | cons hFrame _ ih => rw [List.map_cons, List.map_cons, gtFrame_eq hFrame, ih]

/-- The 32-bit count of a block is that of its frames. -/
theorem frameCount_eq {gtdt : Memory} {entry : Nat} {frames : List RawFrame}
    (h : List.Forall₂ (FrameAt gtdt)
      ((List.range (gtBlockTimerCount gtdt entry).toNat).map (gtBlockTimer gtdt entry)) frames) :
    gtBlockTimerCount gtdt entry = BitVec.ofNat 32 frames.length := by
  have hLength := h.length_eq
  rw [List.length_map, List.length_range] at hLength
  rw [← hLength, BitVec.ofNat_toNat, BitVec.setWidth_eq]

/-- The structures with a record are those of the type. -/
theorem blockInfo_isSome {gtdt : Memory} {entry : Nat} {timer : PlatformTimer}
    (h : TimerAt gtdt entry timer) :
    timer.blockInfo.isSome ↔ timerType gtdt entry = gtBlockType := by
  cases timer with
  | gtBlock base frames => exact iff_of_true rfl h.1
  | watchdog refresh control gsiv flags =>
    rw [h.1]
    exact iff_of_false Bool.false_ne_true (by decide)
  | other => exact iff_of_false Bool.false_ne_true h.1

theorem wdInfo_isSome {gtdt : Memory} {entry : Nat} {timer : PlatformTimer}
    (h : TimerAt gtdt entry timer) :
    timer.wdInfo.isSome ↔ timerType gtdt entry = genericWatchdogType := by
  cases timer with
  | gtBlock base frames =>
    rw [h.1]
    exact iff_of_false Bool.false_ne_true (by decide)
  | watchdog refresh control gsiv flags => exact iff_of_true rfl h.1
  | other => exact iff_of_false Bool.false_ne_true h.2

theorem timerVisit_eq {gtdt : Memory} {entry : Nat} {timer : PlatformTimer}
    (h : TimerAt gtdt entry timer) (t : TimerInfoTable) :
    timerVisit gtdt entry t =
      { t with
        gtInfo := t.gtInfo ++ timer.blockInfo.toList
        numPlatformTimer := t.numPlatformTimer + BitVec.ofNat 32 timer.frameCount } := by
  cases timer with
  | gtBlock base frames =>
    obtain ⟨hType, hBase, hFrames⟩ := h
    have hInfo : (List.range (gtBlockTimerCount gtdt entry).toNat).map (fun i =>
        gtFrame gtdt (gtBlockTimer gtdt entry i)) = frames.map RawFrame.info := by
      rw [← gtFrames_eq hFrames, List.map_map]
      rfl
    rw [timerVisit, if_pos hType, hBase, hInfo, frameCount_eq hFrames]
    rfl
  | watchdog refresh control gsiv flags =>
    rw [timerVisit, if_neg (mt (blockInfo_isSome h).mpr Bool.false_ne_true)]
    simp [PlatformTimer.blockInfo, PlatformTimer.frameCount]
  | other =>
    rw [timerVisit, if_neg h.1]
    simp [PlatformTimer.blockInfo, PlatformTimer.frameCount]

theorem wdVisit_eq {gtdt : Memory} {entry : Nat} {timer : PlatformTimer}
    (h : TimerAt gtdt entry timer) (t : WdInfoTable) :
    wdVisit gtdt entry t =
      { numWd := t.numWd + BitVec.ofNat 32 timer.wdInfo.toList.length
        wdInfo := t.wdInfo ++ timer.wdInfo.toList } := by
  cases timer with
  | gtBlock base frames =>
    rw [wdVisit, if_neg (mt (wdInfo_isSome h).mpr Bool.false_ne_true)]
    simp [PlatformTimer.wdInfo]
  | watchdog refresh control gsiv flags =>
    obtain ⟨hType, hRefresh, hControl, hGsiv, hFlags⟩ := h
    rw [wdVisit, if_pos hType, hRefresh, hControl, hGsiv, hFlags]
    rfl
  | other =>
    rw [wdVisit, if_neg h.2]
    simp [PlatformTimer.wdInfo]

/-! ## All structures -/

section Walks

variable {gtdt : Memory} {entries : List Nat} {timers : List PlatformTimer}
  (h : List.Forall₂ (TimerAt gtdt) entries timers)

include h

/-- The walk of the timer table builder. -/
theorem timer_fold (t : TimerInfoTable) :
    entries.foldl (fun t entry => timerVisit gtdt entry t) t =
      { t with
        gtInfo := t.gtInfo ++ timers.filterMap PlatformTimer.blockInfo
        numPlatformTimer := t.numPlatformTimer +
          BitVec.ofNat 32 (timers.map PlatformTimer.frameCount).sum } := by
  induction h generalizing t with
  | nil => simp
  | @cons entry timer entries timers hTimer _ ih =>
    rw [List.foldl_cons, timerVisit_eq hTimer, ih, List.map_cons, List.sum_cons, BitVec.ofNat_add,
      filterMap_cons_toList]
    simp only [List.append_assoc, BitVec.add_assoc]

/-- The walk of the watchdog table builder. -/
theorem wd_fold (t : WdInfoTable) :
    entries.foldl (fun t entry => wdVisit gtdt entry t) t =
      { numWd := t.numWd + BitVec.ofNat 32 (timers.filterMap PlatformTimer.wdInfo).length
        wdInfo := t.wdInfo ++ timers.filterMap PlatformTimer.wdInfo } := by
  induction h generalizing t with
  | nil => simp
  | @cons entry timer entries timers hTimer _ ih =>
    rw [List.foldl_cons, wdVisit_eq hTimer, ih, filterMap_cons_toList, List.length_append,
      BitVec.ofNat_add]
    simp only [List.append_assoc, BitVec.add_assoc]

/-- The structures of a type in memory are as many as those of the list that have a record. -/
theorem filter_type_length {β : Type*} {info : PlatformTimer → Option β} {type : BitVec 8}
    (hType : ∀ {entry timer}, TimerAt gtdt entry timer →
      ((info timer).isSome ↔ timerType gtdt entry = type)) :
    (entries.filter fun entry => timerType gtdt entry = type).length =
      (timers.filterMap info).length := by
  induction h with
  | nil => rfl
  | @cons entry timer entries timers hTimer _ ih =>
    cases hInfo : info timer with
    | none =>
      have hOther : ¬ timerType gtdt entry = type := by
        rw [← hType hTimer, hInfo]
        exact Bool.false_ne_true
      rw [List.filter_cons_of_neg (by simpa using hOther), List.filterMap_cons_none hInfo, ih]
    | some record =>
      have hSame : timerType gtdt entry = type := by
        rw [← hType hTimer, hInfo]
        rfl
      rw [List.filter_cons_of_pos (by simpa using hSame), List.filterMap_cons_some hInfo,
        List.length_cons, List.length_cons, ih]

end Walks

/-- Blocks of at most eight frames each. -/
theorem frameCount_sum_le {timers : List PlatformTimer}
    (h : ∀ timer ∈ timers, timer.frameCount ≤ 8) :
    (timers.map PlatformTimer.frameCount).sum ≤
      8 * (timers.filterMap PlatformTimer.blockInfo).length := by
  induction timers with
  | nil => exact Nat.le_refl _
  | cons timer timers ih =>
    obtain ⟨hTimer, hRest⟩ := List.forall_mem_cons.mp h
    have hSum := ih hRest
    rw [List.map_cons, List.sum_cons]
    cases timer with
    | gtBlock base frames =>
      have hBlocks : ((PlatformTimer.gtBlock base frames :: timers).filterMap
          PlatformTimer.blockInfo).length =
            (timers.filterMap PlatformTimer.blockInfo).length + 1 := rfl
      rw [hBlocks]
      omega
    | watchdog refresh control gsiv flags =>
      have hFrames : (PlatformTimer.watchdog refresh control gsiv flags).frameCount = 0 := rfl
      rw [hFrames, Nat.zero_add]
      exact hSum
    | other =>
      have hFrames : PlatformTimer.other.frameCount = 0 := rfl
      rw [hFrames, Nat.zero_add]
      exact hSum

/-- For a GTDT that fits the buffers of the application, the timer table has the GT blocks with
their frames and counts the frames, and the watchdog table has the watchdogs and counts them. -/
theorem gtdt_faithful (g : Gtdt)
    (hTimer : ∀ x ∈ (palTimerCreateInfoTable (some g.mem)).stores, x.Inside timerInfoTableSz)
    (hWd : ∀ x ∈ (palWdCreateInfoTable (some g.mem)).2.stores, x.Inside wdInfoTableSz) :
    TablesOf g.timers (palTimerCreateInfoTable (some g.mem)).table
      (palWdCreateInfoTable (some g.mem)).2.table := by
  have hBlocks := (timer_stores_iff g.mem).mp hTimer |>.blocks
  have hWatchdogs := (wd_stores_iff g.mem).mp hWd
  rw [gtBlocks, filter_type_length g.layout blockInfo_isSome] at hBlocks
  rw [watchdogs, filter_type_length g.layout wdInfo_isSome] at hWatchdogs
  have hSum := frameCount_sum_le g.eight_frames
  have hTimerTable : (palTimerCreateInfoTable (some g.mem)).table =
      (platformTimers g.mem).foldl (fun t entry => timerVisit g.mem entry t)
        (timerHeader g.mem) := by
    simp only [palTimerCreateInfoTable, gtdtScan, countedWalk_eq]
    exact foldl_withLog_fst _ _ _ _ _
  have hWdTable : (palWdCreateInfoTable (some g.mem)).2.table =
      (platformTimers g.mem).foldl (fun t entry => wdVisit g.mem entry t) {} := by
    simp only [palWdCreateInfoTable, gtdtScan, countedWalk_eq]
    exact foldl_withLog_fst _ _ _ _ _
  rw [hTimerTable, hWdTable, timer_fold g.layout, wd_fold g.layout]
  constructor
  · exact List.nil_append _
  · show (0#32 + BitVec.ofNat 32 _).toNat = _
    rw [BitVec.zero_add, BitVec.toNat_ofNat, Nat.mod_eq_of_lt (by omega)]
  · exact List.nil_append _
  · show (0#32 + BitVec.ofNat 32 _).toNat = _
    rw [BitVec.zero_add, BitVec.toNat_ofNat, Nat.mod_eq_of_lt (by omega)]

/-! ## A GTDT with both kinds -/

/-- At 96 a GT block with one frame, which starts 20 bytes into it, at 156 a watchdog. -/
def timersMemory : Memory
  | 88 => 2
  | 92 => 96
  | 97 => 60
  | 108 => 1
  | 112 => 20
  | 136 => 0x22
  | 156 => genericWatchdogType
  | 157 => 28
  | 176 => 0x3b
  | _ => 0

def blockTimer : PlatformTimer := .gtBlock 0 [⟨0, 0, 0x22, 0, 0, 0, 0⟩]
def watchdogTimer : PlatformTimer := .watchdog 0 0 0x3b 0

theorem timers_addresses : platformTimers timersMemory = [96, 156] := by decide

theorem blockTimer_at : TimerAt timersMemory 96 blockTimer := by
  have hFrame : FrameAt timersMemory 116 ⟨0, 0, 0x22, 0, 0, 0, 0⟩ := by
    constructor <;> decide
  have hAddrs : (List.range (gtBlockTimerCount timersMemory 96).toNat).map
      (gtBlockTimer timersMemory 96) = [116] := by decide
  refine ⟨by decide, by decide, ?_⟩
  rw [hAddrs]
  exact .cons hFrame .nil

theorem watchdogTimer_at : TimerAt timersMemory 156 watchdogTimer := by
  refine ⟨?_, ?_, ?_, ?_, ?_⟩ <;> decide

theorem timers_layout :
    List.Forall₂ (TimerAt timersMemory) (platformTimers timersMemory)
      [blockTimer, watchdogTimer] := by
  rw [timers_addresses]
  exact .cons blockTimer_at (.cons watchdogTimer_at .nil)

theorem timers_length_pos :
    ∀ entry ∈ platformTimers timersMemory, 0 < (timerLength timersMemory entry).toNat := by
  rw [timers_addresses]
  decide

theorem timers_eight_frames : ∀ timer ∈ [blockTimer, watchdogTimer], timer.frameCount ≤ 8 := by
  decide

def timersGtdt : Gtdt where
  mem := timersMemory
  timers := [blockTimer, watchdogTimer]
  layout := timers_layout
  length_pos := timers_length_pos
  eight_frames := timers_eight_frames

theorem timersGtdt_room : TimerRoom timersMemory := by
  have hBlocks : gtBlocks timersMemory = [96] := by decide
  constructor
  · rw [hBlocks]
    decide
  · rw [hBlocks]
    decide
  · rw [hBlocks]
    intro entry hEntry
    cases hEntry

theorem gtdt_block_and_watchdog :
    TablesOf [blockTimer, watchdogTimer] (palTimerCreateInfoTable (some timersMemory)).table
      (palWdCreateInfoTable (some timersMemory)).2.table :=
  gtdt_faithful timersGtdt ((timer_stores_iff timersMemory).mpr timersGtdt_room)
    ((wd_stores_iff timersMemory).mpr (by decide))

end EnterpriseAcs.Sdei
