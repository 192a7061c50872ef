import EnterpriseAcs.Library.Extremum
import EnterpriseAcs.Sdei.TimerInstances

/-!
# The timer that raises the second interrupt

PAL goes through the numbers of the platform timers from the last one down and takes the first
that is not secure. Each number goes through the search for block and frame, which leads behind
the frames of a block when the number is the first of the next one: there the buffer is as the
builder has found it.

* `configureSecondInterrupt_eq`: the call takes the last number whose record, where it looks for
  it, is not secure.
* `secondInterrupt_iff`: when this is a non-secure timer of the table.
-/

namespace EnterpriseAcs.Sdei

open Blocks Extremum

/-! ## The records that are read -/

/-- Bit 16 of the flags: the secure bit of the common flags. -/
def GtFrame.secure (frame : GtFrame) : BitVec 32 := (frame.flags >>> 16) &&& 1

def GtFrame.nonSecure (frame : GtFrame) : Bool := frame.secure == 0

namespace TimerTable

/-- The elements `i` of the arrays of `gt_info[k]`. -/
def frame (t : TimerTable) (k i : Nat) : GtFrame :=
  (t.info.gtInfo[k]?.bind fun block => block.frames[i]?).getD (t.unsetFrame k i)

/-- The timers of the table, by number. -/
def frames (t : TimerTable) : List GtFrame :=
  (t.info.gtInfo.map fun block => block.frames).flatten

/-- The record where the search looks for a timer. -/
def seen (t : TimerTable) (n : Nat) : GtFrame :=
  t.frame (reach t.counts n).1 (reach t.counts n).2

theorem counts_eq (t : TimerTable) :
    t.counts = (t.info.gtInfo.map fun block => block.frames).map List.length := by
  rw [counts, List.map_map]
  exact List.map_congr_left fun block hBlock => (t.frames_length block hBlock).symm

theorem frames_count (t : TimerTable) : t.frames.length = t.num := by
  rw [frames, List.length_flatten, t.num_eq, counts_eq]

theorem frames_at {t : TimerTable} {n k j : Nat} (h : At t.counts n k j) :
    t.frames[n]? = some (t.frame k j) := by
  have hInside : n < t.frames.length := by
    rw [frames_count, num_eq]
    exact h.lt_sum
  rw [counts_eq] at h
  have hPlace : t.frames[n]? = t.info.gtInfo[k]?.bind fun block => block.frames[j]? := by
    rw [frames, getElem?_flatten h, List.getElem?_map, Option.bind_map]
    rfl
  rw [frame, ← hPlace, List.getElem?_eq_getElem hInside, Option.getD_some]

/-- Between the boundaries it is the record of the timer. -/
theorem seen_of_not_boundary {t : TimerTable} {n : Nat} (hn : n < t.num)
    (h : ¬ Boundary t.counts n) : t.frames[n]? = some (t.seen n) :=
  frames_at ((at_reach_iff (t.num_eq ▸ hn)).mpr h)

end TimerTable

/-! ## The calls -/

/-- The types of `sys_timer_info_t`. -/
inductive SysTimerInfo where
  | isPlatformTimerSecure
  | sysIntid
  | sysCntBaseN
  deriving DecidableEq, Repr

/-- What a record has of a type. -/
def SysTimerInfo.read (type : SysTimerInfo) (frame : GtFrame) : BitVec 64 :=
  match type with
  | .isPlatformTimerSecure => frame.secure.setWidth 64
  | .sysIntid => frame.gsiv.setWidth 64
  | .sysCntBaseN => frame.gtCntBase

/-- `pal_timer_get_info`. Its two variables are not initialised. -/
def palTimerGetInfo (fuel : Nat) (t : TimerTable) (uninit : EntryIndex) (type : SysTimerInfo)
    (index : BitVec 32) : Option (BitVec 64) :=
  (palPlatformTimerGetEntryIndex fuel t index uninit).map fun found =>
    if found.block ≠ palInvalidIndex then
      type.read (t.frame found.block.toNat found.index.toNat)
    else palInvalidIndex.setWidth 64

/-- The two words that the selection is given to fill in. -/
structure SecondInterrupt where
  index : BitVec 32
  intId : BitVec 64
  deriving DecidableEq, Repr

/-- The loop of `pal_configure_second_interrupt`, from `timer_num` down: none when no timer is
taken. -/
def secondInterruptLoop (fuel : Nat) (t : TimerTable) (uninit : EntryIndex) :
    Nat → Option (Option SecondInterrupt)
  | 0 => some none
  | timerNum + 1 => do
    let secure ← palTimerGetInfo fuel t uninit .isPlatformTimerSecure (BitVec.ofNat 32 timerNum)
    if secure ≠ 0 then secondInterruptLoop fuel t uninit timerNum
    else
      let intId ← palTimerGetInfo fuel t uninit .sysIntid (BitVec.ofNat 32 timerNum)
      some (some { index := BitVec.ofNat 32 timerNum, intId := intId })

/-- `acs_status_t`. -/
inductive AcsStatus where
  | success
  | error
  deriving DecidableEq, Repr

/-- `pal_configure_second_interrupt`. -/
def palConfigureSecondInterrupt (fuel : Nat) (t : TimerTable) (uninit : EntryIndex)
    (out : SecondInterrupt) : Option (AcsStatus × SecondInterrupt) :=
  if t.num = 0 then some (.error, out)
  else
    (secondInterruptLoop fuel t uninit t.num).map fun taken =>
      match taken with
      | some found => (.success, found)
      | none => (.error, out)

/-! ## What they return -/

section Returns

variable {t : TimerTable} {fuel n : Nat} (hFuel : t.info.gtInfo.length < fuel)
  (uninit : EntryIndex)

include hFuel in
theorem palTimerGetInfo_eq (hn : n < t.num) (type : SysTimerInfo) :
    palTimerGetInfo fuel t uninit type (BitVec.ofNat 32 n) = some (type.read (t.seen n)) := by
  have hNum : t.num < 2 ^ 32 := t.info.numPlatformTimer.isLt
  have hIndex : (BitVec.ofNat 32 n).toNat = n :=
    (BitVec.toNat_ofNat n 32).trans (Nat.mod_eq_of_lt (hn.trans hNum))
  obtain ⟨hBlock, hFrame⟩ := toNat_reach t (Nat.le_of_lt hn)
  have hLe : (BitVec.ofNat 32 n).toNat ≤ t.num := by
    rw [hIndex]
    exact Nat.le_of_lt hn
  have hSearch := getEntryIndex_eq (Nat.le_refl 32) palInvalidIndex t hLe uninit hFuel
  rw [hIndex] at hSearch
  have hValid := block_ne_palInvalidIndex t (Nat.le_of_lt hn)
  rw [palTimerGetInfo, palPlatformTimerGetEntryIndex, hSearch, Option.map_some, if_pos hValid,
    hBlock, hFrame]
  rfl

include hFuel in
theorem secondInterruptLoop_eq (hn : n ≤ t.num) :
    secondInterruptLoop fuel t uninit n =
      some ((lastBelow (fun m => (t.seen m).nonSecure) n).map fun m =>
        { index := BitVec.ofNat 32 m, intId := (t.seen m).gsiv.setWidth 64 }) := by
  induction n with
  | zero => rfl
  | succ n ih =>
    have hRead := palTimerGetInfo_eq hFuel uninit (Nat.lt_of_succ_le hn)
    have hSecure : (t.seen n).secure.setWidth 64 = 0#64 ↔ (t.seen n).nonSecure = true := by
      rw [GtFrame.nonSecure, beq_iff_eq, ← BitVec.toNat_inj, ← BitVec.toNat_inj,
        BitVec.toNat_setWidth_of_le (by decide)]
      rfl
    rw [secondInterruptLoop, hRead, hRead]
    cases hSeen : (t.seen n).nonSecure with
    | false =>
      have hSkip : ¬ (t.seen n).secure.setWidth 64 = 0#64 := by
        rw [hSecure, hSeen]
        exact Bool.false_ne_true
      rw [lastBelow_of_false _ hSeen, ← ih (Nat.le_of_succ_le hn)]
      exact if_pos hSkip
    | true =>
      rw [lastBelow_of_true _ hSeen]
      exact if_neg (not_not.mpr (hSecure.mpr hSeen))

/-- The last number whose record, where the search looks for it, is not secure. -/
def lastNonSecure (t : TimerTable) : Option Nat :=
  lastBelow (fun m => (t.seen m).nonSecure) t.num

include hFuel in
theorem configureSecondInterrupt_eq (out : SecondInterrupt) :
    palConfigureSecondInterrupt fuel t uninit out =
      some (match lastNonSecure t with
        | some m =>
          (.success, { index := BitVec.ofNat 32 m, intId := (t.seen m).gsiv.setWidth 64 })
        | none => (.error, out)) := by
  rw [palConfigureSecondInterrupt]
  split
  · rename_i hZero
    rw [lastNonSecure, hZero]
    rfl
  · rw [secondInterruptLoop_eq hFuel uninit (Nat.le_refl t.num), lastNonSecure]
    cases lastBelow (fun m => (t.seen m).nonSecure) t.num <;> rfl

end Returns

/-- More rounds of the searches do not change what the calls return. -/
theorem palTimerGetInfo_add {t : TimerTable} {uninit : EntryIndex} {type : SysTimerInfo}
    {index : BitVec 32} {fuel : Nat} {data : BitVec 64}
    (h : palTimerGetInfo fuel t uninit type index = some data) (more : Nat) :
    palTimerGetInfo (fuel + more) t uninit type index = some data := by
  obtain ⟨found, hFound, rfl⟩ := Option.map_eq_some_iff.mp h
  rw [palTimerGetInfo, palPlatformTimerGetEntryIndex, getEntryIndex_add hFound]
  rfl

theorem secondInterruptLoop_add {t : TimerTable} {uninit : EntryIndex} {fuel n : Nat}
    {taken : Option SecondInterrupt} (h : secondInterruptLoop fuel t uninit n = some taken)
    (more : Nat) : secondInterruptLoop (fuel + more) t uninit n = some taken := by
  induction n with
  | zero => exact h
  | succ n ih =>
    obtain ⟨secure, hSecure, hRest⟩ := Option.bind_eq_some_iff.mp h
    refine Option.bind_eq_some_iff.mpr ⟨secure, palTimerGetInfo_add hSecure more, ?_⟩
    split at hRest
    · rename_i hSkip
      rw [if_pos hSkip]
      exact ih hRest
    · rename_i hTake
      obtain ⟨intId, hIntId, hTaken⟩ := Option.bind_eq_some_iff.mp hRest
      rw [if_neg hTake]
      exact Option.bind_eq_some_iff.mpr ⟨intId, palTimerGetInfo_add hIntId more, hTaken⟩

theorem configureSecondInterrupt_some {t : TimerTable} {uninit : EntryIndex} {fuel : Nat}
    {out : SecondInterrupt} {r : AcsStatus × SecondInterrupt}
    (h : palConfigureSecondInterrupt fuel t uninit out = some r) :
    r = match lastNonSecure t with
      | some m => (.success, { index := BitVec.ofNat 32 m, intId := (t.seen m).gsiv.setWidth 64 })
      | none => (.error, out) := by
  have hEnough := configureSecondInterrupt_eq
    (show t.info.gtInfo.length < fuel + (t.info.gtInfo.length + 1) by omega) uninit out
  rw [palConfigureSecondInterrupt] at h hEnough
  split at h
  · rename_i hZero
    rw [if_pos hZero] at hEnough
    exact Option.some_inj.mp (h.symm.trans hEnough)
  · rename_i hPos
    obtain ⟨taken, hTaken, rfl⟩ := Option.map_eq_some_iff.mp h
    rw [if_neg hPos, secondInterruptLoop_add hTaken] at hEnough
    exact Option.some_inj.mp hEnough

/-! ## When it is right -/

/-- The call succeeds exactly when some timer of the table is not secure, and gives number and
interrupt of such a timer. -/
structure SecondInterruptRight (t : TimerTable) (r : AcsStatus × SecondInterrupt) : Prop where
  success_iff : r.1 = .success ↔ ∃ frame ∈ t.frames, frame.nonSecure = true
  same : r.1 = .success → ∃ frame, t.frames[r.2.index.toNat]? = some frame ∧
    frame.nonSecure = true ∧ r.2.intId = frame.gsiv.setWidth 64

def SelectsSecond (t : TimerTable) (uninit : EntryIndex) (out : SecondInterrupt) : Prop :=
  ∃ fuel r, palConfigureSecondInterrupt fuel t uninit out = some r ∧ SecondInterruptRight t r

/-- What the buffer has where the search looks for the timers at the boundaries. When the last
number that does not look secure is a boundary, the timer is not secure and has the interrupt
that is read for it; when all look secure, the timers at the boundaries are. -/
structure BoundariesHarmless (t : TimerTable) : Prop where
  taken : ∀ n < t.num, Boundary t.counts n → (t.seen n).nonSecure = true →
    (∀ m, n < m → m < t.num → (t.seen m).nonSecure = false) →
    ∃ frame, t.frames[n]? = some frame ∧ frame.nonSecure = true ∧ frame.gsiv = (t.seen n).gsiv
  missed : (∀ n < t.num, (t.seen n).nonSecure = false) →
    ∀ n < t.num, Boundary t.counts n → ∀ frame, t.frames[n]? = some frame →
      frame.nonSecure = false

/-- When every number looks secure the call fails. -/
theorem right_none_iff {t : TimerTable} {out : SecondInterrupt}
    (hAll : ∀ n < t.num, (t.seen n).nonSecure = false) :
    SecondInterruptRight t (.error, out) ↔
      ∀ n < t.num, Boundary t.counts n → ∀ frame, t.frames[n]? = some frame →
        frame.nonSecure = false := by
  constructor
  · intro h n _ _ frame hFrame
    refine Bool.eq_false_iff.mpr fun hNonSecure => ?_
    have hSuccess := h.success_iff.mpr ⟨frame, List.mem_of_getElem? hFrame, hNonSecure⟩
    cases hSuccess
  · intro h
    refine ⟨iff_of_false nofun ?_, nofun⟩
    rintro ⟨frame, hMem, hNonSecure⟩
    obtain ⟨n, hn, rfl⟩ := List.getElem_of_mem hMem
    have hFrame := List.getElem?_eq_getElem hn
    rw [t.frames_count] at hn
    by_cases hBoundary : Boundary t.counts n
    · exact Bool.eq_false_iff.mp (h n hn hBoundary _ hFrame) hNonSecure
    · have hSeen := TimerTable.seen_of_not_boundary hn hBoundary
      rw [hFrame, Option.some.injEq] at hSeen
      rw [hSeen, hAll n hn] at hNonSecure
      exact Bool.false_ne_true hNonSecure

/-- When a number is taken the call succeeds, rightly when the record is that of the timer. -/
theorem right_some_iff {t : TimerTable} {m : Nat} (hm : m < t.num) :
    SecondInterruptRight t
        (.success, { index := BitVec.ofNat 32 m, intId := (t.seen m).gsiv.setWidth 64 }) ↔
      ∃ frame, t.frames[m]? = some frame ∧ frame.nonSecure = true ∧
        frame.gsiv = (t.seen m).gsiv := by
  have hNum : t.num < 2 ^ 32 := t.info.numPlatformTimer.isLt
  have hIndex : (BitVec.ofNat 32 m).toNat = m :=
    (BitVec.toNat_ofNat m 32).trans (Nat.mod_eq_of_lt (hm.trans hNum))
  have hGsiv : ∀ frame : GtFrame,
      (t.seen m).gsiv.setWidth 64 = frame.gsiv.setWidth 64 ↔ frame.gsiv = (t.seen m).gsiv := by
    intro frame
    rw [← BitVec.toNat_inj, ← BitVec.toNat_inj, BitVec.toNat_setWidth_of_le (by decide),
      BitVec.toNat_setWidth_of_le (by decide)]
    exact eq_comm
  constructor
  · intro h
    obtain ⟨frame, hFrame, hNonSecure, hIntId⟩ := h.same rfl
    rw [hIndex] at hFrame
    exact ⟨frame, hFrame, hNonSecure, (hGsiv frame).mp hIntId⟩
  · rintro ⟨frame, hFrame, hNonSecure, hSame⟩
    refine ⟨iff_of_true rfl ⟨frame, List.mem_of_getElem? hFrame, hNonSecure⟩, fun _ => ?_⟩
    refine ⟨frame, ?_, hNonSecure, (hGsiv frame).mpr hSame⟩
    rw [hIndex]
    exact hFrame

/-- The selection is right exactly when no boundary misleads it. -/
theorem secondInterrupt_iff (t : TimerTable) (uninit : EntryIndex) (out : SecondInterrupt) :
    SelectsSecond t uninit out ↔ BoundariesHarmless t := by
  have hReturns : SelectsSecond t uninit out ↔ SecondInterruptRight t
      (match lastNonSecure t with
        | some m => (.success, { index := BitVec.ofNat 32 m, intId := (t.seen m).gsiv.setWidth 64 })
        | none => (.error, out)) := by
    constructor
    · rintro ⟨fuel, r, hCall, hRight⟩
      rwa [← configureSecondInterrupt_some hCall]
    · intro hRight
      exact ⟨_, _, configureSecondInterrupt_eq (Nat.lt_succ_self _) uninit out, hRight⟩
  rw [hReturns]
  cases hLast : lastNonSecure t with
  | none =>
    have hAll := (lastBelow_eq_none_iff _).mp hLast
    rw [right_none_iff hAll]
    constructor
    · intro h
      refine ⟨fun n hn _ hNonSecure _ => ?_, fun _ => h⟩
      exact absurd hNonSecure (Bool.eq_false_iff.mp (hAll n hn))
    · intro h
      exact h.missed hAll
  | some m =>
    obtain ⟨hm, hNonSecure, hLater⟩ := (lastBelow_eq_some_iff _).mp hLast
    rw [right_some_iff hm]
    constructor
    · intro h
      constructor
      · intro n hn _ hSeen hNone
        -- two last numbers are the same
        have hSame : n = m := by
          have hLastN := (lastBelow_eq_some_iff (fun m => (t.seen m).nonSecure)).mpr
            ⟨hn, hSeen, hNone⟩
          exact Option.some_inj.mp (hLastN.symm.trans hLast)
        rwa [hSame]
      · intro hAll
        exact absurd hNonSecure (Bool.eq_false_iff.mp (hAll m hm))
    · intro h
      by_cases hBoundary : Boundary t.counts m
      · exact h.taken m hm hBoundary hNonSecure hLater
      · exact ⟨t.seen m, TimerTable.seen_of_not_boundary hm hBoundary, hNonSecure, rfl⟩

/-- A table with a single block has no boundary among its timers. -/
theorem boundariesHarmless_of_single {t : TimerTable} (h : t.info.gtInfo.length ≤ 1) :
    BoundariesHarmless t := by
  have hNone : ∀ n < t.num, ¬ Boundary t.counts n := by
    rintro n hn ⟨k, hk, hStart⟩
    have hEnd : start t.counts t.counts.length ≤ start t.counts (k + 1) :=
      start_mono t.counts (by rw [t.counts_length]; omega)
    rw [start_length, ← t.num_eq] at hEnd
    omega
  exact ⟨fun n hn hBoundary => absurd hBoundary (hNone n hn),
    fun _ n hn hBoundary => absurd hBoundary (hNone n hn)⟩

/-- In two blocks of one frame each, neither secure, the second is taken with the interrupt that
the buffer has behind the frame of the first. -/
theorem second_block_interrupt_lost :
    ¬ SelectsSecond twoBlocks ⟨0, 0⟩ ⟨0, 0⟩ ∧
      palConfigureSecondInterrupt 3 twoBlocks ⟨0, 0⟩ ⟨0, 0⟩ = some (.success, ⟨1, 0⟩) ∧
      twoBlocks.frames[1]? = some ⟨0, 0, 41, 0, 0⟩ := by
  refine ⟨fun h => ?_, by decide, rfl⟩
  obtain ⟨fuel, r, hCall, hRight⟩ := h
  have hLast : lastNonSecure twoBlocks = some 1 := by decide
  rw [configureSecondInterrupt_some hCall, hLast] at hRight
  obtain ⟨frame, hFrame, -, hIntId⟩ := hRight.same rfl
  obtain rfl := Option.some_inj.mp hFrame
  exact absurd hIntId (by decide)

end EnterpriseAcs.Sdei
