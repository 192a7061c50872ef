import EnterpriseAcs.Library.WhileLoop
import EnterpriseAcs.Sdei.DeviceTables

/-!
# The selection of a watchdog

Two tests look for a watchdog that is not secure, from the last entry of the watchdog table down.
The loop is a `do while (0)`, and the `continue` that is to skip a secure watchdog leads to its
test: the loop never comes to another entry. Nor is the table tested for being empty before the
count is taken down.

* `wdSelection_eq`: the loop is one round.
* `wdSelection_iff`: the tables on which it selects rightly.
-/

namespace EnterpriseAcs.Sdei

open WhileLoop

/-- A watchdog table in its buffer, with what the buffer has behind the entries. -/
structure WdTable where
  info : WdInfoTable
  unset : Nat → WdInfoEntry
  count_eq : info.numWd.toNat = info.wdInfo.length

/-- `wd_info[index]`. -/
def WdTable.entry (t : WdTable) (index : BitVec 32) : WdInfoEntry :=
  (t.info.wdInfo[index.toNat]?).getD (t.unset index.toNat)

/-- Bit 2 of the flags. -/
def WdInfoEntry.secure (entry : WdInfoEntry) : BitVec 32 := (entry.wdFlags >>> 2) &&& 1

def WdInfoEntry.nonSecure (entry : WdInfoEntry) : Bool := entry.secure == 0

/-- The types of `WD_INFO_TYPE`. -/
inductive WdInfoType where
  | count
  | ctrlBase
  | refreshBase
  | gsiv
  | isSecure
  deriving DecidableEq, Repr

/-- `val_wd_get_info`. -/
def valWdGetInfo (t : WdTable) (index : BitVec 32) (infoType : WdInfoType) : BitVec 64 :=
  match infoType with
  | .count => t.info.numWd.setWidth 64
  | .ctrlBase => (t.entry index).wdCtrlBase
  | .refreshBase => (t.entry index).wdRefreshBase
  | .gsiv => (t.entry index).wdGsiv.setWidth 64
  | .isSecure => (t.entry index).secure.setWidth 64

/-! ## The loop -/

/-- The variables of the loop: the `int32_t` `g_wd_num`, `ns_wdg`, the interrupt and the control
base that are read for a selected watchdog, the indices given to `val_wd_get_info`, and whether
taking `g_wd_num` down was defined. -/
structure WdSelection where
  wdNum : BitVec 32
  nsWdg : BitVec 32 := 0
  intId : BitVec 64 := 0
  wdCtrlBase : BitVec 64 := 0
  used : List (BitVec 32) := []
  overflow : Bool := false
  deriving DecidableEq, Repr

/-- The body of the loop up to where the watchdog is used. -/
def wdRound (t : WdTable) (s : WdSelection) : WdSelection :=
  let s := { s with wdNum := s.wdNum - 1, overflow := s.overflow || s.wdNum == BitVec.intMin 32 }
  -- `continue`: the test of the loop is next
  if valWdGetInfo t s.wdNum .isSecure ≠ 0 then { s with used := s.used ++ [s.wdNum] }
  else
    { s with
      nsWdg := s.nsWdg + 1
      intId := valWdGetInfo t s.wdNum .gsiv
      wdCtrlBase := valWdGetInfo t s.wdNum .ctrlBase
      used := s.used ++ [s.wdNum, s.wdNum, s.wdNum] }

/-- The variables before the loop. -/
def wdStart (t : WdTable) : WdSelection where
  wdNum := (valWdGetInfo t 0 .count).setWidth 32

/-- `do` with `while (0)`. -/
def wdSelection (fuel : Nat) (t : WdTable) : Option WdSelection :=
  doWhile (fun _ => false) (wdRound t) fuel (wdStart t)

/-- The loops of `wd_event_register` in test 041 and of `test_entry` in test 042. -/
def test041Selection (fuel : Nat) (t : WdTable) : Option WdSelection := wdSelection fuel t
def test042Selection (fuel : Nat) (t : WdTable) : Option WdSelection := wdSelection fuel t

/-- The body runs once. -/
theorem wdSelection_eq (fuel : Nat) (t : WdTable) :
    wdSelection (fuel + 1) t = some (wdRound t (wdStart t)) := doWhile_of_false rfl fuel

section Selected

variable (t : WdTable)

theorem wdStart_wdNum : (wdStart t).wdNum = t.info.numWd := by
  rw [wdStart, valWdGetInfo, BitVec.setWidth_setWidth_of_le _ (by decide), BitVec.setWidth_eq]

/-- The index of the only round. -/
def lastIndex : BitVec 32 := t.info.numWd - 1

theorem toNat_lastIndex (h : t.info.wdInfo ≠ []) :
    (lastIndex t).toNat = t.info.wdInfo.length - 1 := by
  have hLength := List.length_pos_iff.mpr h
  have hCount := t.count_eq
  have hLt := t.info.numWd.isLt
  rw [lastIndex, BitVec.toNat_sub_of_le, hCount]
  · rfl
  · rw [BitVec.le_def, hCount]
    exact hLength

/-- With entries it is the index of the last one. -/
theorem getElem?_lastIndex (h : t.info.wdInfo ≠ []) :
    t.info.wdInfo[(lastIndex t).toNat]? = t.info.wdInfo.getLast? := by
  rw [toNat_lastIndex t h, List.getLast?_eq_getElem?]

variable {t}

theorem wdRound_of_secure (h : (t.entry (lastIndex t)).nonSecure = false) :
    wdRound t (wdStart t) =
      { wdNum := lastIndex t
        used := [lastIndex t]
        overflow := t.info.numWd == BitVec.intMin 32 } := by
  have hSkip : valWdGetInfo t (lastIndex t) .isSecure ≠ 0 := by
    rw [valWdGetInfo, Ne, ← BitVec.toNat_inj, BitVec.toNat_setWidth_of_le (by decide)]
    intro hZero
    exact beq_eq_false_iff_ne.mp h (BitVec.eq_of_toNat_eq hZero)
  rw [wdRound, wdStart_wdNum]
  exact if_pos hSkip

theorem wdRound_of_nonSecure (h : (t.entry (lastIndex t)).nonSecure = true) :
    wdRound t (wdStart t) =
      { wdNum := lastIndex t
        nsWdg := 1
        intId := (t.entry (lastIndex t)).wdGsiv.setWidth 64
        wdCtrlBase := (t.entry (lastIndex t)).wdCtrlBase
        used := [lastIndex t, lastIndex t, lastIndex t]
        overflow := t.info.numWd == BitVec.intMin 32 } := by
  have hTake : valWdGetInfo t (lastIndex t) .isSecure = 0 := by
    rw [valWdGetInfo, beq_iff_eq.mp h]
    rfl
  rw [wdRound, wdStart_wdNum]
  exact if_neg (not_not.mpr hTake)

/-- The count is the smallest `int` only in a table of `2 ^ 31` entries. -/
theorem overflow_iff (t : WdTable) :
    (t.info.numWd == BitVec.intMin 32) = false ↔ t.info.wdInfo.length ≠ 2 ^ 31 := by
  rw [beq_eq_false_iff_ne, Ne, ← BitVec.toNat_inj, t.count_eq]
  rfl

end Selected

/-! ## When it is right -/

/-- A watchdog of the table that is not secure is selected, if there is one, and no index outside
the table is used. -/
structure SelectsWatchdog (t : WdTable) (s : WdSelection) : Prop where
  defined : s.overflow = false
  inside : ∀ index ∈ s.used, index.toNat < t.info.wdInfo.length
  selected : (∃ entry ∈ t.info.wdInfo, entry.nonSecure = true) →
    s.nsWdg ≠ 0 ∧ ∃ entry, t.info.wdInfo[s.wdNum.toNat]? = some entry ∧
      entry.nonSecure = true ∧ s.intId = entry.wdGsiv.setWidth 64 ∧
      s.wdCtrlBase = entry.wdCtrlBase
  none : (∀ entry ∈ t.info.wdInfo, entry.nonSecure = false) → s.nsWdg = 0

/-- The loop ends with the right selection. -/
def LoopSelects (t : WdTable) (selection : Nat → Option WdSelection) : Prop :=
  ∃ fuel s, selection fuel = some s ∧ SelectsWatchdog t s

theorem loopSelects_iff (t : WdTable) :
    LoopSelects t (fun fuel => wdSelection fuel t) ↔
      SelectsWatchdog t (wdRound t (wdStart t)) := by
  constructor
  · rintro ⟨fuel, s, hLoop, hRight⟩
    cases fuel with
    | zero => cases hLoop
    | succ fuel => rwa [Option.some_inj.mp ((wdSelection_eq fuel t).symm.trans hLoop)]
  · intro hRight
    exact ⟨1, _, wdSelection_eq 0 t, hRight⟩

/-- The last entry decides: it is not secure, or none is. -/
def LastDecides (t : WdTable) : Prop :=
  ∃ last, t.info.wdInfo.getLast? = some last ∧
    (last.nonSecure = true ∨ ∀ entry ∈ t.info.wdInfo, entry.nonSecure = false)

/-- In an empty table the largest word is used as an index. -/
theorem not_inside_of_empty {t : WdTable} (h : t.info.wdInfo = []) :
    ¬ SelectsWatchdog t (wdRound t (wdStart t)) := by
  intro hRight
  have hUsed : lastIndex t ∈ (wdRound t (wdStart t)).used := by
    cases hEntry : (t.entry (lastIndex t)).nonSecure with
    | false =>
      rw [wdRound_of_secure hEntry]
      exact List.mem_singleton_self _
    | true =>
      rw [wdRound_of_nonSecure hEntry]
      exact List.mem_cons_self
  have hInside := hRight.inside _ hUsed
  rw [h] at hInside
  exact Nat.not_lt_zero _ hInside

section LastEntry

variable {t : WdTable} {last : WdInfoEntry}

theorem ne_nil_of_last (hSome : t.info.wdInfo.getLast? = some last) : t.info.wdInfo ≠ [] := by
  intro hEmpty
  rw [hEmpty] at hSome
  cases hSome

theorem lastIndex_lt (hSome : t.info.wdInfo.getLast? = some last) :
    (lastIndex t).toNat < t.info.wdInfo.length := by
  have hEmpty := ne_nil_of_last hSome
  have hLength := List.length_pos_iff.mpr hEmpty
  rw [toNat_lastIndex t hEmpty]
  omega

theorem entry_lastIndex (hSome : t.info.wdInfo.getLast? = some last) :
    t.entry (lastIndex t) = last := by
  rw [WdTable.entry, getElem?_lastIndex t (ne_nil_of_last hSome), hSome]
  rfl

theorem lastDecides_iff (hSome : t.info.wdInfo.getLast? = some last) :
    LastDecides t ↔
      last.nonSecure = true ∨ ∀ entry ∈ t.info.wdInfo, entry.nonSecure = false := by
  constructor
  · rintro ⟨last', hSome', h⟩
    obtain rfl := Option.some_inj.mp (hSome.symm.trans hSome')
    exact h
  · intro h
    exact ⟨last, hSome, h⟩

/-- `continue` ends the loop: right only when there is nothing to select. -/
theorem round_selects_of_secure (hSome : t.info.wdInfo.getLast? = some last)
    (hSecure : last.nonSecure = false) :
    SelectsWatchdog t (wdRound t (wdStart t)) ↔
      t.info.wdInfo.length ≠ 2 ^ 31 ∧ ∀ entry ∈ t.info.wdInfo, entry.nonSecure = false := by
  rw [wdRound_of_secure (entry_lastIndex hSome ▸ hSecure)]
  constructor
  · intro h
    refine ⟨(overflow_iff t).mp h.defined, fun entry hMem => ?_⟩
    rw [← Bool.not_eq_true]
    intro hNonSecure
    exact (h.selected ⟨entry, hMem, hNonSecure⟩).1 rfl
  · rintro ⟨hLength, hNone⟩
    refine ⟨(overflow_iff t).mpr hLength, ?_, ?_, fun _ => rfl⟩
    · intro index hIndex
      rw [List.mem_singleton.mp hIndex]
      exact lastIndex_lt hSome
    · rintro ⟨entry, hMem, hNonSecure⟩
      exact absurd hNonSecure (Bool.eq_false_iff.mp (hNone entry hMem))

theorem round_selects_of_nonSecure (hSome : t.info.wdInfo.getLast? = some last)
    (hSecure : last.nonSecure = true) :
    SelectsWatchdog t (wdRound t (wdStart t)) ↔ t.info.wdInfo.length ≠ 2 ^ 31 := by
  have hEntry := entry_lastIndex hSome
  rw [wdRound_of_nonSecure (hEntry ▸ hSecure)]
  constructor
  · intro h
    exact (overflow_iff t).mp h.defined
  · intro hLength
    refine ⟨(overflow_iff t).mpr hLength, ?_, ?_, ?_⟩
    · intro index hIndex
      have hSame : index = lastIndex t := by simpa using hIndex
      rw [hSame]
      exact lastIndex_lt hSome
    · intro _
      have hAt := getElem?_lastIndex t (ne_nil_of_last hSome)
      refine ⟨nofun, last, hAt.trans hSome, hSecure, ?_, ?_⟩ <;> rw [hEntry]
    · intro hNone
      exact absurd hSecure (Bool.eq_false_iff.mp (hNone last (List.mem_of_getLast? hSome)))

end LastEntry

theorem round_selects_iff (t : WdTable) :
    SelectsWatchdog t (wdRound t (wdStart t)) ↔
      t.info.wdInfo.length ≠ 2 ^ 31 ∧ LastDecides t := by
  cases hSome : t.info.wdInfo.getLast? with
  | none =>
    refine iff_of_false (not_inside_of_empty (List.getLast?_eq_none_iff.mp hSome)) ?_
    rintro ⟨-, last, hLast, -⟩
    rw [hSome] at hLast
    cases hLast
  | some last =>
    rw [lastDecides_iff hSome]
    cases hSecure : last.nonSecure with
    | false =>
      rw [round_selects_of_secure hSome hSecure]
      simp only [Bool.false_eq_true, false_or]
    | true =>
      rw [round_selects_of_nonSecure hSome hSecure]
      simp only [true_or, and_true]

/-- Both tests select rightly on the tables that are not empty, of another length than `2 ^ 31`,
and whose last watchdog is not secure or all of whose watchdogs are. -/
theorem wdSelection_iff (t : WdTable) :
    (LoopSelects t (fun fuel => test041Selection fuel t) ↔
      t.info.wdInfo.length ≠ 2 ^ 31 ∧ LastDecides t) ∧
    (LoopSelects t (fun fuel => test042Selection fuel t) ↔
      t.info.wdInfo.length ≠ 2 ^ 31 ∧ LastDecides t) := by
  have h := (loopSelects_iff t).trans (round_selects_iff t)
  exact ⟨h, h⟩

/-! ## A secure watchdog behind one that is not -/

theorem secureLast_count :
    (2#32).toNat = [(⟨0, 0, 59, 0⟩ : WdInfoEntry), ⟨0, 0, 60, 4⟩].length := by decide

def secureLast : WdTable where
  info := { numWd := 2, wdInfo := [⟨0, 0, 59, 0⟩, ⟨0, 0, 60, 4⟩] }
  unset := fun _ => ⟨0, 0, 0, 0⟩
  count_eq := secureLast_count

/-- Neither test finds the first watchdog. -/
theorem first_watchdog_missed :
    ¬ LoopSelects secureLast (fun fuel => test041Selection fuel secureLast) ∧
      ¬ LoopSelects secureLast (fun fuel => test042Selection fuel secureLast) ∧
      (test041Selection 1 secureLast).map WdSelection.nsWdg = some 0 := by
  have hMissed : ¬ SelectsWatchdog secureLast (wdRound secureLast (wdStart secureLast)) := by
    intro h
    exact (h.selected ⟨⟨0, 0, 59, 0⟩, by decide, by decide⟩).1 (by decide)
  exact ⟨mt (loopSelects_iff secureLast).mp hMissed, mt (loopSelects_iff secureLast).mp hMissed,
    by decide⟩

end EnterpriseAcs.Sdei
