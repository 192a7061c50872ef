import EnterpriseAcs.Library.Transition
import EnterpriseAcs.Mpam.Verdict
import Mathlib.Logic.Function.Basic

/-!
# Waiting for the PEs and the verdict after it

`val_wait_for_test_completion` polls the status words until none is PENDING or its timeout
is over, and then stores a FAIL over the last one that was; `val_check_for_error` scans the
same words. The other PEs store their statuses at any time, also over the mark.

* `marked_step`: the marked index is a PE that was PENDING at its last poll.
* `unfinished_step`: while the mark stands, a PE that never reports keeps the scan from its
  end.
* `timed_out_not_passed`: the run theorem.
* `late_pass_over_mark`: a late PASS over the mark hides the PE that is still PENDING.
* `scan_quiet`: with no store in between, the scan is `valCheckForError`.
-/

namespace EnterpriseAcs.Mpam

open Transition

/-- The test that runs. Its number stays in its field of the status word. -/
structure TestConfig where
  numPe : Nat
  myIndex : Nat
  testNum : BitVec 32
  testNum_lt : testNum.toNat < 2 ^ 12

/-- Program points of the primary: `wait`, `poll` and `mark` are in
`val_wait_for_test_completion`, `check` and `scan` in `val_check_for_error`. -/
inductive CheckPc where
  | wait (timeout : Nat)
  | poll (timeout i j : Nat)
  | mark (j : Nat)
  | check
  | scan (i : Nat) (status : BitVec 32)
  | done (r : CheckResult)
  deriving DecidableEq, Repr

/-- `status` is the shared memory. `lastPoll` and `marked` are history: what the last poll
of each PE has read, and the index that was marked. -/
structure CheckState where
  pc : CheckPc
  status : Nat → BitVec 32
  tests : AcsTests
  lastPoll : Nat → BitVec 32
  marked : Option Nat

inductive CheckLabel where
  | primary
  | secondary (i : Nat) (status : BitVec 32)
  deriving DecidableEq, Repr

/-- `x - 1` on a `uint32_t`. -/
def decr (x : Nat) : Nat := if x = 0 then 2 ^ 32 - 1 else x - 1

/-- `while (--timeout)`: one more sweep over the PEs, or the end of the wait. -/
def sweep (timeout j : Nat) : CheckPc :=
  if decr timeout = 0 then .mark j else .poll (decr timeout) 0 0

variable (cfg : TestConfig)

def waitAndCheckStep (s : CheckState) : Option CheckState :=
  match s.pc with
  | .wait timeout => some { s with pc := if cfg.numPe = 1 then .check else sweep timeout 0 }
  | .poll timeout i j =>
    if i < cfg.numPe then
      some { s with
        pc := .poll timeout (i + 1) (if isResultPending (s.status i) then i + 1 else j)
        lastPoll := Function.update s.lastPoll i (s.status i) }
    else some { s with pc := if j = 0 then .check else sweep timeout j }
  | .mark j =>
    some { s with
      pc := .check
      status := Function.update s.status (decr j) (resultFail cfg.testNum 0xf)
      marked := some (decr j) }
  | .check =>
    if cfg.numPe = 1 then
      let status := s.status cfg.myIndex
      some { s with pc := .done (countStatus status s.tests (cfg.myIndex, status)) }
    else some { s with pc := .scan 0 0 }
  | .scan i status =>
    if i < cfg.numPe then
      if isTestFailSkip (s.status i) then
        some { s with pc := .done (countStatus (s.status i) s.tests (i, s.status i)) }
      else some { s with pc := .scan (i + 1) (s.status i) }
    else some { s with pc := .done (countStatus status s.tests (cfg.myIndex, status)) }
  | .done _ => none

/-- One step of the primary, or one `val_set_status` of another PE. -/
def checkStep (s : CheckState) : CheckLabel → Option CheckState
  | .primary => waitAndCheckStep cfg s
  | .secondary i status =>
    if i < cfg.numPe ∧ i ≠ cfg.myIndex then
      some { s with status := Function.update s.status i status }
    else none

/-! ## The properties -/

/-- `val_wait_for_test_completion` is entered with this timeout. -/
structure Entered (timeout : Nat) (s : CheckState) : Prop where
  pc : s.pc = .wait timeout
  marked : s.marked = none

/-- The marked index is a PE, and it was PENDING at its last poll. -/
def MarkedPending (s : CheckState) : Prop :=
  ∀ m, s.marked = some m → m < cfg.numPe ∧ isResultPending (s.lastPoll m)

/-- PE `k` is PENDING and stores nothing else. -/
structure NeverReports (k : Nat) (s : CheckState) (ls : List CheckLabel) : Prop where
  pending : isResultPending (s.status k)
  stores : ∀ status, .secondary k status ∈ ls → isResultPending status

/-- The test has been counted as passed. -/
def CountedPassed (s : CheckState) : Prop := ∃ r, s.pc = .done r ∧ Passed s.tests r

/-- The mark is stored over with a status other than FAIL and SKIP only if no PE is left
PENDING. -/
def MarkStands (s : CheckState) (l : CheckLabel) : Prop :=
  ∀ m status, l = .secondary m status → s.marked = some m →
    (∃ k < cfg.numPe, isResultPending (Function.update s.status m status k)) →
      isTestFailSkip status

variable {cfg}

/-! ## What the primary can do -/

/-- The steps of the primary on more than one PE, one constructor for each way the two
functions go on. -/
inductive PrimaryStep (cfg : TestConfig) (s : CheckState) : CheckState → Prop where
  | wait {timeout : Nat} (hpc : s.pc = .wait timeout) :
      PrimaryStep cfg s { s with pc := sweep timeout 0 }
  | poll {timeout i j : Nat} (hpc : s.pc = .poll timeout i j) (hlt : i < cfg.numPe) :
      PrimaryStep cfg s { s with
        pc := .poll timeout (i + 1) (if isResultPending (s.status i) then i + 1 else j)
        lastPoll := Function.update s.lastPoll i (s.status i) }
  | allReported {timeout i : Nat} (hpc : s.pc = .poll timeout i 0) (hEnd : ¬ i < cfg.numPe) :
      PrimaryStep cfg s { s with pc := .check }
  | sweptPending {timeout i j : Nat} (hpc : s.pc = .poll timeout i j)
      (hEnd : ¬ i < cfg.numPe) (hj : 0 < j) :
      PrimaryStep cfg s { s with pc := sweep timeout j }
  | mark {j : Nat} (hpc : s.pc = .mark j) :
      PrimaryStep cfg s { s with
        pc := .check
        status := Function.update s.status (decr j) (resultFail cfg.testNum 0xf)
        marked := some (decr j) }
  | enter (hpc : s.pc = .check) : PrimaryStep cfg s { s with pc := .scan 0 0 }
  | stop {i : Nat} {status : BitVec 32} (hpc : s.pc = .scan i status) (hlt : i < cfg.numPe)
      (hStop : isTestFailSkip (s.status i)) :
      PrimaryStep cfg s { s with
        pc := .done (countStatus (s.status i) s.tests (i, s.status i)) }
  | next {i : Nat} {status : BitVec 32} (hpc : s.pc = .scan i status) (hlt : i < cfg.numPe)
      (hGo : ¬ isTestFailSkip (s.status i)) :
      PrimaryStep cfg s { s with pc := .scan (i + 1) (s.status i) }
  | scanned {i : Nat} {status : BitVec 32} (hpc : s.pc = .scan i status)
      (hEnd : ¬ i < cfg.numPe) :
      PrimaryStep cfg s { s with
        pc := .done (countStatus status s.tests (cfg.myIndex, status)) }

theorem primaryStep_of_step {s t : CheckState} (hNum : cfg.numPe ≠ 1)
    (h : waitAndCheckStep cfg s = some t) : PrimaryStep cfg s t := by
  unfold waitAndCheckStep at h
  split at h
  · rename_i hpc
    rw [if_neg hNum] at h
    cases h
    exact .wait hpc
  · rename_i timeout i j hpc
    split at h
    · rename_i hlt
      cases h
      exact .poll hpc hlt
    · rename_i hEnd
      cases h
      split
      · rename_i hj
        subst hj
        exact .allReported hpc hEnd
      · rename_i hj
        exact .sweptPending hpc hEnd (Nat.pos_of_ne_zero hj)
  · rename_i hpc
    cases h
    exact .mark hpc
  · rename_i hpc
    rw [if_neg hNum] at h
    cases h
    exact .enter hpc
  · rename_i hpc
    split at h
    · rename_i hlt
      split at h
      · rename_i hStop
        cases h
        exact .stop hpc hlt hStop
      · rename_i hGo
        cases h
        exact .next hpc hlt hGo
    · rename_i hEnd
      cases h
      exact .scanned hpc hEnd
  · cases h

/-! ## The marked index -/

theorem decr_of_pos {x : Nat} (hPos : 0 < x) : decr x = x - 1 := if_neg (by omega)

/-- The invariant for the index that is marked. -/
def Marking (cfg : TestConfig) (s : CheckState) : Prop :=
  match s.pc with
  | .wait timeout => 2 ≤ timeout ∧ s.marked = none
  | .poll timeout i j => 0 < timeout ∧ j ≤ i ∧ i ≤ cfg.numPe ∧
      (0 < j → isResultPending (s.lastPoll (j - 1))) ∧ s.marked = none
  | .mark j => 0 < j ∧ j ≤ cfg.numPe ∧ isResultPending (s.lastPoll (j - 1)) ∧ s.marked = none
  | .check | .scan _ _ | .done _ => MarkedPending cfg s

theorem Entered.marking {timeout : Nat} {s : CheckState} (h : Entered timeout s)
    (hTimeout : 2 ≤ timeout) : Marking cfg s := by
  simp only [Marking, h.pc]
  exact ⟨hTimeout, h.marked⟩

theorem marking_sweep {s : CheckState} {timeout j : Nat} (hTimeout : 0 < timeout)
    (hMarked : s.marked = none)
    (hEnd : decr timeout = 0 →
      0 < j ∧ j ≤ cfg.numPe ∧ isResultPending (s.lastPoll (j - 1)) ∧ s.marked = none) :
    Marking cfg { s with pc := sweep timeout j } := by
  by_cases hZero : decr timeout = 0
  · simp only [sweep, if_pos hZero]
    exact hEnd hZero
  · simp only [sweep, if_neg hZero]
    rw [decr_of_pos hTimeout] at hZero ⊢
    exact ⟨by omega, Nat.le_refl 0, Nat.zero_le _, fun h => absurd h (Nat.lt_irrefl 0), hMarked⟩

theorem marking_primary {s t : CheckState} (hNum : cfg.numPe ≠ 1) (hInv : Marking cfg s)
    (h : waitAndCheckStep cfg s = some t) : Marking cfg t := by
  unfold Marking at hInv
  cases primaryStep_of_step hNum h with
  | wait hpc =>
    simp only [hpc] at hInv
    obtain ⟨hTimeout, hMarked⟩ := hInv
    refine marking_sweep (by omega) hMarked fun hZero => ?_
    rw [decr_of_pos (by omega)] at hZero
    omega
  | @poll timeout i j hpc hlt =>
    simp only [hpc] at hInv
    obtain ⟨hTimeout, hji, -, hLast, hMarked⟩ := hInv
    refine ⟨hTimeout, ?_, hlt, ?_, hMarked⟩
    · split <;> omega
    · split
      · rename_i hPending
        intro _
        simpa only [Nat.add_sub_cancel, Function.update_self] using hPending
      · intro hj
        have hne : j - 1 ≠ i := by omega
        simpa only [Function.update_of_ne hne] using hLast hj
  | allReported hpc hEnd =>
    simp only [hpc] at hInv
    intro m hm
    rw [hInv.2.2.2.2] at hm
    cases hm
  | sweptPending hpc hEnd hj =>
    simp only [hpc] at hInv
    obtain ⟨hTimeout, hji, hin, hLast, hMarked⟩ := hInv
    exact marking_sweep hTimeout hMarked fun _ => ⟨hj, by omega, hLast hj, hMarked⟩
  | @mark j hpc =>
    simp only [hpc] at hInv
    obtain ⟨hj, hjn, hLast, -⟩ := hInv
    intro m hm
    obtain rfl : decr j = m := by simpa using hm
    rw [decr_of_pos hj]
    exact ⟨by omega, hLast⟩
  | enter hpc | stop hpc _ _ | next hpc _ _ | scanned hpc _ =>
    simp only [hpc] at hInv
    exact hInv

theorem marking_step {s t : CheckState} {l : CheckLabel} (hNum : cfg.numPe ≠ 1)
    (hInv : Marking cfg s) (h : checkStep cfg s l = some t) : Marking cfg t := by
  cases l with
  | primary => exact marking_primary hNum hInv h
  | secondary i status =>
    simp only [checkStep] at h
    split at h <;> cases h
    -- a store of another PE touches nothing that the invariant reads
    exact hInv

theorem Marking.markedPending {s : CheckState} (h : Marking cfg s) : MarkedPending cfg s := by
  unfold Marking at h
  intro m hm
  cases hpc : s.pc with
  | wait timeout =>
    simp only [hpc] at h
    rw [h.2] at hm
    cases hm
  | poll timeout i j =>
    simp only [hpc] at h
    rw [h.2.2.2.2] at hm
    cases hm
  | mark j =>
    simp only [hpc] at h
    rw [h.2.2.2] at hm
    cases hm
  | check | scan _ _ | done _ =>
    simp only [hpc] at h
    exact h m hm

/-! ## A PE that never reports -/

/-- The mark is in memory, and PE `k` is still PENDING unless it is the marked one. -/
structure Marked (cfg : TestConfig) (k m : Nat) (s : CheckState) : Prop where
  marked : s.marked = some m
  lt : m < cfg.numPe
  stands : isTestFailSkip (s.status m)
  pending : k ≠ m → isResultPending (s.status k)

/-- What PE `k`, which never reports, keeps true. -/
def Unfinished (cfg : TestConfig) (k : Nat) (s : CheckState) : Prop :=
  match s.pc with
  | .wait timeout => 2 ≤ timeout ∧ s.marked = none ∧ isResultPending (s.status k)
  | .poll _ i j => j ≤ i ∧ i ≤ cfg.numPe ∧ (k < i → 0 < j) ∧ s.marked = none ∧
      isResultPending (s.status k)
  | .mark j => 0 < j ∧ j ≤ cfg.numPe ∧ s.marked = none ∧ isResultPending (s.status k)
  | .check => ∃ m, Marked cfg k m s
  | .scan i _ => ∃ m, Marked cfg k m s ∧ i ≤ m
  | .done r => ¬ Passed s.tests r

theorem not_passed_of_failSkip {status : BitVec 32} (tests : AcsTests)
    (report : Nat × BitVec 32) (h : isTestFailSkip status) :
    ¬ Passed tests (countStatus status tests report) := by
  unfold Passed
  rw [countStatus_passed]
  intro hPass
  simp_all

theorem unfinished_sweep {s : CheckState} {k timeout j : Nat} (hMarked : s.marked = none)
    (hPending : isResultPending (s.status k))
    (hEnd : decr timeout = 0 → 0 < j ∧ j ≤ cfg.numPe) :
    Unfinished cfg k { s with pc := sweep timeout j } := by
  by_cases hZero : decr timeout = 0
  · simp only [sweep, if_pos hZero]
    exact ⟨(hEnd hZero).1, (hEnd hZero).2, hMarked, hPending⟩
  · simp only [sweep, if_neg hZero]
    exact ⟨Nat.le_refl 0, Nat.zero_le _, fun h => absurd h (by omega), hMarked, hPending⟩

theorem unfinished_primary {s t : CheckState} {k : Nat} (hNum : cfg.numPe ≠ 1)
    (hk : k < cfg.numPe) (hInv : Unfinished cfg k s) (h : waitAndCheckStep cfg s = some t) :
    Unfinished cfg k t := by
  unfold Unfinished at hInv
  cases primaryStep_of_step hNum h with
  | wait hpc =>
    simp only [hpc] at hInv
    obtain ⟨hTimeout, hMarked, hPending⟩ := hInv
    refine unfinished_sweep hMarked hPending fun hZero => ?_
    rw [decr_of_pos (by omega)] at hZero
    omega
  | @poll timeout i j hpc hlt =>
    simp only [hpc] at hInv
    obtain ⟨hji, -, hSeen, hMarked, hPending⟩ := hInv
    refine ⟨?_, hlt, ?_, hMarked, hPending⟩
    · split <;> omega
    · intro hki
      split
      · omega
      · rename_i hNot
        -- PE `k` is pending, so the poll that was not is another one
        have hne : k ≠ i := fun hki => hNot (hki ▸ hPending)
        exact hSeen (by omega)
  | allReported hpc hEnd =>
    simp only [hpc] at hInv
    -- the sweep has come past PE `k`, which was pending
    exact absurd (hInv.2.2.1 (by omega)) (Nat.lt_irrefl 0)
  | sweptPending hpc hEnd hj =>
    simp only [hpc] at hInv
    obtain ⟨hji, hin, -, hMarked, hPending⟩ := hInv
    exact unfinished_sweep hMarked hPending fun _ => ⟨hj, by omega⟩
  | @mark j hpc =>
    simp only [hpc] at hInv
    obtain ⟨hj, hjn, -, hPending⟩ := hInv
    have hFail : isTestFailSkip (resultFail cfg.testNum 0xf) := by
      rw [isTestFailSkip, isTestFail_resultFail cfg.testNum_lt (by decide)]
      rfl
    refine ⟨decr j, rfl, ?_, ?_, ?_⟩
    · rw [decr_of_pos hj]
      omega
    · simpa only [Function.update_self] using hFail
    · intro hne
      simpa only [Function.update_of_ne hne] using hPending
  | enter hpc =>
    simp only [hpc] at hInv
    obtain ⟨m, hm⟩ := hInv
    exact ⟨m, ⟨hm.marked, hm.lt, hm.stands, hm.pending⟩, Nat.zero_le m⟩
  | stop hpc hlt hStop => exact not_passed_of_failSkip s.tests _ hStop
  | @next i status hpc hlt hGo =>
    simp only [hpc] at hInv
    obtain ⟨m, hm, him⟩ := hInv
    -- the scan cannot pass the mark
    have hne : i ≠ m := fun hEq => hGo (hEq ▸ hm.stands)
    exact ⟨m, ⟨hm.marked, hm.lt, hm.stands, hm.pending⟩, by omega⟩
  | scanned hpc hEnd =>
    simp only [hpc] at hInv
    obtain ⟨m, hm, him⟩ := hInv
    exact absurd (Nat.lt_of_le_of_lt him hm.lt) hEnd

/-- A store of another PE keeps the mark, as far as the mark stands. -/
theorem Marked.store {s : CheckState} {k m i : Nat} {status : BitVec 32} (h : Marked cfg k m s)
    (hk : k < cfg.numPe) (hOwn : i = k → isResultPending status)
    (hStands : MarkStands cfg s (.secondary i status)) :
    Marked cfg k m { s with status := Function.update s.status i status } := by
  have hPending : ∀ j, (j = i → isResultPending status) →
      (j ≠ i → isResultPending (s.status j)) →
      isResultPending (Function.update s.status i status j) := by
    intro j hSelf hOther
    by_cases hji : j = i
    · subst j
      rw [Function.update_self]
      exact hSelf rfl
    · rw [Function.update_of_ne hji]
      exact hOther hji
  refine ⟨h.marked, h.lt, ?_, fun hne => hPending k (fun h => hOwn h.symm) fun _ => h.pending hne⟩
  by_cases him : m = i
  · subst m
    simp only [Function.update_self]
    refine hStands i status rfl h.marked ⟨k, hk, hPending k (fun h => hOwn h.symm) ?_⟩
    exact fun hne => h.pending hne
  · simpa only [Function.update_of_ne him] using h.stands

theorem unfinished_step {s t : CheckState} {l : CheckLabel} {k : Nat} (hNum : cfg.numPe ≠ 1)
    (hk : k < cfg.numPe) (hInv : Unfinished cfg k s) (hStands : MarkStands cfg s l)
    (hOwn : ∀ status, l = .secondary k status → isResultPending status)
    (h : checkStep cfg s l = some t) : Unfinished cfg k t := by
  cases l with
  | primary => exact unfinished_primary hNum hk hInv h
  | secondary i status =>
    simp only [checkStep] at h
    split at h <;> cases h
    have hStored : i = k → isResultPending status := fun hik => hOwn status (hik ▸ rfl)
    have hPending : isResultPending (s.status k) →
        isResultPending (Function.update s.status i status k) := by
      intro hP
      by_cases hki : k = i
      · subst k
        rw [Function.update_self]
        exact hStored rfl
      · rwa [Function.update_of_ne hki]
    unfold Unfinished at hInv ⊢
    cases hpc : s.pc with
    | wait timeout =>
      simp only [hpc] at hInv ⊢
      exact ⟨hInv.1, hInv.2.1, hPending hInv.2.2⟩
    | poll timeout i' j =>
      simp only [hpc] at hInv ⊢
      obtain ⟨hji, hin, hSeen, hMarked, hP⟩ := hInv
      exact ⟨hji, hin, hSeen, hMarked, hPending hP⟩
    | mark j =>
      simp only [hpc] at hInv ⊢
      obtain ⟨hj, hjn, hMarked, hP⟩ := hInv
      exact ⟨hj, hjn, hMarked, hPending hP⟩
    | check =>
      simp only [hpc] at hInv ⊢
      obtain ⟨m, hm⟩ := hInv
      exact ⟨m, hpc ▸ hm.store hk hStored hStands⟩
    | scan i' status' =>
      simp only [hpc] at hInv ⊢
      obtain ⟨m, hm, him⟩ := hInv
      exact ⟨m, hpc ▸ hm.store hk hStored hStands, him⟩
    | done r =>
      simp only [hpc] at hInv ⊢
      exact hInv

/-- The stores of PE `k` that a run still has to make are all PENDING. -/
theorem unfinished_run {s t : CheckState} {ls : List CheckLabel} {k : Nat}
    (hNum : cfg.numPe ≠ 1) (hk : k < cfg.numPe) (hInv : Unfinished cfg k s)
    (hStands : Along (checkStep cfg) (MarkStands cfg) s ls)
    (hOwn : ∀ status, .secondary k status ∈ ls → isResultPending status)
    (hRun : run (checkStep cfg) s ls = some t) : Unfinished cfg k t := by
  induction ls generalizing s with
  | nil =>
    cases hRun
    exact hInv
  | cons l ls ih =>
    obtain ⟨u, hu, hRest⟩ := run_cons.mp hRun
    have hNext : Unfinished cfg k u :=
      unfinished_step hNum hk hInv hStands.1
        (fun status hl => hOwn status (hl ▸ List.mem_cons_self)) hu
    exact ih hNext (hStands.2 u hu) (fun status hMem => hOwn status (List.mem_cons_of_mem l hMem))
      hRest

/-- What the wait and the verdict owe a test. -/
structure TimedOutSafe (cfg : TestConfig) (s t : CheckState) (ls : List CheckLabel) : Prop where
  marked : MarkedPending cfg t
  notPassed : (∃ k < cfg.numPe, NeverReports k s ls) → ¬ CountedPassed t

/-- **Timed out.** On more than one PE, with a timeout of at least 2 and in every
interleaving in which the mark is not stored over while a PE is left PENDING: the marked
index is a PE that was PENDING at its last poll, and a test with a PE that never reports is
not counted as passed. -/
theorem timed_out_not_passed (cfg : TestConfig) (timeout : Nat) (s t : CheckState)
    (ls : List CheckLabel) (hNum : 2 ≤ cfg.numPe) (hTimeout : 2 ≤ timeout)
    (hEntered : Entered timeout s) (hRun : run (checkStep cfg) s ls = some t)
    (hStands : Along (checkStep cfg) (MarkStands cfg) s ls) : TimedOutSafe cfg s t ls := by
  have hOne : cfg.numPe ≠ 1 := by omega
  constructor
  · have hMarking : Marking cfg t :=
      run_invariant (I := Marking cfg) (fun _ _ _ hI h => marking_step hOne hI h)
        (hEntered.marking hTimeout) hRun
    exact hMarking.markedPending
  · rintro ⟨k, hk, hNever⟩ ⟨r, hpc, hPassed⟩
    have hStart : Unfinished cfg k s := by
      simp only [Unfinished, hEntered.pc]
      exact ⟨hTimeout, hEntered.marked, hNever.pending⟩
    have hEnd := unfinished_run hOne hk hStart hStands hNever.stores hRun
    simp only [Unfinished, hpc] at hEnd
    exact hEnd hPassed

/-- Three PEs, run from PE 0. -/
def threePes : TestConfig := ⟨3, 0, 1, by decide⟩

/-- PE 0 has passed, PE 1 and PE 2 are at work; the timeout is 2. -/
def twoAtWork : CheckState where
  pc := .wait 2
  status := fun i => if i = 0 then resultPass 1 0 else resultPending 1
  tests := ⟨0, 0⟩
  lastPoll := fun _ => 0
  marked := none

/-- PE 2 is marked, and the test is counted as failed. -/
theorem timed_out_two_at_work :
    ∃ t, run (checkStep threePes) twoAtWork (List.replicate 10 .primary) = some t ∧
      t.marked = some 2 ∧ (∃ r, t.pc = .done r ∧ Failed ⟨0, 0⟩ r) ∧
      TimedOutSafe threePes twoAtWork t (List.replicate 10 .primary) := by
  have hEnd : (run (checkStep threePes) twoAtWork (List.replicate 10 .primary)).map
      (fun t => (t.marked, t.pc)) =
        some (some 2, .done ⟨acsStatusFail, ⟨0, 1⟩, (2, resultFail 1 0xf)⟩) := by decide
  obtain ⟨t, ht, hObs⟩ := Option.map_eq_some_iff.mp hEnd
  obtain ⟨hMarked, hpc⟩ := Prod.mk.inj hObs
  have hStands : Along (checkStep threePes) (MarkStands threePes) twoAtWork
      (List.replicate 10 .primary) := by
    refine along_of_forall fun l hl s m status hStore => ?_
    rw [List.eq_of_mem_replicate hl] at hStore
    cases hStore
  exact ⟨t, ht, hMarked, ⟨_, hpc, rfl, rfl⟩, timed_out_not_passed threePes 2 twoAtWork t _
    (by decide) (by decide) ⟨rfl, rfl⟩ ht hStands⟩

/-- The same run, with a late PASS of PE 2 between the mark and the scan. -/
def latePassRun : List CheckLabel :=
  List.replicate 6 .primary ++ [.secondary 2 (resultPass 1 0)] ++ List.replicate 5 .primary

/-- PE 1 never reports, and the test is counted as passed. -/
theorem late_pass_over_mark :
    ¬ ∀ (cfg : TestConfig) (timeout : Nat) (s t : CheckState) (ls : List CheckLabel),
      2 ≤ cfg.numPe → 2 ≤ timeout → Entered timeout s → run (checkStep cfg) s ls = some t →
      TimedOutSafe cfg s t ls := by
  intro hAll
  have hEnd : (run (checkStep threePes) twoAtWork latePassRun).map
      (fun t => (t.tests, t.pc)) =
        some (⟨0, 0⟩, .done ⟨acsStatusPass, ⟨1, 0⟩, (0, resultPass 1 0)⟩) := by decide
  obtain ⟨t, ht, hObs⟩ := Option.map_eq_some_iff.mp hEnd
  obtain ⟨hTests, hpc⟩ := Prod.mk.inj hObs
  have hSafe := hAll threePes 2 twoAtWork t _ (by decide) (by decide) ⟨rfl, rfl⟩ ht
  have hNever : NeverReports 1 twoAtWork latePassRun := by
    refine ⟨by decide, fun status hMem => ?_⟩
    simp [latePassRun] at hMem
  exact hSafe.notPassed ⟨1, by decide, hNever⟩ ⟨_, hpc, rfl, by rw [hTests]; rfl⟩

/-! ## The scan on its own -/

/-- The scan from PE `i` on, when no store comes in between. -/
theorem scan_quiet (i : Nat) (status : BitVec 32) (s : CheckState) (hi : i ≤ cfg.numPe)
    (hpc : s.pc = .scan i status) :
    ∃ k, run (checkStep cfg) s (List.replicate k .primary) = some { s with
      pc := .done
        (let (error, last) := checkLoop s.status (List.range' i (cfg.numPe - i)) status
         countStatus last s.tests (error.getD cfg.myIndex, last)) } := by
  induction hn : cfg.numPe - i generalizing i status s with
  | zero =>
    have hEnd : ¬ i < cfg.numPe := by omega
    exact ⟨1, by simp [run, checkStep, waitAndCheckStep, hpc, hEnd, checkLoop]⟩
  | succ n ih =>
    have hlt : i < cfg.numPe := by omega
    cases hStop : isTestFailSkip (s.status i) with
    | true =>
      refine ⟨1, ?_⟩
      simp only [List.replicate_one, run, checkStep, waitAndCheckStep, hpc, if_pos hlt, hStop,
        if_true, List.range'_succ, checkLoop, Option.bind_some, Option.getD_some]
    | false =>
      obtain ⟨k, hRun⟩ := ih (i + 1) (s.status i)
        { s with pc := .scan (i + 1) (s.status i) } (by omega) rfl (by omega)
      refine ⟨k + 1, ?_⟩
      rw [List.replicate_succ, run_cons]
      refine ⟨{ s with pc := .scan (i + 1) (s.status i) }, ?_, ?_⟩
      · simp only [checkStep, waitAndCheckStep, hpc, if_pos hlt, hStop, Bool.false_eq_true,
          if_false]
      · rw [hRun, List.range'_succ]
        simp only [checkLoop, hStop, Bool.false_eq_true, if_false]

/-- Without a store in between, the small steps compute `valCheckForError`. -/
theorem check_quiet (s : CheckState) (hpc : s.pc = .check) :
    ∃ k, run (checkStep cfg) s (List.replicate k .primary) = some { s with
      pc := .done (valCheckForError s.status cfg.myIndex cfg.numPe s.tests) } := by
  by_cases hOne : cfg.numPe = 1
  · exact ⟨1, by simp [run, checkStep, waitAndCheckStep, hpc, hOne, valCheckForError]⟩
  · obtain ⟨k, hRun⟩ :=
      @scan_quiet cfg 0 0 { s with pc := .scan 0 0 } (Nat.zero_le _) rfl
    refine ⟨k + 1, ?_⟩
    rw [List.replicate_succ, run_cons]
    refine ⟨{ s with pc := .scan 0 0 }, ?_, ?_⟩
    · simp only [checkStep, waitAndCheckStep, hpc, if_neg hOne]
    · rw [hRun, valCheckForError, if_neg hOne, List.range_eq_range']
      rfl

end EnterpriseAcs.Mpam
