import EnterpriseAcs.Mpam.Status

/-!
# The verdict over several PEs

`val_check_for_error` reads the status of one PE after the other, stops at the first FAIL
or SKIP, and decides the test by the word it read last.

* `passed_iff`, `failed_iff`: when the test is counted as passed and as failed.
* `verdictSound_iff`: a pass is counted exactly when all PEs passed, and a fail whenever a
  PE failed, if and only if no PENDING hides behind a last PASS and no FAIL behind a SKIP.
-/

namespace EnterpriseAcs.Mpam

def acsStatusPass : BitVec 32 := 0x0
def acsStatusFail : BitVec 32 := 0x90000000
def acsStatusSkip : BitVec 32 := 0x10000000

/-- `g_acs_tests_pass` and `g_acs_tests_fail`. -/
structure AcsTests where
  pass : BitVec 32
  fail : BitVec 32
  deriving DecidableEq, Repr

/-- The return value, the counters, and the PE and status that `val_report_status` prints. -/
structure CheckResult where
  ret : BitVec 32
  tests : AcsTests
  report : Nat × BitVec 32
  deriving DecidableEq, Repr

/-- The end of both branches: count the test by one status word. -/
def countStatus (status : BitVec 32) (tests : AcsTests) (report : Nat × BitVec 32) :
    CheckResult :=
  if isTestPass status then ⟨acsStatusPass, { tests with pass := tests.pass + 1 }, report⟩
  else if isTestSkip status then ⟨acsStatusSkip, tests, report⟩
  else ⟨acsStatusFail, { tests with fail := tests.fail + 1 }, report⟩

/-- The loop over the PEs: where it broke off, and the status it read last. -/
def checkLoop (getStatus : Nat → BitVec 32) : List Nat → BitVec 32 → Option Nat × BitVec 32
  | [], status => (none, status)
  | i :: is, _ =>
    if isTestFailSkip (getStatus i) then (some i, getStatus i)
    else checkLoop getStatus is (getStatus i)

def valCheckForError (getStatus : Nat → BitVec 32) (myIndex numPe : Nat) (tests : AcsTests) :
    CheckResult :=
  if numPe = 1 then
    countStatus (getStatus myIndex) tests (myIndex, getStatus myIndex)
  else
    let (error, status) := checkLoop getStatus (List.range numPe) 0
    countStatus status tests (error.getD myIndex, status)

/-! ## What is counted -/

section Count

variable (status : BitVec 32) (tests : AcsTests) (report : Nat × BitVec 32)

theorem countStatus_passed :
    ((countStatus status tests report).ret = acsStatusPass ∧
      (countStatus status tests report).tests.pass = tests.pass + 1) ↔ isTestPass status := by
  unfold countStatus
  split
  · simp_all
  · split <;> simp_all [acsStatusPass, acsStatusSkip, acsStatusFail]

theorem countStatus_failed :
    ((countStatus status tests report).ret = acsStatusFail ∧
      (countStatus status tests report).tests.fail = tests.fail + 1) ↔
      ¬ isTestPass status ∧ ¬ isTestSkip status := by
  unfold countStatus
  split
  · simp_all [acsStatusPass, acsStatusFail]
  · split <;> simp_all [acsStatusSkip, acsStatusFail]

end Count

/-! ## What the loop reads -/

variable {getStatus : Nat → BitVec 32} {myIndex n : Nat} {tests : AcsTests}

theorem checkLoop_eq (is : List Nat) (status : BitVec 32) :
    checkLoop getStatus is status =
      match is.find? (fun i => isTestFailSkip (getStatus i)) with
      | some i => (some i, getStatus i)
      | none => (none, (is.getLast?.map getStatus).getD status) := by
  induction is generalizing status with
  | nil => rfl
  | cons i is ih =>
    cases hStop : isTestFailSkip (getStatus i) with
    | true => simp [checkLoop, hStop]
    | false =>
      simp only [checkLoop, hStop, List.find?_cons, Bool.false_eq_true, if_false, ih]
      cases hFind : is.find? (fun i => isTestFailSkip (getStatus i)) with
      | some j => rfl
      | none => cases is <;> simp [List.getLast?_cons]

/-- No PE below `k` reports FAIL or SKIP. -/
def ClearBelow (getStatus : Nat → BitVec 32) (k : Nat) : Prop :=
  ∀ i < k, ¬ isTestFailSkip (getStatus i)

/-- The loop breaks off at the first FAIL or SKIP, or ends with the status of the last PE. -/
theorem checkLoop_range (getStatus : Nat → BitVec 32) (hn : 0 < n) :
    (∃ i < n, isTestFailSkip (getStatus i) ∧ ClearBelow getStatus i ∧
        checkLoop getStatus (List.range n) 0 = (some i, getStatus i)) ∨
      (ClearBelow getStatus n ∧
        checkLoop getStatus (List.range n) 0 = (none, getStatus (n - 1))) := by
  rw [checkLoop_eq]
  cases hFind : (List.range n).find? (fun i => isTestFailSkip (getStatus i)) with
  | some i =>
    obtain ⟨hStop, hMem, hBefore⟩ := List.find?_range_eq_some.mp hFind
    refine Or.inl ⟨i, by simpa using hMem, hStop, fun j hj => ?_, rfl⟩
    simpa only [Bool.not_eq_true, Bool.not_eq_true'] using hBefore j hj
  | none =>
    have hClear := List.find?_range_eq_none.mp hFind
    refine Or.inr ⟨fun j hj => ?_, ?_⟩
    · simpa only [Bool.not_eq_true, Bool.not_eq_true'] using hClear j hj
    · obtain ⟨m, rfl⟩ : ∃ m, n = m + 1 := ⟨n - 1, by omega⟩
      simp [List.range_succ]

/-- The test is counted as passed. -/
def Passed (tests : AcsTests) (r : CheckResult) : Prop :=
  r.ret = acsStatusPass ∧ r.tests.pass = tests.pass + 1

/-- The test is counted as failed. -/
def Failed (tests : AcsTests) (r : CheckResult) : Prop :=
  r.ret = acsStatusFail ∧ r.tests.fail = tests.fail + 1

theorem passed_iff (hn : 1 < n) :
    Passed tests (valCheckForError getStatus myIndex n tests) ↔
      ClearBelow getStatus n ∧ isTestPass (getStatus (n - 1)) := by
  unfold Passed valCheckForError
  rw [if_neg (by omega)]
  rcases checkLoop_range getStatus (Nat.lt_of_succ_lt hn) with
    ⟨i, hi, hStop, -, hLoop⟩ | ⟨hClear, hLoop⟩
  · simp only [hLoop, countStatus_passed]
    constructor
    · intro hPass
      simp_all
    · rintro ⟨hClear, -⟩
      exact absurd hStop (hClear i hi)
  · simp only [hLoop, countStatus_passed]
    exact ⟨fun hPass => ⟨hClear, hPass⟩, fun h => h.2⟩

theorem failed_iff (hn : 1 < n) :
    Failed tests (valCheckForError getStatus myIndex n tests) ↔
      (∃ i < n, isTestFail (getStatus i) ∧ ClearBelow getStatus i) ∨
        (ClearBelow getStatus n ∧ ¬ isTestPass (getStatus (n - 1))) := by
  unfold Failed valCheckForError
  rw [if_neg (by omega)]
  rcases checkLoop_range getStatus (Nat.lt_of_succ_lt hn) with
    ⟨i, hi, hStop, hBefore, hLoop⟩ | ⟨hClear, hLoop⟩
  · simp only [hLoop, countStatus_failed]
    constructor
    · rintro ⟨-, hSkip⟩
      exact Or.inl ⟨i, hi, by simp_all, hBefore⟩
    · rintro (⟨j, hj, hFail, hBelow⟩ | ⟨hClear, -⟩)
      · -- both are the first FAIL or SKIP
        rcases lt_trichotomy i j with hij | rfl | hij
        · exact absurd hStop (hBelow i hij)
        · simp_all
        · exact absurd (by simp_all) (hBefore j hij)
      · exact absurd hStop (hClear i hi)
  · simp only [hLoop, countStatus_failed]
    have hLast := hClear (n - 1) (by omega)
    constructor
    · rintro ⟨hPass, -⟩
      exact Or.inr ⟨hClear, hPass⟩
    · rintro (⟨j, hj, hFail, -⟩ | ⟨-, hPass⟩)
      · exact absurd (by simp_all) (hClear j hj)
      · exact ⟨hPass, by simp_all⟩

/-! ## When the verdict is sound -/

/-- A pass is counted exactly when every PE passed, and a fail whenever some PE failed. -/
structure VerdictSound (getStatus : Nat → BitVec 32) (n : Nat) (tests : AcsTests)
    (r : CheckResult) : Prop where
  passed : Passed tests r ↔ ∀ i < n, isTestPass (getStatus i)
  failed : (∃ i < n, isTestFail (getStatus i)) → Failed tests r

/-- When no PE reports FAIL or SKIP and the last one passed, no other PE is pending. -/
def NoPendingHidden (getStatus : Nat → BitVec 32) (n : Nat) : Prop :=
  ClearBelow getStatus n → isTestPass (getStatus (n - 1)) →
    ∀ i < n, ¬ isResultPending (getStatus i)

/-- A SKIP before a FAIL comes after another FAIL. -/
def NoFailMasked (getStatus : Nat → BitVec 32) (n : Nat) : Prop :=
  ∀ j < n, isTestFail (getStatus j) → ∀ i < j, isTestSkip (getStatus i) →
    ∃ k < i, isTestFail (getStatus k)

theorem passed_sound_iff (myIndex : Nat) (tests : AcsTests) (hn : 1 < n)
    (hStates : ∀ i < n, IsVerdict (getStatus i)) :
    (Passed tests (valCheckForError getStatus myIndex n tests) ↔
      ∀ i < n, isTestPass (getStatus i)) ↔ NoPendingHidden getStatus n := by
  rw [passed_iff hn]
  constructor
  · intro h hClear hLast i hi hPending
    have := h.mp ⟨hClear, hLast⟩ i hi
    simp_all
  · intro h
    constructor
    · rintro ⟨hClear, hLast⟩ i hi
      have hFailSkip := hClear i hi
      have hPending := h hClear hLast i hi
      rcases hStates i hi with hPass | hFail | hSkip | hP
      · exact hPass
      · simp_all
      · simp_all
      · exact absurd hP hPending
    · intro hAll
      refine ⟨fun i hi => ?_, hAll _ (by omega)⟩
      have := hAll i hi
      simp_all

theorem failed_sound_iff (myIndex : Nat) (tests : AcsTests) (hn : 1 < n) :
    ((∃ i < n, isTestFail (getStatus i)) →
      Failed tests (valCheckForError getStatus myIndex n tests)) ↔
      NoFailMasked getStatus n := by
  rw [failed_iff hn]
  constructor
  · intro h j hj hFail i hij hSkip
    rcases h ⟨j, hj, hFail⟩ with ⟨k, _, hFirst, hBelow⟩ | ⟨hClear, -⟩
    · refine ⟨k, ?_, hFirst⟩
      -- the first FAIL or SKIP is at `k`, so the SKIP at `i` comes after it
      by_contra hki
      rcases Nat.lt_or_eq_of_le (Nat.le_of_not_lt hki) with hLt | rfl
      · exact hBelow i hLt (by simp_all)
      · simp_all
    · exact absurd (by simp_all) (hClear j hj)
  · rintro h ⟨j, hj, hFail⟩
    -- the first PE with FAIL has no SKIP before it
    induction j using Nat.strongRecOn with
    | ind j ih =>
      by_cases hBelow : ClearBelow getStatus j
      · exact Or.inl ⟨j, hj, hFail, hBelow⟩
      · unfold ClearBelow at hBelow
        push Not at hBelow
        obtain ⟨i, hij, hStop⟩ := hBelow
        rcases isTestFailSkip_iff.mp hStop with hState | hState
        · exact ih i hij (by omega) (isTestFail_iff.mpr hState)
        · obtain ⟨k, hki, hFirst⟩ := h j hj hFail i hij (isTestSkip_iff.mpr hState)
          exact ih k (by omega) (by omega) hFirst

/-- **The verdict.** For more than one PE and statuses PASS, FAIL, SKIP or PENDING,
`val_check_for_error` is sound exactly when no PENDING hides behind a PASS of the last PE
and no FAIL is masked by an earlier SKIP. -/
theorem verdictSound_iff (getStatus : Nat → BitVec 32) (myIndex n : Nat) (tests : AcsTests)
    (hn : 1 < n) (hStates : ∀ i < n, IsVerdict (getStatus i)) :
    VerdictSound getStatus n tests (valCheckForError getStatus myIndex n tests) ↔
      NoPendingHidden getStatus n ∧ NoFailMasked getStatus n := by
  rw [← passed_sound_iff myIndex tests hn hStates, ← failed_sound_iff myIndex tests hn]
  exact ⟨fun h => ⟨h.passed, h.failed⟩, fun h => ⟨h.1, h.2⟩⟩

/-- Two PEs that passed. -/
theorem verdictSound_two_passed :
    VerdictSound (fun _ => resultPass 1 1) 2 ⟨0, 0⟩
      (valCheckForError (fun _ => resultPass 1 1) 0 2 ⟨0, 0⟩) := by
  have hPass : isTestPass (resultPass 1 1) := by decide
  refine (verdictSound_iff _ 0 2 ⟨0, 0⟩ (by decide) (fun _ _ => Or.inl hPass)).mpr ⟨?_, ?_⟩
  · intro _ _ _ _
    simp_all
  · intro _ _ hFail
    simp_all

/-- PE 0 pending, PE 1 passed. -/
def pendingThenPass (i : Nat) : BitVec 32 := if i = 0 then resultPending 1 else resultPass 1 1

/-- The test is counted as passed while PE 0 is still pending. -/
theorem pending_counted_as_passed :
    ¬ ∀ (getStatus : Nat → BitVec 32) (myIndex n : Nat) (tests : AcsTests), 1 < n →
      (∀ i < n, IsVerdict (getStatus i)) →
      VerdictSound getStatus n tests (valCheckForError getStatus myIndex n tests) := by
  intro hAll
  have hSound := hAll pendingThenPass 0 2 ⟨0, 0⟩ (by decide) (by decide)
  have hPassed : Passed ⟨0, 0⟩ (valCheckForError pendingThenPass 0 2 ⟨0, 0⟩) :=
    ⟨by decide, by decide⟩
  exact absurd (hSound.passed.mp hPassed 0 (by decide)) (by decide)

end EnterpriseAcs.Mpam
