import EnterpriseAcs.Sdei.TestStatus

/-!
# The test table of the SDEI suite

`val_test_execute` goes once over the table. A test runs if its enable flag is set and each
test in its zero-terminated dependency list has passed; otherwise it is skipped. The status
it ends with is recorded in the table, printed, and counted.

* `executeStep_cases`: what one round of the loop does.
* `execute_induction`: the induction over the rounds.
-/

namespace EnterpriseAcs.Sdei

/-- `sdei_test_desc`, without the description. The test function is known by the statuses
that the PEs report while it runs. -/
structure SdeiTestDesc where
  id : BitVec 32
  deps : List (BitVec 32)
  status : BitVec 32
  allPe : Bool
  /-- `SDEI_SET_TEST_DEPS` ends every list with `TEST_NONE_ID`. -/
  deps_terminated : 0 ∈ deps
  deriving DecidableEq

/-- The list of a test that depends on no other. -/
theorem noDeps_terminated : (0 : BitVec 32) ∈ [0] := List.mem_singleton_self 0

/-- `sdei_test_control`; `flags` is its array of 64-bit words. -/
structure SdeiTestControl where
  flags : Nat → BitVec 64
  testsSkipped : Nat := 0
  testsPassed : Nat := 0
  testsFailed : Nat := 0
  testsAborted : Nat := 0

/-- The machine: its number of PEs, and the statuses that the polls see, by test, poll and
PE. -/
structure TestEnv where
  peCount : Nat
  seen : Nat → Nat → Nat → BitVec 32

/-- `called` is the history of the test functions called, with the status each ended with. -/
structure ExecState where
  tests : List SdeiTestDesc
  control : SdeiTestControl
  called : List (Nat × BitVec 32) := []

/-! ## Dependencies -/

/-- The first test with this id, if there is one, has passed. -/
def isTestPassed (tests : List SdeiTestDesc) (testId : BitVec 32) : Bool :=
  match tests.find? (fun test => test.id = testId) with
  | some test => test.status == sdeiTestPass
  | none => false

/-- The loop stops at the terminator or at the first dependency that has not passed. -/
def depsResolved (tests : List SdeiTestDesc) : List (BitVec 32) → Bool
  | [] => false
  | dep :: deps =>
    if dep ≠ 0 ∧ isTestPassed tests dep then depsResolved tests deps else dep == 0

/-- `control->flags[i/64] & (1ULL << (i % 64))`. -/
def flagSet (control : SdeiTestControl) (i : Nat) : Bool :=
  control.flags (i / 64) &&& 1#64 <<< (i % 64) != 0

/-- `run_test` for the test at index `i`. -/
def runTest (control : SdeiTestControl) (tests : List SdeiTestDesc) (i : Nat)
    (test : SdeiTestDesc) : Bool :=
  if flagSet control i then depsResolved tests test.deps else false

/-- The counters of `log_test_result`. -/
def logTestResult (control : SdeiTestControl) (result : BitVec 32) : SdeiTestControl :=
  if result = sdeiTestPass then { control with testsPassed := control.testsPassed + 1 }
  else if result = sdeiTestSkip then { control with testsSkipped := control.testsSkipped + 1 }
  else if result = sdeiTestFail then { control with testsFailed := control.testsFailed + 1 }
  else if result = sdeiTestAbort then { control with testsAborted := control.testsAborted + 1 }
  -- TIMEOUT, PENDING and ERROR are printed only
  else control

/-- The number of PEs that `val_test_execute` asks the status of. -/
def numPeOf (env : TestEnv) (test : SdeiTestDesc) : Nat := if test.allPe then env.peCount else 1

/-- The status that the test at index `i` ends with. -/
def endStatus (env : TestEnv) (i : Nat) (test : SdeiTestDesc) : BitVec 32 :=
  (valTestGetStatus env.peCount (env.seen i) (numPeOf env test) testTimeout).status

/-- One round of the loop of `val_test_execute`. -/
def executeStep (env : TestEnv) (s : ExecState) (i : Nat) : ExecState :=
  match s.tests[i]? with
  | none => s
  | some test =>
    if runTest s.control s.tests i test then
      { tests := s.tests.set i { test with status := endStatus env i test }
        control := logTestResult s.control (endStatus env i test)
        called := s.called ++ [(i, endStatus env i test)] }
    else
      { tests := s.tests.set i { test with status := sdeiTestSkip }
        control := logTestResult s.control sdeiTestSkip
        called := s.called }

def valTestExecute (env : TestEnv) (s : ExecState) : ExecState :=
  (List.range s.tests.length).foldl (executeStep env) s

/-! ## One round -/

theorem executeStep_cases (env : TestEnv) {s : ExecState} {i : Nat} {test : SdeiTestDesc}
    (hTest : s.tests[i]? = some test) :
    ∃ status, (executeStep env s i).tests = s.tests.set i { test with status := status } ∧
      (executeStep env s i).control = logTestResult s.control status ∧
      ((runTest s.control s.tests i test = true ∧ status = endStatus env i test ∧
          (executeStep env s i).called = s.called ++ [(i, status)]) ∨
        (runTest s.control s.tests i test = false ∧ status = sdeiTestSkip ∧
          (executeStep env s i).called = s.called)) := by
  cases hRun : runTest s.control s.tests i test with
  | true => exact ⟨endStatus env i test, by simp [executeStep, hTest, hRun]⟩
  | false => exact ⟨sdeiTestSkip, by simp [executeStep, hTest, hRun]⟩

@[simp] theorem executeStep_length (env : TestEnv) (s : ExecState) (i : Nat) :
    (executeStep env s i).tests.length = s.tests.length := by
  unfold executeStep
  split
  · rfl
  · split <;> simp

@[simp] theorem logTestResult_flags (control : SdeiTestControl) (result : BitVec 32) :
    (logTestResult control result).flags = control.flags := by
  unfold logTestResult
  split
  · rfl
  · split
    · rfl
    · split
      · rfl
      · split <;> rfl

/-- What holds at the start, and after a round if it held before, holds at the end. -/
theorem execute_induction (env : TestEnv) (s : ExecState) {I : Nat → ExecState → Prop}
    (hStart : I 0 s)
    (hStep : ∀ k u test, u.tests.length = s.tests.length → u.tests[k]? = some test → I k u →
      I (k + 1) (executeStep env u k)) :
    I s.tests.length (valTestExecute env s) := by
  have hPrefix : ∀ k, k ≤ s.tests.length →
      I k ((List.range k).foldl (executeStep env) s) ∧
        ((List.range k).foldl (executeStep env) s).tests.length = s.tests.length := by
    intro k
    induction k with
    | zero => exact fun _ => ⟨hStart, rfl⟩
    | succ k ih =>
      intro hk
      obtain ⟨hI, hLength⟩ := ih (by omega)
      rw [List.range_succ, List.foldl_append, List.foldl_cons, List.foldl_nil]
      refine ⟨hStep k _ _ hLength (List.getElem?_eq_getElem (by omega)) hI, ?_⟩
      rw [executeStep_length, hLength]
  exact (hPrefix _ (Nat.le_refl _)).1

end EnterpriseAcs.Sdei
