import EnterpriseAcs.Sdei.MultiVerdict

/-!
# The final report

The report prints four counters. A test that ends with TIMEOUT, PENDING, ERROR or a merged
status without a name is printed when it ends, and no counter counts it.

* `accounted_step`: after `k` rounds the counters add up to the tests among the first `k`
  that ended with a counted status.
* `report_total`: the counters of the report, and when they cover the table.
* `error_not_reported`: a run in which a test is missing from the report.
-/

namespace EnterpriseAcs.Sdei

/-- The sum of the counters that the report prints. -/
def reportTotal (control : SdeiTestControl) : Nat :=
  control.testsPassed + control.testsFailed + control.testsSkipped + control.testsAborted

/-- `log_test_result` has a counter for this status. -/
def Counted (status : BitVec 32) : Prop :=
  status = sdeiTestPass ∨ status = sdeiTestFail ∨ status = sdeiTestSkip ∨ status = sdeiTestAbort

instance (status : BitVec 32) : Decidable (Counted status) :=
  inferInstanceAs (Decidable (_ ∨ _ ∨ _ ∨ _))

/-- The tests that the counters stand for. -/
def countedTests (tests : List SdeiTestDesc) : Nat := tests.countP fun test => Counted test.status

theorem logTestResult_total (control : SdeiTestControl) (status : BitVec 32) :
    reportTotal (logTestResult control status) =
      reportTotal control + if Counted status then 1 else 0 := by
  unfold logTestResult
  split
  · rename_i hPass
    have hCounted : Counted status := Or.inl hPass
    simp only [reportTotal, if_pos hCounted]
    omega
  · rename_i hPass
    split
    · rename_i hSkip
      have hCounted : Counted status := Or.inr (Or.inr (Or.inl hSkip))
      simp only [reportTotal, if_pos hCounted]
      omega
    · rename_i hSkip
      split
      · rename_i hFail
        have hCounted : Counted status := Or.inr (Or.inl hFail)
        simp only [reportTotal, if_pos hCounted]
        omega
      · rename_i hFail
        split
        · rename_i hAbort
          have hCounted : Counted status := Or.inr (Or.inr (Or.inr hAbort))
          simp only [reportTotal, if_pos hCounted]
          omega
        · rename_i hAbort
          have hNot : ¬ Counted status := by
            rintro (h | h | h | h)
            · exact hPass h
            · exact hFail h
            · exact hSkip h
            · exact hAbort h
          rw [if_neg hNot, Nat.add_zero]

theorem accounted_step {env : TestEnv} {u : ExecState} {k : Nat} {test : SdeiTestDesc}
    (hTest : u.tests[k]? = some test)
    (h : reportTotal u.control = countedTests (u.tests.take k)) :
    reportTotal (executeStep env u k).control =
      countedTests ((executeStep env u k).tests.take (k + 1)) := by
  obtain ⟨status, hTests, hControl, -⟩ := executeStep_cases env hTest
  have hk : k < u.tests.length := (List.getElem?_eq_some_iff.mp hTest).1
  rw [hControl, logTestResult_total, h, hTests, List.take_add_one, List.take_set_of_le
    (Nat.le_refl k), List.getElem?_set_self hk, countedTests, countedTests, Option.toList_some,
    List.countP_append, List.countP_singleton]
  simp only [decide_eq_true_eq]

/-- **The report.** From zeroed counters, the four counters add up to the tests that ended
with PASS, FAIL, SKIP or ABORT; so they add up to the size of the table exactly when every
test did. -/
theorem report_total (env : TestEnv) (s : ExecState) (hZero : reportTotal s.control = 0) :
    reportTotal (valTestExecute env s).control = countedTests (valTestExecute env s).tests ∧
      (reportTotal (valTestExecute env s).control = s.tests.length ↔
        ∀ test ∈ (valTestExecute env s).tests, Counted test.status) := by
  obtain ⟨hLength, hTotal⟩ := execute_induction env s
    (I := fun k u => u.tests.length = s.tests.length ∧
      reportTotal u.control = countedTests (u.tests.take k))
    ⟨rfl, by rw [hZero]; rfl⟩
    fun k u test hLength hTest hI => ⟨by rw [executeStep_length, hLength],
      accounted_step hTest hI.2⟩
  rw [← hLength, List.take_length] at hTotal
  refine ⟨hTotal, ?_⟩
  rw [hTotal, ← hLength, countedTests, List.countP_eq_length]
  simp only [decide_eq_true_eq]

/-- The one test of a table ends with PASS. -/
theorem report_total_pass :
    reportTotal (valTestExecute (steadyPes sdeiTestPass sdeiTestPass) oneTest).control =
      oneTest.tests.length :=
  (report_total (steadyPes sdeiTestPass sdeiTestPass) oneTest rfl).2.mpr (by decide)

/-- The one test of a table ends with ERROR, and the report counts no test. -/
theorem error_not_reported :
    ¬ ∀ (env : TestEnv) (s : ExecState), reportTotal s.control = 0 →
      reportTotal (valTestExecute env s).control = s.tests.length :=
  fun hAll => absurd (hAll (steadyPes sdeiTestError sdeiTestError) oneTest rfl) (by decide)

end EnterpriseAcs.Sdei
