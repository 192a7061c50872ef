import EnterpriseAcs.Sdei.TestInfra
import Mathlib.Data.List.Nodup
import Mathlib.Logic.Relation

/-!
# Dependencies run first

A test is called only after all tests it depends on, directly or through others, have been
called in the same run and have passed. The table may list a dependency behind the test
that needs it, or not at all, and dependencies may be circular: such a test is not called.

* `depsInv_step`: a PASS in the table belongs to a call, and every call finds its direct
  dependencies among the earlier ones.
* `dependencies_called_first`: the run theorem.
-/

namespace EnterpriseAcs.Sdei

/-- The list of the test with id `a` names the id `b`. -/
def DirectDep (tests : List SdeiTestDesc) (a b : BitVec 32) : Prop :=
  ∃ test ∈ tests, test.id = a ∧ b ∈ test.deps.takeWhile (· ≠ 0)

/-- The test with id `b` is called before the `n`-th call, and passes. -/
def PassedBefore (tests : List SdeiTestDesc) (called : List (Nat × BitVec 32)) (n : Nat)
    (b : BitVec 32) : Prop :=
  ∃ (j : Nat) (dep : SdeiTestDesc), tests[j]? = some dep ∧ dep.id = b ∧
    (j, sdeiTestPass) ∈ called.take n

/-- Every call is of an enabled test whose dependencies by `dep` have passed before. -/
def CallsAfter (s : ExecState) (dep : BitVec 32 → BitVec 32 → Prop)
    (called : List (Nat × BitVec 32)) : Prop :=
  ∀ n i status, called[n]? = some (i, status) →
    ∃ test : SdeiTestDesc, s.tests[i]? = some test ∧ flagSet s.control i = true ∧
      ∀ b, dep test.id b → PassedBefore s.tests called n b

/-! ## What a call has checked -/

theorem isTestPassed_exists {tests : List SdeiTestDesc} {testId : BitVec 32}
    (h : isTestPassed tests testId = true) :
    ∃ (j : Nat) (test : SdeiTestDesc),
      tests[j]? = some test ∧ test.id = testId ∧ test.status = sdeiTestPass := by
  unfold isTestPassed at h
  split at h
  · rename_i test hFind
    obtain ⟨j, hj⟩ := List.mem_iff_getElem?.mp (List.mem_of_find?_eq_some hFind)
    exact ⟨j, test, hj, by simpa using List.find?_some hFind, by simpa using h⟩
  · cases h

theorem depsResolved_passed {tests : List SdeiTestDesc} {deps : List (BitVec 32)}
    (h : depsResolved tests deps = true) :
    ∀ b ∈ deps.takeWhile (· ≠ 0), isTestPassed tests b = true := by
  induction deps with
  | nil => exact fun b hb => by simp at hb
  | cons dep deps ih =>
    intro b hb
    by_cases hZero : dep = 0
    · simp [hZero] at hb
    · rw [depsResolved] at h
      split at h
      · rename_i hPassed
        rw [List.takeWhile_cons_of_pos (by simpa using hZero)] at hb
        rcases List.mem_cons.mp hb with rfl | hb
        · exact hPassed.2
        · exact ih h b hb
      · exact absurd (eq_of_beq h) hZero

/-! ## The invariant -/

/-- The ids and dependencies of the table do not change; a PASS in it comes from a call. -/
structure DepsInv (s : ExecState) (u : ExecState) : Prop where
  flags : u.control.flags = s.control.flags
  table : ∀ j : Nat, u.tests[j]?.map (fun test => (test.id, test.deps)) =
    s.tests[j]?.map fun test => (test.id, test.deps)
  passed : ∀ (j : Nat) (test : SdeiTestDesc), u.tests[j]? = some test → test.status = sdeiTestPass →
    (j, sdeiTestPass) ∈ u.called
  calls : ∀ n i status, u.called[n]? = some (i, status) →
    ∃ test : SdeiTestDesc, s.tests[i]? = some test ∧ flagSet s.control i = true ∧
      ∀ b ∈ test.deps.takeWhile (· ≠ 0), PassedBefore s.tests u.called n b

theorem DepsInv.entry {s u : ExecState} (h : DepsInv s u) {j : Nat} {test : SdeiTestDesc}
    (hTest : u.tests[j]? = some test) :
    ∃ test' : SdeiTestDesc, s.tests[j]? = some test' ∧ test'.id = test.id ∧
      test'.deps = test.deps := by
  have hTable := h.table j
  rw [hTest, Option.map_some] at hTable
  obtain ⟨test', hTest', hEq⟩ := Option.map_eq_some_iff.mp hTable.symm
  exact ⟨test', hTest', congrArg Prod.fst hEq, congrArg Prod.snd hEq⟩

/-- A call that is made finds its direct dependencies among the calls so far. -/
theorem DepsInv.ready {s u : ExecState} (h : DepsInv s u) {k : Nat} {test : SdeiTestDesc}
    (hTest : u.tests[k]? = some test) (hRun : runTest u.control u.tests k test = true) :
    ∃ test' : SdeiTestDesc, s.tests[k]? = some test' ∧ flagSet s.control k = true ∧
      ∀ b ∈ test'.deps.takeWhile (· ≠ 0), PassedBefore s.tests u.called u.called.length b := by
  obtain ⟨test', hTest', -, hDeps⟩ := h.entry hTest
  unfold runTest at hRun
  split at hRun
  · rename_i hFlag
    refine ⟨test', hTest', by simpa only [flagSet, h.flags] using hFlag, fun b hb => ?_⟩
    rw [hDeps] at hb
    obtain ⟨j, dep, hDep, hId, hPass⟩ := isTestPassed_exists (depsResolved_passed hRun b hb)
    obtain ⟨dep', hDep', hId', -⟩ := h.entry hDep
    refine ⟨j, dep', hDep', hId'.trans hId, ?_⟩
    rw [List.take_length]
    exact h.passed j dep hDep hPass
  · cases hRun

theorem PassedBefore.append {tests : List SdeiTestDesc} {called : List (Nat × BitVec 32)}
    {n : Nat} {b : BitVec 32} (h : PassedBefore tests called n b) (hn : n ≤ called.length)
    (call : Nat × BitVec 32) : PassedBefore tests (called ++ [call]) n b := by
  obtain ⟨j, dep, hDep, hId, hMem⟩ := h
  refine ⟨j, dep, hDep, hId, ?_⟩
  rwa [List.take_append_of_le_length hn]

/-- The calls so far stay as they are, and the new one finds its dependencies among them. -/
theorem DepsInv.calls_append {s u : ExecState} (h : DepsInv s u) {k : Nat} {test : SdeiTestDesc}
    (hTest : u.tests[k]? = some test) (hRun : runTest u.control u.tests k test = true)
    (new : BitVec 32) {n i : Nat} {status : BitVec 32}
    (hCall : (u.called ++ [(k, new)])[n]? = some (i, status)) :
    ∃ test : SdeiTestDesc, s.tests[i]? = some test ∧ flagSet s.control i = true ∧
      ∀ b ∈ test.deps.takeWhile (· ≠ 0), PassedBefore s.tests (u.called ++ [(k, new)]) n b := by
  rcases Nat.lt_or_ge n u.called.length with hn | hn
  · rw [List.getElem?_append_left hn] at hCall
    obtain ⟨test', hTest', hFlag, hDeps⟩ := h.calls n i status hCall
    exact ⟨test', hTest', hFlag, fun b hb => (hDeps b hb).append (by omega) _⟩
  · rw [List.getElem?_append_right hn] at hCall
    have hZero : n - u.called.length = 0 := by
      by_contra hne
      rw [List.getElem?_eq_none (by simp; omega)] at hCall
      cases hCall
    obtain rfl : n = u.called.length := by omega
    rw [hZero] at hCall
    cases hCall
    obtain ⟨test', hTest', hFlag, hDeps⟩ := h.ready hTest hRun
    exact ⟨test', hTest', hFlag, fun b hb => (hDeps b hb).append (Nat.le_refl _) _⟩

theorem depsInv_step {env : TestEnv} {s u : ExecState} {k : Nat} {test : SdeiTestDesc}
    (hTest : u.tests[k]? = some test) (h : DepsInv s u) :
    DepsInv s (executeStep env u k) := by
  obtain ⟨status, hTests, hControl, hRan⟩ := executeStep_cases env hTest
  have hk : k < u.tests.length := (List.getElem?_eq_some_iff.mp hTest).1
  have hCalled : ∀ j, (j, sdeiTestPass) ∈ u.called →
      (j, sdeiTestPass) ∈ (executeStep env u k).called := by
    intro j hMem
    rcases hRan with ⟨-, -, hNew⟩ | ⟨-, -, hOld⟩
    · rw [hNew]
      exact List.mem_append_left _ hMem
    · rwa [hOld]
  constructor
  · rw [hControl, logTestResult_flags, h.flags]
  · intro j
    rw [hTests, List.getElem?_set]
    split
    · rename_i hkj
      subst hkj
      rw [← h.table k, hTest]
      rfl
    · exact h.table j
  · intro j test' hTest' hPass
    rw [hTests, List.getElem?_set] at hTest'
    split at hTest'
    · rename_i hkj
      subst hkj
      cases hTest'
      rcases hRan with ⟨-, -, hNew⟩ | ⟨-, hSkip, -⟩
      · rw [hNew]
        exact List.mem_append_right _ (by simp [← hPass])
      · -- a skipped test is not recorded as passed
        exact absurd (hSkip.symm.trans hPass) (by decide)
    · exact hCalled j (h.passed j test' hTest' hPass)
  · rcases hRan with ⟨hRun, -, hNew⟩ | ⟨-, -, hOld⟩
    · rw [hNew]
      exact fun n i st hCall => h.calls_append hTest hRun status hCall
    · rw [hOld]
      exact h.calls

/-! ## Transitive dependencies -/

/-- With unique ids, the direct dependencies of an id are those of its test. -/
theorem directDep_mem {tests : List SdeiTestDesc} {i : Nat} {test : SdeiTestDesc}
    {b : BitVec 32} (hIds : (tests.map SdeiTestDesc.id).Nodup) (hTest : tests[i]? = some test)
    (h : DirectDep tests test.id b) : b ∈ test.deps.takeWhile (· ≠ 0) := by
  obtain ⟨test', hMem, hId, hb⟩ := h
  obtain rfl : test' = test :=
    List.inj_on_of_nodup_map hIds hMem (List.mem_of_getElem? hTest) hId
  exact hb

theorem callsAfter_transGen {s : ExecState} {called : List (Nat × BitVec 32)}
    (h : CallsAfter s (DirectDep s.tests) called) :
    CallsAfter s (Relation.TransGen (DirectDep s.tests)) called := by
  intro n
  induction n using Nat.strongRecOn with
  | ind n ih =>
    intro i status hCall
    obtain ⟨test, hTest, hFlag, hDirect⟩ := h n i status hCall
    refine ⟨test, hTest, hFlag, fun b hb => ?_⟩
    obtain ⟨c, hc, hPath⟩ := Relation.TransGen.head'_iff.mp hb
    obtain ⟨j, dep, hDep, hId, hMem⟩ := hDirect c hc
    rcases Relation.reflTransGen_iff_eq_or_transGen.mp hPath with rfl | hPath
    · exact ⟨j, dep, hDep, hId, hMem⟩
    · -- `b` has passed before the call of `c`, which is before this one
      obtain ⟨m, hm⟩ := List.mem_iff_getElem?.mp hMem
      have hmn : m < n := by
        by_contra hge
        rw [List.getElem?_eq_none (by rw [List.length_take]; omega)] at hm
        cases hm
      rw [List.getElem?_take_of_lt hmn] at hm
      obtain ⟨dep', hDep', -, hEarlier⟩ := ih m hmn j sdeiTestPass hm
      rw [hDep] at hDep'
      cases hDep'
      obtain ⟨j', dep', hDep', hId', hMem'⟩ := hEarlier b (hId ▸ hPath)
      exact ⟨j', dep', hDep', hId', (List.take_prefix_take_left (by omega)).subset hMem'⟩

/-- **Dependencies.** In a run over a table with unique ids and all statuses PENDING,
whatever the flags and the statuses the tests end with, a test is called only if its flag is
set and every test it depends on, directly or through others, was called before and
passed. -/
theorem dependencies_called_first (env : TestEnv) (s : ExecState)
    (hIds : (s.tests.map SdeiTestDesc.id).Nodup)
    (hPending : ∀ test ∈ s.tests, test.status = sdeiTestPending) (hCalled : s.called = []) :
    CallsAfter s (Relation.TransGen (DirectDep s.tests)) (valTestExecute env s).called := by
  have hStart : DepsInv s s := by
    refine ⟨rfl, fun _ => rfl, fun j test hTest hPass => ?_, fun n i status hCall => ?_⟩
    · rw [hPending test (List.mem_of_getElem? hTest)] at hPass
      exact absurd hPass (by decide)
    · rw [hCalled] at hCall
      cases hCall
  have hEnd : DepsInv s (valTestExecute env s) :=
    execute_induction env s (I := fun _ u => DepsInv s u) hStart
      fun _ _ _ _ hTest hI => depsInv_step hTest hI
  refine callsAfter_transGen fun n i status hCall => ?_
  obtain ⟨test, hTest, hFlag, hDeps⟩ := hEnd.calls n i status hCall
  exact ⟨test, hTest, hFlag, fun b hb => hDeps b (directDep_mem hIds hTest hb)⟩

/-- Test 2 needs test 1. -/
def twoTests : List SdeiTestDesc :=
  [⟨1, [0], sdeiTestPending, false, noDeps_terminated⟩,
    ⟨2, [1, 0], sdeiTestPending, false, List.mem_cons_of_mem 1 noDeps_terminated⟩]

/-- Every PE reports PASS at once. -/
def allPass : TestEnv := ⟨2, fun _ _ _ => sdeiTestPass⟩

/-- With all flags set, both tests are called. -/
theorem dependencies_two_tests :
    (valTestExecute allPass ⟨twoTests, { flags := fun _ => BitVec.allOnes 64 }, []⟩).called =
        [(0, sdeiTestPass), (1, sdeiTestPass)] ∧
      CallsAfter ⟨twoTests, { flags := fun _ => BitVec.allOnes 64 }, []⟩
        (Relation.TransGen (DirectDep twoTests))
        (valTestExecute allPass
          ⟨twoTests, { flags := fun _ => BitVec.allOnes 64 }, []⟩).called :=
  ⟨by decide, dependencies_called_first allPass _ (by decide) (by decide) rfl⟩

end EnterpriseAcs.Sdei
