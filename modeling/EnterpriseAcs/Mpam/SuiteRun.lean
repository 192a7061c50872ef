import EnterpriseAcs.Library.Escape
import EnterpriseAcs.Mpam.TestSuite

/-!
# A run of the MPAM application

The application calls the four modules and prints three counters. Two jumps lead to the print
from elsewhere: the application leaves when the first module returns EXIT, and the default
exception handler returns there from any payload.

* `startsTest_testEntry` and its kin: what one entry function counts.
* `runModules_meets`: the tests of a run and what they are counted as.
* `counters_account`: what the printed counters say about the tests.
* `modules_follow`: without exceptions the modules do what those of the suite do.
-/

namespace EnterpriseAcs.Mpam.WholeRun

open Escape

/-! ## The application -/

/-- A platform where the payload of a test may take an exception that no handler of the test
expects. -/
structure SuiteBoard extends SuitePlatform where
  raises : BitVec 32 → (Nat → BitVec 32) → Bool

/-- The state of the suite, and the entry functions that have returned: the number of the test
and the return value. -/
structure SuiteRun where
  suite : SuiteState
  ended : List (BitVec 32 × BitVec 32)

/-- The ways to `print_test_status` that leave out what follows. -/
inductive Jump
  | exception
  | noMpamNodes
  deriving DecidableEq, Repr

abbrev Suite := EStateM Jump SuiteRun

/-- Code of the suite that takes no exception. -/
def plain (entry : Entry) : Suite (BitVec 32) := fun r =>
  .ok (entry r.suite).1 { r with suite := (entry r.suite).2 }

section

variable (b : SuiteBoard) (skip : List (BitVec 32))

/-- `val_pe_default_esr`, which goes on at `g_exception_ret_addr`. -/
def valPeDefaultEsr (s : SuiteState) : SuiteState :=
  { s with status := Function.update s.status b.myIndex (resultFail 0 1) }

def valRunTestPayload (testNum : BitVec 32) : Suite PUnit := fun r =>
  let suite := Mpam.valRunTestPayload b.toSuitePlatform testNum r.suite
  if b.raises testNum r.suite.status then
    .error .exception { r with suite := valPeDefaultEsr b suite }
  else .ok ⟨⟩ { r with suite := suite }

/-- The body that most entry functions share. -/
def testEntry (testNum : BitVec 32) : Suite (BitVec 32) := do
  let status ← plain (valInitializeTest b.toSuitePlatform skip testNum 1)
  if status ≠ acsStatusSkip then
    valRunTestPayload b testNum
  plain (checkForError b.toSuitePlatform 1)

/-- This one runs its payload whatever `val_initialize_test` returned. -/
def testc001Entry : Suite (BitVec 32) := do
  let _ ← plain (valInitializeTest b.toSuitePlatform skip (acsCacheTestNumBase + 1) 1)
  valRunTestPayload b (acsCacheTestNumBase + 1)
  plain (checkForError b.toSuitePlatform 1)

/-- The body of the tests on all PEs. -/
def allPeEntry (testNum : BitVec 32) : Suite (BitVec 32) := do
  let status ← plain (valInitializeTest b.toSuitePlatform skip testNum b.numPe)
  modify fun r => { r with suite := { r.suite with
    status := fun i => if i < b.numPe then resultPass testNum 1 else r.suite.status i } }
  if status ≠ acsStatusSkip then
    valRunTestPayload b testNum
  plain (checkForError b.toSuitePlatform b.numPe)

/-- A call of an entry function. -/
def called (test : BitVec 32 × Suite (BitVec 32)) : Suite (BitVec 32) := do
  let ret ← test.2
  modify fun r => { r with ended := r.ended ++ [(test.1, ret)] }
  return ret

/-- `status |= entry();` for one entry function after the other. -/
def orTests (tests : List (BitVec 32 × Suite (BitVec 32))) (status : BitVec 32) :
    Suite (BitVec 32) :=
  tests.foldlM (fun status test => do
    let ret ← called test
    return status ||| ret) status

/-- Tests with the common body. -/
def commonTests (nums : List (BitVec 32)) : List (BitVec 32 × Suite (BitVec 32)) :=
  nums.map fun testNum => (testNum, testEntry b skip testNum)

def cacheNums : List (BitVec 32) := [2, 3, 4, 5, 6].map (acsCacheTestNumBase + ·)
def csumonNums : List (BitVec 32) := [1, 2, 3].map (acsCsumonTestNumBase + ·)
def intrNums : List (BitVec 32) := [1, 2, 3, 4, 5, 6, 7, 8].map (acsIntrTestNumBase + ·)

def valCacheExecuteTests : Suite (BitVec 32) :=
  if skip.contains acsCacheTestNumBase then return acsStatusSkip
  else do
    let status ← called (acsCacheTestNumBase + 1, testc001Entry b skip)
    if status ≠ acsStatusPass then return acsStatusExit
    else orTests (commonTests b skip cacheNums) status

/-- The body of the other three: skip the module, or call all entries. -/
def executeTests (base : BitVec 32) (tests : List (BitVec 32 × Suite (BitVec 32))) :
    Suite (BitVec 32) :=
  if skip.contains base then return acsStatusSkip else orTests tests 0

def valCsumonExecuteTests : Suite (BitVec 32) :=
  executeTests skip acsCsumonTestNumBase (commonTests b skip csumonNums)

def valInterruptsExecuteTests : Suite (BitVec 32) :=
  executeTests skip acsIntrTestNumBase (commonTests b skip intrNums)

def memoryNums : List (BitVec 32) := [1, 2, 3].map (acsMemoryTestNumBase + ·)

def memoryTests : List (BitVec 32 × Suite (BitVec 32)) :=
  [(acsMemoryTestNumBase + 1, testEntry b skip (acsMemoryTestNumBase + 1)),
    (acsMemoryTestNumBase + 2, allPeEntry b skip (acsMemoryTestNumBase + 2)),
    (acsMemoryTestNumBase + 3, allPeEntry b skip (acsMemoryTestNumBase + 3))]

/-- The memory module looks for the base number of the cache module. -/
def valMemoryExecuteTests : Suite (BitVec 32) :=
  executeTests skip acsCacheTestNumBase (memoryTests b skip)

/-- `ShellAppMain` from the first module to `print_test_status`. -/
def runModules : Suite (BitVec 32) := do
  let status := 0 ||| (← valCacheExecuteTests b skip)
  if status = acsStatusExit then
    throw .noMpamNodes
  let status := status ||| (← valCsumonExecuteTests b skip)
  let status := status ||| (← valInterruptsExecuteTests b skip)
  return status ||| (← valMemoryExecuteTests b skip)

/-- How the application ends: it returns before the first module, or prints the counters. -/
inductive AppEnd
  | returned (status : BitVec 32)
  | printed (jump : Option Jump) (run : SuiteRun)

/-- `ShellAppMain` after its options, with what the functions that create the three information
tables return. -/
def shellAppMain (createPe createGic createMpam : BitVec 32) (status : Nat → BitVec 32) : AppEnd :=
  if createPe ≠ 0 then .returned createPe
  else if createGic ≠ 0 then .returned createGic
  else if createMpam ≠ 0 then .returned createMpam
  else
    match (runModules b skip).run ⟨{ freshSuite with status := status }, []⟩ with
    | .ok _ r => .printed none r
    | .error jump r => .printed (some jump) r

end

/-! ## One test -/

/-- The return value of an entry function, with what it does to the counters. -/
inductive Verdict (before : AcsTests) : BitVec 32 → AcsTests → Prop
  | pass : Verdict before acsStatusPass { before with pass := before.pass + 1 }
  | fail : Verdict before acsStatusFail { before with fail := before.fail + 1 }
  | skip : Verdict before acsStatusSkip before

/-- A test is started, and neither passed nor failed yet. -/
structure Started (testNum : BitVec 32) (before after : SuiteRun) : Prop where
  total : after.suite.total = before.suite.total + 1
  started : after.suite.started = before.suite.started ++ [testNum]
  tests : after.suite.tests = before.suite.tests
  ended : after.ended = before.ended

/-- A test is started, and counted by its return value. -/
structure Judged (testNum : BitVec 32) (before : SuiteRun) (ret : BitVec 32) (after : SuiteRun) :
    Prop where
  total : after.suite.total = before.suite.total + 1
  started : after.suite.started = before.suite.started ++ [testNum]
  verdict : Verdict before.suite.tests ret after.suite.tests
  ended : after.ended = before.ended

/-- An entry function starts its test, and counts it unless the payload takes an exception. -/
def StartsTest (testNum : BitVec 32) (entry : Suite (BitVec 32)) : Prop :=
  ∀ before, Meets (· = before) entry (Judged testNum before)
    (fun jump after => jump = .exception ∧ Started testNum before after)

section Entry

variable {b : SuiteBoard} {skip : List (BitVec 32)} {testNum : BitVec 32} {before : SuiteRun}

theorem countStatus_verdict (status : BitVec 32) (tests : AcsTests) (report : Nat × BitVec 32) :
    Verdict tests (countStatus status tests report).ret
      (countStatus status tests report).tests := by
  unfold countStatus
  split
  · exact .pass
  · split
    · exact .skip
    · exact .fail

theorem valCheckForError_verdict (getStatus : Nat → BitVec 32) (myIndex numPe : Nat)
    (tests : AcsTests) :
    Verdict tests (valCheckForError getStatus myIndex numPe tests).ret
      (valCheckForError getStatus myIndex numPe tests).tests := by
  unfold valCheckForError
  split
  · exact countStatus_verdict _ _ _
  · exact countStatus_verdict _ _ _

theorem initialize_meets (numPe : Nat) :
    Meets (· = before) (plain (valInitializeTest b.toSuitePlatform skip testNum numPe))
      (fun _ after => Started testNum before after)
      (fun jump after => jump = .exception ∧ Started testNum before after) := by
  intro r hr
  subst hr
  simp only [EStateM.run, plain, valInitializeTest]
  split <;> exact ⟨rfl, rfl, rfl, rfl⟩

theorem payload_meets :
    Meets (Started testNum before) (valRunTestPayload b testNum)
      (fun _ after => Started testNum before after)
      (fun jump after => jump = .exception ∧ Started testNum before after) := by
  intro r hr
  simp only [EStateM.run, valRunTestPayload]
  split
  · rename_i hEnd
    split at hEnd
    · cases hEnd
    · cases hEnd
      exact ⟨hr.total, hr.started, hr.tests, hr.ended⟩
  · rename_i hEnd
    split at hEnd
    · cases hEnd
      exact ⟨rfl, hr.total, hr.started, hr.tests, hr.ended⟩
    · cases hEnd

theorem check_meets (numPe : Nat) :
    Meets (Started testNum before) (plain (checkForError b.toSuitePlatform numPe))
      (Judged testNum before)
      (fun jump after => jump = .exception ∧ Started testNum before after) := by
  intro r hr
  have hVerdict := valCheckForError_verdict r.suite.status b.myIndex numPe r.suite.tests
  rw [hr.tests] at hVerdict
  refine ⟨hr.total, hr.started, ?_, hr.ended⟩
  simp only [checkForError, hr.tests]
  exact hVerdict

/-- The payload, unless the test is skipped, and the check. -/
theorem payload_check_meets (status : BitVec 32) (numPe : Nat) :
    Meets (Started testNum before)
      (do
        if status ≠ acsStatusSkip then
          valRunTestPayload b testNum
        plain (checkForError b.toSuitePlatform numPe))
      (Judged testNum before)
      (fun jump after => jump = .exception ∧ Started testNum before after) :=
  meets_ite (fun _ => meets_bind payload_meets fun _ => check_meets numPe)
    (fun _ => check_meets numPe)

theorem startsTest_testEntry : StartsTest testNum (testEntry b skip testNum) := by
  intro before
  unfold testEntry
  exact meets_bind (initialize_meets 1) fun status => payload_check_meets status 1

theorem startsTest_testc001Entry :
    StartsTest (acsCacheTestNumBase + 1) (testc001Entry b skip) := by
  intro before
  unfold testc001Entry
  refine meets_bind (initialize_meets 1) fun _ => ?_
  exact meets_bind payload_meets fun _ => check_meets 1

theorem startsTest_allPeEntry : StartsTest testNum (allPeEntry b skip testNum) := by
  intro before
  unfold allPeEntry
  refine meets_bind (initialize_meets b.numPe) fun status => ?_
  refine meets_bind (Q := fun _ => Started testNum before) (meets_modify fun r hr => ?_)
    fun _ => payload_check_meets status b.numPe
  exact ⟨hr.total, hr.started, hr.tests, hr.ended⟩

end Entry

/-! ## The tests of a run -/

/-- What an entry function returns, and what `status |= entry();` leads to. -/
def Consolidated (status : BitVec 32) : Prop :=
  status = acsStatusPass ∨ status = acsStatusFail ∨ status = acsStatusSkip

instance (status : BitVec 32) : Decidable (Consolidated status) :=
  inferInstanceAs (Decidable (_ ∨ _ ∨ _))

theorem Consolidated.or {status ret : BitVec 32} (h : Consolidated status)
    (hRet : Consolidated ret) : Consolidated (status ||| ret) := by
  rcases h with rfl | rfl | rfl <;> rcases hRet with rfl | rfl | rfl <;> decide

theorem Consolidated.ne_exit {status : BitVec 32} (h : Consolidated status) :
    status ≠ acsStatusExit := by
  rcases h with rfl | rfl | rfl <;> decide

namespace Verdict

variable {before after : AcsTests} {ret : BitVec 32}

theorem consolidated (h : Verdict before ret after) : Consolidated ret := by
  cases h with
  | pass => exact Or.inl rfl
  | fail => exact Or.inr (Or.inl rfl)
  | skip => exact Or.inr (Or.inr rfl)

theorem pass_eq (h : Verdict before ret after) :
    after.pass = before.pass + if ret = acsStatusPass then 1 else 0 := by
  cases h with
  | pass => rfl
  | fail => exact (BitVec.add_zero _).symm
  | skip => exact (BitVec.add_zero _).symm

theorem fail_eq (h : Verdict before ret after) :
    after.fail = before.fail + if ret = acsStatusFail then 1 else 0 := by
  cases h with
  | pass => exact (BitVec.add_zero _).symm
  | fail => rfl
  | skip => exact (BitVec.add_zero _).symm

end Verdict

/-- The counters stand for the tests that have ended. -/
structure Counted (r : SuiteRun) : Prop where
  total : r.suite.total = BitVec.ofNat 32 r.suite.started.length
  pass : r.suite.tests.pass = BitVec.ofNat 32 (r.ended.countP (·.2 = acsStatusPass))
  fail : r.suite.tests.fail = BitVec.ofNat 32 (r.ended.countP (·.2 = acsStatusFail))
  verdict : ∀ test ∈ r.ended, Consolidated test.2

/-- The tests `nums` have been started and have ended, those in `first` before the others. -/
structure Reached (first : List (BitVec 32 × BitVec 32)) (nums : List (BitVec 32))
    (r : SuiteRun) : Prop where
  counted : Counted r
  started : r.suite.started = nums
  ended : r.ended.map Prod.fst = nums
  first : first <+: r.ended

/-- The payload of the last test that was started has taken an exception. -/
structure Interrupted (first : List (BitVec 32 × BitVec 32)) (plan : List (BitVec 32))
    (r : SuiteRun) : Prop where
  counted : Counted r
  started : r.suite.started <+: plan
  ended : ∃ testNum, r.suite.started = r.ended.map Prod.fst ++ [testNum]
  first : first <+: r.ended

section Count

variable {testNum ret : BitVec 32} {before after : SuiteRun}

theorem Started.counted (h : Started testNum before after) (hCounted : Counted before) :
    Counted after where
  total := by
    rw [h.total, h.started, hCounted.total, List.length_append, List.length_singleton]
    exact (BitVec.ofNat_add _ _).symm
  pass := by rw [h.tests, h.ended, hCounted.pass]
  fail := by rw [h.tests, h.ended, hCounted.fail]
  verdict := by
    rw [h.ended]
    exact hCounted.verdict

/-- The test with its return value, after those that ended before. -/
theorem Judged.counted (h : Judged testNum before ret after) (hCounted : Counted before) :
    Counted { after with ended := after.ended ++ [(testNum, ret)] } where
  total := by
    dsimp only
    rw [h.total, h.started, hCounted.total, List.length_append, List.length_singleton]
    exact (BitVec.ofNat_add _ _).symm
  pass := by
    rw [h.ended, List.countP_append, List.countP_singleton, BitVec.ofNat_add, ← hCounted.pass,
      h.verdict.pass_eq]
    simp only [decide_eq_true_eq]
    split <;> rfl
  fail := by
    rw [h.ended, List.countP_append, List.countP_singleton, BitVec.ofNat_add, ← hCounted.fail,
      h.verdict.fail_eq]
    simp only [decide_eq_true_eq]
    split <;> rfl
  verdict := by
    intro test hTest
    rcases List.mem_append.mp hTest with hBefore | hThis
    · rw [h.ended] at hBefore
      exact hCounted.verdict test hBefore
    · rw [List.mem_singleton.mp hThis]
      exact h.verdict.consolidated

end Count

section Run

variable {b : SuiteBoard} {skip : List (BitVec 32)} {first : List (BitVec 32 × BitVec 32)}
  {nums plan : List (BitVec 32)}

/-- One more test. -/
theorem called_meets {test : BitVec 32 × Suite (BitVec 32)} (hTest : StartsTest test.1 test.2)
    (hPlan : nums ++ [test.1] <+: plan) :
    Meets (Reached first nums) (called test)
      (fun ret r => Consolidated ret ∧ Reached first (nums ++ [test.1]) r ∧
        ∃ ended, r.ended = ended ++ [(test.1, ret)])
      (fun jump r => jump = .exception ∧ Interrupted first plan r) := by
  intro before hBefore
  have hCall : Meets (· = before) (called test)
      (fun ret r => Consolidated ret ∧ Reached first (nums ++ [test.1]) r ∧
        ∃ ended, r.ended = ended ++ [(test.1, ret)])
      (fun jump r => jump = .exception ∧ Interrupted first plan r) := by
    refine meets_bind (Q := Judged test.1 before) ?_ fun ret => meets_bind
      (Q := fun _ r => Consolidated ret ∧ Reached first (nums ++ [test.1]) r ∧
        ∃ ended, r.ended = ended ++ [(test.1, ret)]) ?_ fun _ => meets_pure fun r hr => hr
    · refine (hTest before).mono (fun r hr => hr) (fun ret r hr => hr) fun jump r hr => ?_
      obtain ⟨hJump, hStarted⟩ := hr
      refine ⟨hJump, hStarted.counted hBefore.counted, ?_, ⟨test.1, ?_⟩, ?_⟩
      · rw [hStarted.started, hBefore.started]
        exact hPlan
      · rw [hStarted.started, hStarted.ended, hBefore.started, hBefore.ended]
      · rw [hStarted.ended]
        exact hBefore.first
    · refine meets_modify fun r hr => ⟨hr.verdict.consolidated,
        ⟨hr.counted hBefore.counted, ?_, ?_, ?_⟩, r.ended, rfl⟩
      · dsimp only
        rw [hr.started, hBefore.started]
      · dsimp only
        rw [hr.ended, List.map_append, hBefore.ended]
        rfl
      · dsimp only
        rw [hr.ended]
        exact hBefore.first.trans (List.prefix_append _ _)
  exact hCall before rfl

/-- The code runs tests after those in `nums`: all those in `more`, or up to an exception. -/
def RunsTests (first : List (BitVec 32 × BitVec 32)) (plan nums more : List (BitVec 32))
    (code : Suite (BitVec 32)) : Prop :=
  Meets (Reached first nums) code
    (fun status r => Consolidated status ∧ Reached first (nums ++ more) r)
    (fun jump r => jump = .exception ∧ Interrupted first plan r)

/-- All tests of a module. -/
theorem orTests_meets {tests : List (BitVec 32 × Suite (BitVec 32))} {status : BitVec 32}
    (hTests : ∀ test ∈ tests, StartsTest test.1 test.2) (hStatus : Consolidated status)
    (hPlan : nums ++ tests.map Prod.fst <+: plan) :
    RunsTests first plan nums (tests.map Prod.fst) (orTests tests status) := by
  unfold orTests
  refine Meets.mono (meets_foldlM (I := fun done status r => Consolidated status ∧
    Reached first (nums ++ done.map Prod.fst) r) [] tests status ?_)
    (fun r hr => ⟨hStatus, ?_⟩) (fun status r hr => hr) (fun jump r hr => hr)
  · intro before test after status hEq r hr
    have hMem : test ∈ tests := by
      rw [List.nil_append] at hEq
      rw [hEq]
      exact List.mem_append_right _ List.mem_cons_self
    have hNext : nums ++ before.map Prod.fst ++ [test.1] <+: plan := by
      refine List.IsPrefix.trans ?_ hPlan
      rw [List.nil_append] at hEq
      rw [hEq, List.map_append, List.map_cons, List.append_assoc]
      apply (List.prefix_append_right_inj _).mpr
      apply (List.prefix_append_right_inj _).mpr
      exact List.prefix_append _ _
    have hBody : Meets (Reached first (nums ++ before.map Prod.fst))
        (do
          let ret ← called test
          return status ||| ret)
        (fun status' r => Consolidated status' ∧
          Reached first (nums ++ (before ++ [test]).map Prod.fst) r)
        (fun jump r => jump = .exception ∧ Interrupted first plan r) := by
      refine meets_bind (called_meets (hTests test hMem) hNext) fun ret => meets_pure ?_
      intro r' hr'
      obtain ⟨hRet, hReached, -⟩ := hr'
      rw [List.append_assoc] at hReached
      rw [List.map_append]
      exact ⟨hr.1.or hRet, hReached⟩
    exact hBody r hr.2
  · rw [List.map_nil, List.append_nil]
    exact hr

/-- The tests of a module that a skip list leaves. -/
def moduleNums (skip : List (BitVec 32)) (base : BitVec 32) (nums : List (BitVec 32)) :
    List (BitVec 32) :=
  if skip.contains base then [] else nums

def cachePlanned (skip : List (BitVec 32)) : List (BitVec 32) :=
  moduleNums skip acsCacheTestNumBase ((acsCacheTestNumBase + 1) :: cacheNums)

/-- The tests that a skip list leaves. -/
def planned (skip : List (BitVec 32)) : List (BitVec 32) :=
  cachePlanned skip ++ moduleNums skip acsCsumonTestNumBase csumonNums ++
    moduleNums skip acsIntrTestNumBase intrNums ++ moduleNums skip acsCacheTestNumBase memoryNums

/-- What the later modules are started after. -/
def firstPassed (skip : List (BitVec 32)) : List (BitVec 32 × BitVec 32) :=
  if skip.contains acsCacheTestNumBase then [] else [(acsCacheTestNumBase + 1, acsStatusPass)]

theorem not_contains {num : BitVec 32} (h : num ∉ skip) : ¬ skip.contains num = true :=
  fun hContains => h (List.contains_iff_mem.mp hContains)

variable (b skip) in
theorem commonTests_nums (nums : List (BitVec 32)) :
    (commonTests b skip nums).map Prod.fst = nums := by
  rw [commonTests, List.map_map]
  exact List.map_id' nums

theorem commonTests_start (nums : List (BitVec 32)) :
    ∀ test ∈ commonTests b skip nums, StartsTest test.1 test.2 := by
  intro test hTest
  obtain ⟨testNum, -, rfl⟩ := List.mem_map.mp hTest
  exact startsTest_testEntry

theorem memoryTests_start : ∀ test ∈ memoryTests b skip, StartsTest test.1 test.2 := by
  simp only [memoryTests, List.forall_mem_cons]
  exact ⟨startsTest_testEntry, startsTest_allPeEntry, startsTest_allPeEntry, by simp⟩

/-- A module that is skipped, or run. -/
theorem executeTests_meets {base : BitVec 32} {tests : List (BitVec 32 × Suite (BitVec 32))}
    (hTests : ∀ test ∈ tests, StartsTest test.1 test.2)
    (hPlan : nums ++ moduleNums skip base (tests.map Prod.fst) <+: plan) :
    RunsTests first plan nums (moduleNums skip base (tests.map Prod.fst))
      (executeTests skip base tests) := by
  unfold RunsTests executeTests moduleNums at *
  split
  · refine meets_pure fun r hr => ⟨Or.inr (Or.inr rfl), ?_⟩
    rw [List.append_nil]
    exact hr
  · rename_i hBase
    rw [if_neg hBase] at hPlan
    exact orTests_meets hTests (Or.inl rfl) hPlan

variable (first nums) in
theorem csumon_runs (hPlan : nums ++ moduleNums skip acsCsumonTestNumBase csumonNums <+: plan) :
    RunsTests first plan nums (moduleNums skip acsCsumonTestNumBase csumonNums)
      (valCsumonExecuteTests b skip) := by
  rw [← commonTests_nums b skip csumonNums] at hPlan ⊢
  exact executeTests_meets (commonTests_start csumonNums) hPlan

variable (first nums) in
theorem intr_runs (hPlan : nums ++ moduleNums skip acsIntrTestNumBase intrNums <+: plan) :
    RunsTests first plan nums (moduleNums skip acsIntrTestNumBase intrNums)
      (valInterruptsExecuteTests b skip) := by
  rw [← commonTests_nums b skip intrNums] at hPlan ⊢
  exact executeTests_meets (commonTests_start intrNums) hPlan

variable (first nums) in
theorem memory_runs (hPlan : nums ++ moduleNums skip acsCacheTestNumBase memoryNums <+: plan) :
    RunsTests first plan nums (moduleNums skip acsCacheTestNumBase memoryNums)
      (valMemoryExecuteTests b skip) :=
  executeTests_meets memoryTests_start hPlan

/-- The first module: its first test decides whether the application goes on. -/
def CacheEnds (skip : List (BitVec 32)) (status : BitVec 32) (r : SuiteRun) : Prop :=
  (status = acsStatusExit ∧ acsCacheTestNumBase ∉ skip ∧
      ∃ ret, ret ≠ acsStatusPass ∧
        Reached [(acsCacheTestNumBase + 1, ret)] [acsCacheTestNumBase + 1] r) ∨
    Consolidated status ∧ Reached (firstPassed skip) (cachePlanned skip) r

/-- An exception in the first test, or in a later one. -/
def Raised (skip : List (BitVec 32)) (r : SuiteRun) : Prop :=
  (acsCacheTestNumBase ∉ skip ∧ Interrupted [] [acsCacheTestNumBase + 1] r) ∨
    Interrupted (firstPassed skip) (planned skip) r

/-- The numbers of the first test with its return value. -/
theorem Reached.first_test {ret : BitVec 32} {r : SuiteRun} {ended : List (BitVec 32 × BitVec 32)}
    (h : Reached [] [acsCacheTestNumBase + 1] r)
    (hEnded : r.ended = ended ++ [(acsCacheTestNumBase + 1, ret)]) :
    Reached [(acsCacheTestNumBase + 1, ret)] [acsCacheTestNumBase + 1] r := by
  have hNums := h.ended
  have hNone : ended = [] := by
    rw [hEnded, List.map_append] at hNums
    have hLength := congrArg List.length hNums
    simp only [List.length_append, List.length_map, List.length_cons, List.length_nil] at hLength
    exact List.eq_nil_of_length_eq_zero (by omega)
  refine ⟨h.counted, h.started, hNums, ?_⟩
  rw [hEnded, hNone]
  exact List.prefix_rfl

theorem valCacheExecuteTests_meets :
    Meets (Reached [] []) (valCacheExecuteTests b skip) (CacheEnds skip)
      (fun jump r => jump = .exception ∧ Raised skip r) := by
  unfold valCacheExecuteTests
  split
  · rename_i hBase
    refine meets_pure fun r hr => Or.inr ⟨Or.inr (Or.inr rfl), ?_⟩
    rw [firstPassed, cachePlanned, moduleNums, if_pos hBase, if_pos hBase]
    exact hr
  · rename_i hContains
    have hBase : acsCacheTestNumBase ∉ skip := fun hMem =>
      hContains (List.contains_iff_mem.mpr hMem)
    have hFirst : Meets (Reached [] []) (called (acsCacheTestNumBase + 1, testc001Entry b skip))
        (fun ret r => Consolidated ret ∧ Reached [] [acsCacheTestNumBase + 1] r ∧
          ∃ ended, r.ended = ended ++ [(acsCacheTestNumBase + 1, ret)])
        (fun jump r => jump = .exception ∧ Interrupted [] [acsCacheTestNumBase + 1] r) :=
      called_meets startsTest_testc001Entry List.prefix_rfl
    refine meets_bind (hFirst.mono (fun r hr => hr) (fun ret r hr => hr) fun jump r hr =>
      ⟨hr.1, Or.inl ⟨hBase, hr.2⟩⟩) fun ret => ?_
    intro r hr
    obtain ⟨hRet, hReached, ended, hEnded⟩ := hr
    have hOne := Reached.first_test hReached hEnded
    refine meets_ite (P := (· = r)) (fun hFailed => meets_pure ?_) (fun hPassed => ?_) r rfl
    · intro r' hr'
      subst hr'
      exact Or.inl ⟨rfl, hBase, ret, hFailed, hOne⟩
    · have hPass : ret = acsStatusPass := not_not.mp hPassed
      subst hPass
      have hPlan : [acsCacheTestNumBase + 1] ++ (commonTests b skip cacheNums).map Prod.fst <+:
          planned skip := by
        rw [commonTests_nums, planned, cachePlanned, moduleNums, if_neg hContains]
        simp only [List.append_assoc]
        exact List.prefix_append _ _
      have hRest : RunsTests [(acsCacheTestNumBase + 1, acsStatusPass)] (planned skip)
          [acsCacheTestNumBase + 1] ((commonTests b skip cacheNums).map Prod.fst)
          (orTests (commonTests b skip cacheNums) acsStatusPass) :=
        orTests_meets (commonTests_start cacheNums) (Or.inl rfl) hPlan
      refine hRest.mono (fun r' hr' => ?_) (fun status r' hr' => Or.inr ?_) (fun jump r' hr' => ?_)
      · subst hr'
        exact hOne
      · rw [firstPassed, cachePlanned, moduleNums, if_neg hContains, if_neg hContains]
        rw [commonTests_nums] at hr'
        exact hr'
      · refine ⟨hr'.1, Or.inr ?_⟩
        rw [firstPassed, if_neg hContains]
        exact hr'.2

/-- The application leaves after the first test. -/
def LeavesFirst (skip : List (BitVec 32)) (r : SuiteRun) : Prop :=
  acsCacheTestNumBase ∉ skip ∧ ∃ ret, ret ≠ acsStatusPass ∧
    Reached [(acsCacheTestNumBase + 1, ret)] [acsCacheTestNumBase + 1] r

/-- All modules. -/
theorem runModules_meets :
    Meets (Reached [] []) (runModules b skip)
      (fun _ r => Reached (firstPassed skip) (planned skip) r)
      (fun jump r => (jump = .noMpamNodes ∧ LeavesFirst skip r) ∨
        (jump = .exception ∧ Raised skip r)) := by
  unfold runModules
  refine meets_bind (valCacheExecuteTests_meets.mono (fun r hr => hr) (fun status r hr => hr)
    fun jump r hr => Or.inr hr) fun cache => ?_
  refine meets_ite (fun hExit => meets_bind (Q := fun _ _ => False) (meets_throw fun r hr =>
    Or.inl ⟨rfl, ?_⟩) fun _ r hr => hr.elim) (fun hGoesOn => ?_)
  · rcases hr with ⟨-, hLeaves⟩ | ⟨hStatus, -⟩
    · exact hLeaves
    · exact absurd (BitVec.zero_or.symm.trans hExit) hStatus.ne_exit
  · have hRaised : ∀ jump r,
        jump = Jump.exception ∧ Interrupted (firstPassed skip) (planned skip) r →
          (jump = .noMpamNodes ∧ LeavesFirst skip r) ∨ (jump = .exception ∧ Raised skip r) :=
      fun jump r h => Or.inr ⟨h.1, Or.inr h.2⟩
    have hCsumon : cachePlanned skip ++ moduleNums skip acsCsumonTestNumBase csumonNums <+:
        planned skip := by
      simp only [planned, List.append_assoc]
      rw [← List.append_assoc]
      exact List.prefix_append _ _
    refine meets_bind ((csumon_runs (firstPassed skip) (cachePlanned skip) hCsumon).mono
      (fun r hr => ?_) (fun _ r hr => hr.2) hRaised) fun _ => ?_
    · rcases hr with ⟨hStatus, -⟩ | ⟨-, hReached⟩
      · exact absurd (BitVec.zero_or.trans hStatus) hGoesOn
      · exact hReached
    · refine meets_bind ((intr_runs (firstPassed skip) _ (List.prefix_append _ _)).mono
        (fun r hr => hr) (fun _ r hr => hr.2) hRaised) fun _ => ?_
      exact meets_bind ((memory_runs (firstPassed skip) _ List.prefix_rfl).mono (fun r hr => hr)
        (fun _ r hr => hr.2) hRaised) fun _ => meets_pure fun r hr => hr

end Run

/-! ## The printed counters -/

/-- All tests of the suite. -/
def allNums : List (BitVec 32) :=
  (acsCacheTestNumBase + 1) :: cacheNums ++ csumonNums ++ intrNums ++ memoryNums

/-- What the printed counters stand for, and what they leave out: a test whose payload has taken
an exception is in the total alone. -/
structure Accounted (skip : List (BitVec 32)) (jump : Option Jump) (r : SuiteRun) : Prop where
  order : r.suite.started <+: planned skip
  once : r.suite.started.Nodup
  whole : jump = none → r.suite.started = planned skip
  ended : (jump ≠ some .exception ∧ r.suite.started = r.ended.map Prod.fst) ∨
    (jump = some .exception ∧ ∃ testNum, r.suite.started = r.ended.map Prod.fst ++ [testNum])
  leaves : jump = some .noMpamNodes ↔
    ∃ ret, ret ≠ acsStatusPass ∧ r.ended = [(acsCacheTestNumBase + 1, ret)]
  verdict : ∀ test ∈ r.ended, Consolidated test.2
  total : r.suite.total.toNat = r.suite.started.length
  pass : r.suite.tests.pass.toNat = r.ended.countP (·.2 = acsStatusPass)
  fail : r.suite.tests.fail.toNat = r.ended.countP (·.2 = acsStatusFail)
  clean : r.suite.tests.pass = r.suite.total ↔
    jump = none ∧ ∀ test ∈ r.ended, test.2 = acsStatusPass

section Accounts

variable {skip : List (BitVec 32)} {r : SuiteRun}

theorem moduleNums_sublist (base : BitVec 32) (nums : List (BitVec 32)) :
    (moduleNums skip base nums).Sublist nums := by
  unfold moduleNums
  split
  · exact List.nil_sublist _
  · exact List.Sublist.refl _

theorem planned_sublist (skip : List (BitVec 32)) : (planned skip).Sublist allNums :=
  (((moduleNums_sublist _ _).append (moduleNums_sublist _ _)).append
    (moduleNums_sublist _ _)).append (moduleNums_sublist _ _)

/-- Without the cache module its first test is not run. -/
theorem first_not_planned (h : acsCacheTestNumBase ∈ skip) :
    acsCacheTestNumBase + 1 ∉ planned skip := by
  rw [planned, cachePlanned, moduleNums, if_pos (List.contains_iff_mem.mpr h), List.nil_append]
  intro hMem
  rcases List.mem_append.mp hMem with hMem | hMem
  · rcases List.mem_append.mp hMem with hMem | hMem
    · exact absurd ((moduleNums_sublist _ _).subset hMem) (by decide)
    · exact absurd ((moduleNums_sublist _ _).subset hMem) (by decide)
  · exact absurd ((moduleNums_sublist _ _).subset hMem) (by decide)

/-- Where the first test has passed, or is not run, the application does not leave. -/
theorem not_leaves (hFirst : firstPassed skip <+: r.ended)
    (hPlan : ∀ testNum ∈ r.ended.map Prod.fst, testNum ∈ planned skip) :
    ¬ ∃ ret, ret ≠ acsStatusPass ∧ r.ended = [(acsCacheTestNumBase + 1, ret)] := by
  rintro ⟨ret, hRet, hEnded⟩
  by_cases hBase : acsCacheTestNumBase ∈ skip
  · apply first_not_planned hBase
    apply hPlan
    rw [hEnded]
    exact List.mem_singleton.mpr rfl
  · rw [firstPassed, if_neg (not_contains hBase), hEnded] at hFirst
    obtain ⟨rest, hRest⟩ := hFirst
    have hSame := (List.cons.inj hRest).1
    exact hRet (congrArg Prod.snd hSame).symm

/-- The counters as numbers, and when they agree. -/
theorem Counted.accounted {jump : Option Jump} (h : Counted r)
    (hOrder : r.suite.started <+: planned skip)
    (hWhole : jump = none → r.suite.started = planned skip)
    (hEnded : (jump ≠ some .exception ∧ r.suite.started = r.ended.map Prod.fst) ∨
      (jump = some .exception ∧ ∃ testNum, r.suite.started = r.ended.map Prod.fst ++ [testNum]))
    (hLeaves : jump = some .noMpamNodes ↔
      ∃ ret, ret ≠ acsStatusPass ∧ r.ended = [(acsCacheTestNumBase + 1, ret)]) :
    Accounted skip jump r := by
  have hSublist := hOrder.sublist.trans (planned_sublist skip)
  have hLength : r.suite.started.length ≤ 20 := hSublist.length_le
  have hFewer : r.ended.length ≤ r.suite.started.length := by
    rcases hEnded with ⟨-, hStarted⟩ | ⟨-, testNum, hStarted⟩
    · rw [hStarted, List.length_map]
    · rw [hStarted, List.length_append, List.length_map]
      exact Nat.le_add_right _ _
  have hTotal : r.suite.total.toNat = r.suite.started.length := by
    rw [h.total, BitVec.toNat_ofNat]
    exact Nat.mod_eq_of_lt (by omega)
  have hPass : r.suite.tests.pass.toNat = r.ended.countP (·.2 = acsStatusPass) := by
    have hCount : r.ended.countP (·.2 = acsStatusPass) ≤ r.ended.length := List.countP_le_length
    rw [h.pass, BitVec.toNat_ofNat]
    exact Nat.mod_eq_of_lt (by omega)
  have hFail : r.suite.tests.fail.toNat = r.ended.countP (·.2 = acsStatusFail) := by
    have hCount : r.ended.countP (·.2 = acsStatusFail) ≤ r.ended.length := List.countP_le_length
    rw [h.fail, BitVec.toNat_ofNat]
    exact Nat.mod_eq_of_lt (by omega)
  refine ⟨hOrder, hSublist.nodup (by decide), hWhole, hEnded, hLeaves, h.verdict, hTotal, hPass,
    hFail, ?_⟩
  rw [← BitVec.toNat_inj, hPass, hTotal]
  constructor
  · intro hEqual
    have hCount : r.ended.countP (·.2 = acsStatusPass) ≤ r.ended.length := List.countP_le_length
    have hAll : ∀ test ∈ r.ended, test.2 = acsStatusPass := by
      have hFull : r.ended.countP (·.2 = acsStatusPass) = r.ended.length := by omega
      simpa only [decide_eq_true_eq] using List.countP_eq_length.mp hFull
    refine ⟨?_, hAll⟩
    match jump with
    | none => rfl
    | some .noMpamNodes =>
      obtain ⟨ret, hRet, hFirst⟩ := hLeaves.mp rfl
      exact absurd (hAll (acsCacheTestNumBase + 1, ret) (hFirst ▸ List.mem_cons_self)) hRet
    | some .exception =>
      rcases hEnded with ⟨hNot, -⟩ | ⟨-, testNum, hStarted⟩
      · exact absurd rfl hNot
      · rw [hStarted, List.length_append, List.length_map, List.length_singleton] at hEqual
        omega
  · rintro ⟨hJump, hAll⟩
    rcases hEnded with ⟨-, hStarted⟩ | ⟨hException, -⟩
    · rw [hStarted, List.length_map]
      exact List.countP_eq_length.mpr (by simpa only [decide_eq_true_eq] using hAll)
    · rw [hJump] at hException
      cases hException

theorem Reached.accounted (h : Reached (firstPassed skip) (planned skip) r) :
    Accounted skip none r := by
  have hNot := not_leaves h.first (fun testNum hMem => h.ended ▸ hMem)
  refine h.counted.accounted (h.started ▸ List.prefix_rfl) (fun _ => h.started)
    (Or.inl ⟨fun hNone => ?_, h.started.trans h.ended.symm⟩) ⟨fun hNone => ?_, fun hFirst => ?_⟩
  · cases hNone
  · cases hNone
  · exact absurd hFirst hNot

theorem LeavesFirst.accounted (h : LeavesFirst skip r) :
    Accounted skip (some .noMpamNodes) r := by
  obtain ⟨hBase, ret, hRet, hReached⟩ := h
  have hEnded : r.ended = [(acsCacheTestNumBase + 1, ret)] := by
    apply (hReached.first.eq_of_length ?_).symm
    have hLength := congrArg List.length hReached.ended
    rw [List.length_map] at hLength
    exact hLength.symm
  refine hReached.counted.accounted ?_ (fun hSome => ?_)
    (Or.inl ⟨fun hSome => ?_, hReached.started.trans hReached.ended.symm⟩)
    ⟨fun _ => ⟨ret, hRet, hEnded⟩, fun _ => rfl⟩
  · rw [hReached.started, planned, cachePlanned, moduleNums, if_neg (not_contains hBase)]
    simp only [List.cons_append]
    exact (List.prefix_append [acsCacheTestNumBase + 1] _)
  · cases hSome
  · cases hSome

theorem Raised.accounted (h : Raised skip r) : Accounted skip (some .exception) r := by
  rcases h with ⟨hBase, hFirst⟩ | hLater
  · obtain ⟨testNum, hStarted⟩ := hFirst.ended
    have hNone : r.ended = [] := by
      have hLength := hFirst.started.length_le
      rw [hStarted, List.length_append, List.length_map] at hLength
      exact List.eq_nil_of_length_eq_zero (Nat.le_zero.mp (Nat.le_of_succ_le_succ hLength))
    refine hFirst.counted.accounted (hFirst.started.trans ?_) (fun hSome => ?_)
      (Or.inr ⟨rfl, testNum, hStarted⟩) ⟨fun hSome => ?_, fun hOne => ?_⟩
    · rw [planned, cachePlanned, moduleNums, if_neg (not_contains hBase)]
      simp only [List.cons_append]
      exact (List.prefix_append [acsCacheTestNumBase + 1] _)
    · cases hSome
    · cases hSome
    · obtain ⟨ret, -, hEnded⟩ := hOne
      rw [hNone] at hEnded
      cases hEnded
  · obtain ⟨testNum, hStarted⟩ := hLater.ended
    have hNot := not_leaves hLater.first (fun num hMem => hLater.started.subset
      (hStarted ▸ List.mem_append_left _ hMem))
    refine hLater.counted.accounted hLater.started (fun hSome => ?_)
      (Or.inr ⟨rfl, testNum, hStarted⟩) ⟨fun hSome => ?_, fun hOne => ?_⟩
    · cases hSome
    · cases hSome
    · exact absurd hOne hNot

/-- **The printed counters.** On every platform and with every skip list, once its options are read
and do not ask for help, the application returns the first error of its three tables and starts no
test, or it prints counters that account for the tests. -/
theorem counters_account (b : SuiteBoard) (skip : List (BitVec 32))
    (createPe createGic createMpam : BitVec 32) (status : Nat → BitVec 32) :
    (createPe = 0 ∧ createGic = 0 ∧ createMpam = 0 ∧ ∃ jump r,
      shellAppMain b skip createPe createGic createMpam status = .printed jump r ∧
        Accounted skip jump r) ∨
    ∃ error, [createPe, createGic, createMpam].find? (· ≠ 0) = some error ∧
      shellAppMain b skip createPe createGic createMpam status = .returned error := by
  by_cases hPe : createPe = 0
  · by_cases hGic : createGic = 0
    · by_cases hMpam : createMpam = 0
      · refine Or.inl ⟨hPe, hGic, hMpam, ?_⟩
        have hStart : Reached [] [] ⟨{ freshSuite with status := status }, []⟩ :=
          ⟨⟨rfl, rfl, rfl, fun test hTest => absurd hTest List.not_mem_nil⟩, rfl, rfl,
            List.prefix_rfl⟩
        have hRun := @runModules_meets b skip _ hStart
        simp only [shellAppMain, hPe, hGic, hMpam, ne_eq, not_true_eq_false, if_false]
        cases hEnd : (runModules b skip).run ⟨{ freshSuite with status := status }, []⟩ with
        | ok ret r =>
          rw [hEnd] at hRun
          exact ⟨none, r, rfl, Reached.accounted hRun⟩
        | error jump r =>
          rw [hEnd] at hRun
          refine ⟨some jump, r, rfl, ?_⟩
          rcases hRun with ⟨rfl, hLeaves⟩ | ⟨rfl, hRaised⟩
          · exact hLeaves.accounted
          · exact hRaised.accounted
      · refine Or.inr ⟨createMpam, ?_, ?_⟩
        · simpa [hPe, hGic] using hMpam
        · simp only [shellAppMain, hPe, hGic, ne_eq, not_true_eq_false, if_false, if_pos hMpam]
    · refine Or.inr ⟨createGic, ?_, ?_⟩
      · rw [List.find?_cons_of_neg (by simpa using hPe)]
        exact List.find?_cons_of_pos (decide_eq_true hGic)
      · simp only [shellAppMain, hPe, ne_eq, not_true_eq_false, if_false, if_pos hGic]
  · exact Or.inr ⟨createPe, List.find?_cons_of_pos (decide_eq_true hPe), if_pos hPe⟩

end Accounts

/-! ## The suite without exceptions -/

/-- The code does what an entry of the suite does. -/
def Follows (code : Suite (BitVec 32)) (entry : Entry) : Prop :=
  ∀ r, ∃ ended, code.run r = .ok (entry r.suite).1 ⟨(entry r.suite).2, ended⟩

section Agreement

variable {b : SuiteBoard} {skip : List (BitVec 32)}

theorem Follows.called {test : BitVec 32 × Suite (BitVec 32)} {entry : Entry}
    (h : Follows test.2 entry) : Follows (called test) entry := by
  intro r
  obtain ⟨ended, hEnd⟩ := h r
  refine ⟨ended ++ [(test.1, (entry r.suite).1)], ?_⟩
  simp only [WholeRun.called, EStateM.run, bind, EStateM.bind] at hEnd ⊢
  rw [hEnd]
  rfl

theorem Follows.orTests {tests : List (BitVec 32 × Suite (BitVec 32))} {entries : List Entry}
    (h : List.Forall₂ (fun test entry => Follows test.2 entry) tests entries)
    (status : BitVec 32) : Follows (orTests tests status) (orEntries entries status) := by
  induction h generalizing status with
  | nil => exact fun r => ⟨r.ended, rfl⟩
  | @cons test entry tests entries hTest _ ih =>
    intro r
    obtain ⟨ended, hEnd⟩ := hTest.called r
    obtain ⟨endedRest, hRest⟩ := ih (status ||| (entry r.suite).1) ⟨(entry r.suite).2, ended⟩
    refine ⟨endedRest, ?_⟩
    simp only [WholeRun.orTests, List.foldlM_cons, EStateM.run, bind, EStateM.bind] at hEnd hRest ⊢
    rw [hEnd]
    exact hRest

theorem Follows.executeTests {tests : List (BitVec 32 × Suite (BitVec 32))}
    {entries : List Entry} {base : BitVec 32}
    (h : List.Forall₂ (fun test entry => Follows test.2 entry) tests entries) :
    Follows (executeTests skip base tests) (Mpam.executeTests skip base entries) := by
  intro r
  unfold WholeRun.executeTests Mpam.executeTests
  by_cases hBase : base ∈ skip
  · rw [if_pos (List.contains_iff_mem.mpr hBase), if_pos hBase]
    exact ⟨r.ended, rfl⟩
  · rw [if_neg (not_contains hBase), if_neg hBase]
    exact Follows.orTests h 0 r

variable (hNone : ∀ testNum status, b.raises testNum status = false)

include hNone

theorem valRunTestPayload_returns (testNum : BitVec 32) :
    valRunTestPayload b testNum = fun r =>
      .ok ⟨⟩ { r with suite := Mpam.valRunTestPayload b.toSuitePlatform testNum r.suite } := by
  funext r
  simp only [valRunTestPayload, hNone, Bool.false_eq_true, if_false]

theorem testEntry_follows (testNum : BitVec 32) :
    Follows (testEntry b skip testNum) (Mpam.testEntry b.toSuitePlatform skip testNum) := by
  intro r
  refine ⟨r.ended, ?_⟩
  simp only [testEntry, Mpam.testEntry, EStateM.run, bind, EStateM.bind, plain,
    valRunTestPayload_returns hNone]
  split <;> rfl

theorem testc001Entry_follows :
    Follows (testc001Entry b skip) (Mpam.testc001Entry b.toSuitePlatform skip) := by
  intro r
  refine ⟨r.ended, ?_⟩
  rw [testc001Entry, valRunTestPayload_returns hNone]
  rfl

theorem allPeEntry_follows (testNum : BitVec 32) :
    Follows (allPeEntry b skip testNum) (Mpam.allPeEntry b.toSuitePlatform skip testNum) := by
  intro r
  refine ⟨r.ended, ?_⟩
  simp only [allPeEntry, Mpam.allPeEntry, EStateM.run, bind, EStateM.bind, plain,
    valRunTestPayload_returns hNone]
  by_cases hSkip : (valInitializeTest b.toSuitePlatform skip testNum b.numPe r.suite).1 ≠
      acsStatusSkip
  · simp only [if_pos hSkip]
    rfl
  · simp only [if_neg hSkip]
    rfl

theorem commonTests_follow (nums : List (BitVec 32)) :
    List.Forall₂ (fun test entry => Follows test.2 entry) (commonTests b skip nums)
      (nums.map (Mpam.testEntry b.toSuitePlatform skip)) := by
  induction nums with
  | nil => exact .nil
  | cons testNum nums ih => exact .cons (testEntry_follows hNone testNum) ih

/-- Without exceptions each module does what it does in the suite. -/
theorem modules_follow :
    Follows (valCacheExecuteTests b skip) (Mpam.valCacheExecuteTests b.toSuitePlatform skip) ∧
      Follows (valCsumonExecuteTests b skip)
        (Mpam.valCsumonExecuteTests b.toSuitePlatform skip) ∧
      Follows (valInterruptsExecuteTests b skip)
        (Mpam.valInterruptsExecuteTests b.toSuitePlatform skip) ∧
      Follows (valMemoryExecuteTests b skip)
        (Mpam.valMemoryExecuteTests b.toSuitePlatform skip) := by
  refine ⟨fun r => ?_, Follows.executeTests (commonTests_follow hNone csumonNums),
    Follows.executeTests (commonTests_follow hNone intrNums), Follows.executeTests ?_⟩
  · unfold valCacheExecuteTests Mpam.valCacheExecuteTests
    by_cases hBase : acsCacheTestNumBase ∈ skip
    · rw [if_pos (List.contains_iff_mem.mpr hBase), if_pos hBase]
      exact ⟨r.ended, rfl⟩
    · rw [if_neg (not_contains hBase), if_neg hBase]
      have hFirst : Follows (called (acsCacheTestNumBase + 1, testc001Entry b skip))
          (Mpam.testc001Entry b.toSuitePlatform skip) := (testc001Entry_follows hNone).called
      obtain ⟨ended, hEnd⟩ := hFirst r
      simp only [EStateM.run, bind, EStateM.bind] at hEnd ⊢
      rw [hEnd]
      dsimp only
      split
      · exact ⟨ended, rfl⟩
      · exact Follows.orTests (commonTests_follow hNone cacheNums) _ ⟨_, ended⟩
  · exact .cons (testEntry_follows hNone _) (.cons (allPeEntry_follows hNone _)
      (.cons (allPeEntry_follows hNone _) .nil))

end Agreement

end EnterpriseAcs.Mpam.WholeRun
