import EnterpriseAcs.Mpam.Verdict

/-!
# The tests of the MPAM suite and their skip list

Each test has an entry function, and each of the four modules a function that calls the
entries of its tests. A module looks for its base number in the skip list. A test leaves this
to `val_initialize_test`, which marks the test as skipped and says so in its return value, and
every entry function handles this value by itself.

* `testEntry_skipped`: the common body honours a skip.
* `skip_honoured_iff`: the lists that the whole suite honours.
-/

namespace EnterpriseAcs.Mpam

/-! ## The suite -/

/-- The PEs, the one that runs the suite, and what the payload of each test does to the
statuses of the PEs. -/
structure SuitePlatform where
  numPe : Nat
  myIndex : Nat
  myIndex_lt : myIndex < numPe
  payload : BitVec 32 → (Nat → BitVec 32) → Nat → BitVec 32

/-- The counters, the status of each PE, and the numbers of the tests that were started and
whose payload was run. -/
structure SuiteState where
  total : BitVec 32
  tests : AcsTests
  status : Nat → BitVec 32
  started : List (BitVec 32)
  ran : List (BitVec 32)

/-- An entry function: its return value and the state after it. -/
abbrev Entry := SuiteState → BitVec 32 × SuiteState

def acsStatusExit : BitVec 32 := 0xffffffff

def acsCacheTestNumBase : BitVec 32 := 0
def acsCsumonTestNumBase : BitVec 32 := 20
def acsIntrTestNumBase : BitVec 32 := 30
def acsMemoryTestNumBase : BitVec 32 := 40

section

variable (p : SuitePlatform) (skip : List (BitVec 32))

/-- `val_initialize_test`, with the numbers `skip` in `g_skip_test_num`. -/
def valInitializeTest (testNum : BitVec 32) (numPe : Nat) : Entry := fun s =>
  let s :=
    { s with
      total := s.total + 1
      started := s.started ++ [testNum]
      status := fun i => if i < numPe then resultPending testNum else s.status i }
  if testNum ∈ skip then
    (acsStatusSkip, { s with status := Function.update s.status p.myIndex (resultSkip testNum 0) })
  else (acsStatusPass, s)

/-- `val_run_test_payload`. Its callers pass 1 for the number of PEs, and it returns after the
payload. -/
def valRunTestPayload (testNum : BitVec 32) (s : SuiteState) : SuiteState :=
  { s with
    status := p.payload testNum s.status
    ran := s.ran ++ [testNum] }

/-- `val_check_for_error` on the state of the suite. -/
def checkForError (numPe : Nat) : Entry := fun s =>
  let r := valCheckForError s.status p.myIndex numPe s.tests
  (r.ret, { s with tests := r.tests })

/-! ### Entry functions -/

/-- The body that most entry functions share. -/
def testEntry (testNum : BitVec 32) : Entry := fun s =>
  let (status, s) := valInitializeTest p skip testNum 1 s
  let s := if status ≠ acsStatusSkip then valRunTestPayload p testNum s else s
  checkForError p 1 s

/-- This one runs its payload whatever `val_initialize_test` returned. -/
def testc001Entry : Entry := fun s =>
  let (_, s) := valInitializeTest p skip (acsCacheTestNumBase + 1) 1 s
  let s := valRunTestPayload p (acsCacheTestNumBase + 1) s
  checkForError p 1 s

def testc002Entry : Entry := testEntry p skip (acsCacheTestNumBase + 2)
def testc003Entry : Entry := testEntry p skip (acsCacheTestNumBase + 3)
def testc004Entry : Entry := testEntry p skip (acsCacheTestNumBase + 4)
def testc005Entry : Entry := testEntry p skip (acsCacheTestNumBase + 5)
def testc006Entry : Entry := testEntry p skip (acsCacheTestNumBase + 6)

def testm001Entry : Entry := testEntry p skip (acsCsumonTestNumBase + 1)
def testm002Entry : Entry := testEntry p skip (acsCsumonTestNumBase + 2)
def testm003Entry : Entry := testEntry p skip (acsCsumonTestNumBase + 3)

def testi001Entry : Entry := testEntry p skip (acsIntrTestNumBase + 1)
def testi002Entry : Entry := testEntry p skip (acsIntrTestNumBase + 2)
def testi003Entry : Entry := testEntry p skip (acsIntrTestNumBase + 3)
def testi004Entry : Entry := testEntry p skip (acsIntrTestNumBase + 4)
def testi005Entry : Entry := testEntry p skip (acsIntrTestNumBase + 5)
def testi006Entry : Entry := testEntry p skip (acsIntrTestNumBase + 6)
def testi007Entry : Entry := testEntry p skip (acsIntrTestNumBase + 7)
def testi008Entry : Entry := testEntry p skip (acsIntrTestNumBase + 8)

def testd001Entry : Entry := testEntry p skip (acsMemoryTestNumBase + 1)

/-- The body of the tests on all PEs: all statuses are set to PASS after `val_initialize_test`,
the mark of a skipped test among them. The payload is `payload_primary`. -/
def allPeEntry (testNum : BitVec 32) : Entry := fun s =>
  let (status, s) := valInitializeTest p skip testNum p.numPe s
  let s :=
    { s with status := fun i => if i < p.numPe then resultPass testNum 1 else s.status i }
  let s := if status ≠ acsStatusSkip then valRunTestPayload p testNum s else s
  checkForError p p.numPe s

def testd002Entry : Entry := allPeEntry p skip (acsMemoryTestNumBase + 2)
def testd003Entry : Entry := allPeEntry p skip (acsMemoryTestNumBase + 3)

/-! ### Modules -/

/-- `status |= entry();` for one entry function after the other. -/
def orEntries : List Entry → BitVec 32 → Entry
  | [], status, s => (status, s)
  | entry :: entries, status, s =>
    let (ret, s) := entry s
    orEntries entries (status ||| ret) s

def valCacheExecuteTests : Entry := fun s =>
  if acsCacheTestNumBase ∈ skip then (acsStatusSkip, s)
  else
    let (status, s) := testc001Entry p skip s
    if status ≠ acsStatusPass then (acsStatusExit, s)
    else
      orEntries [testc002Entry p skip, testc003Entry p skip, testc004Entry p skip,
        testc005Entry p skip, testc006Entry p skip] status s

/-- The body of the other three: skip the module, or call all entries. -/
def executeTests (base : BitVec 32) (entries : List Entry) : Entry := fun s =>
  if base ∈ skip then (acsStatusSkip, s) else orEntries entries 0 s

def valCsumonExecuteTests : Entry :=
  executeTests skip acsCsumonTestNumBase
    [testm001Entry p skip, testm002Entry p skip, testm003Entry p skip]

def valInterruptsExecuteTests : Entry :=
  executeTests skip acsIntrTestNumBase
    [testi001Entry p skip, testi002Entry p skip, testi003Entry p skip, testi004Entry p skip,
      testi005Entry p skip, testi006Entry p skip, testi007Entry p skip, testi008Entry p skip]

/-- The memory module looks for the base number of the cache module. -/
def valMemoryExecuteTests : Entry :=
  executeTests skip acsCacheTestNumBase
    [testd001Entry p skip, testd002Entry p skip, testd003Entry p skip]

/-! ## Honouring the list -/

/-- A module is skipped as a whole: it returns SKIP and starts no test. -/
def ModuleSkipped (execute : Entry) (s : SuiteState) : Prop := execute s = (acsStatusSkip, s)

/-- A test is skipped: it returns SKIP, its payload is not run, and the pass and fail counters
stay as they are. -/
structure TestSkipped (entry : Entry) (s : SuiteState) : Prop where
  ret : (entry s).1 = acsStatusSkip
  ran : (entry s).2.ran = s.ran
  tests : (entry s).2.tests = s.tests

/-- The numbers of all tests with their entry functions. -/
def suiteTests : List (BitVec 32 × Entry) :=
  [(acsCacheTestNumBase + 1, testc001Entry p skip),
    (acsCacheTestNumBase + 2, testc002Entry p skip),
    (acsCacheTestNumBase + 3, testc003Entry p skip),
    (acsCacheTestNumBase + 4, testc004Entry p skip),
    (acsCacheTestNumBase + 5, testc005Entry p skip),
    (acsCacheTestNumBase + 6, testc006Entry p skip),
    (acsCsumonTestNumBase + 1, testm001Entry p skip),
    (acsCsumonTestNumBase + 2, testm002Entry p skip),
    (acsCsumonTestNumBase + 3, testm003Entry p skip),
    (acsIntrTestNumBase + 1, testi001Entry p skip), (acsIntrTestNumBase + 2, testi002Entry p skip),
    (acsIntrTestNumBase + 3, testi003Entry p skip), (acsIntrTestNumBase + 4, testi004Entry p skip),
    (acsIntrTestNumBase + 5, testi005Entry p skip), (acsIntrTestNumBase + 6, testi006Entry p skip),
    (acsIntrTestNumBase + 7, testi007Entry p skip), (acsIntrTestNumBase + 8, testi008Entry p skip),
    (acsMemoryTestNumBase + 1, testd001Entry p skip),
    (acsMemoryTestNumBase + 2, testd002Entry p skip),
    (acsMemoryTestNumBase + 3, testd003Entry p skip)]

/-- In every state: a module is skipped exactly when its base number is listed, and every
listed test is skipped. -/
structure SkipHonoured : Prop where
  cache : ∀ s, ModuleSkipped (valCacheExecuteTests p skip) s ↔ acsCacheTestNumBase ∈ skip
  csumon : ∀ s, ModuleSkipped (valCsumonExecuteTests p skip) s ↔ acsCsumonTestNumBase ∈ skip
  interrupts : ∀ s, ModuleSkipped (valInterruptsExecuteTests p skip) s ↔ acsIntrTestNumBase ∈ skip
  memory : ∀ s, ModuleSkipped (valMemoryExecuteTests p skip) s ↔ acsMemoryTestNumBase ∈ skip
  tests : ∀ test ∈ suiteTests p skip, test.1 ∈ skip → ∀ s, TestSkipped test.2 s

end

/-! ## Entry functions that honour a skip -/

variable {p : SuitePlatform} {skip : List (BitVec 32)} {testNum : BitVec 32}

theorem valInitializeTest_listed (h : testNum ∈ skip) (numPe : Nat) (s : SuiteState) :
    (valInitializeTest p skip testNum numPe s).1 = acsStatusSkip ∧
      (valInitializeTest p skip testNum numPe s).2.status p.myIndex = resultSkip testNum 0 ∧
      (valInitializeTest p skip testNum numPe s).2.ran = s.ran ∧
      (valInitializeTest p skip testNum numPe s).2.tests = s.tests := by
  simp only [valInitializeTest, if_pos h, Function.update_self, and_self]

theorem isTestSkip_resultSkip (hNum : testNum.toNat < 2 ^ 12) :
    isTestSkip (resultSkip testNum 0) = true := by
  rw [isTestSkip_iff, resultSkip, stateOf_resultWord (by decide) hNum (by decide), testSkipVal]

theorem isTestPass_resultPass (hNum : testNum.toNat < 2 ^ 12) :
    isTestPass (resultPass testNum 1) = true := by
  rw [isTestPass_iff, resultPass, stateOf_resultWord (by decide) hNum (by decide), testPassVal]

/-- The common body honours a skip. -/
theorem testEntry_skipped (hNum : testNum.toNat < 2 ^ 12) (h : testNum ∈ skip) (s : SuiteState) :
    TestSkipped (testEntry p skip testNum) s := by
  obtain ⟨hRet, hStatus, hRan, hTests⟩ := valInitializeTest_listed (p := p) h 1 s
  have hEntry : testEntry p skip testNum s =
      checkForError p 1 (valInitializeTest p skip testNum 1 s).2 := by
    simp only [testEntry, hRet, ne_eq, not_true_eq_false, if_false]
  have hCheck : valCheckForError (valInitializeTest p skip testNum 1 s).2.status p.myIndex 1
      s.tests = ⟨acsStatusSkip, s.tests, (p.myIndex, resultSkip testNum 0)⟩ := by
    have hSkip := isTestSkip_resultSkip hNum
    have hPass : ¬ isTestPass (resultSkip testNum 0) = true := by
      rw [isTestPass_iff, isTestSkip_iff.mp hSkip]
      decide
    rw [valCheckForError, if_pos rfl, hStatus, countStatus, if_neg hPass, if_pos hSkip]
  constructor <;> simp only [hEntry, checkForError, hTests, hCheck, hRan]

/-- Test 1 runs its payload. -/
theorem testc001Entry_ran (s : SuiteState) :
    (testc001Entry p skip s).2.ran = s.ran ++ [acsCacheTestNumBase + 1] := by
  simp only [testc001Entry, checkForError, valRunTestPayload, valInitializeTest]
  split <;> rfl

/-- All statuses PASS. -/
theorem valCheckForError_allPass {getStatus : Nat → BitVec 32} {myIndex numPe : Nat}
    (hMy : myIndex < numPe) (hPass : ∀ i < numPe, isTestPass (getStatus i)) (tests : AcsTests) :
    (valCheckForError getStatus myIndex numPe tests).ret = acsStatusPass := by
  rcases Nat.lt_or_eq_of_le (Nat.one_le_of_lt hMy) with hMany | hOne
  · have hClear : ClearBelow getStatus numPe := by
      intro i hi
      have := hPass i hi
      simp_all
    exact ((passed_iff hMany).mpr ⟨hClear, hPass _ (by omega)⟩).1
  · rw [valCheckForError, if_pos hOne.symm]
    exact ((countStatus_passed _ _ _).mpr (hPass myIndex hMy)).1

/-- A listed test on all PEs returns PASS. -/
theorem allPeEntry_listed (hNum : testNum.toNat < 2 ^ 12) (h : testNum ∈ skip) (s : SuiteState) :
    (allPeEntry p skip testNum s).1 = acsStatusPass := by
  obtain ⟨hRet, -, -, -⟩ := valInitializeTest_listed (p := p) h p.numPe s
  simp only [allPeEntry, hRet, ne_eq, not_true_eq_false, if_false, checkForError]
  apply valCheckForError_allPass p.myIndex_lt
  intro i hi
  rw [if_pos hi]
  exact isTestPass_resultPass hNum

/-! ## Modules -/

/-- An entry function that starts one test. -/
def Starts (entry : Entry) : Prop := ∀ s, ∃ num, (entry s).2.started = s.started ++ [num]

theorem valInitializeTest_started (numPe : Nat) (s : SuiteState) :
    (valInitializeTest p skip testNum numPe s).2.started = s.started ++ [testNum] := by
  simp only [valInitializeTest]
  split <;> rfl

theorem testEntry_starts : Starts (testEntry p skip testNum) := by
  intro s
  refine ⟨testNum, ?_⟩
  rw [← valInitializeTest_started 1 s]
  simp only [testEntry, checkForError]
  split <;> rfl

theorem testc001Entry_starts : Starts (testc001Entry p skip) := by
  intro s
  refine ⟨acsCacheTestNumBase + 1, ?_⟩
  rw [← valInitializeTest_started 1 s]
  rfl

theorem allPeEntry_starts : Starts (allPeEntry p skip testNum) := by
  intro s
  refine ⟨testNum, ?_⟩
  rw [← valInitializeTest_started p.numPe s]
  simp only [allPeEntry, checkForError]
  split <;> rfl

theorem orEntries_started {entries : List Entry} (h : ∀ entry ∈ entries, Starts entry)
    (status : BitVec 32) (s : SuiteState) :
    (orEntries entries status s).2.started.length = s.started.length + entries.length := by
  induction entries generalizing status s with
  | nil => rfl
  | cons entry entries ih =>
    obtain ⟨num, hNum⟩ := h entry List.mem_cons_self s
    rw [orEntries, ih (fun e he => h e (List.mem_cons_of_mem _ he)), hNum]
    simp only [List.length_append, List.length_cons, List.length_nil]
    omega

/-- A module whose number is not listed starts its tests. -/
theorem executeTests_skipped_iff {base : BitVec 32} {entries : List Entry} (hne : entries ≠ [])
    (h : ∀ entry ∈ entries, Starts entry) (s : SuiteState) :
    ModuleSkipped (executeTests skip base entries) s ↔ base ∈ skip := by
  constructor
  · intro hSkipped
    by_contra hBase
    rw [ModuleSkipped, executeTests, if_neg hBase] at hSkipped
    have hStarted := orEntries_started h 0 s
    have := List.length_pos_iff.mpr hne
    rw [hSkipped] at hStarted
    dsimp only at hStarted
    omega
  · intro hBase
    rw [ModuleSkipped, executeTests, if_pos hBase]

theorem valCacheExecuteTests_skipped_iff (s : SuiteState) :
    ModuleSkipped (valCacheExecuteTests p skip) s ↔ acsCacheTestNumBase ∈ skip := by
  constructor
  · intro hSkipped
    by_contra hBase
    obtain ⟨num, hNum⟩ := (testc001Entry_starts : Starts (testc001Entry p skip)) s
    rw [ModuleSkipped, valCacheExecuteTests, if_neg hBase] at hSkipped
    have hStarted := congrArg (fun r => r.2.started.length) hSkipped
    dsimp only at hStarted
    split at hStarted
    · rw [hNum] at hStarted
      simp at hStarted
    · rw [orEntries_started, hNum] at hStarted
      · simp only [List.length_append, List.length_cons, List.length_nil] at hStarted
        omega
      · simp only [List.forall_mem_cons]
        exact ⟨testEntry_starts, testEntry_starts, testEntry_starts, testEntry_starts,
          testEntry_starts, by simp⟩
  · intro hBase
    rw [ModuleSkipped, valCacheExecuteTests, if_pos hBase]

theorem valCsumonExecuteTests_skipped_iff (s : SuiteState) :
    ModuleSkipped (valCsumonExecuteTests p skip) s ↔ acsCsumonTestNumBase ∈ skip := by
  apply executeTests_skipped_iff (by simp)
  simp only [List.forall_mem_cons]
  exact ⟨testEntry_starts, testEntry_starts, testEntry_starts, by simp⟩

theorem valInterruptsExecuteTests_skipped_iff (s : SuiteState) :
    ModuleSkipped (valInterruptsExecuteTests p skip) s ↔ acsIntrTestNumBase ∈ skip := by
  apply executeTests_skipped_iff (by simp)
  simp only [List.forall_mem_cons]
  exact ⟨testEntry_starts, testEntry_starts, testEntry_starts, testEntry_starts,
    testEntry_starts, testEntry_starts, testEntry_starts, testEntry_starts, by simp⟩

/-- It goes by the number of the cache module. -/
theorem valMemoryExecuteTests_skipped_iff (s : SuiteState) :
    ModuleSkipped (valMemoryExecuteTests p skip) s ↔ acsCacheTestNumBase ∈ skip := by
  apply executeTests_skipped_iff (by simp)
  simp only [List.forall_mem_cons]
  exact ⟨testEntry_starts, allPeEntry_starts, allPeEntry_starts, by simp⟩

/-! ## The whole suite -/

/-- The tests other than the first of the cache module and the last two of the memory module
honour a skip. -/
theorem suiteTests_skipped (hc001 : acsCacheTestNumBase + 1 ∉ skip)
    (hd002 : acsMemoryTestNumBase + 2 ∉ skip) (hd003 : acsMemoryTestNumBase + 3 ∉ skip) :
    ∀ test ∈ suiteTests p skip, test.1 ∈ skip → ∀ s, TestSkipped test.2 s := by
  simp only [suiteTests, List.forall_mem_cons]
  refine ⟨fun h => absurd h hc001, ?_, ?_, ?_, ?_, ?_, ?_, ?_, ?_, ?_, ?_, ?_, ?_, ?_, ?_, ?_,
    ?_, ?_, fun h => absurd h hd002, fun h => absurd h hd003, by simp⟩
  all_goals exact testEntry_skipped (by decide)

/-- A state before the first test. -/
def freshSuite : SuiteState where
  total := 0
  tests := ⟨0, 0⟩
  status := fun _ => 0
  started := []
  ran := []

/-- **Skip lists.** On every platform the suite honours exactly the lists that name neither
the first test of the cache module nor the last two of the memory module, and the number of
the memory module if and only if that of the cache module. -/
theorem skip_honoured_iff (p : SuitePlatform) (skip : List (BitVec 32)) :
    SkipHonoured p skip ↔
      acsCacheTestNumBase + 1 ∉ skip ∧ acsMemoryTestNumBase + 2 ∉ skip ∧
        acsMemoryTestNumBase + 3 ∉ skip ∧
        (acsCacheTestNumBase ∈ skip ↔ acsMemoryTestNumBase ∈ skip) := by
  constructor
  · intro h
    have hAllPe : ∀ num : BitVec 32, num.toNat < 2 ^ 12 → num ∈ skip →
        (num, allPeEntry p skip num) ∉ suiteTests p skip := by
      intro num hNum hListed hMem
      have hRet := (h.tests _ hMem hListed freshSuite).ret
      rw [allPeEntry_listed hNum hListed] at hRet
      exact absurd hRet (by decide)
    refine ⟨fun hc001 => ?_, fun hd002 => ?_, fun hd003 => ?_, ?_⟩
    · have hMem : (acsCacheTestNumBase + 1, testc001Entry p skip) ∈ suiteTests p skip :=
        List.mem_cons_self
      have hRan := (h.tests _ hMem hc001 freshSuite).ran
      rw [testc001Entry_ran] at hRan
      simp at hRan
    · exact hAllPe _ (by decide) hd002 (by simp [suiteTests, testd002Entry])
    · exact hAllPe _ (by decide) hd003 (by simp [suiteTests, testd003Entry])
    · rw [← h.memory freshSuite]
      exact (valMemoryExecuteTests_skipped_iff freshSuite).symm
  · rintro ⟨hc001, hd002, hd003, hBases⟩
    exact
      { cache := valCacheExecuteTests_skipped_iff
        csumon := valCsumonExecuteTests_skipped_iff
        interrupts := valInterruptsExecuteTests_skipped_iff
        memory := fun s => (valMemoryExecuteTests_skipped_iff s).trans hBases
        tests := suiteTests_skipped hc001 hd002 hd003 }

/-- A platform with one PE, whose payloads report PASS. -/
def onePePlatform : SuitePlatform where
  numPe := 1
  myIndex := 0
  myIndex_lt := Nat.one_pos
  payload := fun testNum _ _ => resultPass testNum 1

/-- With 40 and 42 in the list, the memory module runs, and its second test returns PASS and
is counted as passed without having been run. -/
theorem skip_memory_ignored :
    ¬ ModuleSkipped (valMemoryExecuteTests onePePlatform [40, 42, 10000]) freshSuite ∧
      (testd002Entry onePePlatform [40, 42, 10000] freshSuite).1 = acsStatusPass ∧
      (testd002Entry onePePlatform [40, 42, 10000] freshSuite).2.tests.pass = 1 ∧
      ¬ SkipHonoured onePePlatform [40, 42, 10000] := by
  have hModule :
      ¬ ModuleSkipped (valMemoryExecuteTests onePePlatform [40, 42, 10000]) freshSuite := by
    rw [valMemoryExecuteTests_skipped_iff]
    decide
  exact ⟨hModule, by decide, by decide, fun h => hModule ((h.memory freshSuite).mpr (by decide))⟩

end EnterpriseAcs.Mpam
