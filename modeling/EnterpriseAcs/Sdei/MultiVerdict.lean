import EnterpriseAcs.Sdei.TestInfra

/-!
# Merged statuses

For a test on all PEs, `val_test_get_status` returns the bitwise or of the statuses it has
read in the last poll, up to the first one with the bit of FAIL. The merged word is a status
that one of these PEs has reported only if that first one contains all the others.

* `getStatus_merge_cases`: the three ways in which the polls end.
* `multiVerdict_sound_iff`: the verdict is a reported status, and a FAIL that was read is
  counted, exactly when the poll that ends the wait is safe to merge.
* `pending_merges_fail`: PENDING and FAIL merge to ERROR, which no counter counts.
-/

namespace EnterpriseAcs.Sdei

/-- The poll that sees these statuses ends the wait. -/
def EndsWait (vs : List (BitVec 32)) : Prop :=
  (∃ v ∈ vs, hasFailBit v) ∨ ∀ v ∈ vs, v = sdeiTestPass

/-- The first status with the bit of FAIL contains the statuses before it. -/
def SafeToMerge (vs : List (BitVec 32)) : Prop :=
  ∀ pre v post, vs = pre ++ v :: post → NoFailBit pre → hasFailBit v → ∀ w ∈ pre, w ||| v = v

/-- The poll that ends the wait, if one does, is safe to merge. -/
def MergeSafe (seen : Nat → Nat → BitVec 32) (numPe timeout : Nat) : Prop :=
  ∀ k < timeout, (∀ j < k, ¬ EndsWait (statusVector seen numPe j)) →
    SafeToMerge (statusVector seen numPe k)

/-- A round of `val_test_execute` for a test on all PEs: the status it records is one that
the last poll has read, unless it is TIMEOUT; it is PASS only if one poll saw PASS on all
PEs; and if a PE was seen with FAIL, the test is counted as failed. -/
structure MultiVerdictSound (env : TestEnv) (s : ExecState) (i : Nat) (result : GetStatus) :
    Prop where
  reported : result.status ≠ sdeiTestTimeout →
    ∃ last, result.polls.getLast? = some last ∧ result.status ∈ last
  passed : result.status = sdeiTestPass →
    ∃ k < testTimeout, ∀ v ∈ statusVector (env.seen i) env.peCount k, v = sdeiTestPass
  failed : (∃ reads ∈ result.polls, sdeiTestFail ∈ reads) →
    (executeStep env s i).control.testsFailed = s.control.testsFailed + 1

/-! ## How the polls end -/

theorem not_endsWait {vs : List (BitVec 32)} :
    ¬ EndsWait vs ↔ NoFailBit vs ∧ ¬ ∀ v ∈ vs, v = sdeiTestPass := by
  simp only [EndsWait, NoFailBit, not_or, not_exists, not_and]

/-- A poll that does not return has read all PEs. -/
theorem mergePoll_of_none {vs : List (BitVec 32)} (h : (mergePoll vs).returned = none) :
    ¬ EndsWait vs ∧ (mergePoll vs).reads = vs := by
  rcases mergePoll_cases vs with ⟨pre, v, post, -, -, -, hPoll⟩ | ⟨-, -, hPoll⟩ |
    ⟨hNo, hNotPass, hPoll⟩
  · rw [hPoll] at h
    cases h
  · rw [hPoll] at h
    cases h
  · rw [hPoll]
    exact ⟨not_endsWait.mpr ⟨hNo, hNotPass⟩, rfl⟩

/-- The polls before the last one have read no FAIL. -/
theorem earlier_noFailBit {seen : Nat → Nat → BitVec 32} {n k : Nat}
    (hNone : ∀ j < k, (mergePoll (statusVector seen n j)).returned = none) :
    ∀ reads ∈ (List.range' 0 k).map (fun j => (mergePoll (statusVector seen n j)).reads),
      NoFailBit reads := by
  intro reads hReads
  obtain ⟨j, hj, rfl⟩ := List.mem_map.mp hReads
  have hjk : j < k := by simpa using (List.mem_range'_1.mp hj).2
  obtain ⟨hGoes, hAll⟩ := mergePoll_of_none (hNone j hjk)
  rw [hAll]
  exact (not_endsWait.mp hGoes).1

/-- No poll ends the wait; or one does at the first status with the bit of FAIL; or one in
which all PEs have passed. -/
theorem getStatus_merge_cases (peCount : Nat) (seen : Nat → Nat → BitVec 32) {n : Nat}
    (timeout : Nat) (hn : n ≠ 1) :
    ∃ earlier : List (List (BitVec 32)), (∀ reads ∈ earlier, NoFailBit reads) ∧
      (((∀ k < timeout, ¬ EndsWait (statusVector seen n k)) ∧
          valTestGetStatus peCount seen n timeout = ⟨sdeiTestTimeout, earlier⟩) ∨
        ∃ k < timeout, (∀ j < k, ¬ EndsWait (statusVector seen n j)) ∧
          ((∃ pre v post, statusVector seen n k = pre ++ v :: post ∧ NoFailBit pre ∧
              hasFailBit v ∧ valTestGetStatus peCount seen n timeout =
                ⟨mergeAll (pre ++ [v]), earlier ++ [pre ++ [v]]⟩) ∨
            (NoFailBit (statusVector seen n k) ∧
              (∀ v ∈ statusVector seen n k, v = sdeiTestPass) ∧
              valTestGetStatus peCount seen n timeout =
                ⟨sdeiTestPass, earlier ++ [statusVector seen n k]⟩))) := by
  unfold valTestGetStatus
  rw [if_neg hn]
  rcases pollLoop_cases (fun k => mergePoll (statusVector seen n k)) timeout 0 with
    ⟨hNone, hLoop⟩ | ⟨k, status, hk, hNone, hSome, hLoop⟩
  · simp only [Nat.zero_add] at hNone
    exact ⟨_, earlier_noFailBit hNone, Or.inl
      ⟨fun k hk => (mergePoll_of_none (hNone k hk)).1, hLoop⟩⟩
  · simp only [Nat.zero_add] at hNone hSome
    refine ⟨_, earlier_noFailBit hNone, Or.inr
      ⟨k, hk, fun j hj => (mergePoll_of_none (hNone j hj)).1, ?_⟩⟩
    rw [hLoop, List.range'_1_concat, List.map_append, List.map_singleton, Nat.zero_add]
    rcases mergePoll_cases (statusVector seen n k) with
      ⟨pre, v, post, hVs, hPre, hv, hPoll⟩ | ⟨hNo, hPass, hPoll⟩ | ⟨-, -, hPoll⟩
    · rw [hPoll] at hSome ⊢
      cases hSome
      exact Or.inl ⟨pre, v, post, hVs, hPre, hv, rfl⟩
    · rw [hPoll] at hSome ⊢
      cases hSome
      exact Or.inr ⟨hNo, hPass, rfl⟩
    · rw [hPoll] at hSome
      cases hSome

/-! ## When the merged status was reported -/

theorem mergeAll_concat (pre : List (BitVec 32)) (v : BitVec 32) :
    mergeAll (pre ++ [v]) = mergeAll pre ||| v := by
  rw [mergeAll_append]
  congr 1
  exact BitVec.or_zero

theorem hasFailBit_concat (pre : List (BitVec 32)) {v : BitVec 32} (hv : hasFailBit v) :
    hasFailBit (mergeAll (pre ++ [v])) = true := by
  rw [mergeAll_concat, hasFailBit_or]
  exact Or.inr hv

/-- A status with the bit of FAIL, read up to the first one, is this first one. -/
theorem eq_last_of_mem {pre : List (BitVec 32)} {v w : BitVec 32} (hPre : NoFailBit pre)
    (hw : hasFailBit w) (hMem : w ∈ pre ++ [v]) : w = v := by
  rcases List.mem_append.mp hMem with hOld | hLast
  · exact absurd hw (hPre w hOld)
  · exact List.mem_singleton.mp hLast

/-- The merged word was read exactly when the last status contains the others. -/
theorem mergeAll_mem_iff {pre : List (BitVec 32)} {v : BitVec 32} (hPre : NoFailBit pre)
    (hv : hasFailBit v) :
    mergeAll (pre ++ [v]) ∈ pre ++ [v] ↔ ∀ w ∈ pre, w ||| v = v := by
  rw [← mergeAll_or_eq_iff, ← mergeAll_concat]
  constructor
  · exact eq_last_of_mem hPre (hasFailBit_concat pre hv)
  · intro hEq
    apply List.mem_append_right
    exact List.mem_singleton.mpr hEq

/-- The first status with the bit of FAIL is unique. -/
theorem safeToMerge_iff {pre : List (BitVec 32)} (post : List (BitVec 32)) {v : BitVec 32}
    (hPre : NoFailBit pre) (hv : hasFailBit v) :
    SafeToMerge (pre ++ v :: post) ↔ ∀ w ∈ pre, w ||| v = v := by
  constructor
  · exact fun h => h pre v post rfl hPre hv
  · intro h pre' v' post' hEq hPre' hv'
    rcases List.append_eq_append_iff.mp hEq with ⟨as, hPre'', hRest⟩ | ⟨bs, hPre'', hRest⟩
    · cases as with
      | nil =>
        obtain ⟨rfl, -⟩ := List.cons.inj hRest
        rw [hPre'', List.append_nil]
        exact h
      | cons a as =>
        obtain ⟨rfl, -⟩ := List.cons.inj hRest
        exact absurd hv (hPre' v (by simp [hPre'']))
    · cases bs with
      | nil =>
        obtain ⟨rfl, -⟩ := List.cons.inj hRest
        rw [List.append_nil] at hPre''
        exact hPre'' ▸ h
      | cons b bs =>
        obtain ⟨rfl, -⟩ := List.cons.inj hRest
        exact absurd hv' (hPre v' (by simp [hPre'']))

theorem noFailBit_safe {vs : List (BitVec 32)} (h : NoFailBit vs) : SafeToMerge vs := by
  intro pre v post hVs _ hv
  apply absurd hv
  apply h v
  simp [hVs]

theorem not_endsWait_safe {vs : List (BitVec 32)} (h : ¬ EndsWait vs) : SafeToMerge vs :=
  noFailBit_safe (not_endsWait.mp h).1

/-- Only the poll that ends the wait can be unsafe to merge. -/
theorem mergeSafe_iff_last {seen : Nat → Nat → BitVec 32} {n timeout k : Nat} (hk : k < timeout)
    (hGoes : ∀ j < k, ¬ EndsWait (statusVector seen n j))
    (hEnds : EndsWait (statusVector seen n k)) :
    MergeSafe seen n timeout ↔ SafeToMerge (statusVector seen n k) := by
  constructor
  · exact fun h => h k hk hGoes
  · intro h j hj hBefore
    rcases Nat.lt_trichotomy j k with hjk | rfl | hkj
    · exact not_endsWait_safe (hGoes j hjk)
    · exact h
    · exact absurd hEnds (hBefore k hkj)

/-! ## The verdict, by the way the polls end -/

theorem hasFailBit_fail : hasFailBit sdeiTestFail = true := rfl

theorem timeout_ne_pass : sdeiTestTimeout ≠ sdeiTestPass := by decide

theorem logTestResult_fail (control : SdeiTestControl) :
    (logTestResult control sdeiTestFail).testsFailed = control.testsFailed + 1 := rfl

/-- What a round does with the status of a test on all PEs. -/
theorem executeStep_allPe (env : TestEnv) {s : ExecState} {i : Nat} {test : SdeiTestDesc}
    (hTest : s.tests[i]? = some test) (hAll : test.allPe = true)
    (hRun : runTest s.control s.tests i test = true) :
    (executeStep env s i).control = logTestResult s.control
      (valTestGetStatus env.peCount (env.seen i) env.peCount testTimeout).status := by
  simp [executeStep, hTest, hRun, endStatus, numPeOf, hAll]

section Ends

variable {env : TestEnv} {s : ExecState} {i k : Nat} {earlier : List (List (BitVec 32))}

/-- No FAIL was read before the last poll. -/
theorem fail_read_last {last reads : List (BitVec 32)}
    (hEarlier : ∀ reads ∈ earlier, NoFailBit reads) (hReads : reads ∈ earlier ++ [last])
    (hFail : sdeiTestFail ∈ reads) : sdeiTestFail ∈ last := by
  rcases List.mem_append.mp hReads with hOld | hNew
  · exact absurd hasFailBit_fail (hEarlier reads hOld _ hFail)
  · exact List.mem_singleton.mp hNew ▸ hFail

theorem sound_of_timeout (hEarlier : ∀ reads ∈ earlier, NoFailBit reads) :
    MultiVerdictSound env s i ⟨sdeiTestTimeout, earlier⟩ where
  reported hne := absurd rfl hne
  passed hPass := absurd hPass timeout_ne_pass
  failed := by
    rintro ⟨reads, hReads, hFail⟩
    exact absurd hasFailBit_fail (hEarlier reads hReads _ hFail)

theorem sound_of_passed (hEarlier : ∀ reads ∈ earlier, NoFailBit reads) (hk : k < testTimeout)
    (hPes : 0 < env.peCount)
    (hPass : ∀ v ∈ statusVector (env.seen i) env.peCount k, v = sdeiTestPass)
    (hNo : NoFailBit (statusVector (env.seen i) env.peCount k)) :
    MultiVerdictSound env s i
      ⟨sdeiTestPass, earlier ++ [statusVector (env.seen i) env.peCount k]⟩ where
  reported _ := by
    have hMem : env.seen i k 0 ∈ statusVector (env.seen i) env.peCount k :=
      List.mem_map_of_mem (List.mem_range.mpr hPes)
    exact ⟨_, List.getLast?_concat, hPass _ hMem ▸ hMem⟩
  passed _ := ⟨k, hk, hPass⟩
  failed := by
    rintro ⟨reads, hReads, hFail⟩
    exact absurd hasFailBit_fail (hNo _ (fail_read_last hEarlier hReads hFail))

theorem sound_iff_of_failBit (hEarlier : ∀ reads ∈ earlier, NoFailBit reads)
    {pre : List (BitVec 32)} {v : BitVec 32} (hPre : NoFailBit pre) (hv : hasFailBit v)
    (hControl : (executeStep env s i).control =
      logTestResult s.control (mergeAll (pre ++ [v]))) :
    MultiVerdictSound env s i ⟨mergeAll (pre ++ [v]), earlier ++ [pre ++ [v]]⟩ ↔
      ∀ w ∈ pre, w ||| v = v := by
  have hBit := hasFailBit_concat pre hv
  have hne : ∀ status, hasFailBit status = false → mergeAll (pre ++ [v]) ≠ status := by
    intro status hStatus hEq
    rw [hEq, hStatus] at hBit
    cases hBit
  rw [← mergeAll_mem_iff hPre hv]
  constructor
  · intro h
    obtain ⟨last, hLast, hMem⟩ := h.reported (hne sdeiTestTimeout rfl)
    rw [List.getLast?_concat, Option.some_inj] at hLast
    rwa [← hLast] at hMem
  · intro hMem
    refine ⟨fun _ => ⟨_, List.getLast?_concat, hMem⟩,
      fun hPass => absurd hPass (hne sdeiTestPass rfl), ?_⟩
    rintro ⟨reads, hReads, hFail⟩
    -- the FAIL that was read is the last status, and so is the merged word
    have hLast := eq_last_of_mem hPre hasFailBit_fail (fail_read_last hEarlier hReads hFail)
    have hStatus := eq_last_of_mem hPre hBit hMem
    rw [hControl, hStatus, ← hLast, logTestResult_fail]

end Ends

/-- **Merged statuses.** For a test on all PEs of a machine with more than one, the verdict
is sound exactly when the poll that ends the wait is safe to merge. -/
theorem multiVerdict_sound_iff (env : TestEnv) (s : ExecState) (i : Nat) (test : SdeiTestDesc)
    (hTest : s.tests[i]? = some test) (hAll : test.allPe = true)
    (hRun : runTest s.control s.tests i test = true) (hPes : 1 < env.peCount) :
    MultiVerdictSound env s i
        (valTestGetStatus env.peCount (env.seen i) env.peCount testTimeout) ↔
      MergeSafe (env.seen i) env.peCount testTimeout := by
  have hControl := executeStep_allPe env hTest hAll hRun
  obtain ⟨earlier, hEarlier, hCases⟩ :=
    getStatus_merge_cases env.peCount (env.seen i) testTimeout (Nat.ne_of_gt hPes)
  rcases hCases with ⟨hGoes, hResult⟩ | ⟨k, hk, hGoes, hEnd⟩
  · rw [hResult]
    constructor
    · exact fun _ k hk _ => not_endsWait_safe (hGoes k hk)
    · exact fun _ => sound_of_timeout hEarlier
  · rcases hEnd with ⟨pre, v, post, hVs, hPre, hv, hResult⟩ | ⟨hNo, hPass, hResult⟩
    · rw [hResult] at hControl ⊢
      have hEnds : EndsWait (statusVector (env.seen i) env.peCount k) :=
        Or.inl ⟨v, by simp [hVs], hv⟩
      rw [mergeSafe_iff_last hk hGoes hEnds, hVs, safeToMerge_iff post hPre hv]
      exact sound_iff_of_failBit hEarlier hPre hv hControl
    · rw [hResult, mergeSafe_iff_last hk hGoes (Or.inr hPass)]
      constructor
      · exact fun _ => noFailBit_safe hNo
      · exact fun _ => sound_of_passed hEarlier hk (Nat.lt_trans Nat.zero_lt_one hPes) hPass hNo

/-- A machine with two PEs that hold these statuses at every poll. -/
def steadyPes (first second : BitVec 32) : TestEnv :=
  ⟨2, fun _ _ j => if j = 0 then first else second⟩

/-- One enabled test on all PEs, without dependencies. -/
def oneTest : ExecState where
  tests := [⟨1, [0], sdeiTestPending, true, noDeps_terminated⟩]
  control := { flags := fun _ => BitVec.allOnes 64 }

/-- PASS and FAIL: the test is counted as failed. -/
theorem multiVerdict_pass_fail :
    MultiVerdictSound (steadyPes sdeiTestPass sdeiTestFail) oneTest 0
      (valTestGetStatus 2 ((steadyPes sdeiTestPass sdeiTestFail).seen 0) 2 testTimeout) := by
  have hSafe : SafeToMerge [sdeiTestPass, sdeiTestFail] := by
    have hPre : NoFailBit [sdeiTestPass] := fun w hw => by rw [List.mem_singleton.mp hw]; decide
    refine (safeToMerge_iff [] hPre hasFailBit_fail).mpr fun w hw => ?_
    rw [List.mem_singleton.mp hw]
    decide
  exact (multiVerdict_sound_iff (steadyPes sdeiTestPass sdeiTestFail) oneTest 0 _ rfl rfl
    (by decide) (by decide)).mpr fun _ _ _ => hSafe

/-- PENDING and FAIL: the merged status is ERROR, and no test is counted as failed. -/
theorem pending_merges_fail :
    ¬ ∀ (env : TestEnv) (s : ExecState) (i : Nat) (test : SdeiTestDesc),
      s.tests[i]? = some test → test.allPe = true →
      runTest s.control s.tests i test = true → 1 < env.peCount →
      MultiVerdictSound env s i
        (valTestGetStatus env.peCount (env.seen i) env.peCount testTimeout) := by
  intro hAll
  have hSound := hAll (steadyPes sdeiTestPending sdeiTestFail) oneTest 0 _ rfl rfl (by decide)
    (by decide)
  have hResult : valTestGetStatus 2 ((steadyPes sdeiTestPending sdeiTestFail).seen 0) 2
      testTimeout = ⟨sdeiTestError, [[sdeiTestPending, sdeiTestFail]]⟩ := by decide
  have hCounted := hSound.failed ⟨_, by
    rw [show (steadyPes sdeiTestPending sdeiTestFail).peCount = 2 from rfl, hResult]
    exact List.mem_singleton_self _, by decide⟩
  exact absurd hCounted (by decide)

end EnterpriseAcs.Sdei
