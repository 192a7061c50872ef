import EnterpriseAcs.Sdei.SuiteSystem

/-!
# The suite on all PEs refines the suite in sequence

While the primary is outside `pal_pe_execute_on_all` no secondary runs a payload, so the statuses
stand still; inside, each PE sets its own. So every interleaving leaves the statuses that the test
functions leave one after the other, and the polls read no others.

* `suiteInv_step`: every step keeps the invariant.
* `suite_refines`: what `val_test_execute` has recorded, at each test and at its end.
-/

namespace EnterpriseAcs.Sdei

open Transition

variable {w : SuiteWorld} {s₀ : ExecState}

/-! ## The polls -/

section Polls

/-- One poll of statuses that stand still. -/
def steadyPoll (p : Polling) (held : Nat → BitVec 32) : Poll :=
  let s := sweep p.merge p.stop ((List.range p.numPe).map held) sdeiTestPass
  ⟨if s.returned || p.atEnd s.status then some s.status else none, s.reads⟩

/-- The status that the polls end with. -/
def polledStatus (p : Polling) (held : Nat → BitVec 32) (timeout : Nat) : BitVec 32 :=
  (pollLoop (fun _ => steadyPoll p held) timeout 0).status

/-- The same from within a poll, at PE `j`. -/
def polledFrom (p : Polling) (held : Nat → BitVec 32) (timeout j : Nat) (status : BitVec 32) :
    BitVec 32 :=
  let s := sweep p.merge p.stop ((List.range' j (p.numPe - j)).map held) status
  if s.returned || p.atEnd s.status then s.status else polledStatus p held timeout

variable {p : Polling} {held : Nat → BitVec 32}

/-- When every poll is the same, it does not matter which one is the first. -/
theorem pollLoop_const (poll : Poll) (timeout k k' : Nat) :
    pollLoop (fun _ => poll) timeout k = pollLoop (fun _ => poll) timeout k' := by
  induction timeout generalizing k k' with
  | zero => rfl
  | succ timeout ih =>
    simp only [pollLoop]
    rw [ih (k + 1) (k' + 1)]

theorem polledStatus_zero : polledStatus p held 0 = sdeiTestTimeout := rfl

theorem pollLoop_status (poll : Nat → Poll) (timeout k : Nat) :
    (pollLoop poll (timeout + 1) k).status =
      (poll k).returned.getD (pollLoop poll timeout (k + 1)).status := by
  rw [pollLoop]
  cases (poll k).returned with
  | none => rfl
  | some status => rfl

theorem polledStatus_succ (timeout : Nat) :
    polledStatus p held (timeout + 1) = polledFrom p held timeout 0 sdeiTestPass := by
  have hPoll : (steadyPoll p held).returned.getD (polledStatus p held timeout) =
      polledFrom p held timeout 0 sdeiTestPass := by
    rw [polledFrom, Nat.sub_zero, ← List.range_eq_range', steadyPoll]
    dsimp only
    split
    · rfl
    · rfl
  rw [← hPoll, polledStatus, pollLoop_status, pollLoop_const _ timeout (0 + 1) 0]
  rfl

theorem polledFrom_stop {timeout j : Nat} {status : BitVec 32} (hj : j < p.numPe)
    (hStop : p.stop (p.merge status (held j)) = true) :
    polledFrom p held timeout j status = p.merge status (held j) := by
  obtain ⟨m, hm⟩ : ∃ m, p.numPe - j = m + 1 := ⟨p.numPe - j - 1, by omega⟩
  simp only [polledFrom, hm, List.range'_succ, List.map_cons, sweep, hStop, if_true, Bool.true_or]

theorem polledFrom_next {timeout j : Nat} {status : BitVec 32} (hj : j < p.numPe)
    (hStop : ¬ p.stop (p.merge status (held j)) = true) :
    polledFrom p held timeout (j + 1) (p.merge status (held j)) =
      polledFrom p held timeout j status := by
  obtain ⟨m, hm⟩ : ∃ m, p.numPe - j = m + 1 := ⟨p.numPe - j - 1, by omega⟩
  have hm' : p.numPe - (j + 1) = m := by omega
  simp only [polledFrom, hm, hm', List.range'_succ, List.map_cons, sweep, if_neg hStop]

theorem polledFrom_end {timeout j : Nat} {status : BitVec 32} (hj : ¬ j < p.numPe) :
    polledFrom p held timeout j status =
      if p.atEnd status then status else polledStatus p held timeout := by
  have hm : p.numPe - j = 0 := by omega
  simp only [polledFrom, hm, List.range'_zero, List.map_nil, sweep, Bool.false_or]

theorem pollingOf_numPe (test : SdeiTestDesc) :
    (pollingOf w.board.numPe (numPeOf w.env test)).numPe = w.board.numPe := by
  unfold pollingOf
  split
  · rfl
  · rename_i hMany
    unfold numPeOf at hMany ⊢
    split
    · rfl
    · rename_i hOne
      rw [if_neg hOne] at hMany
      exact absurd rfl hMany

/-- The status that a test ends with, by the statuses that its function has left. -/
theorem endStatus_eq (i : Nat) (test : SdeiTestDesc) :
    endStatus w.env i test = polledStatus (pollingOf w.board.numPe (numPeOf w.env test))
      (statusAfter w i (w.testFn i)) testTimeout := by
  unfold endStatus valTestGetStatus polledStatus pollingOf
  by_cases hOne : numPeOf w.env test = 1
  · rw [if_pos hOne, if_pos hOne]
    congr 2
    funext k
    simp only [singlePoll, steadyPoll, statusVector, Bool.or_false]
    rfl
  · rw [if_neg hOne, if_neg hOne]
    rfl

end Polls

/-! ## The invariant -/

/-- The statuses of the PEs are those that `held` gives. -/
def Holding (w : SuiteWorld) (status held : Nat → BitVec 32) : Prop :=
  ∀ k < w.board.numPe, status k = held k

/-- The tests before the one at index `i` are recorded. -/
structure Recorded (w : SuiteWorld) (s₀ : ExecState) (exec : ExecState) (i : Nat) : Prop where
  lt : i < s₀.tests.length
  exec : exec = executed w s₀ i

/-- The test at index `i` is run. -/
structure Running (w : SuiteWorld) (s₀ : ExecState) (exec : ExecState) (i numPe : Nat)
    (test : SdeiTestDesc) : Prop where
  recorded : Recorded w s₀ exec i
  found : exec.tests[i]? = some test
  runs : runTest exec.control exec.tests i test = true
  numPe : numPe = numPeOf w.env test

/-- What holds at a program point outside `pal_pe_execute_on_all`. -/
def PointInv (w : SuiteWorld) (s₀ : ExecState) (status : Nat → BitVec 32) (exec : ExecState) :
    SuitePc → Prop
  | .head i => i ≤ s₀.tests.length ∧ exec = executed w s₀ i
  | .init i j => Recorded w s₀ exec i ∧ ∀ k < j, k < w.board.numPe → status k = sdeiTestPending
  | .choose i => Recorded w s₀ exec i ∧ Holding w status (statusAfter w i [])
  | .body i numPe rest => ∃ test done, Running w s₀ exec i numPe test ∧
      w.testFn i = done ++ rest ∧ Holding w status (statusAfter w i done)
  | .inCall _ _ _ => False
  | .pollHead i numPe timeout => ∃ test, Running w s₀ exec i numPe test ∧
      Holding w status (statusAfter w i (w.testFn i)) ∧
      polledStatus (pollingOf w.board.numPe numPe) (statusAfter w i (w.testFn i)) timeout =
        endStatus w.env i test
  | .poll i numPe timeout j acc => ∃ test, Running w s₀ exec i numPe test ∧
      Holding w status (statusAfter w i (w.testFn i)) ∧
      polledFrom (pollingOf w.board.numPe numPe) (statusAfter w i (w.testFn i)) timeout j acc =
        endStatus w.env i test
  | .record i result ran => Recorded w s₀ exec i ∧ ∃ test, exec.tests[i]? = some test ∧
      runTest exec.control exec.tests i test = ran ∧
      result = if ran then endStatus w.env i test else sdeiTestSkip
  | .ended => exec = executed w s₀ s₀.tests.length

/-- What holds inside: a PE that has executed the payload has set its status. -/
structure CallInv (w : SuiteWorld) (s₀ : ExecState) (s : SuiteSys) (i numPe : Nat)
    (rest : List Action) (c : Call) (prev : List Call) (test : SdeiTestDesc)
    (done : List Action) : Prop where
  running : Running w s₀ s.exec i numPe test
  parts : w.testFn i = done ++ .executeOnAll c :: rest
  calls : s.mail.calls = prev ++ [c]
  own : s.status w.board.myIndex =
    statusAfter w i (if s.mail.primary = .runOwn c then done else done ++ [.executeOnAll c])
      w.board.myIndex
  before : ∀ k, w.board.IsSecondary k → (s.mail.pe k).finished = prev →
    s.status k = statusAfter w i done k
  after : ∀ k, w.board.IsSecondary k → (s.mail.pe k).finished = prev ++ [c] →
    s.status k = statusAfter w i (done ++ [.executeOnAll c]) k

/-- The invariant. -/
structure SuiteInv (w : SuiteWorld) (s₀ : ExecState) (s : SuiteSys) : Prop where
  live : Live w.board.toPeSet s.mail
  point : (s.mail.primary = .idle ∧ PointInv w s₀ s.status s.exec s.pc) ∨
    ∃ i numPe rest c prev test done, s.pc = .inCall i numPe rest ∧
      CallInv w s₀ s i numPe rest c prev test done

/-! ## Steps of a secondary -/

section Secondary

variable {s t : SuiteSys} {j : Nat}

/-- Outside a call no payload ends. -/
theorem secondaryStatus_idle (hLive : Live w.board.toPeSet s.mail) (hIdle : s.mail.primary = .idle)
    (hj : w.board.IsSecondary j) : secondaryStatus w s j = s.status := by
  unfold secondaryStatus
  split
  · rename_i r a hpc
    obtain ⟨c, done, hWait, -⟩ := running_cases hLive.inv hj hpc
    rw [hIdle] at hWait
    cases hWait
  · rfl

theorem payloadStatus_self (place : Nat × Nat) (c : Call) (status : Nat → BitVec 32) :
    payloadStatus w place c j status j = (w.reported place c j).getD (status j) := by
  rw [payloadStatus]
  cases w.reported place c j with
  | none => rfl
  | some v => exact Function.update_self _ _ _

theorem payloadStatus_ne {place : Nat × Nat} {c : Call} {status : Nat → BitVec 32} {k : Nat}
    (hk : k ≠ j) : payloadStatus w place c j status k = status k := by
  rw [payloadStatus]
  cases w.reported place c j with
  | none => rfl
  | some v => exact Function.update_of_ne hk _ _

theorem statusAfter_concat (i : Nat) (done : List Action) (action : Action) :
    statusAfter w i (done ++ [action]) =
      action.apply w (i, done.length + 1) (statusAfter w i done) := by
  rw [statusAfter, List.zipIdx_append, List.foldl_append, Nat.add_comm 1]
  rfl

/-- The number of a call among the parts of its function. -/
theorem place_inCall {i numPe : Nat} {rest done : List Action} {action : Action}
    (hParts : w.testFn i = done ++ action :: rest) :
    w.place (.inCall i numPe rest) = (i, done.length + 1) := by
  have hLength : (w.testFn i).length - rest.length = done.length + 1 := by
    rw [hParts, List.length_append, List.length_cons]
    omega
  rw [SuiteWorld.place, hLength]

/-- The status that a payload leaves, on the status before it. -/
theorem statusAfter_call {i numPe : Nat} {rest done : List Action} {c : Call}
    (hParts : w.testFn i = done ++ .executeOnAll c :: rest) (k : Nat) :
    statusAfter w i (done ++ [.executeOnAll c]) k =
      (w.reported (w.place (.inCall i numPe rest)) c k).getD (statusAfter w i done k) := by
  rw [statusAfter_concat, place_inCall hParts]
  rfl

/-- A step that ends no payload. -/
theorem finished_step_of_not_running {p : PeState} (h : ∀ r a, p.pc ≠ .running r a) :
    p.step.finished = p.finished := by
  unfold PeState.step
  split
  case h_5 r a hpc => exact absurd hpc (h r a)
  all_goals rfl

section Call

variable {i numPe : Nat} {rest done : List Action} {c : Call} {prev : List Call}
  {test : SdeiTestDesc}

/-- A secondary that is not in a payload steps, and finishes none. -/
theorem CallInv.secondary_outside (h : CallInv w s₀ s i numPe rest c prev test done)
    (hNot : ∀ r a, (s.mail.pe j).pc ≠ .running r a) :
    CallInv w s₀
      { s with
        mail := { s.mail with pe := Function.update s.mail.pe j (s.mail.pe j).step }
        status := secondaryStatus w s j } i numPe rest c prev test done := by
  have hStatus : secondaryStatus w s j = s.status := by
    unfold secondaryStatus
    split
    · rename_i r a hpc
      exact absurd hpc (hNot r a)
    · rfl
  have hFinished : ∀ k, (Function.update s.mail.pe j (s.mail.pe j).step k).finished =
      (s.mail.pe k).finished := by
    intro k
    by_cases hkj : k = j
    · subst hkj
      rw [Function.update_self, finished_step_of_not_running hNot]
    · rw [Function.update_of_ne hkj]
  refine ⟨h.running, h.parts, h.calls, ?_, fun k hk hPrev => ?_, fun k hk hAll => ?_⟩
  · simp only [hStatus]
    exact h.own
  · simp only [hFinished] at hPrev
    simp only [hStatus]
    exact h.before k hk hPrev
  · simp only [hFinished] at hAll
    simp only [hStatus]
    exact h.after k hk hAll

/-- A secondary in a payload finishes that of the call, and reports. -/
theorem CallInv.secondary_inside (h : CallInv w s₀ s i numPe rest c prev test done)
    (hAt : s.pc = .inCall i numPe rest) (hLive : Live w.board.toPeSet s.mail)
    (hj : w.board.IsSecondary j) {r a : BitVec 64} (hpc : (s.mail.pe j).pc = .running r a) :
    CallInv w s₀
      { s with
        mail := { s.mail with pe := Function.update s.mail.pe j (s.mail.pe j).step }
        status := secondaryStatus w s j } i numPe rest c prev test done := by
  have hMy : w.board.myIndex ≠ j := fun hEq => ((w.board.isSecondary_iff j).mp hj).2 hEq.symm
  obtain ⟨c', prev', -, hCalls, hCall, hFinished⟩ := running_cases hLive.inv hj hpc
  have hSame := List.append_inj' (h.calls.symm.trans hCalls) rfl
  obtain ⟨rfl, hLast⟩ := hSame
  obtain rfl : c = c' := List.singleton_inj.mp hLast
  have hStatus : secondaryStatus w s j =
      payloadStatus w (w.place (.inCall i numPe rest)) c j s.status := by
    simp only [secondaryStatus, hpc, hCall, hAt]
  have hStep : (s.mail.pe j).step.finished = prev ++ [c] := by
    simp only [PeState.step, hpc, hFinished, hCall]
  refine ⟨h.running, h.parts, h.calls, ?_, fun k hk hPrev => ?_, fun k hk hAll => ?_⟩
  · simp only [hStatus]
    rw [payloadStatus_ne hMy]
    exact h.own
  · by_cases hkj : k = j
    · subst hkj
      simp only [Function.update_self, hStep] at hPrev
      simp at hPrev
    · simp only [Function.update_of_ne hkj] at hPrev
      simp only [hStatus]
      rw [payloadStatus_ne hkj]
      exact h.before k hk hPrev
  · by_cases hkj : k = j
    · subst hkj
      simp only [hStatus]
      rw [payloadStatus_self, statusAfter_call h.parts, h.before k hk hFinished]
    · simp only [Function.update_of_ne hkj] at hAll
      simp only [hStatus]
      rw [payloadStatus_ne hkj]
      exact h.after k hk hAll

/-- A step of a secondary inside a call. -/
theorem CallInv.secondary (h : CallInv w s₀ s i numPe rest c prev test done)
    (hAt : s.pc = .inCall i numPe rest) (hLive : Live w.board.toPeSet s.mail)
    (hj : w.board.IsSecondary j) :
    CallInv w s₀
      { s with
        mail := { s.mail with pe := Function.update s.mail.pe j (s.mail.pe j).step }
        status := secondaryStatus w s j } i numPe rest c prev test done := by
  by_cases hRunning : ∃ r a, (s.mail.pe j).pc = .running r a
  · obtain ⟨r, a, hpc⟩ := hRunning
    exact h.secondary_inside hAt hLive hj hpc
  · exact h.secondary_outside fun r a hpc => hRunning ⟨r, a, hpc⟩

end Call

theorem suiteInv_secondary (h : SuiteInv w s₀ s) (hStep : suiteStep w s (.secondary j) = some t) :
    SuiteInv w s₀ t := by
  obtain ⟨mail, hMail, rfl⟩ := Option.map_eq_some_iff.mp hStep
  refine ⟨live_step h.live hMail, ?_⟩
  cases mailStepped_of_step hMail with
  | moved hj =>
    rcases h.point with ⟨hIdle, hPoint⟩ | ⟨i, numPe, rest, c, prev, test, done, hpc, hCall⟩
    · refine Or.inl ⟨hIdle, ?_⟩
      rw [secondaryStatus_idle h.live hIdle hj]
      exact hPoint
    · exact Or.inr ⟨i, numPe, rest, c, prev, test, done, hpc, hCall.secondary hpc h.live hj⟩

end Secondary

/-! ## Steps of the primary -/

theorem executed_succ (i : Nat) :
    executed w s₀ (i + 1) = executeStep w.env (executed w s₀ i) i := by
  rw [executed, List.range_succ, List.foldl_append]
  rfl

theorem executed_length (i : Nat) : (executed w s₀ i).tests.length = s₀.tests.length := by
  induction i with
  | zero => rfl
  | succ i ih => rw [executed_succ, executeStep_length, ih]

section Primary

variable {s t : SuiteSys}

theorem SuiteInv.outside (h : SuiteInv w s₀ s) (hpc : ∀ i numPe rest, s.pc ≠ .inCall i numPe rest) :
    s.mail.primary = .idle ∧ PointInv w s₀ s.status s.exec s.pc := by
  rcases h.point with hPoint | ⟨i, numPe, rest, -, -, -, -, hIn, -⟩
  · exact hPoint
  · exact absurd hIn (hpc i numPe rest)

theorem SuiteInv.inside {i numPe : Nat} {rest : List Action} (h : SuiteInv w s₀ s)
    (hpc : s.pc = .inCall i numPe rest) :
    ∃ c prev test done, CallInv w s₀ s i numPe rest c prev test done := by
  rcases h.point with ⟨-, hPoint⟩ | ⟨i', numPe', rest', c, prev, test, done, hIn, hCall⟩
  · rw [hpc] at hPoint
    exact hPoint.elim
  · rw [hpc] at hIn
    cases hIn
    exact ⟨c, prev, test, done, hCall⟩

/-- A test is chosen, or left out. -/
theorem choose_inv {i : Nat} {status : Nat → BitVec 32} {exec : ExecState} {test : SdeiTestDesc}
    (hRecorded : Recorded w s₀ exec i) (hHolding : Holding w status (statusAfter w i []))
    (hFound : exec.tests[i]? = some test) :
    PointInv w s₀ status exec
      (if runTest exec.control exec.tests i test then
        .body i (if test.allPe then w.board.numPe else 1) (w.testFn i)
      else .record i sdeiTestSkip false) := by
  split
  · rename_i hRuns
    exact ⟨test, [], ⟨hRecorded, hFound, hRuns, rfl⟩, rfl, hHolding⟩
  · rename_i hRuns
    exact ⟨hRecorded, test, hFound, eq_false_of_ne_true hRuns, rfl⟩

/-- What is recorded is what a round of the suite in sequence records. -/
theorem record_inv {i : Nat} {exec : ExecState} {test : SdeiTestDesc} {result : BitVec 32}
    {ran : Bool} (hRecorded : Recorded w s₀ exec i) (hFound : exec.tests[i]? = some test)
    (hRuns : runTest exec.control exec.tests i test = ran)
    (hResult : result = if ran then endStatus w.env i test else sdeiTestSkip) :
    ExecState.mk (exec.tests.set i { test with status := result })
        (logTestResult exec.control result)
        (if ran then exec.called ++ [(i, result)] else exec.called) =
      executed w s₀ (i + 1) := by
  rw [executed_succ, ← hRecorded.exec]
  simp only [executeStep, hFound, hRuns]
  subst hResult
  cases ran with
  | true => rfl
  | false => rfl

/-- The status of the PE that the poll is at. -/
theorem Holding.polled {status held : Nat → BitVec 32} {j : Nat} {test : SdeiTestDesc}
    (h : Holding w status held)
    (hj : j < (pollingOf w.board.numPe (numPeOf w.env test)).numPe) : status j = held j := by
  rw [pollingOf_numPe] at hj
  exact h j hj

theorem Holding.setStatus {status : Nat → BitVec 32} {i : Nat} {done : List Action}
    (h : Holding w status (statusAfter w i done)) (v : BitVec 32) :
    Holding w (Function.update status w.board.myIndex v)
      (statusAfter w i (done ++ [.setStatus v])) := by
  intro k hk
  rw [statusAfter_concat, Action.apply]
  by_cases hMy : k = w.board.myIndex
  · subst hMy
    rw [Function.update_self, Function.update_self]
  · rw [Function.update_of_ne hMy, Function.update_of_ne hMy]
    exact h k hk

/-! ### Calls -/

/-- At the start of a call no secondary has executed it. -/
theorem invoke_inv {i numPe : Nat} {rest done : List Action} {c : Call} {test : SdeiTestDesc}
    (hLive : Live w.board.toPeSet s.mail) (hIdle : s.mail.primary = .idle)
    (hRunning : Running w s₀ s.exec i numPe test)
    (hParts : w.testFn i = done ++ .executeOnAll c :: rest)
    (hHolding : Holding w s.status (statusAfter w i done)) :
    CallInv w s₀
      { s with
        mail := { s.mail with primary := .runOwn c, calls := s.mail.calls ++ [c] }
        pc := .inCall i numPe rest } i numPe rest c s.mail.calls test done where
  running := hRunning
  parts := hParts
  calls := rfl
  own := by
    rw [if_pos rfl]
    exact hHolding _ w.board.myIndex_lt
  before := fun k hk _ => hHolding k ((w.board.isSecondary_iff k).mp hk).1
  after := by
    intro k hk hAll
    have hDone := (hLive.inv.exactlyOnce.returned hIdle k hk).2.2
    rw [hDone] at hAll
    simp at hAll

theorem primaryStep_calls {P : PeSet} {m m' : MailState} (h : mailStep P m .primary = some m') :
    m'.calls = m.calls ∧ ∀ c, m'.primary ≠ .runOwn c := by
  cases mailStepped_of_step h with
  | ranOwn | passedOwn | turned | returned | storedArg | storedPayload | acknowledged =>
    exact ⟨rfl, fun c hEq => by cases hEq⟩
  | spun hpc hBusy =>
    refine ⟨rfl, fun c hEq => ?_⟩
    rw [hpc] at hEq
    cases hEq

/-- The call that the primary executes itself is the last one. -/
theorem runOwn_eq {P : PeSet} {m : MailState} {c c' : Call} {prev : List Call} (hInv : Inv P m)
    (hpc : m.primary = .runOwn c') (hCalls : m.calls = prev ++ [c]) : c' = c := by
  simp only [Inv, hpc] at hInv
  obtain ⟨done, hCall, -⟩ := hInv
  have hSame := List.append_inj' (hCall.calls.symm.trans hCalls) rfl
  exact List.singleton_inj.mp hSame.2

/-- A step of the primary inside a call. -/
theorem CallInv.primary {i numPe : Nat} {rest done : List Action} {c : Call} {prev : List Call}
    {test : SdeiTestDesc} (h : CallInv w s₀ s i numPe rest c prev test done)
    (hMail : mailStep w.board.toPeSet s.mail .primary = some t.mail) (hExec : t.exec = s.exec)
    (hOwn : t.status w.board.myIndex =
      statusAfter w i (done ++ [.executeOnAll c]) w.board.myIndex)
    (hOthers : ∀ k, k ≠ w.board.myIndex → t.status k = s.status k) :
    CallInv w s₀ t i numPe rest c prev test done := by
  obtain ⟨hCalls, hNotOwn⟩ := primaryStep_calls hMail
  have hFinished := executeOnAllStep_finished hMail
  refine ⟨hExec ▸ h.running, h.parts, hCalls.trans h.calls, ?_, fun k hk hPrev => ?_,
    fun k hk hAll => ?_⟩
  · rw [if_neg (hNotOwn c)]
    exact hOwn
  · rw [hFinished] at hPrev
    rw [hOthers k ((w.board.isSecondary_iff k).mp hk).2]
    exact h.before k hk hPrev
  · rw [hFinished] at hAll
    rw [hOthers k ((w.board.isSecondary_iff k).mp hk).2]
    exact h.after k hk hAll

/-- When the call has returned, every PE has set its status. -/
theorem CallInv.returned {i numPe : Nat} {rest done : List Action} {c : Call} {prev : List Call}
    {test : SdeiTestDesc} (h : CallInv w s₀ s i numPe rest c prev test done)
    (hLive : Live w.board.toPeSet s.mail) (hIdle : s.mail.primary = .idle) :
    Holding w s.status (statusAfter w i (done ++ [.executeOnAll c])) := by
  intro k hk
  by_cases hMy : k = w.board.myIndex
  · have hOwn := h.own
    have hNot : s.mail.primary ≠ .runOwn c := by
      rw [hIdle]
      exact fun hEq => by cases hEq
    rw [if_neg hNot] at hOwn
    rw [hMy]
    exact hOwn
  · have hSecondary := (w.board.isSecondary_iff k).mpr ⟨hk, hMy⟩
    have hDone := (hLive.inv.exactlyOnce.returned hIdle k hSecondary).2.2
    exact h.after k hSecondary (hDone.trans h.calls)

theorem inCall_inv {i numPe : Nat} {rest : List Action} (h : SuiteInv w s₀ s)
    (hpc : s.pc = .inCall i numPe rest) (hStep : primarySuiteStep w s = some t) :
    SuiteInv w s₀ t := by
  obtain ⟨c, prev, test, done, hCall⟩ := h.inside hpc
  simp only [primarySuiteStep, hpc] at hStep
  have hOwnAfter : (∀ c', s.mail.primary ≠ .runOwn c') → s.status w.board.myIndex =
      statusAfter w i (done ++ [.executeOnAll c]) w.board.myIndex := by
    intro hNot
    have hOwn := hCall.own
    rw [if_neg (hNot c)] at hOwn
    exact hOwn
  split at hStep
  · rename_i hIdle
    cases hStep
    refine ⟨h.live, Or.inl ⟨hIdle, test, done ++ [.executeOnAll c], hCall.running, ?_,
      hCall.returned h.live hIdle⟩⟩
    rw [hCall.parts, List.append_assoc]
    rfl
  · rename_i c' hRunOwn
    obtain ⟨mail, hMail, rfl⟩ := Option.map_eq_some_iff.mp hStep
    obtain rfl : c' = c := runOwn_eq h.live.inv hRunOwn hCall.calls
    refine ⟨live_step h.live hMail, Or.inr ⟨i, numPe, rest, c', prev, test, done, rfl,
      hCall.primary hMail rfl ?_ fun k hk => payloadStatus_ne hk⟩⟩
    have hOwn := hCall.own
    rw [if_pos hRunOwn] at hOwn
    dsimp only
    rw [payloadStatus_self, statusAfter_call hCall.parts, hOwn]
  · rename_i hNotIdle hNotOwn
    obtain ⟨mail, hMail, rfl⟩ := Option.map_eq_some_iff.mp hStep
    exact ⟨live_step h.live hMail, Or.inr ⟨i, numPe, rest, c, prev, test, done, rfl,
      hCall.primary hMail rfl (hOwnAfter hNotOwn) fun k _ => rfl⟩⟩

/-! ### Every step -/

theorem suiteInv_primary (h : SuiteInv w s₀ s) (hStep : suiteStep w s .primary = some t) :
    SuiteInv w s₀ t := by
  rw [suiteStep] at hStep
  cases hpc : s.pc with
  | inCall i numPe rest => exact inCall_inv h hpc hStep
  | head i =>
    obtain ⟨hIdle, hPoint⟩ := h.outside fun _ _ _ hIn => by rw [hpc] at hIn; cases hIn
    rw [hpc] at hPoint
    obtain ⟨hLe, hExec⟩ := hPoint
    simp only [primarySuiteStep, hpc] at hStep
    cases hStep
    refine ⟨h.live, Or.inl ⟨hIdle, ?_⟩⟩
    have hLength : s.exec.tests.length = s₀.tests.length := by rw [hExec, executed_length]
    dsimp only
    split
    · rename_i hLt
      exact ⟨⟨hLength ▸ hLt, hExec⟩, fun k hk => absurd hk (Nat.not_lt_zero k)⟩
    · rename_i hEnd
      have hAll : i = s₀.tests.length := by omega
      rw [hAll] at hExec
      exact hExec
  | init i j =>
    obtain ⟨hIdle, hPoint⟩ := h.outside fun _ _ _ hIn => by rw [hpc] at hIn; cases hIn
    rw [hpc] at hPoint
    obtain ⟨hRecorded, hBefore⟩ := hPoint
    simp only [primarySuiteStep, hpc] at hStep
    split at hStep
    · cases hStep
      refine ⟨h.live, Or.inl ⟨hIdle, hRecorded, fun k hk hLt => ?_⟩⟩
      dsimp only
      by_cases hkj : k = j
      · rw [hkj, Function.update_self]
      · rw [Function.update_of_ne hkj]
        exact hBefore k (by omega) hLt
    · rename_i hEnd
      cases hStep
      exact ⟨h.live, Or.inl ⟨hIdle, hRecorded, fun k hk => hBefore k (by omega) hk⟩⟩
  | choose i =>
    obtain ⟨hIdle, hPoint⟩ := h.outside fun _ _ _ hIn => by rw [hpc] at hIn; cases hIn
    rw [hpc] at hPoint
    obtain ⟨hRecorded, hHolding⟩ := hPoint
    simp only [primarySuiteStep, hpc] at hStep
    obtain ⟨test, hFound, rfl⟩ := Option.map_eq_some_iff.mp hStep
    have hChoice := choose_inv hRecorded hHolding hFound
    refine ⟨?_, Or.inl ?_⟩
    · split <;> exact h.live
    · split
      · rename_i hRuns
        rw [if_pos hRuns] at hChoice
        exact ⟨hIdle, hChoice⟩
      · rename_i hRuns
        rw [if_neg hRuns] at hChoice
        exact ⟨hIdle, hChoice⟩
  | body i numPe rest =>
    obtain ⟨hIdle, hPoint⟩ := h.outside fun _ _ _ hIn => by rw [hpc] at hIn; cases hIn
    rw [hpc] at hPoint
    obtain ⟨test, done, hRunning, hParts, hHolding⟩ := hPoint
    cases rest with
    | nil =>
      simp only [primarySuiteStep, hpc] at hStep
      cases hStep
      rw [List.append_nil] at hParts
      refine ⟨h.live, Or.inl ⟨hIdle, test, hRunning, hParts ▸ hHolding, ?_⟩⟩
      rw [hRunning.numPe, endStatus_eq]
    | cons action rest =>
      cases action with
      | setStatus v =>
        simp only [primarySuiteStep, hpc] at hStep
        cases hStep
        refine ⟨h.live, Or.inl ⟨hIdle, test, done ++ [.setStatus v], hRunning, ?_,
          hHolding.setStatus v⟩⟩
        rw [hParts, List.append_assoc]
        rfl
      | executeOnAll c =>
        simp only [primarySuiteStep, hpc] at hStep
        obtain ⟨mail, hMail, rfl⟩ := Option.map_eq_some_iff.mp hStep
        refine ⟨live_step h.live hMail, Or.inr
          ⟨i, numPe, rest, c, s.mail.calls, test, done, rfl, ?_⟩⟩
        cases mailStepped_of_step hMail with
        | invoked _ _ => exact invoke_inv h.live hIdle hRunning hParts hHolding
  | pollHead i numPe timeout =>
    obtain ⟨hIdle, hPoint⟩ := h.outside fun _ _ _ hIn => by rw [hpc] at hIn; cases hIn
    rw [hpc] at hPoint
    obtain ⟨test, hRunning, hHolding, hEnds⟩ := hPoint
    cases timeout with
    | zero =>
      simp only [primarySuiteStep, hpc] at hStep
      cases hStep
      exact ⟨h.live, Or.inl ⟨hIdle, hRunning.recorded, test, hRunning.found, hRunning.runs,
        polledStatus_zero.symm.trans hEnds⟩⟩
    | succ timeout =>
      simp only [primarySuiteStep, hpc] at hStep
      cases hStep
      exact ⟨h.live, Or.inl ⟨hIdle, test, hRunning, hHolding,
        (polledStatus_succ timeout).symm.trans hEnds⟩⟩
  | poll i numPe timeout j acc =>
    obtain ⟨hIdle, hPoint⟩ := h.outside fun _ _ _ hIn => by rw [hpc] at hIn; cases hIn
    rw [hpc] at hPoint
    obtain ⟨test, hRunning, hHolding, hEnds⟩ := hPoint
    simp only [primarySuiteStep, hpc] at hStep
    split at hStep
    · rename_i hj
      have hRead := hHolding.polled (hRunning.numPe ▸ hj)
      rw [hRead] at hStep
      split at hStep
      · rename_i hStop
        cases hStep
        exact ⟨h.live, Or.inl ⟨hIdle, hRunning.recorded, test, hRunning.found, hRunning.runs,
          (polledFrom_stop hj hStop).symm.trans hEnds⟩⟩
      · rename_i hStop
        cases hStep
        exact ⟨h.live, Or.inl ⟨hIdle, test, hRunning, hHolding,
          (polledFrom_next hj hStop).trans hEnds⟩⟩
    · rename_i hj
      rw [polledFrom_end hj] at hEnds
      split at hStep
      · rename_i hAtEnd
        cases hStep
        rw [if_pos hAtEnd] at hEnds
        exact ⟨h.live, Or.inl ⟨hIdle, hRunning.recorded, test, hRunning.found, hRunning.runs,
          hEnds⟩⟩
      · rename_i hAtEnd
        cases hStep
        rw [if_neg hAtEnd] at hEnds
        exact ⟨h.live, Or.inl ⟨hIdle, test, hRunning, hHolding, hEnds⟩⟩
  | record i result ran =>
    obtain ⟨hIdle, hPoint⟩ := h.outside fun _ _ _ hIn => by rw [hpc] at hIn; cases hIn
    rw [hpc] at hPoint
    obtain ⟨hRecorded, test, hFound, hRuns, hResult⟩ := hPoint
    simp only [primarySuiteStep, hpc, hFound, Option.map_some] at hStep
    cases hStep
    exact ⟨h.live, Or.inl ⟨hIdle, hRecorded.lt,
      record_inv hRecorded hFound hRuns hResult⟩⟩
  | ended =>
    simp only [primarySuiteStep, hpc] at hStep
    cases hStep

theorem suiteInv_step {l : SuiteLabel} (h : SuiteInv w s₀ s) (hStep : suiteStep w s l = some t) :
    SuiteInv w s₀ t := by
  cases l with
  | primary => exact suiteInv_primary h hStep
  | secondary j => exact suiteInv_secondary h hStep

end Primary

/-! ## The suite -/

/-- Before the first test: the secondaries are parked. -/
structure SuiteStart (w : SuiteWorld) (s : SuiteSys) : Prop where
  parked : Parked w.board.toPeSet s.mail
  pc : s.pc = .head 0

theorem SuiteStart.inv {s : SuiteSys} (h : SuiteStart w s) : SuiteInv w s.exec s := by
  refine ⟨h.parked.live, Or.inl ⟨h.parked.primary, ?_⟩⟩
  rw [h.pc]
  exact ⟨Nat.zero_le _, rfl⟩

/-- **The suite on all PEs.** In every interleaving, what is recorded when the suite comes to a
test is what the suite in sequence records before it, and at the end what it records of all
tests. -/
theorem suite_refines (w : SuiteWorld) (s t : SuiteSys) (ls : List SuiteLabel)
    (hStart : SuiteStart w s) (hRun : run (suiteStep w) s ls = some t) :
    (∀ i, t.pc = .head i → t.exec = executed w s.exec i) ∧
      (t.pc = .ended → t.exec = valTestExecute w.env s.exec) := by
  have hInv : SuiteInv w s.exec t :=
    run_invariant (fun _ _ _ h hStep => suiteInv_step h hStep) hStart.inv hRun
  constructor
  · intro i hpc
    obtain ⟨-, hPoint⟩ := hInv.outside fun _ _ _ hIn => by rw [hpc] at hIn; cases hIn
    rw [hpc] at hPoint
    exact hPoint.2
  · intro hpc
    obtain ⟨-, hPoint⟩ := hInv.outside fun _ _ _ hIn => by rw [hpc] at hIn; cases hIn
    rw [hpc] at hPoint
    exact hPoint

/-- The primary is the first of two PEs. -/
theorem twoPe_own_iff (j : Nat) : [(0 : BitVec 64), 1][j]? = some 0 ↔ j = 0 := by
  cases j with
  | zero => simp
  | succ j =>
    cases j with
    | zero => simp
    | succ j => simp

theorem twoPe_nonNull (c : Call) (h : .executeOnAll c ∈ [Action.executeOnAll ⟨0x1000, 0⟩]) :
    c.payload ≠ 0 := by
  rw [List.mem_singleton, Action.executeOnAll.injEq] at h
  rw [h]
  decide

/-- Two PEs and one test on all of them, which passes on both. -/
def twoPeSuite : SuiteWorld where
  board := ⟨⟨[0, 1], 0⟩, 0, Nat.two_pos, twoPe_own_iff⟩
  testFn := fun _ => [.executeOnAll ⟨0x1000, 0⟩]
  reported := fun _ _ _ => some sdeiTestPass
  nonNull := fun _ => twoPe_nonNull

def twoPeStart : SuiteSys where
  mail := parkedState
  status := fun _ => 0
  exec :=
    { tests := [⟨1, [0], sdeiTestPending, true, noDeps_terminated⟩]
      control := { flags := fun _ => BitVec.allOnes 64 } }
  pc := .head 0

theorem twoPeStart_start : SuiteStart twoPeSuite twoPeStart :=
  ⟨⟨rfl, rfl, fun _ _ => ⟨rfl, Or.inl rfl, rfl, rfl, rfl⟩⟩, rfl⟩

/-- The primary up to its wait, the secondary, and the primary to the end of the suite. -/
def twoPeSchedule : List SuiteLabel :=
  List.replicate 11 .primary ++ List.replicate 5 (.secondary 1) ++ List.replicate 10 .primary

/-- The suite of two PEs ends as in sequence. -/
theorem suite_refines_two :
    ∃ t, run (suiteStep twoPeSuite) twoPeStart twoPeSchedule = some t ∧ t.pc = .ended ∧
      t.exec = valTestExecute twoPeSuite.env twoPeStart.exec := by
  have hEnd : (run (suiteStep twoPeSuite) twoPeStart twoPeSchedule).map SuiteSys.pc =
      some .ended := by decide
  obtain ⟨t, ht, hpc⟩ := Option.map_eq_some_iff.mp hEnd
  exact ⟨t, ht, hpc, (suite_refines _ _ _ _ twoPeStart_start ht).2 hpc⟩

end EnterpriseAcs.Sdei
