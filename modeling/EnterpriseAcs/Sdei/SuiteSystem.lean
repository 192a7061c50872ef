import EnterpriseAcs.Sdei.Handshake
import EnterpriseAcs.Sdei.TestInfra

/-!
# The suite on the primary and the secondaries

`val_test_execute` runs on the primary. The secondaries are in their mailbox loops all the time,
and a payload writes the status of the PE that executes it to the shared memory that
`val_test_get_status` reads. The parties interleave at single accesses to a mailbox and to the
status of a PE.

* `suiteStep`: one step of the primary or of a secondary.
* `SuiteWorld.env`: the same suite with nothing between its steps.
* `running_cases`: a secondary runs a payload only while the primary waits for it.
-/

namespace EnterpriseAcs.Sdei

open Transition

/-! ## The system -/

/-- The PE table, with the entry of the primary. -/
structure PeBoard extends PeSet where
  myIndex : Nat
  myIndex_lt : myIndex < mpidrs.length
  own_iff : ∀ j, mpidrs[j]? = some my ↔ j = myIndex

/-- `val_pe_get_num()`. -/
def PeBoard.numPe (b : PeBoard) : Nat := b.mpidrs.length

/-- A part of a test function: it sets the status of the primary, or has all PEs execute a
payload. -/
inductive Action
  | setStatus (status : BitVec 32)
  | executeOnAll (c : Call)
  deriving DecidableEq, Repr

/-- The PEs, the parts of each test function, and the status that a payload sets on a PE, if it
does, in each invocation: the test, and the number of the part of its function. A payload is a
function of the suite, so its address is not null. -/
structure SuiteWorld where
  board : PeBoard
  testFn : Nat → List Action
  reported : Nat × Nat → Call → Nat → Option (BitVec 32)
  nonNull : ∀ i c, .executeOnAll c ∈ testFn i → c.payload ≠ 0

/-- The inner loop of `val_test_get_status`: its bound, how it takes a status in, when it returns,
and whether its end does. -/
structure Polling where
  numPe : Nat
  merge : BitVec 32 → BitVec 32 → BitVec 32
  stop : BitVec 32 → Bool
  atEnd : BitVec 32 → Bool

def pollingOf (peCount numPe : Nat) : Polling :=
  if numPe = 1 then
    ⟨peCount, fun _ v => v, fun status => status != sdeiTestPending, fun _ => false⟩
  else ⟨numPe, fun status v => status ||| v, hasFailBit, fun status => status == sdeiTestPass⟩

/-- Program points of `val_test_execute` and what it calls, for the test at index `i`. -/
inductive SuitePc
  | head (i : Nat)
  | init (i j : Nat)
  | choose (i : Nat)
  | body (i numPe : Nat) (rest : List Action)
  | inCall (i numPe : Nat) (rest : List Action)
  | pollHead (i numPe timeout : Nat)
  | poll (i numPe timeout j : Nat) (status : BitVec 32)
  | record (i : Nat) (status : BitVec 32) (ran : Bool)
  | ended
  deriving DecidableEq, Repr

/-- The mailboxes with their parties, the statuses in shared memory, and the table, control block
and history of `val_test_execute`. -/
structure SuiteSys where
  mail : MailState
  status : Nat → BitVec 32
  exec : ExecState
  pc : SuitePc

inductive SuiteLabel
  | primary
  | secondary (j : Nat)
  deriving DecidableEq, Repr

section Steps

variable (w : SuiteWorld)

/-- The test that the primary is at, and how many parts of its function have begun. -/
def SuiteWorld.place : SuitePc → Nat × Nat
  | .head i | .init i _ | .choose i => (i, 0)
  | .body i _ rest | .inCall i _ rest => (i, (w.testFn i).length - rest.length)
  | .pollHead i _ _ | .poll i _ _ _ _ | .record i _ _ => (i, (w.testFn i).length)
  | .ended => (0, 0)

/-- `val_test_pe_set_status` in a payload on PE `j`. -/
def payloadStatus (place : Nat × Nat) (c : Call) (j : Nat) (status : Nat → BitVec 32) :
    Nat → BitVec 32 :=
  match w.reported place c j with
  | some v => Function.update status j v
  | none => status

/-- The next step of the primary. -/
def primarySuiteStep (s : SuiteSys) : Option SuiteSys :=
  match s.pc with
  | .head i => some { s with pc := if i < s.exec.tests.length then .init i 0 else .ended }
  | .init i j =>
    if j < w.board.numPe then
      some { s with status := Function.update s.status j sdeiTestPending, pc := .init i (j + 1) }
    else some { s with pc := .choose i }
  | .choose i =>
    s.exec.tests[i]?.map fun test =>
      if runTest s.exec.control s.exec.tests i test then
        { s with pc := .body i (if test.allPe then w.board.numPe else 1) (w.testFn i) }
      else { s with pc := .record i sdeiTestSkip false }
  | .body i numPe [] => some { s with pc := .pollHead i numPe testTimeout }
  | .body i numPe (.setStatus v :: rest) =>
    some { s with
      status := Function.update s.status w.board.myIndex v
      pc := .body i numPe rest }
  | .body i numPe (.executeOnAll c :: rest) =>
    (mailStep w.board.toPeSet s.mail (.invoke c)).map fun mail =>
      { s with mail := mail, pc := .inCall i numPe rest }
  | .inCall i numPe rest =>
    match s.mail.primary with
    | .idle => some { s with pc := .body i numPe rest }
    | .runOwn c =>
      (mailStep w.board.toPeSet s.mail .primary).map fun mail =>
        { s with
          mail := mail
          status := payloadStatus w (w.place s.pc) c w.board.myIndex s.status }
    | _ => (mailStep w.board.toPeSet s.mail .primary).map fun mail => { s with mail := mail }
  | .pollHead i numPe timeout =>
    match timeout with
    | 0 => some { s with pc := .record i sdeiTestTimeout true }
    | timeout + 1 => some { s with pc := .poll i numPe timeout 0 sdeiTestPass }
  | .poll i numPe timeout j status =>
    let p := pollingOf w.board.numPe numPe
    if j < p.numPe then
      let status := p.merge status (s.status j)
      if p.stop status then some { s with pc := .record i status true }
      else some { s with pc := .poll i numPe timeout (j + 1) status }
    else if p.atEnd status then some { s with pc := .record i status true }
    else some { s with pc := .pollHead i numPe timeout }
  | .record i status ran =>
    s.exec.tests[i]?.map fun test =>
      { s with
        exec :=
          { tests := s.exec.tests.set i { test with status := status }
            control := logTestResult s.exec.control status
            called := if ran then s.exec.called ++ [(i, status)] else s.exec.called }
        pc := .head (i + 1) }
  | .ended => none

/-- The status of PE `j` after a step of it: a payload that ends has set it. -/
def secondaryStatus (s : SuiteSys) (j : Nat) : Nat → BitVec 32 :=
  match (s.mail.pe j).pc with
  | .running r a => payloadStatus w (w.place s.pc) ⟨r, a⟩ j s.status
  | _ => s.status

def suiteStep (s : SuiteSys) : SuiteLabel → Option SuiteSys
  | .primary => primarySuiteStep w s
  | .secondary j =>
    (mailStep w.board.toPeSet s.mail (.secondary j)).map fun mail =>
      { s with mail := mail, status := secondaryStatus w s j }

/-! ## The suite in sequence -/

/-- The statuses after a part of a test function. -/
def Action.apply (place : Nat × Nat) (status : Nat → BitVec 32) : Action → Nat → BitVec 32
  | .setStatus v => Function.update status w.board.myIndex v
  | .executeOnAll c => fun j => (w.reported place c j).getD (status j)

/-- The statuses after the first parts of the function of the test at index `i`. -/
def statusAfter (i : Nat) (actions : List Action) : Nat → BitVec 32 :=
  (actions.zipIdx 1).foldl (fun status part => part.1.apply w (i, part.2) status)
    fun _ => sdeiTestPending

/-- The machine on which every poll sees what the test function has left. -/
def SuiteWorld.env : TestEnv where
  peCount := w.board.numPe
  seen := fun i _ j => statusAfter w i (w.testFn i) j

/-- The first `i` tests. -/
def executed (s : ExecState) (i : Nat) : ExecState := (List.range i).foldl (executeStep w.env) s

end Steps

/-! ## The PEs -/

variable {w : SuiteWorld}

theorem PeBoard.isSecondary_iff (b : PeBoard) (j : Nat) :
    b.toPeSet.IsSecondary j ↔ j < b.numPe ∧ j ≠ b.myIndex := by
  rw [PeSet.IsSecondary, PeBoard.numPe, ne_eq, ne_eq, b.own_iff]

/-- A secondary runs a payload only while the primary waits for it, and then it is the payload of
the call. -/
theorem running_cases {P : PeSet} {s : MailState} (h : Inv P s) {j : Nat} (hj : P.IsSecondary j)
    {r a : BitVec 64} (hpc : (s.pe j).pc = .running r a) :
    ∃ c done, s.primary = .wait c j ∧ s.calls = done ++ [c] ∧ (⟨r, a⟩ : Call) = c ∧
      (s.pe j).finished = done := by
  have hRest : ∀ {done}, ¬ (s.pe j).Rest done := by
    intro done hRest
    rcases hRest with hQuiet | hBooting
    · rcases hQuiet.pc with hLoad | hLoad
      · rw [hpc] at hLoad
        cases hLoad
      · rw [hpc] at hLoad
        cases hLoad
    · have hClear := hBooting.pc
      rw [hpc] at hClear
      cases hClear
  unfold Inv at h
  cases hPrimary : s.primary with
  | idle =>
    simp only [hPrimary] at h
    exact absurd (h j hj) hRest
  | runOwn c | loop c k =>
    simp only [hPrimary] at h
    obtain ⟨done, -, hSwept⟩ := h
    exact absurd (hSwept j hj) hRest
  | storeArg c k | storePayload c k =>
    simp only [hPrimary] at h
    obtain ⟨done, -, hSwept, -⟩ := h
    exact absurd (hSwept j hj) hRest
  | wait c k =>
    simp only [hPrimary] at h
    obtain ⟨done, hCall, hSwept, -, hServing⟩ := h
    by_cases hjk : j = k
    · subst hjk
      rcases hServing with hBusy | hQuiet
      · refine ⟨c, done, rfl, hCall.calls, ?_⟩
        cases hBusy.phase with
        | polling hLoad hStarted hFinished =>
          rcases hLoad with hLoad | hLoad
          · rw [hpc] at hLoad
            cases hLoad
          · rw [hpc] at hLoad
            cases hLoad
        | taken hLoad hStarted hFinished =>
          rcases hLoad with hLoad | hLoad
          · rw [hpc] at hLoad
            cases hLoad
          · rw [hpc] at hLoad
            cases hLoad
        | running hRunning hStarted hFinished =>
          rw [hpc] at hRunning
          cases hRunning
          exact ⟨rfl, hFinished⟩
        | ack hAck hStarted hFinished =>
          rw [hpc] at hAck
          cases hAck
      · exact absurd (Or.inl hQuiet) hRest
    · exact absurd (hSwept j hj hjk) hRest

end EnterpriseAcs.Sdei
