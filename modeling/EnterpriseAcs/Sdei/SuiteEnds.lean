import EnterpriseAcs.Library.Fairness
import EnterpriseAcs.Sdei.SuiteRefines

/-!
# The suite comes to its end

The primary can move until the suite has ended. It is held up only where it waits for the mailbox
of a PE to be cleared, and each step of this PE brings that nearer; every other step of the primary
brings the end of the suite nearer.

* `suite_helps`: which party has to move, and what its step does.
* `suite_ends`: a bound on the rounds in which every PE makes a step.
-/

namespace EnterpriseAcs.Sdei

open Transition

variable {w : SuiteWorld} {s₀ : ExecState}

/-! ## What is left to do -/

section Left

variable (w : SuiteWorld)

/-- The steps of the primary that a call takes when no PE holds it up, its return among them. -/
def callLeft (numPe : Nat) : PrimaryPc → Nat
  | .idle => 1
  | .runOwn _ => 4 * numPe + 3
  | .loop _ i => 4 * (numPe - i) + 2
  | .storeArg _ i => 4 * (numPe - i) + 1
  | .storePayload _ i => 4 * (numPe - i)
  | .wait _ i => 4 * (numPe - i) - 1

/-- The steps of the parts of a test function. -/
def bodyLeft (numPe : Nat) : List Action → Nat
  | [] => 1
  | .setStatus _ :: rest => 1 + bodyLeft numPe rest
  | .executeOnAll _ :: rest => 4 * numPe + 4 + bodyLeft numPe rest

/-- The steps of the polls, the one that records the status among them. -/
def pollLeft (numPe timeout : Nat) : Nat := timeout * (numPe + 2) + 2

/-- The steps of a test. -/
def testLeft (i : Nat) : Nat :=
  w.board.numPe + 3 + bodyLeft w.board.numPe (w.testFn i) + pollLeft w.board.numPe testTimeout

/-- The steps of `m` tests, the first at index `i`. -/
def testsLeft : Nat → Nat → Nat
  | 0, _ => 1
  | m + 1, i => testLeft w i + testsLeft m (i + 1)

/-- The steps of the primary that the suite takes when no PE holds it up; `numTests` is the size
of the table. -/
def stepsLeft (numTests : Nat) (primary : PrimaryPc) : SuitePc → Nat
  | .head i => testsLeft w (numTests - i) i
  | .init i j =>
    w.board.numPe - j + 2 + bodyLeft w.board.numPe (w.testFn i) +
      pollLeft w.board.numPe testTimeout + testsLeft w (numTests - (i + 1)) (i + 1)
  | .choose i =>
    1 + bodyLeft w.board.numPe (w.testFn i) + pollLeft w.board.numPe testTimeout +
      testsLeft w (numTests - (i + 1)) (i + 1)
  | .body i _ rest =>
    bodyLeft w.board.numPe rest + pollLeft w.board.numPe testTimeout +
      testsLeft w (numTests - (i + 1)) (i + 1)
  | .inCall i _ rest =>
    callLeft w.board.numPe primary + bodyLeft w.board.numPe rest +
      pollLeft w.board.numPe testTimeout + testsLeft w (numTests - (i + 1)) (i + 1)
  | .pollHead i _ timeout =>
    pollLeft w.board.numPe timeout + testsLeft w (numTests - (i + 1)) (i + 1)
  | .poll i _ timeout j _ =>
    w.board.numPe - j + 1 + pollLeft w.board.numPe timeout +
      testsLeft w (numTests - (i + 1)) (i + 1)
  | .record i _ _ => 1 + testsLeft w (numTests - (i + 1)) (i + 1)
  | .ended => 0

/-- How many steps the PE that the primary waits for may still need to clear its mailbox. -/
def heldUp (s : MailState) : Nat :=
  match s.primary with
  | .wait _ i => if (s.pe i).mailbox.payload = 0 then 0 else (s.pe i).rank + 1
  | _ => 0

/-- The measure of the suite. -/
def suiteMeasure (s : SuiteSys) : Nat :=
  7 * stepsLeft w s.exec.tests.length s.mail.primary s.pc + heldUp s.mail

/-- The party that has to move. -/
def suiteHelp (s : SuiteSys) : SuiteLabel :=
  match s.mail.primary with
  | .wait _ i => if (s.mail.pe i).mailbox.payload = 0 then .primary else .secondary i
  | _ => .primary

end Left

/-! ## Steps of a call -/

section Call

variable {P : PeSet} {m m' : MailState} {c : Call} {i : Nat}

theorem PeState.rank_le (p : PeState) : p.rank ≤ 5 := by
  unfold PeState.rank
  split
  case h_1 => split <;> omega
  all_goals omega

theorem heldUp_le (m : MailState) : heldUp m ≤ 6 := by
  unfold heldUp
  split
  · rename_i c i hWait
    have hRank := (m.pe i).rank_le
    split <;> omega
  · exact Nat.zero_le _

/-- Without a wait no PE holds the primary up. -/
theorem heldUp_of_not_wait (h : ∀ c i, m.primary ≠ .wait c i) : heldUp m = 0 := by
  unfold heldUp
  split
  · rename_i c i hWait
    exact absurd hWait (h c i)
  · rfl

/-- A step of the primary that is no spin. -/
theorem callStep_less {numPe : Nat} (hNum : numPe = P.mpidrs.length)
    (hGoes : ∀ c i, m.primary = .wait c i → (m.pe i).mailbox.payload = 0)
    (hInv : ∀ c i, m.primary = .storeArg c i ∨ m.primary = .storePayload c i ∨
      m.primary = .wait c i → i < numPe) (h : mailStep P m .primary = some m') :
    7 * callLeft numPe m'.primary + heldUp m' < 7 * callLeft numPe m.primary + heldUp m := by
  have hSmall := heldUp_le m'
  have hFewer : callLeft numPe m'.primary < callLeft numPe m.primary := by
    cases mailStepped_of_step h with
    | ranOwn hpc =>
      rw [hpc]
      simp only [callLeft]
      omega
    | @passedOwn c j hpc hOwn =>
      have hj : j < numPe := by
        rw [hNum]
        exact (List.getElem?_eq_some_iff.mp hOwn).1
      rw [hpc]
      simp only [callLeft]
      omega
    | turned hpc hj =>
      rw [hpc]
      simp only [callLeft]
      omega
    | returned hpc hEnd =>
      rw [hpc]
      simp only [callLeft]
      omega
    | @storedArg c j hpc =>
      rw [hpc]
      simp only [callLeft]
      omega
    | @storedPayload c j hpc =>
      have hj := hInv c j (Or.inr (Or.inl hpc))
      rw [hpc]
      simp only [callLeft]
      omega
    | @acknowledged c j hpc hZero =>
      have hj := hInv c j (Or.inr (Or.inr hpc))
      rw [hpc]
      simp only [callLeft]
      omega
    | spun hpc hBusy => exact absurd (hGoes _ _ hpc) hBusy
  omega

/-- A PE that the primary waits for is busy with the call until its mailbox is cleared. -/
theorem Live.waiting (hLive : Live P m) (hWait : m.primary = .wait c i) :
    P.IsSecondary i ∧ c.payload ≠ 0 ∧ ∃ done,
      ((m.pe i).mailbox.payload ≠ 0 ∧ (m.pe i).Busy c done) ∨
        ((m.pe i).mailbox.payload = 0 ∧ (m.pe i).Quiet (done ++ [c])) := by
  have hInv := hLive.inv
  simp only [Inv, hWait] at hInv
  obtain ⟨done, hCall, -, hi, hServing⟩ := hInv
  refine ⟨hi, hCall.nonNull, done, ?_⟩
  rcases hServing with hBusy | hQuiet
  · refine Or.inl ⟨?_, hBusy⟩
    rw [hBusy.mailbox]
    exact hCall.nonNull
  · exact Or.inr ⟨hQuiet.payload, hQuiet⟩

/-- A step of a busy PE. -/
theorem PeState.Busy.rank_step {p : PeState} {done : List Call} (h : p.Busy c done)
    (hc : c.payload ≠ 0) :
    (if p.step.mailbox.payload = 0 then 0 else p.step.rank + 1) < p.rank + 1 := by
  obtain ⟨hBox, -, hPhase⟩ := h
  cases hPhase with
  | polling hpc _ _ =>
    rcases hpc with hpc | hpc
    · simp only [PeState.step, PeState.rank, hpc, hBox, if_neg hc]
      omega
    · simp only [PeState.step, PeState.rank, hpc, hBox, if_neg hc, if_true]
      omega
  | taken hpc _ _ =>
    rcases hpc with hpc | hpc
    · simp only [PeState.step, PeState.rank, hpc, hBox, if_neg hc]
      omega
    · simp only [PeState.step, PeState.rank, hpc, hBox, if_neg hc]
      omega
  | running hpc _ _ =>
    simp only [PeState.step, PeState.rank, hpc, hBox, if_neg hc]
    omega
  | ack hpc _ _ =>
    simp only [PeState.step, hpc, if_true]
    omega

end Call

/-! ## Every step -/

section Steps

variable {s t : SuiteSys}

theorem suiteHelp_of_not_wait (h : ∀ c i, s.mail.primary ≠ .wait c i) :
    suiteHelp s = .primary := by
  unfold suiteHelp
  split
  · rename_i c i hWait
    exact absurd hWait (h c i)
  · rfl

/-- A step of a secondary brings the suite on, or does not matter to it. -/
theorem secondary_helps {j : Nat} (hInv : SuiteInv w s₀ s)
    (hStep : suiteStep w s (.secondary j) = some t) :
    Helps (suiteMeasure w) suiteHelp s (.secondary j) t := by
  obtain ⟨mail, hMail, rfl⟩ := Option.map_eq_some_iff.mp hStep
  cases mailStepped_of_step hMail with
  | moved hj =>
    by_cases hWait : ∃ c i, s.mail.primary = .wait c i
    · obtain ⟨c, i, hWait⟩ := hWait
      obtain ⟨hi, hc, done, hState⟩ := hInv.live.waiting hWait
      by_cases hij : i = j
      · subst hij
        rcases hState with ⟨hBusyBox, hBusy⟩ | ⟨hZero, hQuiet⟩
        · refine Or.inl ?_
          have hRank := hBusy.rank_step hc
          simp only [suiteMeasure, heldUp, hWait, Function.update_self, if_neg hBusyBox]
          omega
        · have hStay : (s.mail.pe i).step.mailbox.payload = 0 := by
            rcases PeState.Rest.step (Or.inl hQuiet) with hNext | hNext
            · exact hNext.payload
            · exact absurd hNext.done (by simp)
          refine Or.inr ⟨?_, ?_, ?_⟩
          · simp only [suiteMeasure, heldUp, hWait, Function.update_self, if_pos hZero,
              if_pos hStay]
          · simp only [suiteHelp, hWait, Function.update_self, if_pos hZero, if_pos hStay]
          · simp only [suiteHelp, hWait, if_pos hZero]
            exact fun hEq => by cases hEq
      · have hPe : Function.update s.mail.pe j (s.mail.pe j).step i = s.mail.pe i :=
          Function.update_of_ne hij _ _
        refine Or.inr ⟨?_, ?_, ?_⟩
        · simp only [suiteMeasure, heldUp, hWait, hPe]
        · simp only [suiteHelp, hWait, hPe]
        · simp only [suiteHelp, hWait]
          intro hEq
          split at hEq
          · cases hEq
          · cases hEq
            exact hij rfl
    · have hNot : ∀ c i, s.mail.primary ≠ .wait c i := fun c i h => hWait ⟨c, i, h⟩
      refine Or.inr ⟨?_, ?_, ?_⟩
      · simp only [suiteMeasure]
        rw [heldUp_of_not_wait hNot, heldUp_of_not_wait]
        exact hNot
      · rw [suiteHelp_of_not_wait hNot]
        exact suiteHelp_of_not_wait hNot
      · rw [suiteHelp_of_not_wait hNot]
        exact fun hEq => by cases hEq

/-- A spin of the primary changes nothing. -/
theorem spin_same {c : Call} {j : Nat} {i numPe : Nat} {rest : List Action}
    (hpc : s.pc = .inCall i numPe rest) (hWait : s.mail.primary = .wait c j)
    (hBusy : (s.mail.pe j).mailbox.payload ≠ 0) (hStep : suiteStep w s .primary = some t) :
    t = s := by
  simp only [suiteStep, primarySuiteStep, hpc, hWait, mailStep, executeOnAllStep, if_neg hBusy,
    Option.map_some, Option.some_inj] at hStep
  rw [← hStep, ← hpc]

/-- A step inside a call that is no spin. -/
theorem inCall_less {i numPe : Nat} {rest : List Action} (hInv : SuiteInv w s₀ s)
    (hpc : s.pc = .inCall i numPe rest)
    (hGoes : ∀ c j, s.mail.primary = .wait c j → (s.mail.pe j).mailbox.payload = 0)
    (hStep : primarySuiteStep w s = some t) : suiteMeasure w t < suiteMeasure w s := by
  have hIndex : ∀ c j, s.mail.primary = .storeArg c j ∨ s.mail.primary = .storePayload c j ∨
      s.mail.primary = .wait c j → j < w.board.numPe := by
    intro c j hAt
    have hLive := hInv.live.inv
    rcases hAt with hAt | hAt | hAt
    · simp only [Inv, hAt] at hLive
      obtain ⟨done, -, -, hj⟩ := hLive
      exact hj.1
    · simp only [Inv, hAt] at hLive
      obtain ⟨done, -, -, hj, -⟩ := hLive
      exact hj.1
    · simp only [Inv, hAt] at hLive
      obtain ⟨done, -, -, hj, -⟩ := hLive
      exact hj.1
  simp only [primarySuiteStep, hpc] at hStep
  split at hStep
  · rename_i hIdle
    cases hStep
    simp only [suiteMeasure, stepsLeft, hpc, hIdle, callLeft]
    omega
  · obtain ⟨mail, hMail, rfl⟩ := Option.map_eq_some_iff.mp hStep
    have hLess := callStep_less (rfl : w.board.numPe = _) hGoes hIndex hMail
    simp only [suiteMeasure, stepsLeft, hpc]
    omega
  · obtain ⟨mail, hMail, rfl⟩ := Option.map_eq_some_iff.mp hStep
    have hLess := callStep_less (rfl : w.board.numPe = _) hGoes hIndex hMail
    simp only [suiteMeasure, stepsLeft, hpc]
    omega

theorem testsLeft_head {numTests i : Nat} (h : i < numTests) :
    testsLeft w (numTests - i) i =
      testLeft w i + testsLeft w (numTests - (i + 1)) (i + 1) := by
  obtain ⟨m, hm⟩ : ∃ m, numTests - i = m + 1 := ⟨numTests - i - 1, by omega⟩
  have hm' : numTests - (i + 1) = m := by omega
  rw [hm, hm', testsLeft]

theorem testsLeft_pos (m i : Nat) : 0 < testsLeft w m i := by
  induction m generalizing i with
  | zero => exact Nat.one_pos
  | succ m ih =>
    rw [testsLeft]
    exact Nat.lt_of_lt_of_le (ih (i + 1)) (Nat.le_add_left _ _)

/-- A step outside a call. -/
theorem outside_less (hIdle : s.mail.primary = .idle)
    (hPoint : PointInv w s₀ s.status s.exec s.pc) (hStep : primarySuiteStep w s = some t) :
    suiteMeasure w t < suiteMeasure w s := by
  have hNone : heldUp s.mail = 0 :=
    heldUp_of_not_wait fun c i hWait => by rw [hIdle] at hWait; cases hWait
  cases hAt : s.pc with
  | inCall i numPe rest =>
    rw [hAt] at hPoint
    exact hPoint.elim
  | head i =>
    simp only [primarySuiteStep, hAt] at hStep
    by_cases hLt : i < s.exec.tests.length
    · rw [if_pos hLt] at hStep
      cases hStep
      simp only [suiteMeasure, hNone, stepsLeft, hAt]
      rw [testsLeft_head hLt, testLeft]
      omega
    · have hPos := testsLeft_pos (w := w) (s.exec.tests.length - i) i
      rw [if_neg hLt] at hStep
      cases hStep
      simp only [suiteMeasure, hNone, stepsLeft, hAt]
      omega
  | init i j =>
    simp only [primarySuiteStep, hAt] at hStep
    split at hStep
    · cases hStep
      simp only [suiteMeasure, hNone, stepsLeft, hAt]
      omega
    · cases hStep
      simp only [suiteMeasure, hNone, stepsLeft, hAt]
      omega
  | choose i =>
    simp only [primarySuiteStep, hAt] at hStep
    obtain ⟨test, hFound, rfl⟩ := Option.map_eq_some_iff.mp hStep
    split
    · simp only [suiteMeasure, hNone, stepsLeft, hAt]
      omega
    · simp only [suiteMeasure, hNone, stepsLeft, hAt, pollLeft]
      omega
  | body i numPe rest =>
    cases rest with
    | nil =>
      simp only [primarySuiteStep, hAt] at hStep
      cases hStep
      simp only [suiteMeasure, hNone, stepsLeft, hAt, bodyLeft]
      omega
    | cons action rest =>
      cases action with
      | setStatus v =>
        simp only [primarySuiteStep, hAt] at hStep
        cases hStep
        simp only [suiteMeasure, hNone, stepsLeft, hAt, bodyLeft]
        omega
      | executeOnAll c =>
        simp only [primarySuiteStep, hAt] at hStep
        obtain ⟨mail, hMail, rfl⟩ := Option.map_eq_some_iff.mp hStep
        cases mailStepped_of_step hMail with
        | invoked _ _ =>
          simp only [suiteMeasure, stepsLeft, hAt, bodyLeft, callLeft, heldUp]
          omega
  | pollHead i numPe timeout =>
    cases timeout with
    | zero =>
      simp only [primarySuiteStep, hAt] at hStep
      cases hStep
      simp only [suiteMeasure, hNone, stepsLeft, hAt, pollLeft]
      omega
    | succ timeout =>
      simp only [primarySuiteStep, hAt] at hStep
      cases hStep
      simp only [suiteMeasure, hNone, stepsLeft, hAt, pollLeft, Nat.add_mul]
      omega
  | poll i numPe timeout j acc =>
    rw [hAt] at hPoint
    obtain ⟨test, hRunning, -, -⟩ := hPoint
    have hBound : (pollingOf w.board.numPe numPe).numPe = w.board.numPe := by
      rw [hRunning.numPe, pollingOf_numPe]
    simp only [primarySuiteStep, hAt, hBound] at hStep
    split at hStep
    · split at hStep
      · cases hStep
        simp only [suiteMeasure, hNone, stepsLeft, hAt, pollLeft]
        omega
      · cases hStep
        simp only [suiteMeasure, hNone, stepsLeft, hAt]
        omega
    · split at hStep
      · cases hStep
        simp only [suiteMeasure, hNone, stepsLeft, hAt, pollLeft]
        omega
      · cases hStep
        simp only [suiteMeasure, hNone, stepsLeft, hAt]
        omega
  | record i result ran =>
    simp only [primarySuiteStep, hAt] at hStep
    obtain ⟨test, hFound, rfl⟩ := Option.map_eq_some_iff.mp hStep
    simp only [suiteMeasure, hNone, stepsLeft, hAt, List.length_set]
    omega
  | ended =>
    simp only [primarySuiteStep, hAt] at hStep
    cases hStep

/-- A step of the primary brings the suite on, unless it spins. -/
theorem primary_helps (hInv : SuiteInv w s₀ s) (hStep : suiteStep w s .primary = some t) :
    Helps (suiteMeasure w) suiteHelp s .primary t := by
  rcases hInv.point with ⟨hIdle, hPoint⟩ | ⟨i, numPe, rest, c, prev, test, done, hpc, -⟩
  · exact Or.inl (outside_less hIdle hPoint hStep)
  · by_cases hSpins : ∃ c j, s.mail.primary = .wait c j ∧ (s.mail.pe j).mailbox.payload ≠ 0
    · obtain ⟨c, j, hWait, hBusy⟩ := hSpins
      rw [spin_same hpc hWait hBusy hStep]
      refine Or.inr ⟨rfl, rfl, ?_⟩
      simp only [suiteHelp, hWait, if_neg hBusy]
      exact fun hEq => by cases hEq
    · refine Or.inl (inCall_less hInv hpc (fun c j hWait => ?_) hStep)
      by_contra hBusy
      exact hSpins ⟨c, j, hWait, hBusy⟩

/-- The party that helps. -/
theorem suite_helps {l : SuiteLabel} (hInv : SuiteInv w s₀ s) (hStep : suiteStep w s l = some t) :
    Helps (suiteMeasure w) suiteHelp s l t := by
  cases l with
  | primary => exact primary_helps hInv hStep
  | secondary j => exact secondary_helps hInv hStep

/-- In a call the primary can move. -/
theorem mailStep_primary_isSome {P : PeSet} {m : MailState} (h : m.primary ≠ .idle) :
    (mailStep P m .primary).isSome := by
  simp only [mailStep, executeOnAllStep]
  split
  · rename_i hIdle
    exact absurd hIdle h
  · rfl
  · split
    · split
      · rfl
      · rfl
    · rfl
  · rfl
  · rfl
  · split
    · rfl
    · rfl

/-- Outside a call too, before the end. -/
theorem outside_enabled (hIdle : s.mail.primary = .idle)
    (hPoint : PointInv w s₀ s.status s.exec s.pc) (hpc : s.pc ≠ .ended) :
    (primarySuiteStep w s).isSome := by
  cases hAt : s.pc with
  | ended => exact absurd hAt hpc
  | inCall i numPe rest =>
    rw [hAt] at hPoint
    exact hPoint.elim
  | head i => simp only [primarySuiteStep, hAt, Option.isSome_some]
  | init i j =>
    simp only [primarySuiteStep, hAt]
    split
    · rfl
    · rfl
  | choose i =>
    rw [hAt] at hPoint
    have hLt : i < s.exec.tests.length := by
      rw [hPoint.1.exec, executed_length]
      exact hPoint.1.lt
    simp only [primarySuiteStep, hAt, List.getElem?_eq_getElem hLt, Option.map_some,
      Option.isSome_some]
  | body i numPe rest =>
    rw [hAt] at hPoint
    obtain ⟨test, done, -, hParts, -⟩ := hPoint
    cases rest with
    | nil => simp only [primarySuiteStep, hAt, Option.isSome_some]
    | cons action rest =>
      cases action with
      | setStatus v => simp only [primarySuiteStep, hAt, Option.isSome_some]
      | executeOnAll c =>
        have hNonNull : c.payload ≠ 0 := by
          apply w.nonNull i c
          rw [hParts]
          exact List.mem_append_right _ List.mem_cons_self
        simp only [primarySuiteStep, hAt, mailStep, if_pos (And.intro hIdle hNonNull),
          Option.map_some, Option.isSome_some]
  | pollHead i numPe timeout =>
    cases timeout with
    | zero => simp only [primarySuiteStep, hAt, Option.isSome_some]
    | succ timeout => simp only [primarySuiteStep, hAt, Option.isSome_some]
  | poll i numPe timeout j acc =>
    simp only [primarySuiteStep, hAt]
    split
    · split
      · rfl
      · rfl
    · split
      · rfl
      · rfl
  | record i result ran =>
    rw [hAt] at hPoint
    obtain ⟨-, test, hFound, -⟩ := hPoint
    simp only [primarySuiteStep, hAt, hFound, Option.map_some, Option.isSome_some]

/-- Before the end the primary can move. -/
theorem primary_enabled (hInv : SuiteInv w s₀ s) (hpc : s.pc ≠ .ended) :
    (suiteStep w s .primary).isSome := by
  rcases hInv.point with ⟨hIdle, hPoint⟩ | ⟨i, numPe, rest, c, prev, test, done, hAt, -⟩
  · exact outside_enabled hIdle hPoint hpc
  · have hMail := mailStep_primary_isSome (P := w.board.toPeSet) (m := s.mail)
    simp only [suiteStep, primarySuiteStep, hAt]
    split
    · rfl
    · rename_i c hRunOwn
      rw [Option.isSome_map]
      exact hMail (by rw [hRunOwn]; exact fun hEq => by cases hEq)
    · rename_i hNotIdle hNotOwn
      rw [Option.isSome_map]
      exact hMail hNotIdle

end Steps

/-! ## The end -/

/-- A part of a run in which every PE makes a step. -/
def IsRound (w : SuiteWorld) (ls : List SuiteLabel) : Prop :=
  .primary ∈ ls ∧ ∀ j, w.board.IsSecondary j → .secondary j ∈ ls

theorem IsRound.helps {ls : List SuiteLabel} (h : IsRound w ls) {s : SuiteSys}
    (hInv : SuiteInv w s₀ s) : suiteHelp s ∈ ls := by
  unfold suiteHelp
  split
  · rename_i c i hWait
    split
    · exact h.1
    · exact h.2 i (hInv.live.waiting hWait).1
  · exact h.1

/-- **The suite ends.** In every interleaving the primary can move until the suite has ended, and
a run has no more rounds, in each of which every PE makes a step, than the measure of its first
state says. -/
theorem suite_ends (w : SuiteWorld) (s : SuiteSys) (hStart : SuiteStart w s) :
    (∀ t ls, run (suiteStep w) s ls = some t → t.pc ≠ .ended →
      (suiteStep w t .primary).isSome) ∧
    ∀ (t : SuiteSys) (rounds : List (List SuiteLabel)),
      run (suiteStep w) s rounds.flatten = some t → (∀ ls ∈ rounds, IsRound w ls) →
        rounds.length ≤ suiteMeasure w s := by
  constructor
  · intro t ls hRun hpc
    have hInv : SuiteInv w s.exec t :=
      run_invariant (fun _ _ _ h hStep => suiteInv_step h hStep) hStart.inv hRun
    exact primary_enabled hInv hpc
  · intro t rounds hRun hRounds
    have hLe := rounds_le (I := SuiteInv w s.exec) (fun _ _ _ h hStep => suiteInv_step h hStep)
      (fun _ _ _ h hStep => suite_helps h hStep) hStart.inv hRun
      (fun ls hls u hu => (hRounds ls hls).helps hu)
    omega

/-- A round of the suite of two PEs. -/
def twoPeRound : List SuiteLabel := [.primary, .secondary 1]

theorem twoPeRound_isRound : IsRound twoPeSuite twoPeRound := by
  refine ⟨List.mem_cons_self, fun j hj => ?_⟩
  have hOther : j < 2 ∧ j ≠ 0 := (twoPeSuite.board.isSecondary_iff j).mp hj
  have hOne : j = 1 := by omega
  rw [hOne]
  exact List.mem_cons_of_mem _ List.mem_cons_self

/-- The suite of two PEs can start, and after 25 rounds it has ended. -/
theorem suite_ends_two :
    (suiteStep twoPeSuite twoPeStart .primary).isSome ∧
      ∃ t, run (suiteStep twoPeSuite) twoPeStart (List.replicate 25 twoPeRound).flatten = some t ∧
        t.pc = .ended ∧ 25 ≤ suiteMeasure twoPeSuite twoPeStart := by
  have hEnds := suite_ends twoPeSuite twoPeStart twoPeStart_start
  refine ⟨hEnds.1 twoPeStart [] rfl (by decide), ?_⟩
  have hEnd : (run (suiteStep twoPeSuite) twoPeStart
      (List.replicate 25 twoPeRound).flatten).map SuiteSys.pc = some .ended := by decide
  obtain ⟨t, ht, hpc⟩ := Option.map_eq_some_iff.mp hEnd
  refine ⟨t, ht, hpc, hEnds.2 t (List.replicate 25 twoPeRound) ht fun ls hls => ?_⟩
  rw [List.eq_of_mem_replicate hls]
  exact twoPeRound_isRound

end EnterpriseAcs.Sdei
