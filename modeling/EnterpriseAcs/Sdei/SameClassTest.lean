import EnterpriseAcs.Sdei.EventLedger
import EnterpriseAcs.Sdei.WatchdogLoop

/-!
# Test 041: events of the same class

The test binds the interrupt of a watchdog and a second one to two events and registers a handler
for each. What goes wrong leads to a label of a chain that gives back what is held at that point.
Once the watchdog is armed the handlers may write their variables: each read of one has any value.

* `holds_wdEventRegister`, `holds_secondEventRegister`: what the two functions hold when they
  succeed, and that they hold nothing more when they fail.
* `test041_nested`: everything that the test acquires is given back, in the reverse order.
-/

namespace EnterpriseAcs.Sdei

open Interaction Ledger

/-! ## The test -/

/-- What the test runs with: the watchdog table, the addresses of `asm_event_handler` and of its
two handlers, the affinity of PE 0 and what is on the stack in place of the second event. -/
structure Test041 where
  wd : WdTable
  asmEventHandler : BitVec 64
  wdEventHandler : BitVec 64
  secondEventHandler : BitVec 64
  mpid : BitVec 64
  uninit : BitVec 32

/-- `SDEI_EVENT_REGISTER_RM_PE`. -/
def eventRegisterRmPe : BitVec 64 := 1

/-- `WD_TIME_OUT` and `TIMEOUT_MEDIUM`. -/
def wdTimeOut : Nat := 0x10000000
def timeoutMedium : Nat := 0x100000

/-- `g_test_status & SDEI_TEST_FAIL`. -/
def failed (testStatus : BitVec 64) : Bool := testStatus &&& 1 != 0

/-- The status that `wd_event_register` returns, the event, and `g_wd_va_addr` and `g_wd_num`. -/
structure WdRegistered where
  testStatus : BitVec 64
  eventNum : BitVec 32
  vaAddr : BitVec 64
  wdNum : BitVec 32
  deriving DecidableEq, Repr

/-- The labels `unmap_va`, `interrupt_release` and `event_unregister` of `wd_event_register`. -/
def wdUnmapVa (out : WdRegistered) : Val WdRegistered := do
  valVaFree out.vaAddr
  pure out

def wdInterruptRelease (out : WdRegistered) : Val WdRegistered := do
  let _ ← valSdeiInterruptRelease out.eventNum
  wdUnmapVa out

def wdEventUnregister (out : WdRegistered) : Val WdRegistered := do
  let _ ← valSdeiEventUnregister out.eventNum
  wdInterruptRelease out

/-- `wd_event_register`. -/
def wdEventRegister (env : Test041) (testStatus : BitVec 64) : Val WdRegistered := do
  let s := wdRound env.wd (wdStart env.wd)
  if s.nsWdg = 0 then
    pure { testStatus := 1, eventNum := env.uninit, vaAddr := 0, wdNum := s.wdNum }
  else
    let va ← valPaToVa s.wdCtrlBase
    let err ← gicDisable (s.intId.setWidth 32)
    if err ≠ 0 then
      wdUnmapVa { testStatus := 1, eventNum := env.uninit, vaAddr := va, wdNum := s.wdNum }
    else
      let event ← valSdeiInterruptBind (s.intId.setWidth 32)
      let fail : WdRegistered :=
        { testStatus := 1, eventNum := event.eventNum, vaAddr := va, wdNum := s.wdNum }
      if event.err ≠ 0 then wdUnmapVa fail
      else
        let err ← valSdeiEventRegister event.eventNum env.asmEventHandler env.wdEventHandler
          eventRegisterRmPe env.mpid
        if err ≠ 0 then wdInterruptRelease fail
        else
          let err ← valSdeiEventEnable event.eventNum
          if err ≠ 0 then wdEventUnregister fail
          else pure { fail with testStatus := testStatus }

/-- The status that `second_event_register` returns, the event and `g_index`. -/
structure SecondRegistered where
  testStatus : BitVec 64
  eventNum : BitVec 32
  index : BitVec 32
  deriving DecidableEq, Repr

/-- The label `interrupt_release` of `second_event_register`. -/
def secondInterruptRelease (out : SecondRegistered) : Val SecondRegistered := do
  let _ ← valSdeiInterruptRelease out.eventNum
  pure out

/-- `second_event_register`. -/
def secondEventRegister (env : Test041) (testStatus : BitVec 64) : Val SecondRegistered := do
  let second ← valConfigureSecondInterrupt
  if second.err ≠ 0 then
    pure { testStatus := 1, eventNum := env.uninit, index := second.index }
  else
    let err ← gicDisable (second.intId.setWidth 32)
    if err ≠ 0 then pure { testStatus := 1, eventNum := env.uninit, index := second.index }
    else
      let event ← valSdeiInterruptBind (second.intId.setWidth 32)
      let fail : SecondRegistered :=
        { testStatus := 1, eventNum := event.eventNum, index := second.index }
      if event.err ≠ 0 then pure fail
      else
        let err ← valSdeiEventRegister event.eventNum env.asmEventHandler env.secondEventHandler
          eventRegisterRmPe env.mpid
        if err ≠ 0 then secondInterruptRelease fail
        else
          let err ← valSdeiEventEnable event.eventNum
          if err = 0 then pure { fail with testStatus := testStatus }
          else
            let _ ← valSdeiEventUnregister event.eventNum
            secondInterruptRelease fail

/-- The labels `event_unregister1` and `event_unregister2` of `test_entry`. -/
def eventUnregister1 (wd : WdRegistered) : Val Unit := do
  let _ ← valSdeiEventUnregister wd.eventNum
  let _ ← valSdeiInterruptRelease wd.eventNum
  valVaFree wd.vaAddr

def eventUnregister2 (wd : WdRegistered) (second : SecondRegistered) : Val Unit := do
  let _ ← valSdeiEventUnregister second.eventNum
  let _ ← valSdeiInterruptRelease second.eventNum
  eventUnregister1 wd

/-- `while (timeout--)`, until both handlers have run. -/
def waitHandlers : Nat → Val Unit
  | 0 => pure ()
  | timeout + 1 => do
    let flag ← readHandlerFlag
    if flag ≠ 0 then waitHandlers timeout
    else
      let counter ← readEventCounter
      if counter = 2 then pure () else waitHandlers timeout

/-- `g_handler_flag || (g_event_counter != 2)`. -/
def triggerFailed : Val Bool := do
  let flag ← readHandlerFlag
  if flag ≠ 0 then pure true
  else
    let counter ← readEventCounter
    pure (counter != 2)

/-- `EVENT_STATUS_RUNNING_BIT`. -/
def running (status : BitVec 64) : Bool := status &&& 4 != 0

/-- The body of the loop that waits for the handlers to end: it fails, it breaks, or it goes on. -/
def statusRound (wd : WdRegistered) (second : SecondRegistered) : Val (Option Bool) := do
  let status1 ← valSdeiEventStatus wd.eventNum
  if status1.err ≠ 0 then pure (some true)
  else
    let status2 ← valSdeiEventStatus second.eventNum
    if status2.err ≠ 0 then pure (some true)
    else if !running status1.result && !running status2.result then pure (some false)
    else pure none

/-- `do` with `while (timeout--)`: whether it has failed. -/
def statusLoop (wd : WdRegistered) (second : SecondRegistered) : Nat → Val Bool
  | 0 => do
    let r ← statusRound wd second
    pure (r.getD false)
  | timeout + 1 => do
    let r ← statusRound wd second
    match r with
    | some result => pure result
    | none => statusLoop wd second timeout

/-- `test_entry`, from where both events are registered and enabled. -/
def generateEvents (wd : WdRegistered) (second : SecondRegistered) : Val Unit := do
  valWdSetWs0 wd.vaAddr wd.wdNum 100
  waitHandlers wdTimeOut
  let notTriggered ← triggerFailed
  if notTriggered then
    valWdSetWs0 wd.vaAddr wd.wdNum 0
    valDisableSecondInterrupt second.index
    valTestPeSetStatus sdeiTestFail
    eventUnregister2 wd second
  else
    let statusFailed ← statusLoop wd second timeoutMedium
    if statusFailed then
      valTestPeSetStatus sdeiTestFail
      eventUnregister2 wd second
    else
      let testStatus ← readTestStatus
      valTestPeSetStatus (if failed testStatus then sdeiTestFail else sdeiTestPass)
      eventUnregister2 wd second

/-- `test_entry`. The variable `g_test_status` is initialised to PASS. -/
def test041 (env : Test041) : Val Unit := do
  let wd ← wdEventRegister env 0
  if failed wd.testStatus then valTestPeSetStatus sdeiTestFail
  else
    let second ← secondEventRegister env wd.testStatus
    if failed second.testStatus then
      valTestPeSetStatus sdeiTestFail
      eventUnregister1 wd
    else generateEvents wd second

/-! ## The chains of labels -/

section Labels

variable (held : List Held)

theorem holds_wdUnmapVa (out : WdRegistered) :
    Holds held (wdUnmapVa out) fun out' rest => out' = out ∧ rest = held :=
  Holds.seq (holds_silent held fun _ => rfl) fun _ => Triple.pure ⟨rfl, rfl⟩

theorem holds_wdInterruptRelease (out : WdRegistered) :
    Holds (.bound out.eventNum :: held) (wdInterruptRelease out) fun out' rest =>
      out' = out ∧ rest = held :=
  Holds.seq (holds_release held out.eventNum) fun _ => holds_wdUnmapVa held out

theorem holds_wdEventUnregister (out : WdRegistered) :
    Holds (.registered out.eventNum :: .bound out.eventNum :: held) (wdEventUnregister out)
      fun out' rest => out' = out ∧ rest = held :=
  Holds.seq (holds_unregister _ out.eventNum) fun _ => holds_wdInterruptRelease held out

theorem holds_secondInterruptRelease (out : SecondRegistered) :
    Holds (.bound out.eventNum :: held) (secondInterruptRelease out) fun out' rest =>
      out' = out ∧ rest = held :=
  Holds.seq (holds_release held out.eventNum) fun _ => Triple.pure ⟨rfl, rfl⟩

theorem holds_eventUnregister1 (wd : WdRegistered) :
    Holds (.registered wd.eventNum :: .bound wd.eventNum :: held) (eventUnregister1 wd)
      fun _ rest => rest = held :=
  Holds.seq (holds_unregister _ wd.eventNum) fun _ =>
    Holds.seq (holds_release held wd.eventNum) fun _ => holds_silent held fun _ => rfl

theorem holds_eventUnregister2 (wd : WdRegistered) (second : SecondRegistered) :
    Holds (.registered second.eventNum :: .bound second.eventNum :: .registered wd.eventNum ::
      .bound wd.eventNum :: held) (eventUnregister2 wd second) fun _ rest => rest = held :=
  Holds.seq (holds_unregister _ second.eventNum) fun _ =>
    Holds.seq (holds_release _ second.eventNum) fun _ => holds_eventUnregister1 held wd

end Labels

/-! ## The two registrations -/

theorem failed_one : failed 1 = true := by decide

theorem failed_zero : failed 0 = false := by decide

/-- A chain of labels returns what it is given. -/
theorem holds_of_label {α : Type} {held held' : List Held} {p : Val α} {out : α}
    {Q : α → List Held → Prop} (h : Holds held' p fun out' rest => out' = out ∧ rest = held)
    (hQ : Q out held) : Holds held' p Q := by
  refine Triple.mono h ?_
  rintro out' rest ⟨rfl, rfl⟩
  exact hQ

section Registrations

variable (held : List Held) (env : Test041) {testStatus : BitVec 64}
  (hStatus : failed testStatus = false)

include hStatus in
/-- With success both the binding and the registration are held, else nothing more than before. -/
theorem holds_wdEventRegister :
    Holds held (wdEventRegister env testStatus) fun out rest =>
      rest = if failed out.testStatus then held
        else .registered out.eventNum :: .bound out.eventNum :: held := by
  rw [wdEventRegister]
  split
  · exact holds_of_label (Triple.pure ⟨rfl, rfl⟩) (if_pos failed_one).symm
  · refine Holds.seq (holds_silent held fun _ => rfl) fun va => ?_
    refine Holds.seq (holds_silent held fun _ => rfl) fun err => ?_
    split
    · exact holds_of_label (holds_wdUnmapVa held _) (if_pos failed_one).symm
    · refine Holds.bind_seq (fun r hr => ?_) fun r hr => ?_
      · rw [if_neg (not_not.mpr hr)]
        refine Holds.register_seq ?_ fun err hErr => ?_
        · rw [if_neg (not_not.mpr rfl)]
          refine Holds.seq (holds_enable _ r.eventNum) fun err => ?_
          split
          · exact holds_of_label (holds_wdEventUnregister held _) (if_pos failed_one).symm
          · refine Triple.pure ?_
            rw [hStatus, if_neg Bool.false_ne_true]
        · rw [if_pos hErr]
          exact holds_of_label (holds_wdInterruptRelease held _) (if_pos failed_one).symm
      · rw [if_pos hr]
        exact holds_of_label (holds_wdUnmapVa held _) (if_pos failed_one).symm

include hStatus in
theorem holds_secondEventRegister :
    Holds held (secondEventRegister env testStatus) fun out rest =>
      rest = if failed out.testStatus then held
        else .registered out.eventNum :: .bound out.eventNum :: held := by
  refine Holds.seq (holds_silent held fun _ => rfl) fun second => ?_
  split
  · exact holds_of_label (Triple.pure ⟨rfl, rfl⟩) (if_pos failed_one).symm
  · refine Holds.seq (holds_silent held fun _ => rfl) fun err => ?_
    split
    · exact holds_of_label (Triple.pure ⟨rfl, rfl⟩) (if_pos failed_one).symm
    · refine Holds.bind_seq (fun r hr => ?_) fun r hr => ?_
      · rw [if_neg (not_not.mpr hr)]
        refine Holds.register_seq ?_ fun err hErr => ?_
        · rw [if_neg (not_not.mpr rfl)]
          refine Holds.seq (holds_enable _ r.eventNum) fun err => ?_
          split
          · refine Triple.pure ?_
            rw [hStatus, if_neg Bool.false_ne_true]
          · refine Holds.seq (holds_unregister _ r.eventNum) fun err => ?_
            exact holds_of_label (holds_secondInterruptRelease held _) (if_pos failed_one).symm
        · rw [if_pos hErr]
          exact holds_of_label (holds_secondInterruptRelease held _) (if_pos failed_one).symm
      · rw [if_pos hr]
        exact holds_of_label (Triple.pure ⟨rfl, rfl⟩) (if_pos failed_one).symm

end Registrations

/-! ## The handlers -/

section Handlers

variable (held : List Held) (wd : WdRegistered) (second : SecondRegistered)

theorem holds_waitHandlers (timeout : Nat) :
    Holds held (waitHandlers timeout) fun _ rest => rest = held := by
  induction timeout with
  | zero => exact Triple.pure rfl
  | succ timeout ih =>
    refine Holds.seq (holds_silent held fun _ => rfl) fun flag => ?_
    split
    · exact ih
    · refine Holds.seq (holds_silent held fun _ => rfl) fun counter => ?_
      split
      · exact Triple.pure rfl
      · exact ih

theorem holds_triggerFailed : Holds held triggerFailed fun _ rest => rest = held := by
  refine Holds.seq (holds_silent held fun _ => rfl) fun flag => ?_
  split
  · exact Triple.pure rfl
  · exact Holds.seq (holds_silent held fun _ => rfl) fun counter => Triple.pure rfl

theorem holds_statusRound : Holds held (statusRound wd second) fun _ rest => rest = held := by
  refine Holds.seq (holds_status held wd.eventNum) fun status1 => ?_
  split
  · exact Triple.pure rfl
  · refine Holds.seq (holds_status held second.eventNum) fun status2 => ?_
    split
    · exact Triple.pure rfl
    · split <;> exact Triple.pure rfl

theorem holds_statusLoop (timeout : Nat) :
    Holds held (statusLoop wd second timeout) fun _ rest => rest = held := by
  induction timeout with
  | zero => exact Holds.seq (holds_statusRound held wd second) fun r => Triple.pure rfl
  | succ timeout ih =>
    refine Holds.seq (holds_statusRound held wd second) fun r => ?_
    cases r with
    | some result => exact Triple.pure rfl
    | none => exact ih

/-- However the handlers behave, both events are given back. -/
theorem holds_generateEvents :
    Holds (.registered second.eventNum :: .bound second.eventNum :: .registered wd.eventNum ::
      .bound wd.eventNum :: held) (generateEvents wd second) fun _ rest => rest = held := by
  have hUnregister := holds_eventUnregister2 held wd second
  refine Holds.seq (holds_silent _ fun _ => rfl) fun _ => ?_
  refine Holds.seq (holds_waitHandlers _ wdTimeOut) fun _ => ?_
  refine Holds.seq (holds_triggerFailed _) fun notTriggered => ?_
  split
  · refine Holds.seq (holds_silent _ fun _ => rfl) fun _ => ?_
    refine Holds.seq (holds_silent _ fun _ => rfl) fun _ => ?_
    exact Holds.seq (holds_silent _ fun _ => rfl) fun _ => hUnregister
  · refine Holds.seq (holds_statusLoop _ wd second timeoutMedium) fun statusFailed => ?_
    split
    · exact Holds.seq (holds_silent _ fun _ => rfl) fun _ => hUnregister
    · refine Holds.seq (holds_silent _ fun _ => rfl) fun testStatus => ?_
      exact Holds.seq (holds_silent _ fun _ => rfl) fun _ => hUnregister

end Handlers

/-! ## The whole test -/

theorem holds_test041 (env : Test041) : Holds [] (test041 env) fun _ rest => rest = [] := by
  refine Triple.bind (holds_wdEventRegister [] env failed_zero) fun wd rest hRest => ?_
  cases hWd : failed wd.testStatus with
  | true =>
    rw [hWd, if_pos rfl] at hRest
    subst hRest
    rw [if_pos rfl]
    exact holds_silent [] fun _ => rfl
  | false =>
    rw [hWd, if_neg Bool.false_ne_true] at hRest
    subst hRest
    rw [if_neg Bool.false_ne_true]
    refine Triple.bind (holds_secondEventRegister _ env hWd) fun second rest hRest => ?_
    cases hSecond : failed second.testStatus with
    | true =>
      rw [hSecond, if_pos rfl] at hRest
      subst hRest
      rw [if_pos rfl]
      exact Holds.seq (holds_silent _ fun _ => rfl) fun _ => holds_eventUnregister1 [] wd
    | false =>
      rw [hSecond, if_neg Bool.false_ne_true] at hRest
      subst hRest
      rw [if_neg Bool.false_ne_true]
      exact holds_generateEvents [] wd second

/-- Whatever the dispatcher and the interrupt controller return, call by call, and whatever the
handlers write, each binding and each registration is given back once, the last one first. -/
theorem test041_nested (env : Test041) (answer : Nat → (c : TestCall) → TestReply c) :
    Nested (heldEvents (exec answer (test041 env) 0).1) ∧
      released (heldEvents (exec answer (test041 env) 0).1) =
        acquired (heldEvents (exec answer (test041 env) 0).1) := by
  have hNested : Nested (heldEvents (exec answer (test041 env) 0).1) := by
    obtain ⟨rest, hRun, rfl⟩ := (holds_test041 env).events (exec_runs answer (test041 env) 0)
    exact hRun
  exact ⟨hNested, hNested.clean.released_eq⟩

end EnterpriseAcs.Sdei
