import EnterpriseAcs.Library.Interaction
import EnterpriseAcs.Sdei.AppMain
import EnterpriseAcs.Sdei.TestStatus

/-!
# Calls to the SDEI dispatcher

A test calls the dispatcher, with an SMC, the interrupt controller and the rest of VAL, and reads
variables that its event handlers write. All of it is a program that makes calls, and the replies
are arbitrary.

* `palInvokeSdeiFn`: five values of `x0` are errors, and the result is given back with them too.
* `valEventGet`: the selection of an event.
-/

namespace EnterpriseAcs.Sdei

open Interaction

/-! ## The calls -/

/-- The functions of the dispatcher that the tests here use. -/
inductive EventFn where
  | eventRegister
  | eventEnable
  | eventUnregister
  | eventStatus
  | eventGetInfo
  | eventRoutingSet
  | interruptBind
  | interruptRelease
  deriving DecidableEq, Repr

/-- The registers of an SMC. -/
structure SmcArgs where
  fn : EventFn
  arg0 : BitVec 64
  arg1 : BitVec 64 := 0
  arg2 : BitVec 64 := 0
  arg3 : BitVec 64 := 0
  arg4 : BitVec 64 := 0
  deriving DecidableEq, Repr

inductive TestCall where
  | smc (args : SmcArgs)
  | gicDisableInterrupt (intId : BitVec 32)
  | configureSecondInterrupt
  | disableSecondInterrupt (index : BitVec 32)
  | paToVa (addr : BitVec 64)
  | vaFree (addr : BitVec 64)
  | wdSetWs0 (vaddr : BitVec 64) (index timeout : BitVec 32)
  | readHandlerFlag
  | readEventCounter
  | readTestStatus
  | testPeSetStatus (status : BitVec 32)
  deriving DecidableEq, Repr

/-- The status of `val_configure_second_interrupt` and the two words that it fills in. -/
structure SecondReply where
  err : BitVec 32
  index : BitVec 32
  intId : BitVec 64
  deriving DecidableEq, Repr

/-- What comes back: `x0` of an SMC, a status, an address or the value of a variable. -/
def TestReply : TestCall → Type
  | .smc _ => BitVec 64
  | .gicDisableInterrupt _ => BitVec 32
  | .configureSecondInterrupt => SecondReply
  | .disableSecondInterrupt _ => Unit
  | .paToVa _ => BitVec 64
  | .vaFree _ => Unit
  | .wdSetWs0 _ _ _ => Unit
  | .readHandlerFlag => BitVec 32
  | .readEventCounter => BitVec 32
  | .readTestStatus => BitVec 64
  | .testPeSetStatus _ => Unit

/-- A program of VAL or of a test. -/
abbrev Val (α : Type) := Prog TestCall TestReply α

abbrev TestLog := List (Entry TestCall TestReply)

/-! ## `pal_invoke_sdei_fn` -/

/-- `SDEI_STATUS_INVALID` and `SDEI_STATUS_DENIED` of `enum sdei_status`. -/
def sdeiStatusInvalid : BitVec 32 := 0x80000001
def sdeiStatusDenied : BitVec 32 := 0x80000002

/-- The status that a call with the result `res` returns. -/
def sdeiErr (res : BitVec 64) : BitVec 32 := if sdeiIsErr res then palSdeiToUefiErrno res else 0

/-- The status is zero for all but the five errors. -/
theorem sdeiErr_eq_zero_iff (res : BitVec 64) : sdeiErr res = 0 ↔ sdeiIsErr res = false := by
  rw [sdeiErr]
  cases h : sdeiIsErr res with
  | false => exact iff_of_true (if_neg Bool.false_ne_true) rfl
  | true =>
    refine iff_of_false ?_ nofun
    rw [if_pos rfl]
    simp only [sdeiIsErr, decide_eq_true_eq, List.mem_cons, List.not_mem_nil, or_false] at h
    rcases h with rfl | rfl | rfl | rfl | rfl <;> decide

/-- None of the errors is zero when it is cut to a word. -/
theorem setWidth_ne_zero_of_isErr {res : BitVec 64} (h : sdeiIsErr res = true) :
    res.setWidth 32 ≠ 0#32 := by
  simp only [sdeiIsErr, decide_eq_true_eq, List.mem_cons, List.not_mem_nil, or_false] at h
  rcases h with rfl | rfl | rfl | rfl | rfl <;> decide

/-- The status and the result of a call. -/
structure SdeiReturn where
  err : BitVec 32
  result : BitVec 64
  deriving DecidableEq, Repr

/-- `pal_invoke_sdei_fn`: the result is written whether or not it is an error. -/
def palInvokeSdeiFn (args : SmcArgs) : Val SdeiReturn := do
  let res ← (perform (TestCall.smc args) : Val (BitVec 64))
  pure { err := sdeiErr res, result := res }

/-! ## The functions of VAL -/

/-- The information that an event is asked for. -/
inductive EventInfo where
  | evType
  | evSignaled
  | evPriority
  | evRoutingMode
  | evRoutingAff
  deriving DecidableEq, Repr

/-- `SDEI_EVENT_INFO_EV_TYPE` to `SDEI_EVENT_INFO_EV_ROUTING_AFF`. -/
def EventInfo.code : EventInfo → BitVec 64
  | .evType => 0
  | .evSignaled => 1
  | .evPriority => 2
  | .evRoutingMode => 3
  | .evRoutingAff => 4

/-- The registers of the query. -/
def getInfoArgs (event : BitVec 32) (info : EventInfo) : SmcArgs where
  fn := .eventGetInfo
  arg0 := event.setWidth 64
  arg1 := info.code

def valSdeiEventGetInfo (event : BitVec 32) (info : EventInfo) : Val SdeiReturn :=
  palInvokeSdeiFn (getInfoArgs event info)

/-- The status, and the event number, which is the result cut to a word. -/
structure BindReturn where
  err : BitVec 32
  eventNum : BitVec 32
  deriving DecidableEq, Repr

/-- The registers of a binding. -/
def bindArgs (irqNum : BitVec 32) : SmcArgs where
  fn := .interruptBind
  arg0 := irqNum.setWidth 64

def valSdeiInterruptBind (irqNum : BitVec 32) : Val BindReturn := do
  let r ← palInvokeSdeiFn (bindArgs irqNum)
  pure { err := r.err, eventNum := r.result.setWidth 32 }

/-- A function that has the event number as its only argument and returns the status. -/
def eventCall (fn : EventFn) (eventNum : BitVec 32) : Val (BitVec 32) := do
  let r ← palInvokeSdeiFn { fn := fn, arg0 := eventNum.setWidth 64 }
  pure r.err

def valSdeiInterruptRelease (eventNum : BitVec 32) : Val (BitVec 32) :=
  eventCall .interruptRelease eventNum

def valSdeiEventUnregister (eventNum : BitVec 32) : Val (BitVec 32) :=
  eventCall .eventUnregister eventNum

def valSdeiEventEnable (eventNum : BitVec 32) : Val (BitVec 32) :=
  eventCall .eventEnable eventNum

def valSdeiEventStatus (eventNum : BitVec 32) : Val SdeiReturn :=
  palInvokeSdeiFn { fn := .eventStatus, arg0 := eventNum.setWidth 64 }

/-- The registers of a registration. -/
def registerArgs (eventNum : BitVec 32) (entryPoint arg flags affinity : BitVec 64) : SmcArgs where
  fn := .eventRegister
  arg0 := eventNum.setWidth 64
  arg1 := entryPoint
  arg2 := arg
  arg3 := flags
  arg4 := affinity

def valSdeiEventRegister (eventNum : BitVec 32) (entryPoint arg flags affinity : BitVec 64) :
    Val (BitVec 32) := do
  let r ← palInvokeSdeiFn (registerArgs eventNum entryPoint arg flags affinity)
  pure r.err

/-- The other calls, of which `gicDisable` is `val_gic_disable_interrupt`, and the variables that
event handlers write. -/
def gicDisable (intId : BitVec 32) : Val (BitVec 32) :=
  perform (TestCall.gicDisableInterrupt intId)

def valConfigureSecondInterrupt : Val SecondReply := perform TestCall.configureSecondInterrupt

def valDisableSecondInterrupt (index : BitVec 32) : Val Unit :=
  perform (TestCall.disableSecondInterrupt index)

def valPaToVa (addr : BitVec 64) : Val (BitVec 64) := perform (TestCall.paToVa addr)

def valVaFree (addr : BitVec 64) : Val Unit := perform (TestCall.vaFree addr)

def valWdSetWs0 (vaddr : BitVec 64) (index timeout : BitVec 32) : Val Unit :=
  perform (TestCall.wdSetWs0 vaddr index timeout)

def valTestPeSetStatus (status : BitVec 32) : Val Unit :=
  perform (TestCall.testPeSetStatus status)

def readHandlerFlag : Val (BitVec 32) := perform TestCall.readHandlerFlag

def readEventCounter : Val (BitVec 32) := perform TestCall.readEventCounter

def readTestStatus : Val (BitVec 64) := perform TestCall.readTestStatus

/-! ## `val_event_get` -/

/-- `SDEI_EVENT_TYPE_PRIVATE`, `SDEI_EVENT_TYPE_SHARED` and `SDEI_EVENT_TYPE_ANY`. -/
def eventTypePrivate : BitVec 32 := 0
def eventTypeShared : BitVec 32 := 1
def eventTypeAny : BitVec 32 := 2

/-- `SDEI_EVENT_PRIORITY_ANY`. -/
def eventPriorityAny : BitVec 32 := 2

/-- `PPI_INTR_NUM` and `SPI_INTR_NUM`. -/
def ppiIntrNum : BitVec 32 := 18
def spiIntrNum : BitVec 32 := 230

/-- `struct sdei_event`, without `is_bound_irq`. -/
structure SdeiEvent where
  eventNum : BitVec 32
  type : BitVec 64
  priority : BitVec 64
  deriving DecidableEq, Repr

/-- `val_event_create`: the status and the event with what was asked for it. -/
def valEventCreate (event : SdeiEvent) : Val (BitVec 32 × SdeiEvent) := do
  let priority ← valSdeiEventGetInfo event.eventNum .evPriority
  let event := { event with priority := priority.result }
  if priority.err ≠ 0 then pure (priority.err, event)
  else
    let type ← valSdeiEventGetInfo event.eventNum .evType
    pure (type.err, { event with type := type.result })

/-- The test at the end of the loop. -/
def eventMatches (type priority : BitVec 32) (event : SdeiEvent) : Bool :=
  (priority.setWidth 64 == event.priority && type.setWidth 64 == event.type) ||
    (priority == eventPriorityAny && type.setWidth 64 == event.type) ||
    (priority.setWidth 64 == event.priority && type == eventTypeAny)

/-- What the selection returns, and whether its counter has passed the largest `int`. -/
structure EventGet where
  eventNum : BitVec 32
  overflow : Bool := false
  deriving DecidableEq, Repr

/-- The loop of `val_event_get`, with the rounds that are left, the counter and the local event.
`number` is that of `info[0]`: the pointer stays there. -/
def eventLoop (number type priority : BitVec 32) : Nat → Nat → SdeiEvent → Val EventGet
  | 0, i, _ => pure { eventNum := 0, overflow := decide (2 ^ 31 ≤ i) }
  | rounds + 1, i, event =>
    let event := { event with eventNum := number }
    if priority = eventPriorityAny ∧ type = eventTypeAny then
      pure { eventNum := event.eventNum, overflow := decide (2 ^ 31 ≤ i) }
    else do
      let r ← valEventCreate event
      if r.1 ≠ 0 then pure { eventNum := 0, overflow := decide (2 ^ 31 ≤ i) }
      else if eventMatches type priority r.2 then
        pure { eventNum := r.2.eventNum, overflow := decide (2 ^ 31 ≤ i) }
      else eventLoop number type priority rounds (i + 1) r.2

/-- `val_event_get`. Its local event is not initialised, and `info[0]` is read only when there are
events. -/
def valEventGet (table : EventInfoTable) (uninit : SdeiEvent) (type priority : BitVec 32) :
    Val EventGet :=
  if type = eventTypePrivate then do
    let r ← valSdeiInterruptBind ppiIntrNum
    pure { eventNum := r.eventNum }
  else if type = eventTypeShared then do
    let r ← valSdeiInterruptBind spiIntrNum
    pure { eventNum := r.eventNum }
  else eventLoop (table.info.headD 0) type priority table.numEvents.toNat 0 uninit

end EnterpriseAcs.Sdei
