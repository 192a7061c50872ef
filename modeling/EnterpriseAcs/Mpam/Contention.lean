import EnterpriseAcs.Mpam.Dispatch
import EnterpriseAcs.Mpam.LatencyTests

/-!
# The PEs that contend for the bandwidth

While the primary of d002 or d003 measures a node, every other PE runs `payload_secondary`: it
copies from its buffer as long as `contend_flag` is set, restores `MPAM2_EL2` and reports. The
primary lowers the flag, waits for the status words in `wait_for_secondary_off`, and only then
measures again or gives the buffers back.

The state holds that of `val_execute_on_pe` and `val_test_entry`, and each access to something that
is shared is a step of its own. Memory is coherent. The registers of the nodes are not part of
it: all PEs write the same values to them. Nor are the measurements, the buffers of the latencies,
which are not given back when the copy buffers are refused, and the `MPAM2_EL2` of the primary;
`payloadPrimary` has these.
-/

namespace EnterpriseAcs.Mpam

open Ledger (Event)

/-! ## The test -/

/-- A memory node with the control under test, and the answers of the firmware there. -/
structure CopyNode where
  firmware : Firmware
  memory : MemoryNodeEntry

def CopyNode.request (n : CopyNode) : CopyRequest := copyRequest n.memory

/-- A run of the test: who runs it, a PE of the table, the address of `payload_secondary`, the
partid that every PE computes, and the nodes to be measured. -/
structure Contention where
  platform : Platform
  test : LatencyTest
  primaryPe : Nat
  primary_lt : primaryPe < platform.numPe
  payload : BitVec 64
  partid : BitVec 16
  nodes : List CopyNode

namespace Contention

variable (c : Contention)

abbrev numPe : Nat := c.platform.numPe

/-- `val_execute_on_pe(pe_index, payload_secondary, 0)`. -/
def call (pe : Nat) : DispatchCall := ⟨pe, ⟨c.payload, 0⟩⟩

/-- `num_pe * TIMEOUT_LARGE`, in 32 bits. -/
def timeout : BitVec 64 := (c.platform.table.numOfPe * BitVec.ofNat 32 timeoutLarge).setWidth 64

/-- What `config_mpam_params` writes to `MPAM2_EL2`. -/
def configured (mpam2El2 : BitVec 64) : BitVec 64 :=
  (updatedMpam2 (mpam2El2.setWidth 32) c.partid).setWidth 64

/-- A PE other than the primary. -/
def Secondary (i : Nat) : Prop := i < c.numPe ∧ i ≠ c.primaryPe

instance (i : Nat) : Decidable (c.Secondary i) := inferInstanceAs (Decidable (_ ∧ _))

end Contention

/-- How `payload_primary` ends, as far as it depends on the other PEs. -/
inductive ContendEnd
  | measured
  | copyFails
  | timedOut
  deriving DecidableEq, Repr

/-- Program points of `payload_primary`: `raise` to `lower` are a scenario, `sweep` is the loop of
`wait_for_secondary_off`, with the PE it comes to and `payload_status`. -/
inductive ContendPc
  | node
  | raise (scenario : Nat)
  | next (scenario pe : Nat)
  | start (scenario pe : Nat)
  | starting (scenario pe : Nat)
  | measure (scenario : Nat)
  | lower (scenario : Nat)
  | sweep (scenario : Nat) (timeout : BitVec 64) (pe : Nat) (pending : Bool)
  | free
  | timedOut
  | ended (e : ContendEnd)
  deriving DecidableEq, Repr

/-- Program points of `payload_secondary`; `saved` is what `MPAM2_EL2` held, `src` is the buffer.
`fail` and `failed` are the branch for a null buffer, `pass` is the last store of the status. -/
inductive PayloadPc
  | enter
  | configure (saved : BitVec 64)
  | getBuf (saved : BitVec 64)
  | fail (saved : BitVec 64)
  | failed (saved : BitVec 64)
  | test (saved src : BitVec 64)
  | copy (saved src : BitVec 64)
  | restore (saved : BitVec 64)
  | pass
  | finished
  deriving DecidableEq, Repr

/-- `todo` are the nodes from the current one on, `mpam2` are the registers of the PEs, `slots` is
`gSharedMemCpyBuf`, and `log` is what was taken for the copy buffers and given back. -/
structure ContendState where
  dispatch : DispatchState
  pc : ContendPc
  todo : List CopyNode
  contendFlag : BitVec 8
  payload : Nat → PayloadPc
  mpam2 : Nat → BitVec 64
  slots : Nat → Slot
  log : List (Event Block)

inductive ContendLabel
  | primary
  | pe (i : Nat)
  deriving DecidableEq, Repr

/-- The status word of a PE. -/
def ContendState.status (s : ContendState) (i : Nat) : BitVec 32 := (s.dispatch.mem i).status

/-- `val_set_status`. -/
def DispatchState.setStatus (d : DispatchState) (i : Nat) (status : BitVec 32) : DispatchState :=
  { d with mem := Function.update d.mem i { d.mem i with status := status } }

variable (c : Contention)

/-! ## The steps of the primary -/

/-- Where `wait_for_secondary_off` goes on after a sweep. It returns 1 when the time-out is zero,
whatever the last sweep has found. -/
def afterSweep (scenario : Nat) (timeout : BitVec 64) (pending : Bool) : ContendPc :=
  if pending && timeout - 1 ≠ 0 then .sweep scenario (timeout - 1) 0 false
  else if pending || timeout = 0 then .timedOut
  else if scenario = 0 then .raise 1
  else .free

def payloadPrimaryStep (s : ContendState) : Option ContendState :=
  match s.pc with
  | .node =>
    match s.todo with
    | [] => some { s with pc := .ended .measured }
    | n :: _ =>
      let bufs := sharedMemcpybuf n.firmware n.request c.platform.table.numOfPe
      some { s with
        pc := if bufs.status then .raise 0 else .ended .copyFails
        slots := bufs.slots
        log := s.log ++ bufs.log }
  | .raise scenario =>
    -- before the first scenario of a node the primary copies once from its buffer
    some { s with pc := .next scenario 0, contendFlag := 1 }
  | .next scenario pe =>
    if pe < c.numPe then
      if pe = c.primaryPe then some { s with pc := .next scenario (pe + 1) }
      else some { s with
        pc := .start scenario pe
        dispatch := s.dispatch.setStatus pe (resultPending c.test.num) }
    else some { s with pc := .measure scenario }
  | .start scenario pe =>
    (dispatchStep c.platform s.dispatch (.invoke (c.call pe))).map fun d =>
      { s with pc := .starting scenario pe, dispatch := d }
  | .starting scenario pe =>
    if s.dispatch.primary = .idle then some { s with pc := .next scenario (pe + 1) }
    else (dispatchStep c.platform s.dispatch .primary).map fun d => { s with dispatch := d }
  | .measure scenario =>
    -- the copy that is measured
    some { s with pc := .lower scenario }
  | .lower scenario =>
    some { s with pc := .sweep scenario c.timeout 0 false, contendFlag := 0 }
  | .sweep scenario timeout pe pending =>
    if pe < c.numPe then
      some { s with
        pc := .sweep scenario timeout (pe + 1)
          (pending || (pe ≠ c.primaryPe && isResultPending (s.status pe))) }
    else some { s with pc := afterSweep scenario timeout pending }
  | .free =>
    some { s with
      pc := .node
      todo := s.todo.tail
      log := s.log ++ palMemFreeSharedMemcpybuf s.slots c.numPe memcpyBufSize }
  | .timedOut =>
    some { s with
      pc := .ended .timedOut
      log := s.log ++ palMemFreeSharedMemcpybuf s.slots c.numPe memcpyBufSize }
  | .ended _ => none

/-! ## The steps of the other PEs -/

/-- `dest_buf - src_buf`, half of `MEMCPY_BUF_SIZE`. -/
def copyBufSize : BitVec 64 := 128 * 1024 * 1024

/-- The next step of `payload_secondary` on PE `i`; the index it computes is its own. -/
def payloadSecondaryStep (s : ContendState) (i : Nat) : Option ContendState :=
  let goTo := fun pc => Function.update s.payload i pc
  let report := fun status pc =>
    (dispatchStep c.platform s.dispatch (.report i status)).map fun d =>
      { s with dispatch := d, payload := goTo pc }
  match s.payload i with
  | .enter => some { s with payload := goTo (.configure (s.mpam2 i)) }
  | .configure saved =>
    some { s with
      payload := goTo (.getBuf saved)
      mpam2 := Function.update s.mpam2 i (c.configured saved) }
  | .getBuf saved =>
    let src := (s.slots (c.platform.ownIndex i)).address
    some { s with
      payload := goTo (if src = 0 ∨ src + copyBufSize = 0 then .fail saved else .test saved src) }
  | .fail saved => report (resultFail c.test.num 1) (.failed saved)
  | .failed saved =>
    some { s with payload := goTo .finished, mpam2 := Function.update s.mpam2 i saved }
  | .test saved src =>
    some { s with payload := goTo (if s.contendFlag = 0 then .restore saved else .copy saved src) }
  | .copy saved src => some { s with payload := goTo (.test saved src) }
  | .restore saved =>
    some { s with payload := goTo .pass, mpam2 := Function.update s.mpam2 i saved }
  | .pass => report (resultPass c.test.num 1) .finished
  | .finished =>
    (dispatchStep c.platform s.dispatch (.advance i)).map fun d =>
      { s with dispatch := d, payload := goTo .enter }

/-- One step of a party. A PE that is not in its payload is in `val_test_entry`. -/
def contendStep (s : ContendState) : ContendLabel → Option ContendState
  | .primary => payloadPrimaryStep c s
  | .pe i =>
    match (s.dispatch.pe i).pc with
    | .running _ => payloadSecondaryStep c s i
    | _ => (dispatchStep c.platform s.dispatch (.advance i)).map fun d => { s with dispatch := d }

/-! ## The properties -/

/-- `payload_primary` comes to the loop over the nodes: the other PEs are off, and their status
words, which the entry function has set, are not PENDING. -/
structure Contention.Begins (s : ContendState) : Prop where
  off : AllOff c.platform s.dispatch
  primary : (s.dispatch.pe c.primaryPe).pc = .primary
  secondary : ∀ i, c.Secondary i → (s.dispatch.pe i).pc = .off ∧ (s.dispatch.pe i).reported = 0 ∧
    isResultPending (s.status i) = false
  payload : ∀ i, s.payload i = .enter
  pc : s.pc = .node
  todo : s.todo = c.nodes
  log : s.log = []

/-- The copy buffers of a node come out of a range of pages, and none reaches the end of the
address space. -/
structure Contention.Usable (n : CopyNode) : Prop where
  size : n.memory.length ≠ 0
  half : ∀ pe < c.numPe, (slotOf n.firmware n.request pe).address + copyBufSize ≠ 0

/-- A block that was taken and has not been given back. -/
def Held (log : List (Event Block)) (b : Block) : Prop :=
  ∃ held, Transition.run Ledger.step 0 log = some held ∧ b ∈ held

/-- The payload of a PE, if one runs. -/
def ContendState.running (s : ContendState) (i : Nat) : Option PayloadPc :=
  match (s.dispatch.pe i).pc with
  | .running _ => some (s.payload i)
  | _ => none

/-- The points of the primary from the start of the first PE to the last poll. -/
def ContendPc.contending : ContendPc → Bool
  | .next _ _ | .start _ _ | .starting _ _ | .measure _ | .lower _ | .sweep _ _ _ _ => true
  | .node | .raise _ | .free | .timedOut | .ended _ => false

/-- The points at which the primary copies from its own buffer. -/
def ContendPc.copying : ContendPc → Bool
  | .raise scenario => scenario == 0
  | .measure _ => true
  | .node | .next _ _ | .start _ _ | .starting _ _ | .lower _ | .sweep _ _ _ _ | .free | .timedOut
  | .ended _ => false

/-- `wait_for_secondary_off` has returned 1. -/
def ContendPc.late (pc : ContendPc) : Prop := pc = .timedOut ∨ pc = .ended .timedOut

/-- A PE is through with its payload: it has reported, and `MPAM2_EL2` is what it was. -/
structure Through (before : Nat → BitVec 64) (s : ContendState) (i : Nat) : Prop where
  settled : Settled s.dispatch i
  reported : isResultPending (s.status i) = false
  restored : s.mpam2 i = before i
  away : s.running i = none ∨ s.running i = some .finished

/-- Whoever copies has its buffer, between the scenarios no other PE does, and when all nodes have
been measured every copy buffer is given back. -/
structure ContentionSafe (before : Nat → BitVec 64) (s : ContendState) : Prop where
  primaryCopies : s.pc.copying = true →
    Held s.log (.pages (s.slots c.primaryPe).address (efiSizeToPages memcpyBufSize))
  copies : ∀ i, c.Secondary i → ∀ saved src, s.running i = some (.copy saved src) →
    Held s.log (.pages src (efiSizeToPages memcpyBufSize))
  through : s.pc.contending = false → ∀ i, c.Secondary i → Through before s i
  balanced : s.pc = .ended .measured → Ledger.Clean s.log

end EnterpriseAcs.Mpam
