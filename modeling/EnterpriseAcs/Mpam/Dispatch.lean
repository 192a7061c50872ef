import EnterpriseAcs.Mpam.PeIndex
import EnterpriseAcs.Mpam.Status
import Mathlib.Logic.Function.Basic

/-!
# Starting a payload on another PE

`val_execute_on_pe` stores payload and argument into the shared slot of a PE and calls PSCI
`CPU_ON`; while the PE has not switched itself off yet it stores and calls again. The PE
starts in `val_test_entry`, reads its slot, runs the payload and calls `CPU_OFF`.

The primary's loop and every PE are program points, and each store, read and firmware call
is a step of its own. `Platform` supplies the PE table and the way from an MPIDR to its PE.
-/

namespace EnterpriseAcs.Mpam

open Machine

/-- The payload and its argument. -/
structure TestData where
  payload : BitVec 64
  arg : BitVec 64
  deriving DecidableEq, Repr

/-- A call of `val_execute_on_pe`. -/
structure DispatchCall where
  index : Nat
  data : TestData
  deriving DecidableEq, Repr

/-- `VAL_SHARED_MEM_t`. -/
structure SharedMem where
  data0 : BitVec 64
  data1 : BitVec 64
  status : BitVec 32
  deriving DecidableEq, Repr

def timeoutLarge : Nat := 0x1000000

def psciAlreadyOn : BitVec 64 := -4
def psciInvalidParams : BitVec 64 := -2

/-- Program points of `val_execute_on_pe`; `setData0` and `setData1` are the stores of
`val_set_test_data`, `fail` is the `val_set_status` at the end. -/
inductive DispatchPc where
  | idle
  | setData0 (c : DispatchCall) (timeout : Nat)
  | setData1 (c : DispatchCall) (timeout : Nat)
  | cpuOn (c : DispatchCall) (timeout : Nat)
  | fail (c : DispatchCall) (arg0 : BitVec 64)
  deriving DecidableEq, Repr

/-- Program points of a PE; `primary` is the PE that runs the suite. -/
inductive PePc where
  | off
  | primary
  | entry
  | gotData0 (payload : BitVec 64)
  | gotData1 (data : TestData)
  | running (data : TestData)
  | cpuOff
  deriving DecidableEq, Repr

/-- `executed` and `reported` are history: the payloads started, and how many of them had
been when one last stored a status other than PENDING. -/
structure Pe where
  pc : PePc
  executed : List TestData
  reported : Nat
  deriving DecidableEq, Repr

/-- `calls` and `returned` are history; a call that has returned comes with the failure
status it stored, if any. -/
structure DispatchState where
  primary : DispatchPc
  mem : Nat → SharedMem
  pe : Nat → Pe
  calls : List DispatchCall
  returned : List (DispatchCall × Option (BitVec 32))

inductive DispatchLabel where
  | invoke (c : DispatchCall)
  | primary
  | advance (i : Nat)
  | report (i : Nat) (status : BitVec 32)
  deriving DecidableEq, Repr

variable (p : Platform)

/-- PSCI `CPU_ON`, and the test of the loop around it. -/
def psciCpuOn (s : DispatchState) (c : DispatchCall) (timeout : Nat) (target : Option Nat) :
    DispatchState :=
  match target with
  | some k =>
    if (s.pe k).pc = .off then
      { s with
        primary := .idle
        pe := Function.update s.pe k { s.pe k with pc := .entry }
        returned := s.returned ++ [(c, none)] }
    else if timeout = 0 then { s with primary := .fail c psciAlreadyOn }
    else { s with primary := .setData0 c (timeout - 1) }
  | none => { s with primary := .fail c psciInvalidParams }

/-- `RESULT_FAIL(0, 0x120 - (int)Arg0)`. -/
def cpuOnFailure (arg0 : BitVec 64) : BitVec 32 := resultFail 0 (0x120 - arg0.setWidth 32)

def valExecuteOnPeStep (s : DispatchState) : Option DispatchState :=
  -- the index is at most `num_of_pe`, which `val_set_test_data` checks once more
  match s.primary with
  | .idle => none
  | .setData0 c timeout =>
    some { s with
      primary := .setData1 c timeout
      mem := Function.update s.mem c.index { s.mem c.index with data0 := c.data.payload } }
  | .setData1 c timeout =>
    some { s with
      primary := .cpuOn c timeout
      mem := Function.update s.mem c.index { s.mem c.index with data1 := c.data.arg } }
  | .cpuOn c timeout =>
    (valPeGetMpidIndex p.table c.index).map fun mpid => psciCpuOn s c timeout (p.peWith mpid)
  | .fail c arg0 =>
    some { s with
      primary := .idle
      mem := Function.update s.mem c.index { s.mem c.index with status := cpuOnFailure arg0 }
      returned := s.returned ++ [(c, some (cpuOnFailure arg0))] }

/-- The next step of PE `i`, in `val_test_entry`. The index it computes is one of the table,
so `val_get_test_data` always reads. -/
def valTestEntryStep (s : DispatchState) (i : Nat) : Option Pe :=
  match (s.pe i).pc with
  | .off | .primary => none
  | .entry => some { s.pe i with pc := .gotData0 (s.mem (p.ownIndex i)).data0 }
  | .gotData0 payload =>
    some { s.pe i with pc := .gotData1 ⟨payload, (s.mem (p.ownIndex i)).data1⟩ }
  | .gotData1 data =>
    some { s.pe i with pc := .running data, executed := (s.pe i).executed ++ [data] }
  | .running _ => some { s.pe i with pc := .cpuOff }
  | .cpuOff => some { s.pe i with pc := .off }

/-- One step of the party that the label names. `report` is a `val_set_status` of the
payload that runs on PE `i`. -/
def dispatchStep (s : DispatchState) : DispatchLabel → Option DispatchState
  | .invoke c =>
    if s.primary = .idle then
      -- an index above `num_of_pe` is reported on the console only
      if p.table.numOfPe.toNat < c.index then
        some { s with calls := s.calls ++ [c], returned := s.returned ++ [(c, none)] }
      else some { s with primary := .setData0 c timeoutLarge, calls := s.calls ++ [c] }
    else none
  | .primary => valExecuteOnPeStep p s
  | .advance i =>
    if i < p.numPe then
      (valTestEntryStep p s i).map fun q => { s with pe := Function.update s.pe i q }
    else none
  | .report i status =>
    match (s.pe i).pc with
    | .running _ =>
      if i < p.numPe then
        some { s with
          mem := Function.update s.mem (p.ownIndex i)
            { s.mem (p.ownIndex i) with status := status }
          pe := Function.update s.pe i
            { s.pe i with
              reported :=
                if isResultPending status then (s.pe i).reported
                else (s.pe i).executed.length } }
      else none
    | _ => none

/-! ## The properties -/

/-- Every other PE is off, and no call has been made. -/
structure AllOff (s : DispatchState) : Prop where
  primary : s.primary = .idle
  calls : s.calls = []
  returned : s.returned = []
  pe : ∀ i < p.numPe, ((s.pe i).pc = .off ∨ (s.pe i).pc = .primary) ∧ (s.pe i).executed = []

/-- What the calls for PE `i` that stored no failure status asked for. -/
def successes (returned : List (DispatchCall × Option (BitVec 32))) (i : Nat) : List TestData :=
  returned.filterMap fun r => if r.2 = none ∧ r.1.index = i then some r.1.data else none

/-- The successful calls for PE `i` so far. -/
def succeeded (s : DispatchState) (i : Nat) : List TestData := successes s.returned i

/-- The last payload given to PE `i` has started and has stored a status other than
PENDING. -/
def Settled (s : DispatchState) (i : Nat) : Prop :=
  (s.pe i).executed.length = (succeeded s i).length ∧
    (s.pe i).reported = (s.pe i).executed.length

/-- A PE gets a new payload only when it is through with the last one. -/
def Disciplined (s : DispatchState) : DispatchLabel → Prop
  | .invoke c => c.index < p.numPe → Settled s c.index
  | _ => True

instance (s : DispatchState) (i : Nat) : Decidable (Settled s i) :=
  inferInstanceAs (Decidable (_ ∧ _))

instance (s : DispatchState) (l : DispatchLabel) : Decidable (Disciplined p s l) :=
  match l with
  | .invoke _ => inferInstanceAs (Decidable (_ → _))
  | .primary | .advance _ | .report _ _ => isTrue trivial

/-- The call that `val_execute_on_pe` is at. -/
def DispatchPc.current : DispatchPc → List DispatchCall
  | .idle => []
  | .setData0 c _ | .setData1 c _ | .cpuOn c _ | .fail c _ => [c]

/-- Every call is accounted for; a PE executes what its successful calls asked for, in
order, and at most the last of them has yet to start. -/
structure DispatchedOnce (s : DispatchState) : Prop where
  calls : s.calls = s.returned.map Prod.fst ++ s.primary.current
  executed : ∀ i < p.numPe, (s.pe i).executed <+: succeeded s i ∧
    (succeeded s i).length ≤ (s.pe i).executed.length + 1

end EnterpriseAcs.Mpam
