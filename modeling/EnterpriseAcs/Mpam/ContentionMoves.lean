import EnterpriseAcs.Mpam.Contention
import EnterpriseAcs.Mpam.DispatchOnce

/-!
# The steps of the contending PEs

What the primary and the other PEs can do, one constructor for each way they go on, and what a step
means for the PE that takes it and for the dispatch under it.

* `primaryMoves_of_step`, `peMoves_of_step`: the steps of the two parties.
* `settled_iff_done`: a PE is settled when it has reported its payload.
* `PeMoves.own`: a PE stays as done as it is, or it reports.
-/

namespace EnterpriseAcs.Mpam

open Transition Ledger

variable {c : Contention}

/-! ## What the primary can do -/

/-- The steps of the primary, one constructor for each way `payload_primary` goes on. -/
inductive PrimaryMoves (c : Contention) (s : ContendState) : ContendState → Prop where
  | measured (hpc : s.pc = .node) (hTodo : s.todo = []) :
      PrimaryMoves c s { s with pc := .ended .measured }
  | allocated {n : CopyNode} {rest : List CopyNode} (hpc : s.pc = .node)
      (hTodo : s.todo = n :: rest)
      (hStatus : (sharedMemcpybuf n.firmware n.request c.platform.table.numOfPe).status = true) :
      PrimaryMoves c s { s with
        pc := .raise 0
        slots := (sharedMemcpybuf n.firmware n.request c.platform.table.numOfPe).slots
        log := s.log ++ (sharedMemcpybuf n.firmware n.request c.platform.table.numOfPe).log }
  | copyFails {n : CopyNode} {rest : List CopyNode} (hpc : s.pc = .node)
      (hTodo : s.todo = n :: rest)
      (hStatus : (sharedMemcpybuf n.firmware n.request c.platform.table.numOfPe).status = false) :
      PrimaryMoves c s { s with
        pc := .ended .copyFails
        slots := (sharedMemcpybuf n.firmware n.request c.platform.table.numOfPe).slots
        log := s.log ++ (sharedMemcpybuf n.firmware n.request c.platform.table.numOfPe).log }
  | raise {scenario : Nat} (hpc : s.pc = .raise scenario) :
      PrimaryMoves c s { s with pc := .next scenario 0, contendFlag := 1 }
  | itself {scenario : Nat} (hpc : s.pc = .next scenario c.primaryPe)
      (hPe : c.primaryPe < c.numPe) :
      PrimaryMoves c s { s with pc := .next scenario (c.primaryPe + 1) }
  | pend {scenario pe : Nat} (hpc : s.pc = .next scenario pe) (hPe : c.Secondary pe) :
      PrimaryMoves c s { s with
        pc := .start scenario pe
        dispatch := s.dispatch.setStatus pe (resultPending c.test.num) }
  | allStarted {scenario pe : Nat} (hpc : s.pc = .next scenario pe) (hPe : c.numPe ≤ pe) :
      PrimaryMoves c s { s with pc := .measure scenario }
  | invoke {scenario pe : Nat} {d : DispatchState} (hpc : s.pc = .start scenario pe)
      (hd : dispatchStep c.platform s.dispatch (.invoke (c.call pe)) = some d) :
      PrimaryMoves c s { s with pc := .starting scenario pe, dispatch := d }
  | started {scenario pe : Nat} (hpc : s.pc = .starting scenario pe)
      (hIdle : s.dispatch.primary = .idle) :
      PrimaryMoves c s { s with pc := .next scenario (pe + 1) }
  | starting {scenario pe : Nat} {d : DispatchState} (hpc : s.pc = .starting scenario pe)
      (hBusy : s.dispatch.primary ≠ .idle)
      (hd : dispatchStep c.platform s.dispatch .primary = some d) :
      PrimaryMoves c s { s with dispatch := d }
  | measure {scenario : Nat} (hpc : s.pc = .measure scenario) :
      PrimaryMoves c s { s with pc := .lower scenario }
  | lower {scenario : Nat} (hpc : s.pc = .lower scenario) :
      PrimaryMoves c s { s with pc := .sweep scenario c.timeout 0 false, contendFlag := 0 }
  | poll {scenario pe : Nat} {timeout : BitVec 64} {pending : Bool}
      (hpc : s.pc = .sweep scenario timeout pe pending) (hPe : pe < c.numPe) :
      PrimaryMoves c s { s with
        pc := .sweep scenario timeout (pe + 1)
          (pending || (pe ≠ c.primaryPe && isResultPending (s.status pe))) }
  | swept {scenario pe : Nat} {timeout : BitVec 64} {pending : Bool}
      (hpc : s.pc = .sweep scenario timeout pe pending) (hPe : c.numPe ≤ pe) :
      PrimaryMoves c s { s with pc := afterSweep scenario timeout pending }
  | free (hpc : s.pc = .free) :
      PrimaryMoves c s { s with
        pc := .node
        todo := s.todo.tail
        log := s.log ++ palMemFreeSharedMemcpybuf s.slots c.numPe memcpyBufSize }
  | timedOut (hpc : s.pc = .timedOut) :
      PrimaryMoves c s { s with
        pc := .ended .timedOut
        log := s.log ++ palMemFreeSharedMemcpybuf s.slots c.numPe memcpyBufSize }

theorem primaryMoves_of_step {s t : ContendState} (h : payloadPrimaryStep c s = some t) :
    PrimaryMoves c s t := by
  unfold payloadPrimaryStep at h
  split at h
  · rename_i hpc
    split at h
    · rename_i hTodo
      cases h
      exact .measured hpc hTodo
    · rename_i n rest hTodo
      cases h
      cases hStatus : (sharedMemcpybuf n.firmware n.request c.platform.table.numOfPe).status with
      | true => exact .allocated hpc hTodo hStatus
      | false => exact .copyFails hpc hTodo hStatus
  · rename_i hpc
    cases h
    exact .raise hpc
  · rename_i pe hpc
    split at h
    · rename_i hlt
      split at h
      · rename_i hOwn
        cases h
        subst hOwn
        exact .itself hpc hlt
      · rename_i hOther
        cases h
        exact .pend hpc ⟨hlt, hOther⟩
    · rename_i hEnd
      cases h
      exact .allStarted hpc (Nat.le_of_not_lt hEnd)
  · rename_i hpc
    obtain ⟨d, hd, rfl⟩ := Option.map_eq_some_iff.mp h
    exact .invoke hpc hd
  · rename_i hpc
    split at h
    · rename_i hIdle
      cases h
      exact .started hpc hIdle
    · rename_i hBusy
      obtain ⟨d, hd, rfl⟩ := Option.map_eq_some_iff.mp h
      exact .starting hpc hBusy hd
  · rename_i hpc
    cases h
    exact .measure hpc
  · rename_i hpc
    cases h
    exact .lower hpc
  · rename_i hpc
    split at h
    · rename_i hlt
      cases h
      exact .poll hpc hlt
    · rename_i hEnd
      cases h
      exact .swept hpc (Nat.le_of_not_lt hEnd)
  · rename_i hpc
    cases h
    exact .free hpc
  · rename_i hpc
    cases h
    exact .timedOut hpc
  · cases h

/-! ## The dispatch layer under it -/

section Dispatch

variable {p : Platform} {d e : DispatchState}

@[simp] theorem setStatus_pe (d : DispatchState) (i : Nat) (status : BitVec 32) :
    (d.setStatus i status).pe = d.pe := rfl

@[simp] theorem setStatus_primary (d : DispatchState) (i : Nat) (status : BitVec 32) :
    (d.setStatus i status).primary = d.primary := rfl

@[simp] theorem setStatus_returned (d : DispatchState) (i : Nat) (status : BitVec 32) :
    (d.setStatus i status).returned = d.returned := rfl

theorem setStatus_data (d : DispatchState) (i : Nat) (status : BitVec 32) (k : Nat) :
    ((d.setStatus i status).mem k).data0 = (d.mem k).data0 ∧
      ((d.setStatus i status).mem k).data1 = (d.mem k).data1 := by
  by_cases hk : k = i
  · subst k
    simp only [DispatchState.setStatus, Function.update_self, and_self]
  · simp only [DispatchState.setStatus, Function.update_of_ne hk, and_self]

/-- A status word is not part of the dispatch. -/
theorem dispatchInv_setStatus {i : Nat} {status : BitVec 32} (h : DispatchInv p d) :
    DispatchInv p (d.setStatus i status) := by
  refine ⟨h.calls, fun k hk => ?_, ?_, h.index_le⟩
  · obtain ⟨h0, h1⟩ := setStatus_data d i status k
    exact (h.follows k hk).congr h0 h1
  · have hServing := h.serving.update (i := i) (q := d.pe i) (fun _ => id)
      (setStatus_data d i status)
    rwa [Function.update_eq_self] at hServing

theorem settled_congr {i : Nat} (hReturned : e.returned = d.returned) (hPe : e.pe i = d.pe i) :
    Settled e i ↔ Settled d i := by
  rw [Settled, Settled, succeeded, succeeded, hReturned, hPe]

/-- What one step of `val_execute_on_pe` for the call `call` does to the others: it goes on, it
starts the PE, or it gives up. -/
inductive Serves (call : DispatchCall) (d e : DispatchState) : Prop where
  | goesOn (hCurrent : e.primary.current = [call]) (hPe : e.pe = d.pe)
      (hReturned : e.returned = d.returned) (hStatus : ∀ k, (e.mem k).status = (d.mem k).status)
  | starts (hIdle : e.primary = .idle) (hOff : (d.pe call.index).pc = .off)
      (hPe : e.pe = Function.update d.pe call.index { d.pe call.index with pc := .entry })
      (hReturned : e.returned = d.returned ++ [(call, none)]) (hMem : e.mem = d.mem)
  | givesUp {arg0 : BitVec 64} (hpc : d.primary = .fail call arg0) (hIdle : e.primary = .idle)
      (hPe : e.pe = d.pe)
      (hReturned : e.returned = d.returned ++ [(call, some (cpuOnFailure arg0))])
      (hOwn : (e.mem call.index).status = cpuOnFailure arg0)
      (hStatus : ∀ k, k ≠ call.index → (e.mem k).status = (d.mem k).status)

theorem update_status {mem : Nat → SharedMem} {i : Nat} {m : SharedMem}
    (h : m.status = (mem i).status) (k : Nat) :
    (Function.update mem i m k).status = (mem k).status := by
  by_cases hk : k = i
  · subst k
    rw [Function.update_self, h]
  · rw [Function.update_of_ne hk]

theorem serves_of_step {call : DispatchCall} (hInv : DispatchInv p d)
    (hCurrent : d.primary.current = [call]) (h : dispatchStep p d .primary = some e) :
    Serves call d e := by
  have hIndex := hInv.index_le
  cases dispatched_of_step h with
  | payload hpc =>
    rw [hpc, DispatchPc.current, List.singleton_inj] at hCurrent
    subst hCurrent
    exact .goesOn rfl rfl rfl (update_status rfl)
  | arg hpc =>
    rw [hpc, DispatchPc.current, List.singleton_inj] at hCurrent
    subst hCurrent
    exact .goesOn rfl rfl rfl (update_status rfl)
  | started hpc hMpid hTarget hOff =>
    rw [hpc, DispatchPc.current, List.singleton_inj] at hCurrent
    subst hCurrent
    simp only [hpc, DispatchPc.current, List.mem_singleton, forall_eq] at hIndex
    obtain ⟨-, hOwn⟩ := target_eq hIndex hMpid
    obtain rfl := Option.some_inj.mp (hTarget.symm.trans hOwn)
    exact .starts rfl hOff rfl rfl rfl
  | again hpc hTimeout =>
    rw [hpc, DispatchPc.current, List.singleton_inj] at hCurrent
    subst hCurrent
    exact .goesOn rfl rfl rfl fun _ => rfl
  | refused hpc hArg =>
    rw [hpc, DispatchPc.current, List.singleton_inj] at hCurrent
    subst hCurrent
    exact .goesOn rfl rfl rfl fun _ => rfl
  | @failed c arg0 hpc =>
    rw [hpc, DispatchPc.current, List.singleton_inj] at hCurrent
    subst hCurrent
    refine .givesUp hpc rfl rfl rfl ?_ fun k hk => ?_
    · simp only [Function.update_self]
    · simp only [Function.update_of_ne hk]

end Dispatch

/-! ## One PE -/

/-- What the payload has of the register and of the buffer, at a program point. -/
def PayloadPc.Has (c : Contention) (before src : BitVec 64) : PayloadPc → BitVec 64 → Prop
  | .enter | .pass | .finished => fun mpam2 => mpam2 = before
  | .configure saved => fun mpam2 => saved = before ∧ mpam2 = before
  | .getBuf saved | .fail saved | .failed saved | .restore saved => fun mpam2 =>
    saved = before ∧ mpam2 = c.configured before
  | .test saved buf | .copy saved buf => fun mpam2 =>
    saved = before ∧ mpam2 = c.configured before ∧ buf = src

/-- The last status is stored. -/
def PayloadPc.reported : PayloadPc → Bool
  | .failed _ | .finished => true
  | .enter | .configure _ | .getBuf _ | .fail _ | .test _ _ | .copy _ _ | .restore _
  | .pass => false

/-- The branch for a null buffer. -/
def PayloadPc.failing : PayloadPc → Bool
  | .fail _ | .failed _ => true
  | .enter | .configure _ | .getBuf _ | .test _ _ | .copy _ _ | .restore _ | .pass
  | .finished => false

/-- How far the payload is, and what the PE has reported. -/
def Pe.Reports (q : Pe) (pc : PayloadPc) : Prop :=
  match q.pc with
  | .primary => False
  | .off | .cpuOff => pc = .enter ∧ q.reported = q.executed.length
  | .entry | .gotData0 _ | .gotData1 _ => pc = .enter ∧ q.reported ≤ q.executed.length
  | .running _ =>
    if pc.reported then q.reported = q.executed.length else q.reported < q.executed.length

/-- A PE, its payload and its register fit together. -/
structure PeFits (c : Contention) (before src : BitVec 64) (q : Pe) (pc : PayloadPc)
    (mpam2 : BitVec 64) : Prop where
  has : pc.Has c before src mpam2
  reports : q.Reports pc
  unfailing : pc.failing = false

def PeOk (c : Contention) (before : BitVec 64) (s : ContendState) (i : Nat) : Prop :=
  PeFits c before (s.slots i).address (s.dispatch.pe i) (s.payload i) (s.mpam2 i)

/-- A payload that does not have the buffer does not need it. -/
theorem PayloadPc.Has.congr {before src src' mpam2 : BitVec 64} {pc : PayloadPc}
    (h : pc.Has c before src mpam2) (hPc : pc = .enter ∨ pc.reported = true) :
    pc.Has c before src' mpam2 := by
  cases pc with
  | test saved buf | copy saved buf => rcases hPc with hPc | hPc <;> cases hPc
  | _ => exact h

/-! ## What another PE can do -/

/-- The steps of `payload_secondary` that only touch the register of the PE: the point it goes to,
and what the register holds then. -/
inductive Works (c : Contention) (s : ContendState) (i : Nat) : PayloadPc → PayloadPc →
    BitVec 64 → Prop where
  | enter : Works c s i .enter (.configure (s.mpam2 i)) (s.mpam2 i)
  | configure (saved : BitVec 64) :
      Works c s i (.configure saved) (.getBuf saved) (c.configured saved)
  | noBuf {saved src : BitVec 64} (hSrc : src = (s.slots (c.platform.ownIndex i)).address)
      (hNull : src = 0 ∨ src + copyBufSize = 0) :
      Works c s i (.getBuf saved) (.fail saved) (s.mpam2 i)
  | getBuf {saved src : BitVec 64} (hSrc : src = (s.slots (c.platform.ownIndex i)).address) :
      Works c s i (.getBuf saved) (.test saved src) (s.mpam2 i)
  | failed (saved : BitVec 64) : Works c s i (.failed saved) .finished saved
  | copies (saved src : BitVec 64) (hFlag : s.contendFlag ≠ 0) :
      Works c s i (.test saved src) (.copy saved src) (s.mpam2 i)
  | stops (saved src : BitVec 64) : Works c s i (.test saved src) (.restore saved) (s.mpam2 i)
  | again (saved src : BitVec 64) : Works c s i (.copy saved src) (.test saved src) (s.mpam2 i)
  | restore (saved : BitVec 64) : Works c s i (.restore saved) .pass saved

/-- The steps that store the last status. -/
inductive Reporting (c : Contention) : PayloadPc → PayloadPc → BitVec 32 → Prop where
  | fail (saved : BitVec 64) :
      Reporting c (.fail saved) (.failed saved) (resultFail c.test.num 1)
  | pass : Reporting c .pass .finished (resultPass c.test.num 1)

/-- The steps of PE `i`. -/
inductive PeMoves (c : Contention) (s : ContendState) (i : Nat) : ContendState → Prop where
  | enters {d : DispatchState} (hAway : ∀ data, (s.dispatch.pe i).pc ≠ .running data)
      (hd : dispatchStep c.platform s.dispatch (.advance i) = some d) :
      PeMoves c s i { s with dispatch := d }
  | works {data : TestData} {pc : PayloadPc} {mpam2 : BitVec 64}
      (hpc : (s.dispatch.pe i).pc = .running data) (hWorks : Works c s i (s.payload i) pc mpam2) :
      PeMoves c s i { s with
        payload := Function.update s.payload i pc
        mpam2 := Function.update s.mpam2 i mpam2 }
  | reports {data : TestData} {pc : PayloadPc} {status : BitVec 32} {d : DispatchState}
      (hpc : (s.dispatch.pe i).pc = .running data)
      (hReporting : Reporting c (s.payload i) pc status)
      (hd : dispatchStep c.platform s.dispatch (.report i status) = some d) :
      PeMoves c s i { s with dispatch := d, payload := Function.update s.payload i pc }
  | leaves {data : TestData} {d : DispatchState} (hpc : (s.dispatch.pe i).pc = .running data)
      (hFinished : s.payload i = .finished)
      (hd : dispatchStep c.platform s.dispatch (.advance i) = some d) :
      PeMoves c s i { s with dispatch := d, payload := Function.update s.payload i .enter }

/-- A step of the payload that leaves the register as it is. -/
theorem PeMoves.plain {s : ContendState} {i : Nat} {data : TestData} {pc : PayloadPc}
    (hpc : (s.dispatch.pe i).pc = .running data)
    (hWorks : Works c s i (s.payload i) pc (s.mpam2 i)) :
    PeMoves c s i { s with payload := Function.update s.payload i pc } := by
  have hMoves := PeMoves.works hpc hWorks
  rwa [Function.update_eq_self] at hMoves

theorem peMoves_of_payload {s t : ContendState} {i : Nat} {data : TestData}
    (hpc : (s.dispatch.pe i).pc = .running data) (h : payloadSecondaryStep c s i = some t) :
    PeMoves c s i t := by
  unfold payloadSecondaryStep at h
  dsimp only at h
  split at h
  · rename_i hPay
    cases h
    exact .plain hpc (hPay ▸ .enter)
  · rename_i saved hPay
    cases h
    exact .works hpc (hPay ▸ .configure saved)
  · rename_i saved hPay
    cases h
    split
    · rename_i hNull
      exact .plain hpc (hPay ▸ .noBuf rfl hNull)
    · exact .plain hpc (hPay ▸ .getBuf rfl)
  · rename_i saved hPay
    obtain ⟨d, hd, rfl⟩ := Option.map_eq_some_iff.mp h
    exact .reports hpc (hPay ▸ .fail saved) hd
  · rename_i saved hPay
    cases h
    exact .works hpc (hPay ▸ .failed saved)
  · rename_i saved src hPay
    cases h
    split
    · exact .plain hpc (hPay ▸ .stops saved src)
    · rename_i hFlag
      exact .plain hpc (hPay ▸ .copies saved src hFlag)
  · rename_i saved src hPay
    cases h
    exact .plain hpc (hPay ▸ .again saved src)
  · rename_i saved hPay
    cases h
    exact .works hpc (hPay ▸ .restore saved)
  · rename_i hPay
    obtain ⟨d, hd, rfl⟩ := Option.map_eq_some_iff.mp h
    exact .reports hpc (hPay ▸ .pass) hd
  · rename_i hPay
    obtain ⟨d, hd, rfl⟩ := Option.map_eq_some_iff.mp h
    exact .leaves hpc hPay hd

theorem peMoves_of_step {s t : ContendState} {i : Nat} (h : contendStep c s (.pe i) = some t) :
    PeMoves c s i t := by
  simp only [contendStep] at h
  split at h
  · rename_i data hpc
    exact peMoves_of_payload hpc h
  · rename_i hAway
    obtain ⟨d, hd, rfl⟩ := Option.map_eq_some_iff.mp h
    exact .enters hAway hd

/-! ## A step of another PE -/

/-- The PE has reported its payload and goes on to `CPU_OFF`. -/
def Pe.Done (q : Pe) (pc : PayloadPc) : Prop :=
  match q.pc with
  | .off | .cpuOff => True
  | .running _ => pc.reported = true
  | _ => False

/-- Under the invariant of the dispatch, a PE is settled when it is done. -/
theorem settled_iff_done {s : ContendState} {i : Nat} (hInv : DispatchInv c.platform s.dispatch)
    (hi : i < c.numPe) (hReports : (s.dispatch.pe i).Reports (s.payload i)) :
    Settled s.dispatch i ↔ (s.dispatch.pe i).Done (s.payload i) := by
  have hFollows := hInv.follows i hi
  unfold Pe.Follows at hFollows
  unfold Pe.Reports at hReports
  unfold Pe.Done
  rw [Settled]
  cases hpc : (s.dispatch.pe i).pc with
  | primary =>
    rw [hpc] at hReports
    exact hReports.elim
  | off | cpuOff =>
    simp only [hpc] at hFollows hReports ⊢
    rw [hFollows]
    exact iff_of_true ⟨rfl, hReports.2⟩ trivial
  | entry | gotData0 payload | gotData1 data =>
    simp only [hpc] at hFollows
    refine iff_of_false (fun h => ?_) not_false
    have hLength := h.1
    rw [hFollows, List.length_append, List.length_singleton] at hLength
    omega
  | running data =>
    simp only [hpc] at hFollows hReports ⊢
    rw [hFollows]
    cases hDone : (s.payload i).reported with
    | true =>
      rw [hDone, if_pos rfl] at hReports
      exact iff_of_true ⟨rfl, hReports⟩ rfl
    | false =>
      rw [hDone, if_neg Bool.false_ne_true] at hReports
      refine iff_of_false (fun h => ?_) Bool.false_ne_true
      have hSame := h.2
      omega

/-- What a step of PE `i` leaves of the rest. -/
structure Apart (c : Contention) (i : Nat) (s t : ContendState) : Prop where
  pc : t.pc = s.pc
  todo : t.todo = s.todo
  slots : t.slots = s.slots
  log : t.log = s.log
  flag : t.contendFlag = s.contendFlag
  primary : t.dispatch.primary = s.dispatch.primary
  returned : t.dispatch.returned = s.dispatch.returned
  pe : ∀ k, k ≠ i → t.dispatch.pe k = s.dispatch.pe k ∧ t.payload k = s.payload k ∧
    t.mpam2 k = s.mpam2 k ∧ t.status k = s.status k

theorem PeMoves.apart {s t : ContendState} {i : Nat} (h : PeMoves c s i t) : Apart c i s t := by
  cases h with
  | enters hAway hd =>
    cases dispatched_of_step hd with
    | advanced hi hq =>
      exact ⟨rfl, rfl, rfl, rfl, rfl, rfl, rfl,
        fun k hk => ⟨Function.update_of_ne hk _ _, rfl, rfl, rfl⟩⟩
  | works hpc hWorks =>
    exact ⟨rfl, rfl, rfl, rfl, rfl, rfl, rfl,
      fun k hk => ⟨rfl, Function.update_of_ne hk _ _, Function.update_of_ne hk _ _, rfl⟩⟩
  | reports hpc hReporting hd =>
    cases dispatched_of_step hd with
    | reported hi hRunning =>
      refine ⟨rfl, rfl, rfl, rfl, rfl, rfl, rfl, fun k hk =>
        ⟨Function.update_of_ne hk _ _, Function.update_of_ne hk _ _, rfl, ?_⟩⟩
      have hOwn : k ≠ c.platform.ownIndex i := by rwa [Platform.ownIndex_eq hi]
      simp only [ContendState.status, Function.update_of_ne hOwn]
  | leaves hpc hFinished hd =>
    cases dispatched_of_step hd with
    | advanced hi hq =>
      exact ⟨rfl, rfl, rfl, rfl, rfl, rfl, rfl,
        fun k hk => ⟨Function.update_of_ne hk _ _, Function.update_of_ne hk _ _, rfl, rfl⟩⟩

theorem PeMoves.dispatchInv {s t : ContendState} {i : Nat} (h : PeMoves c s i t)
    (hInv : DispatchInv c.platform s.dispatch) : DispatchInv c.platform t.dispatch := by
  cases h with
  | enters hAway hd => exact dispatchInv_advance hInv hd
  | works hpc hWorks => exact hInv
  | reports hpc hReporting hd => exact dispatchInv_report hInv hd
  | leaves hpc hFinished hd => exact dispatchInv_advance hInv hd

/-- What a step of PE `i` makes of the PE itself: it stays as done as it was, or it reports. -/
structure OwnStep (c : Contention) (before : BitVec 64) (i : Nat) (s t : ContendState) : Prop where
  ok : PeOk c before t i
  done : (s.dispatch.pe i).Done (s.payload i) → (t.dispatch.pe i).Done (t.payload i) ∧
    t.status i = s.status i
  notYet : ¬ (s.dispatch.pe i).Done (s.payload i) →
    (¬ (t.dispatch.pe i).Done (t.payload i) ∧ t.status i = s.status i) ∨
      ((t.dispatch.pe i).Done (t.payload i) ∧ isResultPending (t.status i) = false)

/-- A step that does not touch the status, and leaves the PE as done as it was. -/
theorem OwnStep.silent {s t : ContendState} {i : Nat} {before : BitVec 64} (hOk : PeOk c before t i)
    (hStatus : t.status i = s.status i)
    (hDone : (t.dispatch.pe i).Done (t.payload i) ↔ (s.dispatch.pe i).Done (s.payload i)) :
    OwnStep c before i s t :=
  ⟨hOk, fun h => ⟨hDone.mpr h, hStatus⟩, fun h => Or.inl ⟨fun h' => h (hDone.mp h'), hStatus⟩⟩

theorem ownStep_enters {s : ContendState} {i : Nat} {before : BitVec 64} {q : Pe}
    (hAway : ∀ data, (s.dispatch.pe i).pc ≠ .running data) (hOk : PeOk c before s i)
    (hq : valTestEntryStep c.platform s.dispatch i = some q) :
    OwnStep c before i s
      { s with dispatch := { s.dispatch with pe := Function.update s.dispatch.pe i q } } := by
  have hReports := hOk.reports
  have hEnd : q.Reports (s.payload i) ∧
      (q.Done (s.payload i) ↔ (s.dispatch.pe i).Done (s.payload i)) := by
    unfold Pe.Reports at hReports
    unfold valTestEntryStep at hq
    unfold Pe.Done
    split at hq
    · cases hq
    · cases hq
    · rename_i hpc
      simp only [hpc] at hReports ⊢
      cases hq
      exact ⟨hReports, Iff.rfl⟩
    · rename_i payload hpc
      simp only [hpc] at hReports ⊢
      cases hq
      exact ⟨hReports, Iff.rfl⟩
    · rename_i data hpc
      simp only [hpc] at hReports ⊢
      cases hq
      have hLength := hReports.2
      simp only [Pe.Reports, hReports.1, PayloadPc.reported, List.length_append,
        List.length_singleton, Bool.false_eq_true, if_false, and_true]
      exact Nat.lt_succ_of_le hLength
    · rename_i data hpc
      exact absurd hpc (hAway data)
    · rename_i hpc
      simp only [hpc] at hReports ⊢
      cases hq
      exact ⟨hReports, Iff.rfl⟩
  apply OwnStep.silent
  · refine ⟨hOk.has, ?_, hOk.unfailing⟩
    simpa only [Function.update_self] using hEnd.1
  · rfl
  · simpa only [Function.update_self] using hEnd.2

theorem ownStep_works {s : ContendState} {i : Nat} {before : BitVec 64} {data : TestData}
    {pc : PayloadPc} {mpam2 : BitVec 64} (hOwn : c.platform.ownIndex i = i)
    (hpc : (s.dispatch.pe i).pc = .running data) (hOk : PeOk c before s i)
    (hSlot : (s.payload i).reported = false →
      (s.slots i).address ≠ 0 ∧ (s.slots i).address + copyBufSize ≠ 0)
    (hWorks : Works c s i (s.payload i) pc mpam2) :
    OwnStep c before i s { s with
      payload := Function.update s.payload i pc
      mpam2 := Function.update s.mpam2 i mpam2 } := by
  obtain ⟨hHas, hReports, hUnfailing⟩ := hOk
  simp only [Pe.Reports, hpc] at hReports
  have hEnd : pc.Has c before (s.slots i).address mpam2 ∧ pc.failing = false ∧
      pc.reported = (s.payload i).reported := by
    generalize hPay : s.payload i = old at hWorks hHas hReports hUnfailing hSlot ⊢
    cases hWorks with
    | enter => exact ⟨⟨hHas, hHas⟩, rfl, rfl⟩
    | configure saved => exact ⟨⟨hHas.1, hHas.1 ▸ rfl⟩, rfl, rfl⟩
    | noBuf hSrc hNull =>
      rw [hOwn] at hSrc
      subst hSrc
      obtain ⟨hFirst, hSecond⟩ := hSlot rfl
      exact absurd hNull (not_or.mpr ⟨hFirst, hSecond⟩)
    | getBuf hSrc =>
      rw [hOwn] at hSrc
      exact ⟨⟨hHas.1, hHas.2, hSrc⟩, rfl, rfl⟩
    | failed saved => cases hUnfailing
    | copies saved src hFlag => exact ⟨hHas, rfl, rfl⟩
    | stops saved src => exact ⟨⟨hHas.1, hHas.2.1⟩, rfl, rfl⟩
    | again saved src => exact ⟨hHas, rfl, rfl⟩
    | restore saved => exact ⟨hHas.1, rfl, rfl⟩
  obtain ⟨hHas', hUnfailing', hReported⟩ := hEnd
  refine OwnStep.silent ⟨?_, ?_, ?_⟩ rfl ?_
  · simpa only [Function.update_self] using hHas'
  · simpa only [Pe.Reports, hpc, Function.update_self, hReported] using hReports
  · simpa only [Function.update_self] using hUnfailing'
  · simp only [Pe.Done, hpc, Function.update_self, hReported]

/-- A payload that reports has its register back. -/
theorem reporting_pass {before src mpam2 : BitVec 64} {old pc : PayloadPc} {status : BitVec 32}
    (h : Reporting c old pc status) (hHas : old.Has c before src mpam2)
    (hUnfailing : old.failing = false) :
    old.reported = false ∧ pc = .finished ∧ mpam2 = before ∧ status = resultPass c.test.num 1 := by
  cases h with
  | fail saved => cases hUnfailing
  | pass => exact ⟨rfl, rfl, hHas, rfl⟩

theorem resultPass_not_pending (test : LatencyTest) :
    isResultPending (resultPass test.num 1) = false := by
  cases test <;> decide

theorem PeMoves.own {s t : ContendState} {i : Nat} {before : BitVec 64} (h : PeMoves c s i t)
    (hi : i < c.numPe) (hOk : PeOk c before s i)
    (hSlot : ¬ (s.dispatch.pe i).Done (s.payload i) →
      (s.slots i).address ≠ 0 ∧ (s.slots i).address + copyBufSize ≠ 0) :
    OwnStep c before i s t := by
  cases h with
  | enters hAway hd =>
    cases dispatched_of_step hd with
    | advanced hi hq => exact ownStep_enters hAway hOk hq
  | works hpc hWorks =>
    apply ownStep_works (Platform.ownIndex_eq hi) hpc hOk _ hWorks
    intro hOpen
    apply hSlot
    simp only [Pe.Done, hpc, hOpen, Bool.false_eq_true, not_false_iff]
  | reports hpc hReporting hd =>
    obtain ⟨hHas, hReports, hUnfailing⟩ := hOk
    obtain ⟨hOpen, rfl, hRestored, rfl⟩ := reporting_pass hReporting hHas hUnfailing
    cases dispatched_of_step hd with
    | reported hi' hRunning =>
      refine ⟨⟨?_, ?_, ?_⟩, fun hDone => ?_, fun _ => Or.inr ⟨?_, ?_⟩⟩
      · simpa only [Function.update_self, PayloadPc.Has] using hRestored
      · simp only [Pe.Reports, Function.update_self, hpc, PayloadPc.reported, if_true,
          resultPass_not_pending, Bool.false_eq_true, if_false]
      · simp only [Function.update_self, PayloadPc.failing]
      · simp only [Pe.Done, hpc, hOpen, Bool.false_eq_true] at hDone
      · simp only [Pe.Done, Function.update_self, hpc, PayloadPc.reported]
      · simp only [ContendState.status, Platform.ownIndex_eq hi, Function.update_self,
          resultPass_not_pending]
  | leaves hpc hFinished hd =>
    obtain ⟨hHas, hReports, hUnfailing⟩ := hOk
    rw [hFinished] at hHas hReports
    cases dispatched_of_step hd with
    | advanced hi hq =>
      simp only [valTestEntryStep, hpc, Option.some_inj] at hq
      subst hq
      simp only [Pe.Reports, hpc, PayloadPc.reported, if_true] at hReports
      refine OwnStep.silent ⟨?_, ?_, ?_⟩ rfl ?_
      · simpa only [Function.update_self, PayloadPc.Has] using hHas
      · simp only [Pe.Reports, Function.update_self, hReports, and_self]
      · simp only [Function.update_self, PayloadPc.failing]
      · simp only [Pe.Done, Function.update_self, hpc, hFinished, PayloadPc.reported]

end EnterpriseAcs.Mpam
