import EnterpriseAcs.Library.Restart
import Mathlib.Data.List.Basic

/-!
# The reset-shutdown test

The test resets the machine once at each TPL. Before each reset it writes a record of the index;
after a reboot it reads the record and goes on from there. Which resets reboot the machine is a
parameter.

* `resetLoop_progress`: the loop, from any index on.
* `bbTestResetShutdown_progress`: one run of the test, from the start or after a reboot.
* `resets_recorded_once`: the assertions of the successive runs.
-/

namespace EnterpriseAcs.Sbbr

open Restart

/-! ## The test -/

abbrev EfiStatus := BitVec 64

def efiSuccess : EfiStatus := 0
def efiLoadError : EfiStatus := 0x8000000000000001

/-- `EFI_ERROR`. -/
def efiError (status : EfiStatus) : Bool := status.msb

/-- `RESET_DATA`; nothing here reads `RepeatTimes`. -/
structure ResetData where
  step : Nat
  tplIndex : Nat
  deriving DecidableEq, Repr

/-- `sizeof (RESET_DATA)`. -/
def sizeofResetData : Nat := 24

/-- `EFI_TEST_ASSERTION`. -/
inductive AssertionType
  | passed
  | failed
  deriving DecidableEq, Repr

/-- The GUIDs of the assertions. -/
inductive Guid
  | sbbrRuntimeServicesAssertion002
  | sbbrRuntimeServicesAssertion003
  deriving DecidableEq, Repr

/-- What `RecordAssertion` is called with: the assertion about a reset, or one of the two generic
failures. -/
inductive Recorded
  | resetSystem (type : AssertionType) (guid : Guid) (index : Nat) (status : EfiStatus)
      (tpl : BitVec 64)
  | handleRecoveryLibrary (status : EfiStatus)
  | writeResetRecord (index : Nat) (status : EfiStatus) (tpl : BitVec 64)
  deriving DecidableEq, Repr

/-- What `HandleProtocol` returns for the two libraries, and, for each call of `ResetSystem`, what
the write of the record before it returns and whether it reboots the machine. -/
structure ResetEnv where
  standardLibrary : EfiStatus
  recoveryLibrary : EfiStatus
  writeStatus : Nat → EfiStatus
  reboots : Nat → Bool

/-- What persists over a reboot: the reset record with its size, the assertions recorded, and the
resets issued, each with its index and whether it happened. -/
structure World where
  record : Option (Nat × ResetData)
  assertions : List Recorded
  issued : List (Nat × Bool)

def World.recordAssertion (w : World) (recorded : Recorded) : World :=
  { w with assertions := w.assertions ++ [recorded] }

/-- The GUID of the assertion about an index. -/
def guidOf (index : Nat) : Guid :=
  if index = 0 then .sbbrRuntimeServicesAssertion003
  else if index = 1 then .sbbrRuntimeServicesAssertion002
  else .sbbrRuntimeServicesAssertion003

section Test

variable (env : ResetEnv) (tplArray : List (BitVec 64))

/-- `ManualTestStep2`. -/
def manualTestStep2 (type : AssertionType) (status : EfiStatus) (index : Nat) (w : World) :
    World :=
  w.recordAssertion
    (.resetSystem type (guidOf index) index status (tplArray.getD index 0))

/-- The loop from an index on. -/
def resetLoop (index : Nat) (w : World) : Outcome World EfiStatus :=
  if index < tplArray.length then
    let status := env.writeStatus w.issued.length
    if efiError status then
      .returned status
        (w.recordAssertion (.writeResetRecord index status (tplArray.getD index 0)))
    else
      let happens := env.reboots w.issued.length
      let w := { w with
        record := some (sizeofResetData, ⟨1, index⟩)
        issued := w.issued ++ [(index, happens)] }
      if happens then .interrupted w
      else resetLoop (index + 1) (manualTestStep2 tplArray .failed status index w)
  else .returned efiSuccess w
  termination_by tplArray.length - index

/-- What the record read says: nothing, or the data that it holds. -/
def World.resetData (w : World) : Option ResetData :=
  match w.record with
  | some (size, data) => if size < sizeofResetData then none else some data
  | none => none

/-- `BBTestResetShutdown`. -/
def bbTestResetShutdown (w : World) : Outcome World EfiStatus :=
  if efiError env.standardLibrary then .returned env.standardLibrary w
  else if efiError env.recoveryLibrary then
    .returned env.recoveryLibrary
      (w.recordAssertion (.handleRecoveryLibrary env.recoveryLibrary))
  else
    match w.resetData with
    | none => resetLoop env tplArray 0 w
    | some data =>
      if data.step = 1 then
        if data.tplIndex < tplArray.length then
          resetLoop env tplArray (data.tplIndex + 1)
            (manualTestStep2 tplArray .passed efiSuccess data.tplIndex w)
        else resetLoop env tplArray 0 w
      else .returned efiLoadError w

/-- The successive runs, one after each reboot. -/
def successiveRuns : Nat → World → Option (EfiStatus × World) :=
  restart (bbTestResetShutdown env tplArray)

end Test

/-! ## The assertions of the successive runs -/

section Runs

variable (env : ResetEnv) (tplArray : List (BitVec 64))

/-- The reset issued for an index, when those before it are issued. -/
def resetOf (index : Nat) : Nat × Bool := (index, env.reboots index)

/-- The assertion of an index. -/
def assertionOf (index : Nat) : Recorded :=
  if env.reboots index then
    .resetSystem .passed (guidOf index) index efiSuccess (tplArray.getD index 0)
  else
    .resetSystem .failed (guidOf index) index (env.writeStatus index) (tplArray.getD index 0)

/-- The indices below `index` are done. -/
structure DoneBelow (index : Nat) (w : World) : Prop where
  assertions : w.assertions = (List.range index).map (assertionOf env tplArray)
  issued : w.issued = (List.range index).map (resetOf env)

/-- The machine was rebooted by the reset of `index`: the record says so, and the assertion is
still to be made. -/
structure RebootedAt (index : Nat) (w : World) : Prop where
  lt : index < tplArray.length
  happened : env.reboots index = true
  record : w.record = some (sizeofResetData, ⟨1, index⟩)
  assertions : w.assertions = (List.range index).map (assertionOf env tplArray)
  issued : w.issued = (List.range (index + 1)).map (resetOf env)

/-- A record with which the test starts over: none, one that is too small, or one whose index is
out of range. -/
def StartsOver (w : World) : Prop :=
  w.resetData = none ∨ ∃ data, w.resetData = some data ∧ data.step = 1 ∧
    tplArray.length ≤ data.tplIndex

/-- Between two runs: nothing is done, or the last reset has rebooted the machine. -/
def Pending (w : World) : Prop :=
  (StartsOver tplArray w ∧ DoneBelow env tplArray 0 w) ∨ ∃ index, RebootedAt env tplArray index w

/-- The resets that are not issued yet. -/
def remaining (w : World) : Nat := tplArray.length - w.issued.length

variable {env tplArray}

theorem DoneBelow.length_issued {index : Nat} {w : World} (h : DoneBelow env tplArray index w) :
    w.issued.length = index := by
  rw [h.issued, List.length_map, List.length_range]

theorem map_range_succ {α : Type} (f : Nat → α) (index : Nat) :
    (List.range (index + 1)).map f = (List.range index).map f ++ [f index] := by
  rw [List.range_succ, List.map_append]
  rfl

/-- The assertion of a reset that did not happen. -/
theorem DoneBelow.failed {index : Nat} {w : World} (h : DoneBelow env tplArray index w)
    (hReturns : env.reboots index = false) (record : Option (Nat × ResetData)) :
    DoneBelow env tplArray (index + 1)
      (manualTestStep2 tplArray .failed (env.writeStatus index) index
        { w with record := record, issued := w.issued ++ [(index, false)] }) := by
  have hAssertion : assertionOf env tplArray index = .resetSystem .failed (guidOf index) index
      (env.writeStatus index) (tplArray.getD index 0) := by
    rw [assertionOf, hReturns]
    rfl
  refine ⟨?_, ?_⟩
  · rw [map_range_succ, hAssertion, ← h.assertions]
    rfl
  · rw [map_range_succ, resetOf, hReturns, ← h.issued]
    rfl

/-- The assertion of a reset that happened, made after the reboot. -/
theorem RebootedAt.passed {index : Nat} {w : World} (h : RebootedAt env tplArray index w) :
    DoneBelow env tplArray (index + 1)
      (manualTestStep2 tplArray .passed efiSuccess index w) := by
  have hAssertion : assertionOf env tplArray index =
      .resetSystem .passed (guidOf index) index efiSuccess (tplArray.getD index 0) := by
    rw [assertionOf, h.happened]
    rfl
  refine ⟨?_, h.issued⟩
  rw [map_range_succ, hAssertion, ← h.assertions]
  rfl

/-- The test has ended, and every index is done. -/
def Completed (env : ResetEnv) (tplArray : List (BitVec 64)) (status : EfiStatus) (w : World) :
    Prop :=
  status = efiSuccess ∧ DoneBelow env tplArray tplArray.length w

variable (hWrites : ∀ k, efiError (env.writeStatus k) = false)

include hWrites in
/-- The loop ends the test, or a later reset reboots the machine. -/
theorem resetLoop_progress {bound : Nat} (index : Nat) (w : World)
    (hDone : DoneBelow env tplArray index w) (hIndex : index ≤ tplArray.length)
    (hBound : tplArray.length - index ≤ bound) :
    Progress (Pending env tplArray) (remaining tplArray) (Completed env tplArray) bound
      (resetLoop env tplArray index w) := by
  have hCalls := hDone.length_issued
  by_cases hLt : index < tplArray.length
  · rw [resetLoop, if_pos hLt]
    simp only [hCalls, hWrites, Bool.false_eq_true, if_false]
    cases hHappens : env.reboots index with
    | true =>
      have hIssued : w.issued ++ [(index, true)] =
          (List.range (index + 1)).map (resetOf env) := by
        rw [map_range_succ, resetOf, hHappens, ← hDone.issued]
      refine ⟨Or.inr ⟨index, hLt, hHappens, rfl, hDone.assertions, hIssued⟩, ?_⟩
      rw [remaining, List.length_append, hCalls, List.length_singleton]
      omega
    | false =>
      exact resetLoop_progress (index + 1) _ (hDone.failed hHappens _) hLt (by omega)
  · have hEnd : index = tplArray.length := by omega
    rw [resetLoop, if_neg hLt]
    exact ⟨rfl, hEnd ▸ hDone⟩
  termination_by tplArray.length - index

variable (hStandard : efiError env.standardLibrary = false)
  (hRecovery : efiError env.recoveryLibrary = false)

include hWrites hStandard hRecovery in
/-- A run of the test, from its start or after a reboot. -/
theorem bbTestResetShutdown_progress (w : World) (hPending : Pending env tplArray w) :
    Progress (Pending env tplArray) (remaining tplArray) (Completed env tplArray)
      (remaining tplArray w) (bbTestResetShutdown env tplArray w) := by
  rw [bbTestResetShutdown, hStandard, hRecovery]
  simp only [Bool.false_eq_true, if_false]
  rcases hPending with ⟨hOver, hDone⟩ | ⟨index, hRebooted⟩
  · have hBound : tplArray.length - 0 = remaining tplArray w := by
      rw [remaining, hDone.length_issued]
    have hLoop := resetLoop_progress hWrites 0 w hDone (Nat.zero_le _) (Nat.le_of_eq hBound)
    rcases hOver with hNone | ⟨data, hSome, hStep, hOut⟩
    · rw [hNone]
      exact hLoop
    · rw [hSome]
      simp only [hStep, if_true, Nat.not_lt.mpr hOut, if_false]
      exact hLoop
  · have hRead : w.resetData = some ⟨1, index⟩ := by
      rw [World.resetData, hRebooted.record]
      rfl
    have hCalls : w.issued.length = index + 1 := by
      rw [hRebooted.issued, List.length_map, List.length_range]
    have hBound : tplArray.length - (index + 1) = remaining tplArray w := by
      rw [remaining, hCalls]
    rw [hRead]
    simp only [if_true, hRebooted.lt]
    exact resetLoop_progress hWrites (index + 1) _ hRebooted.passed hRebooted.lt
      (Nat.le_of_eq hBound)

/-- The assertions of the successive runs: one for each index, in order, and it is `PASSED` exactly
when the reset issued for that index happened. -/
theorem resets_recorded_once (env : ResetEnv) (tplArray : List (BitVec 64)) (w : World)
    (hStandard : efiError env.standardLibrary = false)
    (hRecovery : efiError env.recoveryLibrary = false)
    (hWrites : ∀ k, efiError (env.writeStatus k) = false) (hOver : StartsOver tplArray w)
    (hAssertions : w.assertions = []) (hIssued : w.issued = []) {runs : Nat}
    (hRuns : tplArray.length < runs) :
    ∃ w', successiveRuns env tplArray runs w = some (efiSuccess, w') ∧
      w'.issued = (List.range tplArray.length).map (fun index => (index, env.reboots index)) ∧
      w'.assertions = (List.range tplArray.length).map (assertionOf env tplArray) := by
  have hStart : Pending env tplArray w := Or.inl ⟨hOver, hAssertions, hIssued⟩
  have hRemaining : remaining tplArray w < runs := by
    rw [remaining, hIssued]
    exact hRuns
  obtain ⟨status, w', hResult, hStatus, hDone⟩ := restart_returns
    (bbTestResetShutdown_progress hWrites hStandard hRecovery) hStart hRemaining
  rw [hStatus] at hResult
  exact ⟨w', hResult, hDone.issued, hDone.assertions⟩

/-- Two TPLs, and a machine that is rebooted by the first reset alone. -/
theorem resets_recorded_once_two :
    ∃ w', successiveRuns ⟨0, 0, fun _ => 0, fun k => k == 0⟩ [4, 8] 3 ⟨none, [], []⟩ =
        some (efiSuccess, w') ∧
      w'.issued = [(0, true), (1, false)] ∧
      w'.assertions = [.resetSystem .passed .sbbrRuntimeServicesAssertion003 0 0 4,
        .resetSystem .failed .sbbrRuntimeServicesAssertion002 1 0 8] :=
  resets_recorded_once ⟨0, 0, fun _ => 0, fun k => k == 0⟩ [4, 8] ⟨none, [], []⟩ rfl rfl
    (fun _ => show efiError 0 = false by decide) (Or.inl rfl) rfl rfl (by decide)

end Runs

end EnterpriseAcs.Sbbr
